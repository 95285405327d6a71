import MultiArchUefi.Transfer
import MultiArchUefi.RecoverPc

/-!
# MultiArchUefi.ExceptionCallback

The exception callbacks of the three hosts.  A native call of emulated code
raises an exception; the callback then hands the emulated program counter and
the image's record to `EmulatorThunk` in two scratch registers.  All other
exceptions are passed on to a dump or the default handler, with the context
they were raised in.

The three callbacks are written separately.  On RISC-V hosts the program counter
is recovered right into a register of the context, whether or not the recovery
succeeds; `redirectsOrLeaves_iff` says when that shows.
-/

namespace MultiArchUefi

open WordMemory

/-! ## contexts -/

/-- `EFI_SYSTEM_CONTEXT_AARCH64`: `X0` to `X28`, `ELR`, `ESR`, and the fields the
driver does not use. -/
structure AArch64Context where
  x : Fin 29 → UINT64
  elr : UINT64
  esr : UINT64
  other : Nat → UINT64

/-- `EFI_SYSTEM_CONTEXT_LOONGARCH64`: `R0` to `R31`, `ERA`, and the fields the
driver does not use. -/
structure LoongArch64Context where
  r : Fin 32 → UINT64
  era : UINT64
  other : Nat → UINT64

/-- `EFI_SYSTEM_CONTEXT`, of the host the driver is built for. -/
inductive SystemContext where
  | aarch64 (c : AArch64Context)
  | riscv64 (c : RiscV64Context)
  | loongarch64 (c : LoongArch64Context)

/-- Where the callback leaves to: it returns to the interrupted code, or the
context goes to `DumpCpuContext` or `DefaultExceptionHandler`. -/
inductive Handled (α : Type) where
  | redirected (c : α)
  | passedOn (c : α)

def Handled.map {α β : Type} (f : α → β) : Handled α → Handled β
  | redirected c => redirected (f c)
  | passedOn c => passedOn (f c)

/-- What the callbacks depend on besides the context: `MAU_TRY_WITHOUT_MMU`, the
address of `EmulatorThunk`, the images and the memory. -/
structure ExceptionEnv where
  tryWithoutMmu : Bool
  emulatorThunk : UINT64
  images : Images
  memory : Memory

/-- `(UINT64)Record`. -/
def recordAddress (record : RecordId) : UINT64 := BitVec.ofNat 64 record

/-! ## callbacks -/

/-- Instruction permission faults and program counter misalignment faults. -/
def aarch64Thunks (esr : UINT64) : Bool :=
  let ec := esr >>> 26
  (decide (ec = 0x21) && decide (esr &&& 0x3c = 0xc)) || decide (ec = 0x22)

def aarch64EmulatorSyncExceptionCallback (env : ExceptionEnv) (c : AArch64Context) :
    Handled AArch64Context :=
  if aarch64Thunks c.esr then
    match imageFindByAddress env.images c.elr with
    | some record =>
        .redirected { c with
          x := Function.update (Function.update c.x 16 c.elr) 17 (recordAddress record)
          elr := env.emulatorThunk }
    | none => .passedOn c
  else .passedOn c

def EXCEPT_RISCV_ILLEGAL_INST : Nat := 2
def EXCEPT_RISCV_INST_ACCESS_PAGE_FAULT : Nat := 12

def supportedException (env : ExceptionEnv) (exceptionType : Nat) : Bool :=
  if exceptionType = EXCEPT_RISCV_INST_ACCESS_PAGE_FAULT then true
  else env.tryWithoutMmu && decide (exceptionType = EXCEPT_RISCV_ILLEGAL_INST)

/-- `&RiscV64Context->X5` is where `RecoverPcFromCall` puts the program counter. -/
def riscv64EmulatorSyncExceptionCallback (env : ExceptionEnv) (exceptionType : Nat)
    (c : RiscV64Context) : Handled RiscV64Context :=
  let record := imageFindByAddress env.images c.sepc
  if supportedException env exceptionType then
    match record with
    | some record =>
        let (status, x5) := recoverPcFromCall env.memory c (c.x 5#5)
        let c := { c with x := Function.update c.x 5#5 x5 }
        if status = EFI_SUCCESS then
          .redirected { c with
            x := Function.update c.x 6#5 (recordAddress record)
            sepc := env.emulatorThunk }
        else .passedOn c
    | none => .passedOn c
  else .passedOn c

def loongarch64EmulatorSyncExceptionCallback (env : ExceptionEnv) (c : LoongArch64Context) :
    Handled LoongArch64Context :=
  match imageFindByAddress env.images c.era with
  | some record =>
      .redirected { c with
        r := Function.update (Function.update c.r 12 c.era) 13 (recordAddress record)
        era := env.emulatorThunk }
  | none => .passedOn c

/-- `EmulatorSyncExceptionCallback` of the host whose context it is. -/
def emulatorSyncExceptionCallback (env : ExceptionEnv) (exceptionType : Nat) :
    SystemContext → Handled SystemContext
  | .aarch64 c => (aarch64EmulatorSyncExceptionCallback env c).map .aarch64
  | .riscv64 c => (riscv64EmulatorSyncExceptionCallback env exceptionType c).map .riscv64
  | .loongarch64 c => (loongarch64EmulatorSyncExceptionCallback env c).map .loongarch64

/-! ## the contract -/

namespace SystemContext

/-- The exception PC. -/
def pc : SystemContext → UINT64
  | aarch64 c => c.elr
  | riscv64 c => c.sepc
  | loongarch64 c => c.era

/-- Hand `programCounter` and `record` to `EmulatorThunk`, in `X16` and `X17`,
`X5` and `X6`, or `R12` and `R13`. -/
def handOver (emulatorThunk programCounter : UINT64) (record : RecordId) :
    SystemContext → SystemContext
  | aarch64 c => aarch64 { c with
      x := Function.update (Function.update c.x 16 programCounter) 17 (recordAddress record)
      elr := emulatorThunk }
  | riscv64 c => riscv64 { c with
      x := Function.update (Function.update c.x 5#5 programCounter) 6#5 (recordAddress record)
      sepc := emulatorThunk }
  | loongarch64 c => loongarch64 { c with
      r := Function.update (Function.update c.r 12 programCounter) 13 (recordAddress record)
      era := emulatorThunk }

/-- `programCounter` is the exception PC, on RISC-V up to its low one or two bits. -/
def IsPc (programCounter : UINT64) : SystemContext → Prop
  | riscv64 c =>
      programCounter &&& INSN_C_ADDR_MASK = c.sepc ∨ programCounter &&& INSN_ADDR_MASK = c.sepc
  | c => programCounter = c.pc

end SystemContext

/-- How the context `c` may be handled: control is redirected into the image that
contains the faulting PC, and nothing but the PC and the two scratch registers
has changed, or the context is passed on as it is. -/
def Handled.Allowed (env : ExceptionEnv) (c : SystemContext) : Handled SystemContext → Prop
  | redirected c' =>
      ∃ record ∈ env.images.mImageList, (env.images.record record).contains c.pc = true ∧
      ∃ programCounter, c.IsPc programCounter ∧
        c' = c.handOver env.emulatorThunk programCounter record
  | passedOn c' => c' = c

/-- The callback redirects or leaves the context alone. -/
def RedirectsOrLeaves (env : ExceptionEnv) (exceptionType : Nat) (c : SystemContext) : Prop :=
  (emulatorSyncExceptionCallback env exceptionType c).Allowed env c

/-! ## what the RISC-V callback writes -/

/-- The target of what looks like a call before the return address, if it is not
where the exception was raised. -/
def mismatchedTarget (m : Memory) (c : RiscV64Context) : Option UINT64 :=
  let insn := m.word32 (c.x 1#5 - 4#64)
  let half : BitVec 32 := (m.word16 (c.x 1#5 - 2#64)).setWidth 32
  if insn &&& 0x3#32 = 0x3#32 then
    if isJalrX1 insn = true ∧ jalrTarget c insn &&& INSN_C_ADDR_MASK ≠ c.sepc ∧
        jalrTarget c insn &&& INSN_ADDR_MASK ≠ c.sepc then some (jalrTarget c insn) else none
  else
    if isCJalr half = true ∧ cJalrTarget c half &&& INSN_C_ADDR_MASK ≠ c.sepc then
      some (cJalrTarget c half) else none

/-- The recovery fails on a mismatched target, and leaves it behind. -/
theorem recoverPcFromCall_of_mismatched {m : Memory} {c : RiscV64Context} {target : UINT64}
    (h : mismatchedTarget m c = some target) (programCounter : UINT64) :
    recoverPcFromCall m c programCounter = (EFI_NOT_FOUND, target) := by
  unfold mismatchedTarget at h
  simp only at h
  split at h
  · rename_i hlow
    split at h
    · rename_i hjalr
      obtain rfl := Option.some.inj h
      simp only [recoverPcFromCall, hlow, hjalr.1, if_true, if_pos hjalr.2]
    · cases h
  · rename_i hlow
    split at h
    · rename_i hcJalr
      obtain rfl := Option.some.inj h
      have hlow16 : (m.word16 (c.x 1#5 - 2#64)).setWidth 32 &&& 0x3#32 ≠ 0x3#32 := by
        have htests := hcJalr.1
        simp only [isCJalr, Bool.and_eq_true, decide_eq_true_eq] at htests
        rw [htests.1.1.1]
        decide
      simp only [recoverPcFromCall, if_neg hlow, if_pos hlow16, if_pos hcJalr.1, if_pos hcJalr.2]
    · cases h

/-- Without a mismatched target, a recovery that fails leaves nothing behind. -/
theorem recoverPcFromCall_of_not_mismatched {m : Memory} {c : RiscV64Context}
    (h : mismatchedTarget m c = none) (programCounter : UINT64)
    (hfail : (recoverPcFromCall m c programCounter).1 ≠ EFI_SUCCESS) :
    (recoverPcFromCall m c programCounter).2 = programCounter := by
  revert hfail
  unfold mismatchedTarget at h
  simp only [recoverPcFromCall] at h ⊢
  split at h
  · rename_i hlow
    split at h
    · cases h
    · rename_i hnot
      simp only [hlow, if_true]
      split
      · rename_i hjalr
        rw [if_neg fun hmismatch => hnot ⟨hjalr, hmismatch⟩]
        exact fun hfail => absurd rfl hfail
      · exact fun _ => rfl
  · rename_i hlow
    split at h
    · cases h
    · rename_i hnot
      simp only [hlow, if_false]
      split
      · split
        · rename_i hcJalr
          rw [if_neg fun hmismatch => hnot ⟨hcJalr, hmismatch⟩]
          exact fun hfail => absurd rfl hfail
        · exact fun _ => rfl
      · exact fun _ => rfl

/-- On RISC-V, an exception that leads to a recovery with a mismatched target
finds that target in `X5` already. -/
def LeavesX5 (env : ExceptionEnv) (exceptionType : Nat) : SystemContext → Prop
  | .riscv64 c => supportedException env exceptionType = true →
      imageFindByAddress env.images c.sepc ≠ none →
        ∀ target ∈ mismatchedTarget env.memory c, target = c.x 5#5
  | _ => True

/-! ## the three hosts -/

variable (env : ExceptionEnv) (exceptionType : Nat)

theorem aarch64_redirectsOrLeaves (c : AArch64Context) :
    RedirectsOrLeaves env exceptionType (.aarch64 c) := by
  simp only [RedirectsOrLeaves, emulatorSyncExceptionCallback, aarch64EmulatorSyncExceptionCallback]
  cases aarch64Thunks c.esr with
  | false => exact rfl
  | true =>
      cases hfind : imageFindByAddress env.images c.elr with
      | none => exact rfl
      | some record =>
          obtain ⟨hmem, hcontains⟩ := imageFindByAddress_eq_some hfind
          exact ⟨record, hmem, hcontains, c.elr, rfl, rfl⟩

theorem loongarch64_redirectsOrLeaves (c : LoongArch64Context) :
    RedirectsOrLeaves env exceptionType (.loongarch64 c) := by
  simp only [RedirectsOrLeaves, emulatorSyncExceptionCallback,
    loongarch64EmulatorSyncExceptionCallback]
  cases hfind : imageFindByAddress env.images c.era with
  | none => exact rfl
  | some record =>
      obtain ⟨hmem, hcontains⟩ := imageFindByAddress_eq_some hfind
      exact ⟨record, hmem, hcontains, c.era, rfl, rfl⟩

theorem riscv64_redirectsOrLeaves_iff (c : RiscV64Context) :
    RedirectsOrLeaves env exceptionType (.riscv64 c) ↔ LeavesX5 env exceptionType (.riscv64 c) := by
  simp only [RedirectsOrLeaves, LeavesX5, emulatorSyncExceptionCallback,
    riscv64EmulatorSyncExceptionCallback]
  cases supportedException env exceptionType with
  | false => simp [Handled.map, Handled.Allowed]
  | true =>
      cases hfind : imageFindByAddress env.images c.sepc with
      | none => simp [Handled.map, Handled.Allowed]
      | some record =>
          obtain ⟨hmem, hcontains⟩ := imageFindByAddress_eq_some hfind
          have hagrees := recoverPcFromCall_agrees (m := env.memory) (c := c) (c.x 5#5)
          cases hmismatch : mismatchedTarget env.memory c with
          | some target =>
              have hne : EFI_NOT_FOUND ≠ EFI_SUCCESS := by decide
              simp only [recoverPcFromCall_of_mismatched hmismatch, hne, if_true,
                if_false, Handled.map, Handled.Allowed, SystemContext.riscv64.injEq]
              constructor
              · intro heq _ _ target' htarget
                obtain rfl := Option.some.inj htarget
                have hx5 := congrArg (fun c : RiscV64Context => c.x 5#5) heq
                simpa using hx5
              · intro h
                rw [h trivial (by simp) target rfl, Function.update_eq_self]
          | none =>
              have hleft := recoverPcFromCall_of_not_mismatched hmismatch (c.x 5#5)
              generalize recoverPcFromCall env.memory c (c.x 5#5) = result at hagrees hleft
              obtain ⟨status, x5⟩ := result
              refine iff_of_true ?_ (by simp)
              by_cases hstatus : status = EFI_SUCCESS
              · simp only [hstatus, if_true]
                exact ⟨record, hmem, hcontains, x5, hagrees hstatus, rfl⟩
              · have hx5 : x5 = c.x 5#5 := hleft hstatus
                simp [hstatus, Handled.map, Handled.Allowed, hx5]

/-- The callback redirects or leaves the context alone unless, on RISC-V, what
precedes the return address is a call to somewhere else than the faulting PC. -/
theorem redirectsOrLeaves_iff (c : SystemContext) :
    RedirectsOrLeaves env exceptionType c ↔ LeavesX5 env exceptionType c := by
  cases c with
  | aarch64 c => exact iff_of_true (aarch64_redirectsOrLeaves env exceptionType c) trivial
  | riscv64 c => exact riscv64_redirectsOrLeaves_iff env exceptionType c
  | loongarch64 c => exact iff_of_true (loongarch64_redirectsOrLeaves env exceptionType c) trivial

/-! ## a tail call -/

/-- A RISC-V host with two images, and memory that holds one call. -/
def tailCallEnv : ExceptionEnv where
  tryWithoutMmu := false
  emulatorThunk := 0x80003000
  images := oneImageEach
  memory := ⟨fun a => #[0xe7, 0x80, 0x07, 0x00].getD (a - 0x10000#64).toNat 0, []⟩

/-- `jalr a5` has called a native function, which jumps to emulated code as its
last action. -/
def tailCallContext : RiscV64Context where
  x := fun r => if r = 1#5 then 0x10004 else if r = 5#5 then 7
    else if r = 15#5 then 0x90000000 else 0
  sepc := 0x20400
  other := fun _ => 0

/-- The tail call is not redirected, and the dump shows the wrong `X5`. -/
theorem tailCall_clobbers_x5 :
    ¬ RedirectsOrLeaves tailCallEnv EXCEPT_RISCV_INST_ACCESS_PAGE_FAULT
      (.riscv64 tailCallContext) := by
  rw [riscv64_redirectsOrLeaves_iff]
  intro h
  have htarget := h rfl (by decide) 0x90000000 (by decide)
  exact absurd htarget (by decide)

end MultiArchUefi
