import MultiArchUefi.Basic
import MultiArchUefi.Lib.Memory

/-!
# MultiArchUefi.RecoverPc

Recovering the program counter of a call into emulated code on RISC-V hosts.
`SEPC` has lost its low bits, so `RecoverPcFromCall` decodes the call that ends
at the return address and computes its target again.

A call is either a 32-bit `jalr` or a 16-bit `c.jalr`.  The function looks at
the 32 bits before the return address first, and the two bytes in front of a
`c.jalr` can make those look like a 32-bit instruction; `recovers_iff` says when
they do.
-/

namespace MultiArchUefi

open WordMemory

/-- `EFI_SYSTEM_CONTEXT_RISCV64`: `X0` to `X31`, `SEPC`, and the fields the
driver does not look at. -/
structure RiscV64Context where
  x : BitVec 5 → UINT64
  sepc : UINT64
  other : Nat → UINT64

def INSN_C_ADDR_MASK : UINT64 := -1 - 1
def INSN_ADDR_MASK : UINT64 := -1 - 3

/-! ## decoding -/

/-- The tests for a 32-bit `jalr` with `rd == x1`. -/
def isJalrX1 (insn : BitVec 32) : Bool :=
  decide (insn &&& 0x7f#32 = 0x67#32) && decide (insn &&& 0xf80#32 = 0x80#32) &&
    decide (insn &&& 0x3000#32 = 0#32)

/-- `(&RiscV64Context->X0)[Rs] + imm12.x`. -/
def jalrTarget (c : RiscV64Context) (insn : BitVec 32) : UINT64 :=
  let rs : BitVec 5 := ((insn >>> 15) &&& 0x1f#32).setWidth 5
  let imm12 : BitVec 12 := (insn >>> 20).setWidth 12
  c.x rs + imm12.signExtend 64

/-- The tests for a compressed `c.jalr`. -/
def isCJalr (insn : BitVec 32) : Bool :=
  decide (insn &&& 0x3#32 = 2#32) && decide (insn &&& 0xf000#32 = 0x9000#32) &&
    decide (insn &&& 0xf80#32 ≠ 0#32) && decide (insn &&& 0x7c#32 = 0#32)

/-- `(&RiscV64Context->X0)[Rs]`. -/
def cJalrTarget (c : RiscV64Context) (insn : BitVec 32) : UINT64 :=
  c.x (((insn >>> 7) &&& 0x1f#32).setWidth 5)

/-- The status, and what is left in `*ProgramCounter`. -/
def recoverPcFromCall (m : Memory) (c : RiscV64Context) (programCounter : UINT64) :
    UINT64 × UINT64 :=
  let ra := c.x 1#5
  let insn := m.word32 (ra - 4#64)
  if insn &&& 0x3#32 = 0x3#32 then
    if isJalrX1 insn = true then
      let programCounter := jalrTarget c insn
      -- without the C extension, SEPC can be 2 bits away
      if programCounter &&& INSN_C_ADDR_MASK ≠ c.sepc ∧
        programCounter &&& INSN_ADDR_MASK ≠ c.sepc then
        (EFI_NOT_FOUND, programCounter)
      else (EFI_SUCCESS, programCounter)
    else (EFI_NOT_FOUND, programCounter)
  else
    let insn : BitVec 32 := (m.word16 (ra - 2#64)).setWidth 32
    if insn &&& 0x3#32 ≠ 0x3#32 then
      if isCJalr insn = true then
        let programCounter := cJalrTarget c insn
        if programCounter &&& INSN_C_ADDR_MASK ≠ c.sepc then (EFI_NOT_FOUND, programCounter)
        else (EFI_SUCCESS, programCounter)
      else (EFI_NOT_FOUND, programCounter)
    else (EFI_NOT_FOUND, programCounter)

/-! ## calls -/

/-- The instructions that call what a register points to. -/
inductive CallInsn where
  /-- `jalr x1, imm(rs)` -/
  | jalr (rs : BitVec 5) (imm : BitVec 12)
  /-- `c.jalr rs` -/
  | cJalr (rs : BitVec 5)

namespace CallInsn

/-- `imm[11:0] rs1 funct3 rd opcode`, with `rd = x1`. -/
def encodeJalr (rs : BitVec 5) (imm : BitVec 12) : BitVec 32 :=
  imm ++ (rs ++ (0#3 ++ (1#5 ++ 0x67#7)))

/-- `funct4 rs1 rs2 op`, with `rs2 = 0`. -/
def encodeCJalr (rs : BitVec 5) : BitVec 16 := 9#4 ++ (rs ++ (0#5 ++ 2#2))

def rs : CallInsn → BitVec 5
  | jalr rs _ => rs
  | cJalr rs => rs

/-- The call is the instruction that ends at `ra`. -/
def EndsAt (m : Memory) (ra : UINT64) : CallInsn → Prop
  | jalr rs imm => m.word32 (ra - 4#64) = encodeJalr rs imm
  | cJalr rs => rs ≠ 0#5 ∧ m.word16 (ra - 2#64) = encodeCJalr rs

/-- Where the call goes, bit 0 included. -/
def target (c : RiscV64Context) : CallInsn → UINT64
  | jalr rs imm => c.x rs + imm.signExtend 64
  | cJalr rs => c.x rs

/-- The call has just been executed: it ends at the return address, its register
still has its value, and `SEPC` is its target with bit 0 cleared. -/
structure JustExecuted (m : Memory) (c : RiscV64Context) (call : CallInsn) : Prop where
  endsAt : call.EndsAt m (c.x 1#5)
  rs_ne : call.rs ≠ 1#5
  sepc : c.sepc = call.target c &&& INSN_C_ADDR_MASK

end CallInsn

/-- The program counter of every call is recovered, and what is recovered agrees
with `SEPC` up to its low one or two bits. -/
structure Recovers (m : Memory) (c : RiscV64Context) : Prop where
  calls : ∀ call : CallInsn, call.JustExecuted m c → ∀ programCounter,
    recoverPcFromCall m c programCounter = (EFI_SUCCESS, call.target c)
  agrees : ∀ programCounter, (recoverPcFromCall m c programCounter).1 = EFI_SUCCESS →
    (recoverPcFromCall m c programCounter).2 &&& INSN_C_ADDR_MASK = c.sepc ∨
      (recoverPcFromCall m c programCounter).2 &&& INSN_ADDR_MASK = c.sepc

/-! ## encodings -/

/-- Fields are masked one by one. -/
theorem and_append_fields {v w x y z : Nat} (a a' : BitVec v) (b b' : BitVec w) (c c' : BitVec x)
    (d d' : BitVec y) (e e' : BitVec z) :
    (a ++ (b ++ (c ++ (d ++ e)))) &&& (a' ++ (b' ++ (c' ++ (d' ++ e')))) =
      (a &&& a') ++ ((b &&& b') ++ ((c &&& c') ++ ((d &&& d') ++ (e &&& e')))) := by
  simp only [BitVec.and_append]

theorem isJalrX1_encodeJalr (rs : BitVec 5) (imm : BitVec 12) :
    CallInsn.encodeJalr rs imm &&& 0x3#32 = 0x3#32 ∧
      isJalrX1 (CallInsn.encodeJalr rs imm) = true := by
  have hmask := fun d e c => and_append_fields imm 0#12 rs 0#5 0#3 c 1#5 d 0x67#7 e
  simp only [BitVec.and_zero] at hmask
  have hlow : CallInsn.encodeJalr rs imm &&& 0x3#32 = 0x3#32 := hmask 0#5 3#7 0#3
  have hop : CallInsn.encodeJalr rs imm &&& 0x7f#32 = 0x67#32 := hmask 0#5 0x7f#7 0#3
  have hrd : CallInsn.encodeJalr rs imm &&& 0xf80#32 = 0x80#32 := hmask 0x1f#5 0#7 0#3
  have hfunc : CallInsn.encodeJalr rs imm &&& 0x3000#32 = 0#32 := hmask 0#5 0#7 3#3
  refine ⟨hlow, ?_⟩
  rw [isJalrX1, decide_eq_true hop, decide_eq_true hrd, decide_eq_true hfunc]
  rfl

theorem jalrTarget_encodeJalr (c : RiscV64Context) (rs : BitVec 5) (imm : BitVec 12) :
    jalrTarget c (CallInsn.encodeJalr rs imm) = (CallInsn.jalr rs imm).target c := by
  have hrs : ((CallInsn.encodeJalr rs imm >>> 15) &&& 0x1f#32).setWidth 5 = rs := by
    have hmask : (0x1f#32).setWidth 5 = BitVec.allOnes 5 := by decide
    rw [BitVec.setWidth_and, hmask, BitVec.and_allOnes, BitVec.setWidth_ushiftRight_eq_extractLsb]
    calc
      _ = (rs ++ (0#3 ++ (1#5 ++ 0x67#7))).extractLsb' 15 5 :=
        BitVec.extractLsb'_append_eq_of_add_le (by decide)
      _ = rs := BitVec.extractLsb'_append_eq_left
  have himm : (CallInsn.encodeJalr rs imm >>> 20).setWidth 12 = imm := by
    rw [BitVec.setWidth_ushiftRight_eq_extractLsb]
    exact BitVec.extractLsb'_append_eq_left
  simp only [jalrTarget, hrs, himm, CallInsn.target]

theorem isCJalr_encodeCJalr : ∀ {rs : BitVec 5}, rs ≠ 0#5 →
    (CallInsn.encodeCJalr rs).setWidth 32 &&& 0x3#32 ≠ 0x3#32 ∧
      isCJalr ((CallInsn.encodeCJalr rs).setWidth 32) = true := by
  decide

theorem cJalrTarget_encodeCJalr (c : RiscV64Context) (rs : BitVec 5) :
    cJalrTarget c ((CallInsn.encodeCJalr rs).setWidth 32) = (CallInsn.cJalr rs).target c := by
  have hrs : ∀ rs, (((CallInsn.encodeCJalr rs).setWidth 32 >>> 7) &&& 0x1f#32).setWidth 5 = rs := by
    decide
  rw [cJalrTarget, hrs, CallInsn.target]

/-- The low bits of a 32-bit word are those of its lower half. -/
theorem word32_and_three {m : Memory} {a : UINT64} :
    m.word32 a &&& 0x3#32 = 0x3#32 ↔ m.word16 a &&& 0x3#16 = 0x3#16 := by
  have hmask : m.word32 a &&& (0#16 ++ 0x3#16) = 0#16 ++ (m.word16 a &&& 0x3#16) := by
    rw [word32_eq, BitVec.and_append, BitVec.and_zero]
  show m.word32 a &&& (0#16 ++ 0x3#16) = 0#16 ++ 0x3#16 ↔ _
  rw [hmask, BitVec.append_right_inj]

/-! ## recovery -/

variable {m : Memory} {c : RiscV64Context}

/-- A 32-bit call is always recovered. -/
theorem recoverPcFromCall_jalr {rs : BitVec 5} {imm : BitVec 12}
    (h : (CallInsn.jalr rs imm).JustExecuted m c) (programCounter : UINT64) :
    recoverPcFromCall m c programCounter = (EFI_SUCCESS, (CallInsn.jalr rs imm).target c) := by
  have hword : m.word32 (c.x 1#5 - 4#64) = CallInsn.encodeJalr rs imm := h.endsAt
  obtain ⟨hlow, hjalr⟩ := isJalrX1_encodeJalr rs imm
  have hmatch : ¬ ((CallInsn.jalr rs imm).target c &&& INSN_C_ADDR_MASK ≠ c.sepc ∧
      (CallInsn.jalr rs imm).target c &&& INSN_ADDR_MASK ≠ c.sepc) := fun hne => hne.1 h.sepc.symm
  simp only [recoverPcFromCall, hword, hlow, hjalr, jalrTarget_encodeJalr, if_true, if_neg hmatch]

/-- Whatever the bytes before the return address are, what is recovered has been
compared with `SEPC`. -/
theorem recoverPcFromCall_agrees (programCounter : UINT64)
    (h : (recoverPcFromCall m c programCounter).1 = EFI_SUCCESS) :
    (recoverPcFromCall m c programCounter).2 &&& INSN_C_ADDR_MASK = c.sepc ∨
      (recoverPcFromCall m c programCounter).2 &&& INSN_ADDR_MASK = c.sepc := by
  have hne : EFI_NOT_FOUND ≠ EFI_SUCCESS := by decide
  revert h
  simp only [recoverPcFromCall]
  repeat' split
  all_goals simp only [hne, false_implies, forall_const]
  · rename_i hmatch
    rwa [not_and_or, not_not, not_not] at hmatch
  · rename_i hmatch
    exact .inl (not_not.mp hmatch)

/-- The two bytes before a compressed call do not make it look like the upper
half of a 32-bit instruction, or like that of a `jalr` with the same target. -/
def NotMistaken (m : Memory) (c : RiscV64Context) (rs : BitVec 5) : Prop :=
  m.word16 (c.x 1#5 - 4#64) &&& 0x3#16 ≠ 0x3#16 ∨
    isJalrX1 (m.word32 (c.x 1#5 - 4#64)) = true ∧ jalrTarget c (m.word32 (c.x 1#5 - 4#64)) = c.x rs

/-- A compressed call is recovered exactly if it is not mistaken for a 32-bit instruction. -/
theorem recoverPcFromCall_cJalr_iff {rs : BitVec 5} (h : (CallInsn.cJalr rs).JustExecuted m c)
    (programCounter : UINT64) :
    recoverPcFromCall m c programCounter = (EFI_SUCCESS, (CallInsn.cJalr rs).target c) ↔
      NotMistaken m c rs := by
  obtain ⟨hrs, hhalf⟩ := h.endsAt
  have hsepc : (CallInsn.cJalr rs).target c &&& INSN_C_ADDR_MASK = c.sepc := h.sepc.symm
  have hne : EFI_NOT_FOUND ≠ EFI_SUCCESS := by decide
  unfold NotMistaken
  rw [ne_eq, ← word32_and_three]
  by_cases hlow : m.word32 (c.x 1#5 - 4#64) &&& 0x3#32 = 0x3#32
  · -- the call is read as the upper half of a 32-bit instruction
    cases hjalr : isJalrX1 (m.word32 (c.x 1#5 - 4#64)) with
    | false => simp [recoverPcFromCall, hlow, hjalr, hne]
    | true =>
        by_cases htarget : jalrTarget c (m.word32 (c.x 1#5 - 4#64)) = c.x rs
        · simp [recoverPcFromCall, hlow, hjalr, htarget, CallInsn.target] at hsepc ⊢
          simp [hsepc]
        · simp only [recoverPcFromCall, hlow, hjalr, htarget, if_true, CallInsn.target]
          split <;> simp [htarget]
  · obtain ⟨hlow16, hcJalr⟩ := isCJalr_encodeCJalr hrs
    have htarget := cJalrTarget_encodeCJalr c rs
    simp [recoverPcFromCall, hlow, hhalf, hlow16, hcJalr, htarget, hsepc]

/-- Recovery works unless a compressed call is mistaken for a 32-bit instruction. -/
theorem recovers_iff (m : Memory) (c : RiscV64Context) :
    Recovers m c ↔ ∀ rs, (CallInsn.cJalr rs).JustExecuted m c → NotMistaken m c rs := by
  constructor
  · exact fun h rs hcall => (recoverPcFromCall_cJalr_iff hcall 0).mp (h.calls _ hcall 0)
  · intro h
    refine ⟨fun call hcall programCounter => ?_,
      fun programCounter => recoverPcFromCall_agrees programCounter⟩
    cases call with
    | jalr rs imm => exact recoverPcFromCall_jalr hcall programCounter
    | cJalr rs => exact (recoverPcFromCall_cJalr_iff hcall programCounter).mpr (h rs hcall)

/-! ## a call that is not recovered -/

/-- `addi a0, a4, 0` and then `c.jalr a5`: the upper half of the first one ends in `11`. -/
def movedArgCall : Memory where
  bytes := fun a => #[0x13, 0x05, 0x07, 0x00, 0x82, 0x97].getD (a - 0x10000#64).toNat 0
  loads := []

/-- `a5` points into emulated code. -/
def movedArgContext : RiscV64Context where
  x := fun r => if r = 1#5 then 0x10006 else if r = 15#5 then 0x20400 else 0
  sepc := 0x20400
  other := fun _ => 0

/-- The call through `a5` has just been executed, and its target is not recovered. -/
theorem movedArgCall_not_recovered : ¬ Recovers movedArgCall movedArgContext := by
  intro h
  have hcall : (CallInsn.cJalr 15#5).JustExecuted movedArgCall movedArgContext :=
    ⟨⟨by decide, by decide⟩, by decide, by decide⟩
  have hfound := congrArg Prod.fst (h.calls _ hcall 0)
  exact absurd hfound (by decide)

end MultiArchUefi
