import MultiArchUefi.ExceptionCallback
import MultiArchUefi.RunNative
import MultiArchUefi.Lib.StraightLine

/-!
# MultiArchUefi.HostThunk

How native code gets into emulated code.  A native call of an emulated function
faults, the exception callback sends the processor to `EmulatorThunk`, and that
hands the arguments of the call to `EmulatorVmEntry` as one array: the eight that
came in registers are put right below those on the stack.

The three thunks are written in the assembly of their hosts.  `enters` and
`returns` say the same of all of them; `nativeCall_transported` follows a call
from the faulting instruction into the emulated function and back.
-/

namespace MultiArchUefi

open Transition WordMemory StraightLine

/-! ## the hosts -/

/-- Registers by number.  On AArch64, 31 is the stack pointer. -/
abbrev HostReg := BitVec 5

/-- The calling convention of UEFI on the host. -/
def Host.convention : Host → Convention HostReg
  | .aarch64 =>
      ⟨31, 30, fun i => BitVec.ofNat 5 i, [19, 20, 21, 22, 23, 24, 25, 26, 27, 28, 29, 31]⟩
  | .riscv64 =>
      ⟨2, 1, fun i => BitVec.ofNat 5 (10 + i), [2, 8, 9, 18, 19, 20, 21, 22, 23, 24, 25, 26, 27]⟩
  | .loongarch64 =>
      ⟨3, 1, fun i => BitVec.ofNat 5 (4 + i), [3, 22, 23, 24, 25, 26, 27, 28, 29, 30, 31]⟩

/-- The scratch registers that hand over the emulated program counter and the `ImageRecord`. -/
def Host.programCounterReg : Host → HostReg
  | .aarch64 => 16
  | .riscv64 => 5
  | .loongarch64 => 12

def Host.recordReg : Host → HostReg
  | .aarch64 => 17
  | .riscv64 => 6
  | .loongarch64 => 13

/-- Where a `ret` goes: `jalr` clears bit 0. -/
def Host.retTarget : Host → UINT64 → UINT64
  | .riscv64, ra => ra &&& INSN_C_ADDR_MASK
  | _, ra => ra

/-! ## the thunks -/

/-- `EmulatorThunk` up to the call of `EmulatorVmEntry`. -/
def Host.thunkEnter : Host → List (Insn HostReg)
  | .aarch64 =>
      [.storePairPre 29 30 31 (-80), .move 29 31, .storePair 0 1 31 16, .storePair 2 3 31 32,
        .storePair 4 5 31 48, .storePair 6 7 31 64, .move 0 16, .addi 1 31 16,
          .move 2 17, .move 3 30]
  | .riscv64 =>
      [.addi 2 2 (-80), .store 1 2 0, .store 8 2 8, .addi 8 2 80, .store 10 2 16, .store 11 2 24,
        .store 12 2 32, .store 13 2 40, .store 14 2 48, .store 15 2 56, .store 16 2 64,
          .store 17 2 72,
        .move 10 5, .addi 11 2 16, .move 12 6, .move 13 1]
  | .loongarch64 =>
      [.store 3 3 (-80), .addi 3 3 (-80), .store 1 3 8, .store 4 3 16, .store 5 3 24, .store 6 3 32,
        .store 7 3 40, .store 8 3 48, .store 9 3 56, .store 10 3 64, .store 11 3 72,
        .move 4 12, .addi 5 3 16, .move 6 13, .move 7 1]

/-- `EmulatorThunk` from there to its `ret`. -/
def Host.thunkLeave : Host → List (Insn HostReg)
  | .aarch64 => [.loadPairPost 29 30 31 80]
  | .riscv64 => [.load 1 2 0, .load 8 2 8, .addi 2 2 80]
  | .loongarch64 => [.load 1 3 8, .load 3 3 0]

/-- The registers and the memory when `EmulatorVmEntry` is called; `returnSite` is the
address behind the call. -/
def emulatorThunkEnter (h : Host) (returnSite : UINT64) (m : Hart HostReg) : Hart HostReg :=
  (Insn.execAll h.thunkEnter m).set h.convention.ra returnSite

/-- Where `EmulatorThunk` returns to when `EmulatorVmEntry` has returned. -/
def emulatorThunkLeave (h : Host) (m : Hart HostReg) : UINT64 × Hart HostReg :=
  let m := Insn.execAll h.thunkLeave m
  (h.retTarget (m.regs h.convention.ra), m)

/-! ## into the emulator -/

/-- What `EmulatorVmEntry` is called with: the handed over program counter and record,
the return address, and an array of all arguments. -/
structure Enters (h : Host) (returnSite : UINT64) (m m' : Hart HostReg) : Prop where
  programCounter : m'.regs (h.convention.a 0) = m.regs h.programCounterReg
  record : m'.regs (h.convention.a 2) = m.regs h.recordReg
  lr : m'.regs (h.convention.a 3) = m.regs h.convention.ra
  args : ∀ i : Fin MAX_ARGS, m'.memory.word (wordAt (m'.regs (h.convention.a 1)) i) =
    h.convention.arg m i
  ra : m'.regs h.convention.ra = returnSite
  sp : m'.regs h.convention.sp = m.regs h.convention.sp - 80

/-- Both words on top of the frame are saved registers, and the argument registers follow. -/
def Host.saved : Host → HostReg × HostReg
  | .aarch64 => (29, 30)
  | .riscv64 => (1, 8)
  | .loongarch64 => (3, 1)

theorem emulatorThunkEnter_memory (h : Host) (returnSite : UINT64) (m : Hart HostReg) :
    (emulatorThunkEnter h returnSite m).memory = storeWords m.memory (m.regs h.convention.sp - 80)
      (m.regs h.saved.1 :: m.regs h.saved.2 :: List.ofFn fun j => m.regs (h.convention.a j)) := by
  cases h with
  | aarch64 =>
      simp [emulatorThunkEnter, Host.thunkEnter, Insn.execAll, Insn.exec, Hart.set,
        Host.convention, Host.saved, storeWords, BitVec.sub_eq_add_neg, BitVec.add_assoc]
  | riscv64 =>
      simp [emulatorThunkEnter, Host.thunkEnter, Insn.execAll, Insn.exec, Hart.set,
        Host.convention, Host.saved, storeWords, BitVec.sub_eq_add_neg, BitVec.add_assoc]
  | loongarch64 =>
      simp [emulatorThunkEnter, Host.thunkEnter, Insn.execAll, Insn.exec, Hart.set,
        Host.convention, Host.saved, storeWords, BitVec.sub_eq_add_neg, BitVec.add_assoc]

theorem emulatorThunk_enters (h : Host) (returnSite : UINT64) (m : Hart HostReg) :
    Enters h returnSite m (emulatorThunkEnter h returnSite m) := by
  have hregs : (emulatorThunkEnter h returnSite m).regs (h.convention.a 0) =
    m.regs h.programCounterReg ∧
      (emulatorThunkEnter h returnSite m).regs (h.convention.a 1) = wordAt
      (m.regs h.convention.sp - 80) 2 ∧
      (emulatorThunkEnter h returnSite m).regs (h.convention.a 2) = m.regs h.recordReg ∧
      (emulatorThunkEnter h returnSite m).regs (h.convention.a 3) = m.regs h.convention.ra ∧
      (emulatorThunkEnter h returnSite m).regs h.convention.sp = m.regs h.convention.sp - 80 := by
    cases h <;> simp [emulatorThunkEnter, Host.thunkEnter, Insn.execAll, Insn.exec, Hart.set,
      Host.convention, Host.programCounterReg, Host.recordReg, wordAt, BitVec.sub_eq_add_neg,
      BitVec.add_assoc]
  obtain ⟨hpc, hargs, hrecord, hlr, hsp⟩ := hregs
  refine ⟨hpc, hrecord, hlr, fun i => ?_, by simp [emulatorThunkEnter], hsp⟩
  rw [hargs, wordAt_add, Nat.add_comm]
  exact h.convention.word_argBlock m _ _ _ (by have : i.val < 16 := i.isLt; omega)
    (emulatorThunkEnter_memory h returnSite m)

/-! ## and back -/

/-- `EmulatorThunk` returns what `EmulatorVmEntry` has returned, and everything that
its caller relies on is as it was. -/
structure Returns (h : Host) (m m' : Hart HostReg) (result : UINT64 × Hart HostReg) : Prop where
  pc : result.1 = h.retTarget (m.regs h.convention.ra)
  value : result.2.regs (h.convention.a 0) = m'.regs (h.convention.a 0)
  sp : result.2.regs h.convention.sp = m.regs h.convention.sp
  kept : ∀ r ∈ h.convention.kept, result.2.regs r = m.regs r
  memory : result.2.memory = m'.memory

/-- Of the registers that are kept, the thunk changes only those that it saves. -/
theorem Host.thunkEnter_dests (h : Host) :
    ∀ r ∈ h.convention.kept, r ≠ h.convention.sp → r ≠ h.saved.1 →
    r ≠ h.saved.2 → r ≠ h.convention.ra ∧ r ∉ h.thunkEnter.flatMap Insn.dests := by
  cases h <;> decide

theorem Host.thunkLeave_dests (h : Host) : ∀ r, r ≠ h.convention.sp → r ≠ h.saved.1 →
    r ≠ h.saved.2 → r ∉ h.thunkLeave.flatMap Insn.dests := by
  cases h <;> decide

theorem emulatorThunkEnter_kept (h : Host) (returnSite : UINT64) (m : Hart HostReg) {r : HostReg}
    (hr : r ∈ h.convention.kept) (hsp : r ≠ h.convention.sp) (hfirst : r ≠ h.saved.1)
    (hsecond : r ≠ h.saved.2) :
    (emulatorThunkEnter h returnSite m).regs r = m.regs r := by
  obtain ⟨hra, hdests⟩ := h.thunkEnter_dests r hr hsp hfirst hsecond
  rw [emulatorThunkEnter, Hart.set_regs_of_ne hra, Insn.execAll_regs_of_notMem hdests]

theorem Host.thunkLeave_result (h : Host) : h.convention.a 0 ∉ h.thunkLeave.flatMap Insn.dests := by
  cases h <;> decide

/-- The thunk restores what it has saved. -/
theorem emulatorThunkLeave_saved (h : Host) (m : Hart HostReg) :
    (emulatorThunkLeave h m).2.regs h.saved.1 = m.memory.word (m.regs h.convention.sp) ∧
      (emulatorThunkLeave h m).2.regs h.saved.2 = m.memory.word
      (wordAt (m.regs h.convention.sp) 1) := by
  cases h <;> simp [emulatorThunkLeave, Host.thunkLeave, Insn.execAll, Insn.exec, Hart.set,
    Host.convention, Host.saved, wordAt]

theorem emulatorThunk_returns (h : Host) (returnSite : UINT64) (m m' : Hart HostReg)
    (hkeeps : h.convention.Keeps (emulatorThunkEnter h returnSite m) m') :
    Returns h m m' (emulatorThunkLeave h m') := by
  have hmemory := emulatorThunkEnter_memory h returnSite m
  have hentered := (emulatorThunk_enters h returnSite m).sp
  have hlength : 8 * (m.regs h.saved.1 :: m.regs h.saved.2 ::
      List.ofFn fun j => m.regs (h.convention.a j)).length ≤ 2 ^ 64 := by simp
  obtain ⟨hfirst, hsecond⟩ := emulatorThunkLeave_saved h m'
  -- the frame still holds what was saved in it
  have hsaved : (emulatorThunkLeave h m').2.regs h.saved.1 = m.regs h.saved.1 := by
    rw [hfirst, hkeeps.sp, hkeeps.first, hentered, hmemory]
    simpa using word_storeWords (m := m.memory) (a := m.regs h.convention.sp - 80) hlength
      (i := 0) (by simp)
  have hsaved' : (emulatorThunkLeave h m').2.regs h.saved.2 = m.regs h.saved.2 := by
    rw [hsecond, hkeeps.sp, hkeeps.second, hentered, hmemory]
    exact word_storeWords (m := m.memory) (a := m.regs h.convention.sp - 80) hlength
      (i := 1) (by simp)
  have hsp : (emulatorThunkLeave h m').2.regs h.convention.sp = m.regs h.convention.sp := by
    have hframe : m'.regs h.convention.sp + 80 = m.regs h.convention.sp := by
      rw [hkeeps.sp, hentered, BitVec.sub_add_cancel]
    cases h with
    | aarch64 => exact hframe
    | riscv64 => exact hframe
    | loongarch64 => exact hsaved
  have hkept : ∀ r ∈ h.convention.kept, (emulatorThunkLeave h m').2.regs r = m.regs r := by
    intro r hr
    by_cases hne : r ≠ h.convention.sp ∧ r ≠ h.saved.1 ∧ r ≠ h.saved.2
    · obtain ⟨hne, hne₁, hne₂⟩ := hne
      rw [emulatorThunkLeave, Insn.execAll_regs_of_notMem (h.thunkLeave_dests r hne hne₁ hne₂),
        hkeeps.kept r hr, emulatorThunkEnter_kept h returnSite m hr hne hne₁ hne₂]
    · grind
  refine ⟨?_, ?_, hsp, hkept, ?_⟩
  · cases h with
    | aarch64 => exact hsaved'
    | riscv64 => exact congrArg (Host.retTarget .riscv64) hsaved
    | loongarch64 => exact hsaved'
  · exact Insn.execAll_regs_of_notMem (h.thunkLeave_result) m'
  · cases h <;> rfl

/-! ## a call from native code -/

namespace SystemContext

def host : SystemContext → Host
  | aarch64 _ => .aarch64
  | riscv64 _ => .riscv64
  | loongarch64 _ => .loongarch64

/-- The registers that the exception handler leaves with.  `FP`, `LR` and `SP` are the
first of the fields that the driver does not use on AArch64. -/
def hart (memory : Memory) : SystemContext → Hart HostReg
  | aarch64 c =>
      ⟨fun n => if h : n.toNat < 29 then c.x ⟨n.toNat, h⟩ else c.other (n.toNat - 29), memory⟩
  | riscv64 c => ⟨c.x, memory⟩
  | loongarch64 c => ⟨fun n => c.r n.toFin, memory⟩

/-- Handing over changes the two scratch registers only. -/
theorem hart_handOver (emulatorThunk programCounter : UINT64) (record : RecordId) (memory : Memory)
    (c : SystemContext) :
    (c.handOver emulatorThunk programCounter record).hart memory =
      ((c.hart memory).set c.host.programCounterReg programCounter).set c.host.recordReg
      (recordAddress record) := by
  cases c with
  | aarch64 c =>
      simp only [handOver, hart, host, Host.programCounterReg, Host.recordReg, Hart.set,
        Hart.mk.injEq, and_true]
      funext n
      by_cases hn : n.toNat < 29
      · simp [hn, Function.update_apply, Fin.ext_iff, BitVec.toNat_eq]
      · have hne₁ : n ≠ 16#5 := by bv_omega
        have hne₂ : n ≠ 17#5 := by bv_omega
        simp [hn, hne₁, hne₂]
  | riscv64 c =>
      simp only [handOver, hart, host, Host.programCounterReg, Host.recordReg, Hart.set,
        Hart.mk.injEq, and_true]
      funext n
      simp [Function.update_apply]
  | loongarch64 c =>
      simp only [handOver, hart, host, Host.programCounterReg, Host.recordReg, Hart.set,
        Hart.mk.injEq, and_true]
      funext n
      simp [Function.update_apply, Fin.ext_iff, BitVec.toNat_eq]

end SystemContext

/-- Handing over spares what the call hands over itself. -/
theorem Host.scratch_spared (h : Host) : h.recordReg ≠ h.programCounterReg ∧
    (∀ r ∈ [h.programCounterReg, h.recordReg], r ≠ h.convention.sp ∧ r ≠ h.convention.ra ∧
      r ∉ h.convention.kept ∧ ∀ i, r ≠ h.convention.a i) := by
  cases h <;> decide

/-- A context that is redirected has been handed over, whatever else `X5` may have
been used for. -/
theorem handedOver_of_redirected {env : ExceptionEnv} {exceptionType : Nat} {c c' : SystemContext}
    (h : emulatorSyncExceptionCallback env exceptionType c = .redirected c') :
    ∃ record ∈ env.images.mImageList, (env.images.record record).contains c.pc = true ∧
      ∃ programCounter, c.IsPc programCounter ∧
      c' = c.handOver env.emulatorThunk programCounter record := by
  suffices hallowed : RedirectsOrLeaves env exceptionType c by
    rw [RedirectsOrLeaves, h] at hallowed
    exact hallowed
  rw [redirectsOrLeaves_iff]
  cases c with
  | aarch64 c => trivial
  | loongarch64 c => trivial
  | riscv64 c =>
      intro hsupported hfound target htarget
      cases hfind : imageFindByAddress env.images c.sepc with
      | none => exact absurd hfind hfound
      | some record =>
          have hpassed : EFI_NOT_FOUND ≠ EFI_SUCCESS := by decide
          simp [emulatorSyncExceptionCallback, riscv64EmulatorSyncExceptionCallback,
            hsupported, hfind, recoverPcFromCall_of_mismatched htarget, hpassed, Handled.map] at h

/-- `EmulatorVmEntry`, called for `record`. -/
def emulatorVmEntry (images : Images) (programCounter : UINT64) (args : Args)
    (record : RecordId) (fp : Nat) :
    Action :=
  .runFunc (images.record record).cpu programCounter args fp

/-- The array that `EmulatorVmEntry` is called with. -/
def Host.argArray (h : Host) (m : Hart HostReg) : Args :=
  fun i => m.memory.word (wordAt (m.regs (h.convention.a 1)) i)

/-- How `EmulatorThunk` goes on with a call that native code has made in the context
`c`, of the emulated function at `pc` in `record`; `m` is what the thunk finds. -/
structure Transported (env : ExceptionEnv) (c : SystemContext) (record : RecordId)
    (pc returnSite : UINT64) (m : Hart HostReg) : Prop where
  programCounter : (emulatorThunkEnter c.host returnSite m).regs (c.host.convention.a 0) = pc
  imageRecord :
    (emulatorThunkEnter c.host returnSite m).regs (c.host.convention.a 2) = recordAddress record
  lr : (emulatorThunkEnter c.host returnSite m).regs (c.host.convention.a 3) =
    (c.hart env.memory).regs c.host.convention.ra
  /-- With a free context the emulated function is entered with the arguments of the native call,
  and when `EmulatorVmEntry` returns its result, that is what the native caller goes on with. -/
  runs : ∀ (cfg : Config) (p : Platform) (before : List Action) (sys : System) (fp : Nat),
    let cpu := (env.images.record record).cpu
    let enter := emulatorThunkEnter c.host returnSite m
    cfg.onPrivateStack = false → Run (step cfg) (fun _ _ => True) (initial p) before sys →
      sys.emu.images = env.images → sys.CanCall fp → sys.emu.runContextAlloc cpu ≠ [] →
        ∃ sys₀ a, step cfg sys
            (emulatorVmEntry sys.emu.images pc (c.host.argArray enter) record fp) = some sys₀ ∧
          Starts sys sys₀ a cpu pc (fun i => c.host.convention.arg (c.hart env.memory) i) ∧
          ReturnsResult cfg sys₀ a sys.stack fun value =>
            ∀ m', c.host.convention.Keeps enter m' → m'.regs (c.host.convention.a 0) = value →
              Returns c.host (c.hart env.memory) m' (emulatorThunkLeave c.host m') ∧
                (emulatorThunkLeave c.host m').2.regs (c.host.convention.a 0) = value

/-- What the thunk finds is what the native caller has left, up to the scratch registers. -/
theorem transported_of_handOver (env : ExceptionEnv) (c : SystemContext) (record : RecordId)
    (pc returnSite emulatorThunk : UINT64) :
    Transported env c record pc returnSite
      ((c.handOver emulatorThunk pc record).hart env.memory) := by
  rw [SystemContext.hart_handOver]
  obtain ⟨hscratch, hspared⟩ := c.host.scratch_spared
  obtain ⟨hsp, hra, hkept, ha⟩ := hspared _ List.mem_cons_self
  obtain ⟨hsp', hra', hkept', ha'⟩ := hspared _ (List.mem_cons_of_mem _ List.mem_cons_self)
  let m := ((c.hart env.memory).set c.host.programCounterReg pc).set c.host.recordReg
    (recordAddress record)
  have hregs : ∀ r, r ≠ c.host.programCounterReg → r ≠ c.host.recordReg →
      m.regs r = (c.hart env.memory).regs r := fun r hne hne' => by
    rw [Hart.set_regs_of_ne hne', Hart.set_regs_of_ne hne]
  have henters := emulatorThunk_enters c.host returnSite m
  have harg : ∀ i, c.host.convention.arg m i = c.host.convention.arg (c.hart env.memory) i :=
    fun i => by
    simp only [Convention.arg, hregs _ hsp.symm hsp'.symm, hregs _ (ha _).symm (ha' _).symm]
    rfl
  have hreturns : ∀ m', c.host.convention.Keeps (emulatorThunkEnter c.host returnSite m) m' →
      Returns c.host (c.hart env.memory) m' (emulatorThunkLeave c.host m') := fun m' hkeeps => by
    have hreturns := emulatorThunk_returns c.host returnSite m m' hkeeps
    refine ⟨?_, hreturns.value, ?_, fun r hr => ?_, hreturns.memory⟩
    · rw [hreturns.pc, hregs _ hra.symm hra'.symm]
    · rw [hreturns.sp, hregs _ hsp.symm hsp'.symm]
    · rw [hreturns.kept r hr, hregs r (fun heq => hkept (heq ▸ hr)) fun heq => hkept' (heq ▸ hr)]
  refine ⟨?_, ?_, ?_, ?_⟩
  · rw [henters.programCounter, Hart.set_regs_of_ne hscratch.symm, Hart.set_regs]
  · rw [henters.record, Hart.set_regs]
  · rw [henters.lr, hregs _ hra.symm hra'.symm]
  · intro cfg p before sys fp cpu enter honeStack hrun himages hcall hpool
    have hargs : c.host.argArray enter =
        fun i : Fin MAX_ARGS => c.host.convention.arg (c.hart env.memory) i := by
      funext i
      exact (henters.args i).trans (harg i)
    obtain ⟨chain, hthreaded⟩ := threaded_of_run (hrun.mono fun _ _ _ hprivate => by
      rw [honeStack] at hprivate
      cases hprivate)
    obtain ⟨sys₀, a, hstep, hstarts⟩ := runFunc_starts cfg pc (c.host.argArray enter)
      hthreaded hcall hpool
    have haction : emulatorVmEntry sys.emu.images pc (c.host.argArray enter) record fp =
        .runFunc cpu pc (c.host.argArray enter) fp := by rw [emulatorVmEntry, himages]
    refine ⟨sys₀, a, by rw [haction]; exact hstep, hargs ▸ hstarts, ?_⟩
    refine hstarts.returnsResult honeStack hrun hstep fun value m' hkeeps hvalue => ?_
    exact ⟨hreturns m' hkeeps, (hreturns m' hkeeps).value.trans hvalue⟩

/-- A call of an emulated function by native code: the exception callback sends it to
`EmulatorThunk`, which hands all its arguments over to the emulated function, and
returns to the caller what `EmulatorVmEntry` returns. -/
theorem nativeCall_transported (env : ExceptionEnv) (exceptionType : Nat) (returnSite : UINT64)
    (c c' : SystemContext)
    (h : emulatorSyncExceptionCallback env exceptionType c = .redirected c') :
    c'.pc = env.emulatorThunk ∧
      ∃ record ∈ env.images.mImageList, (env.images.record record).contains c.pc = true ∧
        ∃ programCounter, c.IsPc programCounter ∧
          Transported env c record programCounter returnSite (c'.hart env.memory) := by
  obtain ⟨record, hmem, hcontains, programCounter, hpc, rfl⟩ := handedOver_of_redirected h
  refine ⟨by cases c <;> rfl, record, hmem, hcontains, programCounter, hpc, ?_⟩
  exact transported_of_handOver env c record programCounter returnSite env.emulatorThunk

/-- `jalr a5` calls the AArch64 image; the other argument registers hold their numbers. -/
def jalrContext : RiscV64Context where
  x := fun r => if r = 1#5 then 0x10004 else if r = 2#5 then 0x50000 else if r = 15#5 then 0x20400
    else r.setWidth 64
  sepc := 0x20400
  other := fun _ => 0

/-- The third argument is that in `a2`. -/
theorem nativeCall_transported_jalr : ∃ programCounter args sys₀,
    step riscvConfig (initial examplePlatform)
      (emulatorVmEntry oneImageEach programCounter args 1 100) =
      some sys₀ ∧
    emulatedArg .aarch64 ⟨sys₀.emu.ue .aarch64, sys₀.emu.memory⟩ 2 = 12 := by
  obtain ⟨c', hredirected⟩ :
    ∃ c', emulatorSyncExceptionCallback tailCallEnv EXCEPT_RISCV_INST_ACCESS_PAGE_FAULT
      (.riscv64 jalrContext) = .redirected c' := ⟨_, rfl⟩
  obtain ⟨-, record, hmem, hcontains, programCounter, -, htransported⟩ :=
    nativeCall_transported tailCallEnv
    EXCEPT_RISCV_INST_ACCESS_PAGE_FAULT 0x80003030 (.riscv64 jalrContext) c' hredirected
  obtain rfl : record = 1 := by
    revert hcontains
    simp only [tailCallEnv, oneImageEach, List.mem_cons, List.not_mem_nil, or_false] at hmem
    rcases hmem with rfl | rfl
    · decide
    · exact fun _ => rfl
  have hcalled : (initial examplePlatform).CanCall 100 := ⟨⟨0, [], rfl⟩, by decide⟩
  obtain ⟨sys₀, a, hcall, hstarts, -⟩ := htransported.runs riscvConfig examplePlatform []
    (initial examplePlatform) 100 rfl .nil rfl hcalled (by decide)
  exact ⟨programCounter, _, sys₀, hcall, (hstarts.args 2).trans (by decide)⟩

end MultiArchUefi
