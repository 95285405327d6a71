import MultiArchUefi.EntryFrame

/-!
# MultiArchUefi.ArgumentRoundTrip

The frame that `EmuThunkPre` lays out for an emulated function, when the function
turns out to be native.  `NativeThunk` takes the same frame apart and finds the
arguments that have been put there, whether it passes them on itself or leaves
them to a wrapper; `EmuThunkPost` then takes the frame off the stack.
-/

namespace MultiArchUefi

open WordMemory

/-! ## words of the frame -/

/-- `a` is the address of a word that `EmuThunkPre` pushes below `sp`. -/
def InFrame (cpu : CpuId) (sp a : UINT64) : Prop :=
  ∃ i < entryFrameLength cpu, a = pushed sp (i + 1)

theorem inFrame_top {cpu : CpuId} {sp : UINT64} {j : Nat} (hj : j < entryFrameLength cpu) :
    InFrame cpu sp (pushed sp (entryFrameLength cpu) + BitVec.ofNat 64 (8 * j)) := by
  refine ⟨entryFrameLength cpu - 1 - j, by omega, ?_⟩
  unfold pushed
  cases cpu <;> simp only [entryFrameLength] at hj ⊢ <;> bv_omega

theorem entryFrameLength_le (cpu : CpuId) : 8 * entryFrameLength cpu ≤ 2 ^ 64 := by
  cases cpu <;> decide

/-- The `j`-th word of the frame. -/
theorem word_entryFrame (magic : UINT64) (cpu : CpuId) (args : Args) (m : Memory)
    (sp : UINT64) {j : Nat} (hj : j < entryFrameLength cpu) :
    (m.push sp (entryFrame magic cpu args)).word
        (pushed sp (entryFrameLength cpu) + BitVec.ofNat 64 (8 * j)) =
      (entryFrame magic cpu args).reverse.get
      ⟨j, by rwa [List.length_reverse, length_entryFrame]⟩ := by
  have hfit : 8 * (entryFrame magic cpu args).length ≤ 2 ^ 64 := by
    rw [length_entryFrame]
    exact entryFrameLength_le cpu
  have htop := word_top m sp hfit (j := j) (by rwa [length_entryFrame])
  simp only [length_entryFrame] at htop
  exact htop

theorem stackArg_eq (sp : UINT64) (i : Nat) :
    sp + 8 * BitVec.ofNat 64 i = sp + BitVec.ofNat 64 (8 * i) := by
  bv_omega

theorem loadWords_eq (addrs : List UINT64) (m : Memory) :
    loadWords addrs m = { m with loads := addrs.reverse ++ m.loads } := by
  induction addrs generalizing m with
  | nil => rfl
  | cons a addrs ih =>
      show loadWords addrs (m.load64 a).2 = _
      rw [ih]
      simp [Memory.load64]

/-! ## taking the frame apart -/

/-- The registers with which an emulated function starts at `pc`. -/
def startRegs (cpu : CpuId) (pc : UINT64) (regs : RegFile) : RegFile :=
  Function.update regs cpu.programCounterReg pc

section

variable (cfg : Config) (magic : UINT64) (cpu : CpuId) (args : Args) (e : Engine) (pc : UINT64)

/-- The engine when an emulated function starts at `pc`. -/
def startEngine : Engine :=
  let e := emuThunkPre magic cpu args e
  ⟨startRegs cpu pc e.regs, e.memory⟩

theorem startEngine_regs :
    (startEngine magic cpu args e pc).regs = startRegs cpu pc (Function.update
      (entryRegs magic cpu args e.regs) cpu.stackReg
        (pushed (e.regs cpu.stackReg) (entryFrameLength cpu))) := by
  simp [startEngine, emuThunkPre_eq]

theorem startEngine_sp :
    (startEngine magic cpu args e pc).regs cpu.stackReg =
      pushed (e.regs cpu.stackReg) (entryFrameLength cpu) := by
  rw [startEngine_regs]
  cases cpu <;> rfl

theorem startEngine_word {j : Nat} (hj : j < entryFrameLength cpu) :
    (startEngine magic cpu args e pc).memory.word
        ((startEngine magic cpu args e pc).regs cpu.stackReg + 8 * BitVec.ofNat 64 j) =
      (entryFrame magic cpu args).reverse.get
      ⟨j, by rwa [List.length_reverse, length_entryFrame]⟩ := by
  rw [startEngine_sp, stackArg_eq]
  have hmemory : (startEngine magic cpu args e pc).memory =
      e.memory.push (e.regs cpu.stackReg) (entryFrame magic cpu args) := by
    simp [startEngine, emuThunkPre_eq]
  rw [hmemory]
  exact word_entryFrame magic cpu args e.memory (e.regs cpu.stackReg) hj

end

/-- The argument registers of `NativeThunkX64`. -/
theorem startEngine_x64 (magic : UINT64) (args : Args) (e : Engine) (pc : UINT64) :
    (startEngine magic .x64 args e pc).regs .rcx = args 0 ∧
      (startEngine magic .x64 args e pc).regs .rdx = args 1 ∧
      (startEngine magic .x64 args e pc).regs .r8 = args 2 ∧
      (startEngine magic .x64 args e pc).regs .r9 = args 3 := by
  rw [startEngine_regs]
  exact ⟨rfl, rfl, rfl, rfl⟩

/-- `NativeThunkX64` finds the arguments when it calls the function itself. -/
theorem nativeThunkX64_args_direct (cfg : Config) (magic : UINT64) (args : Args)
    (e : Engine) (pc : UINT64) (hfunc : nativeValidateSupportedCall cfg pc = .native) :
    (nativeThunkX64Enter cfg pc (startEngine magic .x64 args e pc)).1.args = args := by
  have hword := fun j (hj : j < 17) => startEngine_word magic .x64 args e pc (j := j) hj
  obtain ⟨hrcx, hrdx, hr8, hr9⟩ := startEngine_x64 magic args e pc
  unfold nativeThunkX64Enter
  rw [if_neg (by simp [hfunc])]
  funext i
  fin_cases i
  · exact hrcx
  · exact hrdx
  · exact hr8
  · exact hr9
  · exact hword 5 (by decide)
  · exact hword 6 (by decide)
  · exact hword 7 (by decide)
  · exact hword 8 (by decide)
  · exact hword 9 (by decide)
  · exact hword 10 (by decide)
  · exact hword 11 (by decide)
  · exact hword 12 (by decide)
  · exact hword 13 (by decide)
  · exact hword 14 (by decide)
  · exact hword 15 (by decide)
  · exact hword 16 (by decide)

/-- Storing the register arguments into the home zone leaves the other words alone. -/
theorem word_homeZone (m : Memory) (rsp rcx rdx r8 r9 : UINT64) {j : Nat} (hj : j < 17)
    (hhome : j = 0 ∨ 5 ≤ j) :
    ((((m.store64 (rsp + 8 * BitVec.ofNat 64 1) rcx).store64
      (rsp + 8 * BitVec.ofNat 64 2) rdx).store64
        (rsp + 8 * BitVec.ofNat 64 3) r8).store64 (rsp + 8 * BitVec.ofNat 64 4) r9).word
          (rsp + 8 * BitVec.ofNat 64 j) = m.word (rsp + 8 * BitVec.ofNat 64 j) := by
  have hapart : ∀ k : Nat, 1 ≤ k → k ≤ 4 →
      Apart (rsp + 8 * BitVec.ofNat 64 k) (rsp + 8 * BitVec.ofNat 64 j) := by
    intro k hk hk'
    unfold Apart
    constructor <;> bv_omega
  rw [word_store64_of_apart (hapart 4 (by decide) (by decide)),
    word_store64_of_apart (hapart 3 (by decide) (by decide)),
    word_store64_of_apart (hapart 2 (by decide) (by decide)),
    word_store64_of_apart (hapart 1 (by decide) (by decide))]

/-- The words of the home zone are those stored there. -/
theorem word_homeZone_self (m : Memory) (rsp rcx rdx r8 r9 : UINT64) :
    let m' := (((m.store64 (rsp + 8 * BitVec.ofNat 64 1) rcx).store64
      (rsp + 8 * BitVec.ofNat 64 2) rdx).store64
      (rsp + 8 * BitVec.ofNat 64 3) r8).store64 (rsp + 8 * BitVec.ofNat 64 4) r9
    m'.word (rsp + 8 * BitVec.ofNat 64 1) = rcx ∧ m'.word (rsp + 8 * BitVec.ofNat 64 2) = rdx ∧
      m'.word (rsp + 8 * BitVec.ofNat 64 3) = r8 ∧ m'.word (rsp + 8 * BitVec.ofNat 64 4) = r9 := by
  have hapart : ∀ j k : Nat, 1 ≤ j → j < k → k ≤ 4 →
      Apart (rsp + 8 * BitVec.ofNat 64 k) (rsp + 8 * BitVec.ofNat 64 j) := by
    intro j k hj hjk hk
    unfold Apart
    constructor <;> bv_omega
  refine ⟨?_, ?_, ?_, word_store64 ..⟩
  · rw [word_store64_of_apart (hapart 1 4 (by decide) (by decide) (by decide)),
      word_store64_of_apart (hapart 1 3 (by decide) (by decide) (by decide)),
      word_store64_of_apart (hapart 1 2 (by decide) (by decide) (by decide)), word_store64]
  · rw [word_store64_of_apart (hapart 2 4 (by decide) (by decide) (by decide)),
      word_store64_of_apart (hapart 2 3 (by decide) (by decide) (by decide)), word_store64]
  · rw [word_store64_of_apart (hapart 3 4 (by decide) (by decide) (by decide)), word_store64]

/-- `NativeThunkX64` finds the arguments when it calls a wrapper. -/
theorem nativeThunkX64_args_wrapper (cfg : Config) (magic : UINT64) (args : Args)
    (e : Engine) (pc : UINT64) (hfunc : nativeValidateSupportedCall cfg pc ≠ .native) :
    (nativeThunkX64Enter cfg pc (startEngine magic .x64 args e pc)).1.args = args := by
  have hword := fun j (hj : j < 17) => startEngine_word magic .x64 args e pc (j := j) hj
  obtain ⟨hrcx, hrdx, hr8, hr9⟩ := startEngine_x64 magic args e pc
  unfold nativeThunkX64Enter
  rw [if_pos hfunc]
  generalize startEngine magic .x64 args e pc = e₀ at *
  obtain ⟨h₁, h₂, h₃, h₄⟩ :=
    word_homeZone_self e₀.memory (e₀.regs .rsp) (e₀.regs .rcx) (e₀.regs .rdx)
    (e₀.regs .r8) (e₀.regs .r9)
  have hrest := fun j (hj : j < 17) (hj' : 5 ≤ j) =>
    (word_homeZone e₀.memory (e₀.regs .rsp) (e₀.regs .rcx) (e₀.regs .rdx)
      (e₀.regs .r8) (e₀.regs .r9)
      hj (.inr hj')).trans (hword j hj)
  funext i
  fin_cases i
  · exact h₁.trans hrcx
  · exact h₂.trans hrdx
  · exact h₃.trans hr8
  · exact h₄.trans hr9
  · exact hrest 5 (by decide) (by decide)
  · exact hrest 6 (by decide) (by decide)
  · exact hrest 7 (by decide) (by decide)
  · exact hrest 8 (by decide) (by decide)
  · exact hrest 9 (by decide) (by decide)
  · exact hrest 10 (by decide) (by decide)
  · exact hrest 11 (by decide) (by decide)
  · exact hrest 12 (by decide) (by decide)
  · exact hrest 13 (by decide) (by decide)
  · exact hrest 14 (by decide) (by decide)
  · exact hrest 15 (by decide) (by decide)
  · exact hrest 16 (by decide) (by decide)

/-- `NativeThunkAArch64` finds the arguments. -/
theorem nativeThunkAArch64_args (cfg : Config) (magic : UINT64) (args : Args) (e : Engine)
    (pc : UINT64) :
    (nativeThunkAArch64Enter cfg pc (startEngine magic .aarch64 args e pc)).1.args = args := by
  have hword := fun j (hj : j < 8) => startEngine_word magic .aarch64 args e pc (j := j) hj
  have hreg : ∀ n : Fin 8, (startEngine magic .aarch64 args e pc).regs (.x n) = args
      (n.castLE (by decide)) :=
    fun n => by
      rw [startEngine_regs]
      rfl
  unfold nativeThunkAArch64Enter
  funext i
  fin_cases i
  · exact hreg 0
  · exact hreg 1
  · exact hreg 2
  · exact hreg 3
  · exact hreg 4
  · exact hreg 5
  · exact hreg 6
  · exact hreg 7
  · exact hword 0 (by decide)
  · exact hword 1 (by decide)
  · exact hword 2 (by decide)
  · exact hword 3 (by decide)
  · exact hword 4 (by decide)
  · exact hword 5 (by decide)
  · exact hword 6 (by decide)
  · exact hword 7 (by decide)

/-- `NativeThunk` finds the arguments where `EmuThunkPre` has put them. -/
theorem nativeThunkEnter_args (cfg : Config) (magic : UINT64) (cpu : CpuId)
    (args : Args) (e : Engine) (pc : UINT64) :
    (nativeThunkEnter cfg cpu pc (startEngine magic cpu args e pc)).1.args = args := by
  cases cpu with
  | x64 =>
      by_cases hfunc : nativeValidateSupportedCall cfg pc = .native
      · exact nativeThunkX64_args_direct cfg magic args e pc hfunc
      · exact nativeThunkX64_args_wrapper cfg magic args e pc hfunc
  | aarch64 => exact nativeThunkAArch64_args cfg magic args e pc

/-- The call is that of the address the engine has stopped at. -/
theorem nativeThunkEnter_target (cfg : Config) (cpu : CpuId) (pc : UINT64) (e : Engine) :
    (nativeThunkEnter cfg cpu pc e).1.originalProgramCounter = pc := by
  cases cpu with
  | x64 =>
      simp only [nativeThunkEnter, nativeThunkX64Enter]
      split <;> rfl
  | aarch64 => rfl

/-! ## what the thunks read -/

/-- From `m` to `m'` only words of the frame below `sp` have been loaded. -/
def ReadsFrame (cpu : CpuId) (sp : UINT64) (m m' : Memory) : Prop :=
  ∃ addrs, m'.loads = addrs ++ m.loads ∧ ∀ addr ∈ addrs, InFrame cpu sp addr

theorem ReadsFrame.trans {cpu : CpuId} {sp : UINT64} {m m' m'' : Memory}
    (h : ReadsFrame cpu sp m m') (h' : ReadsFrame cpu sp m' m'') : ReadsFrame cpu sp m m'' := by
  obtain ⟨addrs, hloads, hframe⟩ := h
  obtain ⟨addrs', hloads', hframe'⟩ := h'
  refine ⟨addrs' ++ addrs, by rw [hloads', hloads, List.append_assoc], fun addr haddr => ?_⟩
  rcases List.mem_append.mp haddr with haddr | haddr
  · exact hframe' addr haddr
  · exact hframe addr haddr

/-- Loading words of the frame, counted from its top. -/
theorem readsFrame_of_loads (cpu : CpuId) (sp : UINT64) (js : List Nat) {m m' : Memory}
    (hjs : ∀ j ∈ js, j < entryFrameLength cpu)
    (hloads : m'.loads =
      (js.map fun j => pushed sp (entryFrameLength cpu) + 8 * BitVec.ofNat 64 j).reverse ++
      m.loads) :
    ReadsFrame cpu sp m m' := by
  refine ⟨_, hloads, fun addr haddr => ?_⟩
  obtain ⟨j, hj, rfl⟩ := List.mem_map.mp (List.mem_reverse.mp haddr)
  rw [stackArg_eq]
  exact inFrame_top (hjs j hj)

/-- `NativeThunk` reads no other words of the stack than `EmuThunkPre` has pushed. -/
theorem nativeThunkEnter_reads (cfg : Config) (cpu : CpuId) (sp pc : UINT64) {e : Engine}
    (hsp : e.regs cpu.stackReg = pushed sp (entryFrameLength cpu)) :
    ReadsFrame cpu sp e.memory (nativeThunkEnter cfg cpu pc e).2.memory := by
  cases cpu with
  | x64 =>
      have hrsp : e.regRead .rsp = pushed sp (entryFrameLength .x64) := hsp
      simp only [nativeThunkEnter, nativeThunkX64Enter]
      split
      · refine readsFrame_of_loads .x64 sp (List.range (MAX_ARGS + 1)) (by decide) ?_
        simp only [loadWords_eq, store64_loads, hrsp]
      · refine readsFrame_of_loads .x64 sp (List.range' 5 (MAX_ARGS - 4)) (by decide) ?_
        simp only [loadWords_eq, hrsp]
  | aarch64 =>
      have hrsp : e.regRead .sp = pushed sp (entryFrameLength .aarch64) := hsp
      refine readsFrame_of_loads .aarch64 sp (List.range (MAX_ARGS - 8)) (by decide) ?_
      simp only [nativeThunkEnter, nativeThunkAArch64Enter, loadWords_eq, hrsp]

/-! ## returning from the native function -/

/-- The native function returns to `magic`: an x64 function finds it on top of
the stack, an AArch64 function in the link register. -/
def ReturnsTo (magic : UINT64) (sp : UINT64) (e : Engine) : CpuId → Prop
  | .x64 => e.memory.word (pushed sp (entryFrameLength .x64)) = magic
  | .aarch64 => e.regs .lr = magic

/-- The call is left with the frame in place, and a wrapper is told where it returns to. -/
theorem nativeThunkEnter_returnsTo (cfg : Config) (magic : UINT64) (cpu : CpuId)
    (args : Args) (e : Engine) (pc : UINT64) :
    let r := nativeThunkEnter cfg cpu pc (startEngine magic cpu args e pc)
    ReturnsTo magic (e.regs cpu.stackReg) r.2 cpu ∧
    (r.1.wrapperCall = true → r.1.returnAddress = magic) := by
  cases cpu with
  | x64 =>
      have hrsp := startEngine_sp magic .x64 args e pc
      have hmagic := startEngine_word magic .x64 args e pc (j := 0) (by decide)
      generalize startEngine magic .x64 args e pc = e₀ at *
      have hzero : e₀.regs .rsp + 8 * BitVec.ofNat 64 0 =
          pushed (e.regs CpuId.x64.stackReg) (entryFrameLength .x64) :=
            (BitVec.add_zero _).trans hrsp
      have hhome := word_homeZone e₀.memory (e₀.regs .rsp) (e₀.regs .rcx)
        (e₀.regs .rdx) (e₀.regs .r8) (e₀.regs .r9) (j := 0) (by decide) (.inl rfl)
      simp only [nativeThunkEnter, nativeThunkX64Enter]
      split
      · refine ⟨?_, fun _ => hhome.trans hmagic⟩
        rw [ReturnsTo, ← hzero, loadWords_eq]
        exact hhome.trans hmagic
      · refine ⟨?_, fun hwrapper => ?_⟩
        · rw [ReturnsTo, ← hzero, loadWords_eq]
          exact hmagic
        · rename_i hnative
          exact absurd (of_decide_eq_true hwrapper) hnative
  | aarch64 =>
      have hlr : (startEngine magic .aarch64 args e pc).regs .lr = magic := by
        rw [startEngine_regs]
        rfl
      simp only [nativeThunkEnter, nativeThunkAArch64Enter]
      exact ⟨hlr, fun hwrapper => (if_pos (of_decide_eq_true hwrapper)).trans hlr⟩

/-- `NativeThunk` puts the result in its place and returns to `magic`. -/
theorem nativeThunkLeave_spec (magic value : UINT64) (cpu : CpuId) (sp : UINT64) {e : Engine}
    (hsp : e.regs cpu.stackReg = pushed sp (entryFrameLength cpu))
    (hret : ReturnsTo magic sp e cpu) :
    let r := nativeThunkLeave cpu value e
    r.1 = magic ∧ r.2.regs cpu.returnValueReg = value ∧
      r.2.regs cpu.stackReg = pushed sp (exitFrameLength cpu) ∧
      ReadsFrame cpu sp e.memory r.2.memory := by
  cases cpu with
  | x64 =>
      have hrsp : e.regs .rsp = pushed sp 17 := hsp
      have hmagic : e.memory.word (pushed sp 17) = magic := hret
      have hpop : pushed sp 17 + 8 = pushed sp 16 := by
        unfold pushed
        bv_omega
      refine ⟨?_, rfl, ?_, readsFrame_of_loads .x64 sp [0] (by decide) ?_⟩
      · rw [← hmagic, ← hrsp]
        rfl
      · show e.regs .rsp + 8 = pushed sp 16
        rw [hrsp, hpop]
      · show e.regs .rsp :: e.memory.loads = _
        rw [hrsp]
        simp [entryFrameLength]
  | aarch64 => exact ⟨hret, rfl, hsp, [], rfl, fun _ haddr => absurd haddr List.not_mem_nil⟩

/-- `EmuThunkPost` takes the rest of the frame off the stack. -/
theorem emuThunkPost_spec (cpu : CpuId) (sp : UINT64) {e : Engine}
    (hsp : e.regs cpu.stackReg = pushed sp (exitFrameLength cpu)) :
    (emuThunkPost cpu e).regs cpu.stackReg = sp ∧ ReadsFrame cpu sp e.memory
      (emuThunkPost cpu e).memory := by
  rw [emuThunkPost_eq, hsp]
  refine ⟨(Function.update_self ..).trans (pushed_add ..), _, rfl, fun addr haddr => ?_⟩
  obtain ⟨i, hi, rfl⟩ := List.mem_map.mp haddr
  rw [List.mem_reverse, List.mem_range] at hi
  refine ⟨exitFrameLength cpu - 1 - i, ?_, ?_⟩
  · cases cpu <;> simp only [exitFrameLength, entryFrameLength] at hi ⊢ <;> omega
  · unfold pushed
    cases cpu <;> simp only [exitFrameLength] at hi ⊢ <;> bv_omega

end MultiArchUefi
