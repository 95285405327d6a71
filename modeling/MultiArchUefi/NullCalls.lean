import MultiArchUefi.Resumption
import MultiArchUefi.ArgumentRoundTrip
import MultiArchUefi.Dump

/-!
# MultiArchUefi.NullCalls

Calls of emulated code into the `NULL` page.

Four places look at the target: `EmulatorIsNativeCall`, the run loop,
`NativeValidateSupportedCall` and `NativeUnsupported`, which dumps the driver's
state before it fails the call.  Only the first asks for an alignment before it
asks for the page.
-/

namespace MultiArchUefi

open Transition WordMemory Engine

/-! ## a call that fails softly -/

/-- The activation `a` runs emulated code, in the topmost context. -/
structure RunsEmulated (sys : System) (a : Activation) (rest : List Frame) : Prop where
  stack : sys.stack = .run a :: rest
  top : sys.emu.mTopContext = some a.context

/-- Where the function called with these registers returns to. -/
def returnAddress (cpu : CpuId) (regs : RegFile) (memory : Memory) : UINT64 :=
  match cpu with
  | .x64 => memory.word (regs .rsp)
  | .aarch64 => regs .lr

/-- The registers after the function has returned `value`. -/
def afterReturn (cpu : CpuId) (value : UINT64) (regs : RegFile) : RegFile :=
  match cpu with
  | .x64 => Function.update (Function.update regs .rax value) .rsp (regs .rsp + 8)
  | .aarch64 => Function.update regs (.x 0) value

/-- The emulated code of `a` has branched to the program counter in `regs`: the
run does not end, `NativeUnsupported` gets past its dump, and the caller goes on
at its return address with `EFI_UNSUPPORTED`. -/
def FailsSoftly (cfg : Config) (fetch : CpuId → UINT64 → Fetch) (w : WrappedEvents) (sys : System)
    (a : Activation) (rest : List Frame) (regs : RegFile) (memory : Memory) : Prop :=
  let cpu := a.context.cpu
  let target := regs cpu.programCounterReg
  DumpSafe cfg sys.emu.images w sys.emu.mTopContext ∧
    ∃ ucErr sys', fetch cpu target = .stopped ucErr ∧ cpuExitReason cfg ucErr target ≠ .failedEmu ∧
      step cfg sys (.emulate regs memory ucErr) = some sys' ∧
      sys'.stack = .run { a with
        programCounter := returnAddress cpu regs memory
        atCall := regs } :: rest ∧
      sys'.emu.ue = Function.update sys.emu.ue cpu (afterReturn cpu EFI_UNSUPPORTED regs)

/-! ## the thunk of an unsupported call -/

theorem nativeThunkLeave_eq (cpu : CpuId) (value : UINT64) (e : Engine) :
    (nativeThunkLeave cpu value e).1 = returnAddress cpu e.regs e.memory ∧
      (nativeThunkLeave cpu value e).2.regs = afterReturn cpu value e.regs := by
  cases cpu with
  | x64 =>
      simp [nativeThunkLeave, nativeThunkX64Leave, cpuStackPop64, regWrite, regRead,
        returnAddress, afterReturn, CpuId.stackReg]
  | aarch64 =>
      simp [nativeThunkLeave, nativeThunkAArch64Leave, regWrite, regRead,
        returnAddress, afterReturn]

/-- Decoding a call leaves the return address where it is. -/
theorem returnAddress_nativeThunkEnter (cfg : Config) (cpu : CpuId)
    (programCounter : UINT64) (e : Engine) :
    returnAddress cpu e.regs (nativeThunkEnter cfg cpu programCounter e).2.memory =
      returnAddress cpu e.regs e.memory := by
  cases cpu with
  | aarch64 => rfl
  | x64 =>
      have hzero : e.regs .rsp + 8 * BitVec.ofNat 64 0 = e.regs .rsp := by simp
      have hhome := word_homeZone e.memory (e.regs .rsp) (e.regs .rcx) (e.regs .rdx)
        (e.regs .r8) (e.regs .r9) (j := 0) (by decide) (.inl rfl)
      rw [hzero] at hhome
      simp only [nativeThunkEnter, nativeThunkX64Enter, returnAddress]
      split
      · rw [loadWords_eq]
        exact hhome
      · rw [loadWords_eq]
        rfl

section

variable {cfg : Config} {sys sys' : System} {a : Activation} {rest : List Frame}

theorem resume_of_top (htop : sys.emu.mTopContext = some a.context) (value : UINT64) :
    sys.resume a rest value = some (sys.resumed a rest value sys.emu) := by
  simp [System.resume, nativeThunkCheckLeakedContexts, htop]

/-- A call into the `NULL` page comes back at once. -/
theorem callNative_nullPage (cfg : Config) (sys : System) (rest : List Frame)
    {programCounter : UINT64} (htop : sys.emu.mTopContext = some a.context)
    (hpage : programCounter < EFI_PAGE_SIZE) :
    ∃ sys', sys.callNative cfg a rest programCounter = some sys' ∧
      sys'.stack = .run { a with
        programCounter := returnAddress a.context.cpu (sys.emu.ue a.context.cpu) sys.emu.memory
        atCall := sys.emu.ue a.context.cpu } :: rest ∧
      sys'.emu.ue = Function.update sys.emu.ue a.context.cpu
        (afterReturn a.context.cpu EFI_UNSUPPORTED (sys.emu.ue a.context.cpu)) := by
  let regs := sys.emu.ue a.context.cpu
  let e : Engine := ⟨regs, sys.emu.memory⟩
  let caller : Activation := { a with atCall := regs }
  let entered := nativeThunkEnter cfg a.context.cpu programCounter e
  let called := sys.called caller rest entered.1 entered.2
  have hfunc : entered.1.func = .nativeUnsupported := by
    rw [nativeThunkEnter_func, nativeValidateSupportedCall, if_pos hpage]
  have hregs : entered.2.regs = regs := nativeThunkEnter_regs ..
  have hcalled : called.emu.ue caller.context.cpu = regs := by
    show Function.update sys.emu.ue a.context.cpu entered.2.regs a.context.cpu = regs
    rw [Function.update_self, hregs]
  have hmemory : returnAddress a.context.cpu regs called.emu.memory =
      returnAddress a.context.cpu regs sys.emu.memory :=
    returnAddress_nativeThunkEnter cfg a.context.cpu programCounter e
  obtain ⟨haddress, hleave⟩ :=
    nativeThunkLeave_eq a.context.cpu EFI_UNSUPPORTED ⟨regs, called.emu.memory⟩
  have hcall : sys.callNative cfg a rest programCounter =
      some (called.resumed caller rest EFI_UNSUPPORTED called.emu) := by
    rw [← resume_of_top (show called.emu.mTopContext = some caller.context from htop)]
    simp only [System.callNative]
    rw [show (nativeThunkEnter cfg a.context.cpu programCounter ⟨sys.emu.ue a.context.cpu,
      sys.emu.memory⟩).1.func = .nativeUnsupported from hfunc]
  refine ⟨_, hcall, ?_, ?_⟩
  · simp only [System.resumed, hcalled, caller]
    rw [haddress, hmemory]
  · simp only [System.resumed, hcalled, caller]
    rw [hleave]
    show Function.update (Function.update sys.emu.ue _ entered.2.regs) _ _ = _
    rw [Function.update_idem]

/-! ## a run that ends -/

/-- A run that ends leaves no more than the frames below it. -/
theorem finish_stack {ret : UINT64} (h : sys.finish cfg a rest ret = some sys') :
    sys'.stack.length ≤ rest.length := by
  simp only [System.finish] at h
  split at h
  · split at h
    · cases h
    · rename_i caller below hunwind
      obtain ⟨id, -, hunwind⟩ := Option.bind_eq_some_iff.mp hunwind
      obtain ⟨-, pre, hpre⟩ := unwindToRun_eq_some hunwind
      obtain rfl := Option.some.inj h
      have hlength := congrArg List.length hpre
      simp only [List.length_append, List.length_cons] at hlength ⊢
      omega
  · obtain rfl := Option.some.inj h
    exact le_rfl

end

/-! ## which calls fail softly -/

/-- The emulated code that runs in a reachable state runs in the topmost context. -/
theorem runsEmulated_of_run {cfg : Config} {p : Platform} {actions : List Action} {sys : System}
    {a : Activation} {rest : List Frame} (h : Run (step cfg) (Sparing cfg) (initial p) actions sys)
    (hstack : sys.stack = .run a :: rest) : RunsEmulated sys a rest := by
  obtain ⟨chain, hsound⟩ := sound_of_run h
  have hacc := hsound.toAccounted
  simp only [System.books, hstack] at hacc
  obtain ⟨l, rfl⟩ := hacc.chain_eq_cons
  exact ⟨hstack, hacc.chained.seg.1⟩

/-- The target lies in an image that the engine may execute. -/
def InOwnImage (images : Images) (cpu : CpuId) (target : UINT64) : Prop :=
  ∃ r ∈ images.mImageList, (images.record r).cpu = cpu ∧ (images.record r).contains target = true

instance (images : Images) (cpu : CpuId) (target : UINT64) :
    Decidable (InOwnImage images cpu target) :=
  inferInstanceAs (Decidable (∃ r ∈ _, _ ∧ _))

/-- In the `NULL` page the alignment alone decides. -/
theorem emulatorIsNativeCall_nullPage (cfg : Config) (images : Images) {programCounter : UINT64}
    (hpage : programCounter < EFI_PAGE_SIZE) :
    emulatorIsNativeCall cfg images programCounter = true ↔
      programCounter &&& (cfg.host.nativeInsnAlignment - 1) = 0 := by
  by_cases hal : programCounter &&& (cfg.host.nativeInsnAlignment - 1) = 0
  · rw [emulatorIsNativeCall, if_neg (not_not.mpr hal), if_pos hpage]
    exact iff_of_true rfl hal
  · rw [emulatorIsNativeCall, if_pos hal]
    exact iff_of_false Bool.false_ne_true hal

section

variable {cfg : Config} {fetch : CpuId → UINT64 → Fetch} {w : WrappedEvents} {sys : System}
  {a : Activation} {rest : List Frame} {regs : RegFile} {memory : Memory}

/-- The run loop at a target in the `NULL` page that the engine has not found. -/
theorem step_nullPage (cfg : Config) (memory : Memory) (h : RunsEmulated sys a rest)
    (hmagic : regs a.context.cpu.programCounterReg ≠ cfg.returnToNativeMagic)
    (hpage : regs a.context.cpu.programCounterReg < EFI_PAGE_SIZE) :
    ∃ sys', step cfg sys (.emulate regs memory .findTb) = some sys' ∧
      sys'.stack = .run { a with
        programCounter := returnAddress a.context.cpu regs memory
        atCall := regs } :: rest ∧
      sys'.emu.ue = Function.update sys.emu.ue a.context.cpu
        (afterReturn a.context.cpu EFI_UNSUPPORTED regs) := by
  let s := System.emulated a.context.cpu regs memory .findTb sys.emu
  obtain ⟨hbooks, hue, hmemory, -⟩ := emulated_spec a.context.cpu regs memory .findTb sys.emu
  have hregs : s.ue a.context.cpu = regs := by rw [hue, Function.update_self]
  have htop : s.mTopContext = some a.context := hbooks.mTopContext.trans h.top
  have hreason : cpuExitReason cfg .findTb (regs a.context.cpu.programCounterReg) =
      .callToNative := by
    simp [cpuExitReason, hmagic]
  obtain ⟨sys', hcall, hstack, hafter⟩ :=
    callNative_nullPage cfg { sys with emu := s } rest htop hpage
  simp only [hregs] at hcall hstack hafter
  refine ⟨sys', ?_, ?_, ?_⟩
  · simp only [step, h.stack, System.cpuRunCtxInternal]
    rw [show (System.emulated a.context.cpu regs memory .findTb sys.emu).ue a.context.cpu =
      regs from hregs]
    simp only [hreason]
    rw [← h.stack]
    exact hcall
  · rw [hstack, show s.memory = memory from hmemory]
  · rw [hafter, show s.ue = Function.update sys.emu.ue a.context.cpu regs from hue,
      Function.update_idem]

/-- A run that has ended does not go on. -/
theorem not_resumed_of_returnToNative {ucErr : UcErr} {sys' : System} {b : Activation}
    (h : RunsEmulated sys a rest)
    (hreason : cpuExitReason cfg ucErr (regs a.context.cpu.programCounterReg) = .returnToNative)
    (hstep : step cfg sys (.emulate regs memory ucErr) = some sys') :
    sys'.stack ≠ .run b :: rest := by
  obtain ⟨-, hue, -, -⟩ := emulated_spec a.context.cpu regs memory ucErr sys.emu
  simp only [step, h.stack, System.cpuRunCtxInternal] at hstep
  rw [show (System.emulated a.context.cpu regs memory ucErr sys.emu).ue a.context.cpu = regs by
    rw [hue, Function.update_self]] at hstep
  simp only [hreason] at hstep
  intro hstack
  have hlength := finish_stack hstep
  rw [hstack, List.length_cons] at hlength
  omega

/-- A call into the `NULL` page fails softly exactly when its target is aligned
for the host's instructions and in no image of the caller's engine, is not where
emulated functions return to, the list of events ends, and every event on it has its
record and its creator. -/
theorem failsSoftly_iff
    (hfetch : FetchSpec (codePerms sys.emu.images) (cpuIsNativeCb cfg sys.emu.images) fetch)
    (h : RunsEmulated sys a rest) (hpage : regs a.context.cpu.programCounterReg < EFI_PAGE_SIZE) :
    FailsSoftly cfg fetch w sys a rest regs memory ↔
      regs a.context.cpu.programCounterReg &&& (cfg.host.nativeInsnAlignment - 1) = 0 ∧
        ¬ InOwnImage sys.emu.images a.context.cpu (regs a.context.cpu.programCounterReg) ∧
        regs a.context.cpu.programCounterReg ≠ cfg.returnToNativeMagic ∧
        (cfg.wrappedEntryPoints = true →
          ∃ l, w.mEventList = some l ∧ ∀ r ∈ l, HasCreator sys.emu.images w r) := by
  generalize htarget : regs a.context.cpu.programCounterReg = target at hpage
  have hperms : codePerms sys.emu.images a.context.cpu target = true ↔
      InOwnImage sys.emu.images a.context.cpu target := codePerms_eq_true_iff
  simp only [FailsSoftly, htarget, dumpSafe_iff]
  constructor
  · rintro ⟨hdump, ucErr, sys', hstop, hreason, hstep, hstack, -⟩
    have hown : ¬ InOwnImage sys.emu.images a.context.cpu target := by
      rw [← hperms]
      intro hexec
      rw [hfetch.executable _ _ hexec] at hstop
      cases hstop
    have hp : codePerms sys.emu.images a.context.cpu target = false := by
      rwa [← Bool.not_eq_true, hperms]
    cases hcb : cpuIsNativeCb cfg sys.emu.images target with
    | false =>
        obtain ⟨code, hfault⟩ := hfetch.fault _ _ hp hcb
        obtain rfl := Fetch.stopped.inj (hfault.symm.trans hstop)
        exact absurd (by simp [cpuExitReason]) hreason
    | true =>
        obtain rfl := Fetch.stopped.inj ((hfetch.native _ _ hp hcb).symm.trans hstop)
        have hmagic : target ≠ cfg.returnToNativeMagic := by
          intro hmagic
          refine not_resumed_of_returnToNative h ?_ hstep hstack
          simp [cpuExitReason, htarget, hmagic]
        have hcall : emulatorIsNativeCall cfg sys.emu.images target = true := by
          simpa [cpuIsNativeCb, hmagic] using hcb
        exact ⟨(emulatorIsNativeCall_nullPage cfg _ hpage).mp hcall, hown, hmagic, hdump⟩
  · rintro ⟨hal, hown, hmagic, hdump⟩
    have hp : codePerms sys.emu.images a.context.cpu target = false := by
      rwa [← Bool.not_eq_true, hperms]
    have hcb : cpuIsNativeCb cfg sys.emu.images target = true := by
      rw [cpuIsNativeCb, (emulatorIsNativeCall_nullPage cfg _ hpage).mpr hal, Bool.or_true]
    obtain ⟨sys', hstep, hstack, hue⟩ := step_nullPage cfg memory h (htarget ▸ hmagic)
      (htarget ▸ hpage)
    exact ⟨hdump, .findTb, sys', hfetch.native _ _ hp hcb, by simp [cpuExitReason, hmagic],
      hstep, hstack, hue⟩

end

/-! ## calls from an x64 image -/

/-- The firmware calls an x64 function. -/
def callX64 : List Action := [.runFunc .x64 0x10400 (fun _ => 0) 100]

/-- The x64 engine at a branch to `target`. -/
def branchTo (target : UINT64) : RegFile := Function.update (fun _ => 0x70080000) .rip target

/-- Unicorn's branch resolution for the images of the example platform. -/
def exampleFetch : CpuId → UINT64 → Fetch :=
  ucFetch (codePerms oneImageEach) (cpuIsNativeCb riscvConfig oneImageEach)

theorem runsEmulated_callX64 :
    ∃ sys a rest, Run (step riscvConfig) (fun _ _ => True) (initial examplePlatform) callX64 sys ∧
      RunsEmulated sys a rest ∧ a.context.cpu = .x64 ∧ sys.emu.images = oneImageEach :=
  ⟨_, _, _, .of_exec rfl, ⟨rfl, rfl⟩, rfl, rfl⟩

/-- A call of address 8 fails softly. -/
theorem failsSoftly_iff_aligned :
    ∃ sys a rest, Run (step riscvConfig) (fun _ _ => True) (initial examplePlatform) callX64 sys ∧
      FailsSoftly riscvConfig exampleFetch noWrappedEvents.driver sys a rest
        (branchTo 8) ⟨fun _ => 0, []⟩ := by
  obtain ⟨sys, a, rest, hrun, hemulated, hcpu, himages⟩ := runsEmulated_callX64
  have hfetch : FetchSpec (codePerms sys.emu.images)
      (cpuIsNativeCb riscvConfig sys.emu.images) exampleFetch := by
    rw [himages]
    exact ucFetch_spec _ _
  have htarget : branchTo 8 a.context.cpu.programCounterReg = 8 := by
    rw [hcpu]
    rfl
  refine ⟨sys, a, rest, hrun, (failsSoftly_iff hfetch hemulated (by rw [htarget]; decide)).mpr ?_⟩
  rw [htarget, hcpu, himages]
  exact ⟨by decide, by decide, by decide, nofun⟩

/-- A call of address 1 ends the caller with a failed emulation. -/
theorem unalignedNullCall_fails :
    ∃ sys a rest, Run (step riscvConfig) (fun _ _ => True) (initial examplePlatform) callX64 sys ∧
      RunsEmulated sys a rest ∧ branchTo 1 a.context.cpu.programCounterReg < EFI_PAGE_SIZE ∧
      FetchSpec (codePerms sys.emu.images) (cpuIsNativeCb riscvConfig sys.emu.images) exampleFetch ∧
      ¬ FailsSoftly riscvConfig exampleFetch noWrappedEvents.driver sys a rest
        (branchTo 1) ⟨fun _ => 0, []⟩ := by
  obtain ⟨sys, a, rest, hrun, hemulated, hcpu, himages⟩ := runsEmulated_callX64
  have htarget : branchTo 1 a.context.cpu.programCounterReg = 1 := by
    rw [hcpu]
    rfl
  refine ⟨sys, a, rest, hrun, hemulated, by rw [htarget]; decide, ?_, ?_⟩
  · rw [himages]
    exact ucFetch_spec _ _
  · rintro ⟨-, ucErr, sys', hstop, hreason, -⟩
    rw [htarget, hcpu, show exampleFetch .x64 1 = .stopped (.other 14) by decide] at hstop
    obtain rfl := Fetch.stopped.inj hstop
    exact hreason rfl

end MultiArchUefi
