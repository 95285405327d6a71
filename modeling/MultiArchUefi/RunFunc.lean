import MultiArchUefi.ArgumentRoundTrip
import MultiArchUefi.ContextLifeCycle
import MultiArchUefi.PrivateStack

/-!
# MultiArchUefi.RunFunc

What `CpuRunFunc` starts when a context of the engine is free: an activation of
the function it was given, which finds its arguments where the calling convention
of its CPU has them.  Nothing but the chain and the pools decides whether it does.
When the function comes to its end on the firmware's own stack, `CpuRunFunc`
returns what it has left.
-/

namespace MultiArchUefi

open Chain Transition WordMemory

/-! ## arguments -/

/-- The `i`-th argument of an emulated function that has just been entered, where the
calling convention of its CPU has it. -/
def emulatedArg : CpuId → Engine → Nat → UINT64
  | .x64, e, i =>
      match i with
      | 0 => e.regs .rcx
      | 1 => e.regs .rdx
      | 2 => e.regs .r8
      | 3 => e.regs .r9
      -- the return address and the home zone come first
      | i => e.memory.word (e.regs .rsp + BitVec.ofNat 64 (8 * (i + 1)))
  | .aarch64, e, i =>
      if h : i < 8 then e.regs (.x ⟨i, h⟩)
      else e.memory.word (e.regs .sp + BitVec.ofNat 64 (8 * (i - 8)))

/-- `EmuThunkPre` puts every argument where the emulated function looks for it. -/
theorem emulatedArg_emuThunkPre (magic : UINT64) (cpu : CpuId) (args : Args) (e : Engine)
    (i : Fin MAX_ARGS) : emulatedArg cpu (emuThunkPre magic cpu args e) i = args i := by
  have hword {j : Nat} (hj : j < entryFrameLength cpu) :=
    word_entryFrame magic cpu args e.memory (e.regs cpu.stackReg) hj
  rw [emuThunkPre_eq]
  cases cpu with
  | x64 =>
      by_cases hi : i.val < 4
      · obtain ⟨i, _⟩ := i
        interval_cases i <;> rfl
      · fin_cases i <;> first | exact absurd (by decide) hi | exact hword (by decide)
  | aarch64 =>
      by_cases hi : i.val < 8
      · obtain ⟨i, _⟩ := i
        interval_cases i <;> rfl
      · fin_cases i <;> first | exact absurd (by decide) hi | exact hword (by decide)

/-! ## entering -/

section

variable {cfg : Config} {k : CtxId} {fp : Nat} {chain : List CtxId} {s s' : State}

/-- Taking over the engine leaves what the context is to run alone. -/
theorem started_context (cfg : Config) (k : CtxId) (s : State) :
    ((State.started cfg k s).context k).programCounter = (s.context k).programCounter ∧
      (State.started cfg k s).images = s.images ∧
      ∃ e, (⟨(State.started cfg k s).ue k.cpu, (State.started cfg k s).memory⟩ : Engine) =
        emuThunkPre cfg.returnToNativeMagic k.cpu (s.context k).args e := by
  have hsaved : ((cpuRunCtxSaveOrInit k s).context k).programCounter =
    (s.context k).programCounter ∧
      ((cpuRunCtxSaveOrInit k s).context k).args = (s.context k).args ∧
      (cpuRunCtxSaveOrInit k s).images = s.images := by
    unfold cpuRunCtxSaveOrInit
    split
    · simp [State.modifyContext, State.withEngine]
    · simp
  refine ⟨hsaved.1, hsaved.2.2,
    ⟨(cpuRunCtxSaveOrInit k s).ue k.cpu, (cpuRunCtxSaveOrInit k s).memory⟩, ?_⟩
  rw [← hsaved.2.1]
  simp [State.started, State.withEngine]

/-- A fresh context is entered, whatever orphans it finds: its engine is where `EmuThunkPre`
has left it. -/
theorem cpuRunCtxEnter_starts (cfg : Config) (fp : Nat) (jumpBuffer : Option Nat)
    (h : Threaded s chain) (hk : Fresh s chain k) :
    ∃ s', cpuRunCtxEnter cfg jumpBuffer k fp s = some s' ∧
      (s'.context k).programCounter = (s.context k).programCounter ∧ s'.images = s.images ∧
      ∃ e, (⟨s'.ue k.cpu, s'.memory⟩ : Engine) =
        emuThunkPre cfg.returnToNativeMagic k.cpu (s.context k).args e := by
  have hthreaded : Threaded
      { cpuEnterCritical k s with mOriginalStack := jumpBuffer.or s.mOriginalStack } (k :: chain) :=
    (threaded_cpuEnterCritical h hk).congr rfl (fun _ _ => rfl) (fun _ _ => rfl) rfl
  obtain ⟨s₂, hcheck, hfreed⟩ := cpuRunCtxCheckOrphans_eq cfg fp hthreaded
  have hcontext : (s₂.context k).programCounter = (s.context k).programCounter ∧
      (s₂.context k).args = (s.context k).args := by
    rw [hfreed.self]
    simp [cpuEnterCritical, State.modifyContext, State.criticalBegin]
  obtain ⟨hpc, himages, hengine⟩ := started_context cfg k s₂
  rw [hcontext.1] at hpc
  rw [hcontext.2] at hengine
  exact ⟨_, cpuRunCtxEnter_eq hcheck, hpc, himages.trans hfreed.images, hengine⟩

end

/-! ## `CpuRunFunc` -/

/-- Native code runs, and the frame address `fp` is one that it may call the driver at. -/
def System.CanCall (sys : System) (fp : Nat) : Prop :=
  (∃ id rest, sys.stack = .native id :: rest) ∧ fpFits fp sys.stack = true

/-- From `sys` to `sys'` the activation `a` of the function at `programCounter` has been started
on the engine, with the arguments `args`. -/
structure Starts (sys sys' : System) (a : Activation) (cpu : CpuId) (programCounter : UINT64)
    (args : Args) : Prop where
  stack : sys'.stack = .run a :: sys.stack
  id : a.id = sys.nextId
  engine : a.context.cpu = cpu
  programCounter : a.programCounter = programCounter
  images : sys'.emu.images = sys.emu.images
  args : ∀ i : Fin MAX_ARGS, emulatedArg cpu ⟨sys'.emu.ue cpu, sys'.emu.memory⟩ i = args i

section

variable {cfg : Config} {sys : System} {chain : List CtxId} {cpu : CpuId}
  {programCounter : UINT64} {args : Args} {fp : Nat}

theorem step_runFunc_of_canCall (h : sys.CanCall fp) :
    step cfg sys (.runFunc cpu programCounter args fp) =
      sys.cpuRunFunc cfg cpu programCounter args fp := by
  obtain ⟨⟨id, rest, hstack⟩, hfits⟩ := h
  simp only [step, hstack]
  rw [← hstack, if_pos hfits]

/-- With a free context the function is started. -/
theorem runFunc_starts (cfg : Config) (programCounter : UINT64) (args : Args)
    (h : Threaded sys.emu chain) (hcall : sys.CanCall fp)
    (hpool : sys.emu.runContextAlloc cpu ≠ []) :
    ∃ sys' a, step cfg sys (.runFunc cpu programCounter args fp) = some sys' ∧
      Starts sys sys' a cpu programCounter args := by
  rw [step_runFunc_of_canCall hcall, System.cpuRunFunc]
  cases halloc : cpuAllocContext cpu sys.emu with
  | none => exact absurd (cpuAllocContext_eq_none halloc) hpool
  | some ks =>
      obtain ⟨k, s₁⟩ := ks
      obtain ⟨rfl, htaken⟩ := Taken.of_alloc h halloc
      have htaken' := htaken.modifyContext
        (f := fun c => { c with programCounter, args }) fun _ => rfl
      let s := s₁.modifyContext k fun c => { c with programCounter, args }
      have hcontext : (s.context k).programCounter = programCounter ∧
          (s.context k).args = args := by
        simp [s, State.modifyContext]
      let jumpBuffer := if sys.switches cfg then some sys.nextId else none
      obtain ⟨s', henter, hpc, himages, e, hengine⟩ :=
        cpuRunCtxEnter_starts cfg fp jumpBuffer htaken'.threaded htaken'.fresh
      have hrun : sys.cpuRunCtx cfg k none fp s = some (sys.entered cfg k none fp s') := by
        rw [System.cpuRunCtx, henter, Option.map_some]
      have hsame : s'.images = sys.emu.images := by
        obtain ⟨-, rest, -, rfl⟩ := cpuAllocContext_eq_some halloc
        exact himages
      refine ⟨_, sys.activation cfg k none fp s', hrun, rfl, rfl, rfl, hpc.trans hcontext.1, hsame,
        fun i => ?_⟩
      have harg := emulatedArg_emuThunkPre cfg.returnToNativeMagic k.cpu (s.context k).args e i
      rw [hcontext.2] at harg
      rw [← harg, ← hcontext.2, ← hengine]
      rfl

/-- With none it fails, and nothing is started. -/
theorem runFunc_exhausted (hcall : sys.CanCall fp) (hpool : sys.emu.runContextAlloc cpu = []) :
    step cfg sys (.runFunc cpu programCounter args fp) =
      some (sys.returned EFI_OUT_OF_RESOURCES) := by
  have halloc : cpuAllocContext cpu sys.emu = none := by
    simp [cpuAllocContext, hpool]
  rw [step_runFunc_of_canCall hcall, System.cpuRunFunc, halloc]

end

/-! ## runs -/

/-- Nothing is asked of a step in a build without a private stack. -/
def KeepsChain (cfg : Config) (sys : System) (action : Action) : Prop :=
  cfg.onPrivateStack = true → Accountable cfg sys action

/-- In every such run the chain and the pools are in order. -/
theorem threaded_of_run {cfg : Config} {p : Platform} {actions : List Action} {sys : System}
    (h : Run (step cfg) (KeepsChain cfg) (initial p) actions sys) :
    ∃ chain, Threaded sys.emu chain := by
  cases hprivate : cfg.onPrivateStack with
  | false =>
      obtain ⟨chain, htracked⟩ :=
        tracked_of_run False hprivate (h.mono fun _ _ _ hfalse => hfalse.elim)
      exact ⟨chain, htracked.threaded⟩
  | true =>
      obtain ⟨chain, hacc⟩ := accounted_of_run (h.mono fun _ _ hkeeps => hkeeps hprivate)
      exact ⟨chain, hacc.chained.threaded⟩

/-! ## the end -/

/-- What `CpuRunFunc` is to return: the emulated function's result, or an error if it failed. -/
def Activation.result (cfg : Config) (a : Activation) (regs : RegFile) (ucErr : UcErr) : UINT64 :=
  if cpuExitReason cfg ucErr (regs a.context.cpu.programCounterReg) = .returnToNative then
    regs a.context.cpu.returnValueReg
  else EFI_UNSUPPORTED

/-- From `sys` on, whenever the function of the activation `a` comes to its end, `CpuRunFunc`
returns what it has left to its caller, which finds `stack`; and that value satisfies `P`. -/
def ReturnsResult (cfg : Config) (sys : System) (a : Activation) (stack : List Frame)
    (P : UINT64 → Prop) : Prop :=
  ∀ actions sys₁ b rest regs memory ucErr, Run (step cfg) (fun _ _ => True) sys actions sys₁ →
    sys₁.stack = .run b :: rest → b.id = a.id → EndsRun cfg b regs ucErr →
      (∃ sys₂, step cfg sys₁ (.emulate regs memory ucErr) = some sys₂ ∧ sys₂.stack = stack ∧
        sys₂.trace = .returned a.id (b.result cfg regs ucErr) :: sys₁.trace) ∧
      P (b.result cfg regs ucErr)

section

variable {cfg : Config} {sys : System} {a : Activation} {rest : List Frame} {regs : RegFile}
  {memory : Memory} {ucErr : UcErr}

/-- `EmuThunkPost` leaves the result alone. -/
theorem internalReturn_value (hends : EndsRun cfg a regs ucErr) :
    (sys.internalReturn cfg a regs memory ucErr).1 = a.result cfg regs ucErr := by
  obtain ⟨-, hue, -, -⟩ := emulated_spec a.context.cpu regs memory ucErr sys.emu
  have hregs : (System.emulated a.context.cpu regs memory ucErr sys.emu).ue a.context.cpu =
      regs := by
    rw [hue, Function.update_self]
  unfold System.internalReturn Activation.result
  rcases hends with hreason | hreason
  · simp only [hregs, hreason, State.withEngine, Function.update_self, if_true]
    rw [returnValue_emuThunkPost]
  · simp only [hregs, hreason, reduceCtorEq, if_false]

/-- Without a private stack the function returns to its own caller, whatever orphans there are. -/
theorem emulate_returns {p : Platform} {actions : List Action}
    (honeStack : cfg.onPrivateStack = false)
    (h : Run (step cfg) (fun _ _ => True) (initial p) actions sys)
    (hstack : sys.stack = .run a :: rest) (hends : EndsRun cfg a regs ucErr) :
    ∃ sys', step cfg sys (.emulate regs memory ucErr) = some sys' ∧ sys'.stack = rest ∧
      sys'.trace = .returned a.id (a.result cfg regs ucErr) :: sys.trace := by
  obtain ⟨chain, htracked⟩ :=
    tracked_of_run False honeStack (h.mono fun _ _ _ hfalse => hfalse.elim)
  let s := (sys.internalReturn cfg a regs memory ucErr).2
  have hbooks : SameBooks sys.emu s := internalReturn_books
  have htracked' : Tracked cfg p.runContexts False ⟨s, .run a :: rest, chain⟩ := by
    rw [← hstack]
    exact htracked.sameBooks hbooks
  obtain ⟨l, rfl⟩ := htracked'.chain_eq_cons
  obtain ⟨s', hreturn, -, -⟩ := finish_released (a.result cfg regs ucErr) htracked'.threaded
  have hjumps : System.jumpsToOriginalStack cfg a.context
      (cpuRunCtxOnPrivateStackLeave a.context (a.result cfg regs ucErr) s) = false := by
    simp [System.jumpsToOriginalStack, honeStack]
  refine ⟨{ sys with
    emu := s'
    stack := rest
    trace := .returned a.id (a.result cfg regs ucErr) :: sys.trace }, ?_, rfl, rfl⟩
  simp only [step, hstack]
  rw [cpuRunCtxInternal_ends hends, internalReturn_value hends, System.finish]
  simp only [s] at hjumps hreturn
  simp only [hjumps, Bool.false_eq_true, if_false, hreturn]

/-- What has been started returns to where it was started from. -/
theorem Starts.returnsResult {p : Platform} {before : List Action} {action : Action} {sys' : System}
    {cpu : CpuId} {programCounter : UINT64} {args : Args} {P : UINT64 → Prop}
    (honeStack : cfg.onPrivateStack = false)
    (h : Run (step cfg) (fun _ _ => True) (initial p) before sys)
    (hstep : step cfg sys action = some sys') (hstarts : Starts sys sys' a cpu programCounter args)
    (hP : ∀ value, P value) : ReturnsResult cfg sys' a sys.stack P := by
  intro actions sys₁ b rest regs memory ucErr hrun hstack hid hends
  have hrun' := h.snoc trivial hstep
  have hbelow := below_of_run (Below.of_top (numbered_of_run hrun') hstarts.stack) hrun
  obtain rfl := hbelow.2 [] (.run b) rest hid hstack
  obtain ⟨sys₂, hlast, hstack₂, htrace⟩ :=
    emulate_returns honeStack (hrun'.append hrun) hstack hends
  exact ⟨⟨sys₂, hlast, hstack₂, by rw [htrace, hid]⟩, hP _⟩

end

end MultiArchUefi
