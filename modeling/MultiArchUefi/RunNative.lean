import MultiArchUefi.RunFunc

/-!
# MultiArchUefi.RunNative

Running a native function through `CpuRunFunc`: its code is called once, with the
arguments `CpuRunFunc` was given, and its result is what `CpuRunFunc` returns, unless
that was called by other emulated code on the private stack.
-/

namespace MultiArchUefi

open Chain Nesting Transition WordMemory

/-! ## the calls in a trace -/

/-- The native call, if the event is one that the activation `id` makes. -/
def Event.callBy (id : Nat) : Event → Option NativeCall
  | .called id' call => if id' = id then some call else none
  | _ => none

/-- The native calls that the activation `id` has made, newest first. -/
def System.callsBy (sys : System) (id : Nat) : List NativeCall :=
  sys.trace.filterMap (Event.callBy id)

section

variable {cfg : Config} {sys sys' : System} {action : Action} {a : Activation}
  {rest : List Frame} {id : Nat}

theorem callsBy_resume {value : UINT64} (h : sys.resume a rest value = some sys') :
    sys'.callsBy id = sys.callsBy id := by
  obtain ⟨s, -, rfl⟩ := resume_eq_some h
  rfl

theorem callsBy_cpuRunImageExit {n : Nat} (h : sys.cpuRunImageExit n = some sys') :
    sys'.callsBy id = sys.callsBy id := by
  obtain ⟨b, rest', record, s, -, rfl⟩ := cpuRunImageExit_eq_some h
  rfl

theorem callsBy_cpuExitImage {args : Args} (h : sys.cpuExitImage a rest args = some sys') :
    sys'.callsBy id = sys.callsBy id := by
  unfold System.cpuExitImage at h
  split at h
  · exact callsBy_resume h
  · obtain ⟨context, -, h⟩ := Option.bind_eq_some_iff.mp h
    cases context with
    | none => exact (callsBy_resume h).trans rfl
    | some k =>
        simp only at h
        split at h
        · exact (callsBy_resume h).trans rfl
        · obtain ⟨n, -, h⟩ := Option.bind_eq_some_iff.mp h
          exact (callsBy_cpuRunImageExit h).trans rfl

theorem callsBy_called (sys : System) (rest : List Frame) (call : NativeCall) (e : Engine) :
    (sys.called a rest call e).callsBy id = if a.id = id then call :: sys.callsBy id
      else sys.callsBy id := by
  unfold System.callsBy System.called
  by_cases hid : a.id = id
  · simp [Event.callBy, hid]
  · simp [Event.callBy, hid]

/-- A native call is noted for the activation that makes it. -/
theorem callsBy_callNative {programCounter : UINT64}
    (h : sys.callNative cfg a rest programCounter = some sys') :
    sys'.callsBy id =
      if a.id = id then
        (nativeThunkEnter cfg a.context.cpu programCounter
          ⟨sys.emu.ue a.context.cpu, sys.emu.memory⟩).1 :: sys.callsBy id
      else sys.callsBy id := by
  let r := nativeThunkEnter cfg a.context.cpu programCounter
    ⟨sys.emu.ue a.context.cpu, sys.emu.memory⟩
  unfold System.callNative at h
  simp only at h
  split at h
  · exact (callsBy_resume h).trans (callsBy_called ..)
  · exact (callsBy_cpuExitImage h).trans (callsBy_called ..)
  · obtain rfl := Option.some.inj h
    exact callsBy_called sys rest r.1 r.2

theorem callsBy_finish {ret : UINT64} (h : sys.finish cfg a rest ret = some sys') :
    sys'.callsBy id = sys.callsBy id := by
  unfold System.finish at h
  simp only at h
  split at h
  · split at h
    · cases h
    · obtain rfl := Option.some.inj h
      rfl
  · obtain rfl := Option.some.inj h
    rfl

theorem callsBy_cpuRunCtxInternal {regs : RegFile} {memory : Memory} {ucErr : UcErr}
    (hid : a.id ≠ id) (h : sys.cpuRunCtxInternal cfg a rest regs memory ucErr = some sys') :
    sys'.callsBy id = sys.callsBy id := by
  unfold System.cpuRunCtxInternal at h
  simp only at h
  split at h
  · obtain rfl := Option.some.inj h
    rfl
  · rw [callsBy_callNative h, if_neg hid]
    rfl
  · exact (callsBy_finish h).trans rfl
  · exact (callsBy_finish h).trans rfl

theorem callsBy_cpuRunCtx {k : CtxId} {image : Option RecordId} {fp : Nat} {s : State}
    (h : sys.cpuRunCtx cfg k image fp s = some sys') : sys'.callsBy id = sys.callsBy id := by
  obtain ⟨s', -, rfl⟩ := Option.map_eq_some_iff.mp h
  rfl

/-- Only the running activation calls native code. -/
theorem callsBy_step (hid : ∀ a rest, sys.stack = .run a :: rest → a.id ≠ id)
    (hstep : step cfg sys action = some sys') : sys'.callsBy id = sys.callsBy id := by
  unfold step at hstep
  split at hstep
  · split at hstep
    · unfold System.cpuRunFunc at hstep
      split at hstep
      · obtain rfl := Option.some.inj hstep
        rfl
      · exact callsBy_cpuRunCtx hstep
    · cases hstep
  · split at hstep
    · unfold System.cpuRunImage at hstep
      split at hstep
      · obtain rfl := Option.some.inj hstep
        rfl
      · split at hstep
        · cases hstep
        · split at hstep
          · obtain rfl := Option.some.inj hstep
            rfl
          · exact (callsBy_cpuRunCtx hstep).trans rfl
    · cases hstep
  · rename_i a rest hstack
    exact callsBy_cpuRunCtxInternal (hid a rest hstack) hstep
  · obtain rfl := Option.some.inj hstep
    rfl
  · exact callsBy_resume hstep
  · obtain rfl := Option.some.inj hstep
    rfl
  · obtain ⟨stack, -, rfl⟩ := Option.map_eq_some_iff.mp hstep
    rfl
  · cases hstep

theorem StackStep.nextId_le (h : StackStep sys sys') : sys.nextId ≤ sys'.nextId := by
  cases h <;> omega

/-- A native frame that was pushed earlier has been on the stack ever since. -/
theorem StackStep.mem_native {n : Nat} (h : StackStep sys sys') (hn : n < sys.nextId)
    (hmem : .native n ∈ sys'.stack) : .native n ∈ sys.stack := by
  cases h with
  | unwound frames hstack _ =>
      rw [hstack]
      exact List.mem_append_right _ hmem
  | entered b _ _ hstack _ => simpa [hstack] using hmem
  | runs frames b rest programCounter atCall hstack hstack' _ =>
      rw [hstack'] at hmem
      simp at hmem
      simp [hstack, hmem]
  | called b rest atCall hstack hstack' _ =>
      have hne : n ≠ sys.nextId := hn.ne
      rw [hstack'] at hmem
      simp [hne] at hmem
      simp [hstack, hmem]
  | exited frames b rest hstack hstack' _ =>
      have hne : n ≠ sys.nextId := hn.ne
      rw [hstack'] at hmem
      simp [hne] at hmem
      simp [hstack, hmem]

/-- Nobody has called native code under a number that has not been used. -/
theorem callsBy_unused {p : Platform} {C : System → Action → Prop} {actions : List Action}
    (h : Run (step cfg) C (initial p) actions sys) : sys.callsBy sys.nextId = [] := by
  suffices hall : Numbered sys ∧ ∀ id, sys.nextId ≤ id → sys.callsBy id = [] from hall.2 _ le_rfl
  refine h.invariant (I := fun sys => Numbered sys ∧ ∀ id, sys.nextId ≤ id → sys.callsBy id = [])
    (fun t action u ⟨hnum, hnone⟩ _ hstep => ?_) ⟨numbered_initial p, fun _ _ => rfl⟩
  refine ⟨hnum.step (step_stack hstep), fun id hid => ?_⟩
  have hle : t.nextId ≤ id := (step_stack hstep).nextId_le.trans hid
  rw [callsBy_step (fun b rest hstack => ?_) hstep, hnone id hle]
  have hlt : b.id < t.nextId := hnum.2 (.run b) (by simp [hstack])
  omega

/-- While a native function runs, the activation that has called it calls nothing else. -/
theorem callsBy_of_run {C : System → Action → Prop} {n : Nat} {actions : List Action}
    (hnum : Numbered sys) (hstack : sys.stack = .native n :: .run a :: rest)
    (h : Run (step cfg) C sys actions sys') (hmem : .native n ∈ sys'.stack) :
    sys'.callsBy a.id = sys.callsBy a.id := by
  have hbelow := Below.of_top hnum hstack
  let I : System → Prop := fun t =>
    (Numbered t ∧ Below (Frame.native n).id (.run a :: rest) t) ∧
      (.native n ∈ t.stack → t.callsBy a.id = sys.callsBy a.id)
  refine (h.invariant (I := I) (fun t action u ⟨⟨hnum, hbelow⟩, hcalls⟩ _ hstep => ?_)
    ⟨⟨hnum, hbelow⟩, fun _ => rfl⟩).2 hmem
  have hstack := step_stack hstep
  refine ⟨⟨hnum.step hstack, hbelow.step hstack⟩, fun hmem => ?_⟩
  have hmem' := hstack.mem_native hbelow.1 hmem
  rw [callsBy_step (fun b rest' hrun => ?_) hstep, hcalls hmem']
  -- the activation on top is further in than the native frame
  obtain ⟨frames, below, heq⟩ := List.append_of_mem hmem'
  obtain rfl := hbelow.2 frames _ below rfl heq
  have hpair := hnum.1
  rw [hrun] at heq
  cases frames with
  | nil => cases (List.cons.inj heq).1
  | cons f frames =>
      obtain ⟨-, hrest⟩ := List.cons.inj heq
      rw [hrun, hrest, List.map_cons, List.pairwise_cons] at hpair
      have hlt := hpair.1 a.id (by simp [Frame.id])
      exact Nat.ne_of_gt hlt

end

/-! ## entering -/

/-- The engine that `EmuThunkPre` finds when the function is called in `sys`. -/
def System.thunkEngine (cfg : Config) (sys : System) (cpu : CpuId) (fp : Nat) : Engine :=
  if engineInUse cpu (kept cfg sys.emu fp sys.emu.chain) then
    cpuStackPushRedZone cpu ⟨sys.emu.ue cpu, sys.emu.memory⟩
  else ⟨sys.emu.initialState cpu, sys.emu.memory⟩

/-- The red zone is skipped without reading anything. -/
theorem thunkEngine_loads (cfg : Config) (sys : System) (cpu : CpuId) (fp : Nat) :
    (sys.thunkEngine cfg cpu fp).memory = sys.emu.memory := by
  unfold System.thunkEngine
  split <;> rfl

section

variable {cfg : Config} {sys sys' : System} {chain : List CtxId} {cpu : CpuId}
  {programCounter : UINT64} {args : Args} {fp : Nat}

/-- The image that `gBS->Exit` would leave depends on the images and the contexts' records only. -/
theorem imageToExit_congr {s s' : State} {l : List CtxId} (himages : s'.images = s.images)
    (hrecord : ∀ j ∈ l, (s'.context j).imageRecord = (s.context j).imageRecord) (handle : UINT64) :
    imageToExit s' l handle = imageToExit s l handle := by
  have hfind : (l.find? fun j => (s'.context j).imageRecord ≠ none) =
      l.find? fun j => (s.context j).imageRecord ≠ none :=
    List.find?_congr fun j hj => by rw [hrecord j hj]
  unfold imageToExit
  rw [himages, hfind]
  cases hctx : l.find? fun j => (s.context j).imageRecord ≠ none with
  | none => rfl
  | some j =>
      simp only [Option.bind_some, hrecord j (List.mem_of_find?_eq_some hctx)]

/-- A context without an image does not matter to it. -/
theorem imageToExit_cons {s : State} {k : CtxId} {l : List CtxId}
    (himage : (s.context k).imageRecord = none) (handle : UINT64) :
    imageToExit s (k :: l) handle = imageToExit s l handle := by
  simp only [imageToExit, List.find?_cons_of_neg (l := l) (a := k)
    (p := fun j => decide ((s.context j).imageRecord ≠ none)) (by simp [himage])]

/-- `CpuRunFunc` starts the function with the frame that `EmuThunkPre` lays out. -/
theorem runFunc_entered (hacc : Accounted cfg (sys.books chain))
    (hpool : sys.emu.runContextAlloc cpu ≠ [])
    (hown : DropsOwnEngine cfg sys (.runFunc cpu programCounter args fp))
    (h : step cfg sys (.runFunc cpu programCounter args fp) = some sys') :
    ∃ k s, sys' = sys.entered cfg k none fp s ∧ k.cpu = cpu ∧
      (s.context k).programCounter = programCounter ∧
      (⟨s.ue cpu, s.memory⟩ : Engine) =
        emuThunkPre cfg.returnToNativeMagic cpu args (sys.thunkEngine cfg cpu fp) ∧
      ∀ handle, imageToExit s s.chain handle =
        imageToExit sys.emu (kept cfg sys.emu fp sys.emu.chain) handle := by
  obtain ⟨-, -, hrun⟩ := step_runFunc h
  have hchain : sys.emu.chain = chain := hacc.chained.chain_eq
  unfold System.cpuRunFunc at hrun
  cases halloc : cpuAllocContext cpu sys.emu with
  | none => exact absurd (cpuAllocContext_eq_none halloc) hpool
  | some ks =>
      obtain ⟨k, s₁⟩ := ks
      rw [halloc] at hrun
      obtain ⟨rfl, -, hs, himages, himage⟩ := cpuAllocContext_spec hacc.chained halloc
      let s := s₁.modifyContext k fun c => { c with programCounter := programCounter, args := args }
      have hs' : Allocated k chain sys.emu s := hs.modifyContext fun _ => rfl
      obtain ⟨s', hrun', hentered, -⟩ : ∃ s', sys.cpuRunCtx cfg k none fp s =
          some (sys.entered cfg k none fp s') ∧ Entered cfg k fp
            (kept cfg sys.emu fp chain) s s' ∧ _ :=
        cpuRunCtx_spec none hs' (hown.orphans hacc rfl)
      obtain rfl := Option.some.inj (hrun'.symm.trans hrun)
      refine ⟨k, s', rfl, rfl, ?_, ?_, fun handle => ?_⟩
      · obtain ⟨s'', henter, heq⟩ := Option.map_eq_some_iff.mp hrun'
        have hemu : s'' = s' := congrArg System.emu heq
        obtain ⟨t, ht, hpc, -, -⟩ := cpuRunCtxEnter_starts cfg fp
          (if sys.switches cfg then some sys.nextId else none) hs'.chained.threaded hs'.fresh
        obtain rfl := Option.some.inj (ht.symm.trans henter)
        rw [← hemu, hpc]
        simp [s, State.modifyContext]
      · have hargs : (s.context k).args = args := by simp [s, State.modifyContext]
        rw [hentered.ue, hentered.memory, Function.update_self, hargs, entryEngine,
          System.thunkEngine, hs'.ue, hs'.memory, hs'.initialState, hchain]
      · have hnone : (s'.context k).imageRecord = none := by
          rw [hentered.imageRecord]
          simpa [s, State.modifyContext] using himage
        have hsub : ∀ j ∈ kept cfg sys.emu fp chain, j ∈ chain := fun j hj =>
          orphans_append_kept cfg sys.emu fp chain ▸ List.mem_append_right _ hj
        rw [hentered.chained.chain_eq, imageToExit_cons hnone, hchain]
        refine imageToExit_congr (hentered.images.trans himages) (fun j hj => ?_) handle
        rw [hentered.older j hj, hs'.older j (hsub j hj)]
        rfl

end

/-! ## turns of the engine -/

/-- `uc_emu_start` with the program counter it is given, the engine and the memory. -/
abbrev UcEmuStart := CpuId → UINT64 → Engine → Engine × UcErr

/-- `uc_emu_start` stops at once where the callback reports native code, and at
the return magic, and changes nothing but the program counter. -/
def StopsAtNative (cfg : Config) (images : Images) (ucEmuStart : UcEmuStart) : Prop :=
  ∀ cpu programCounter e, cpuIsNativeCb cfg images programCounter = true →
    ucEmuStart cpu programCounter e =
      (⟨Function.update e.regs cpu.programCounterReg programCounter, e.memory⟩, .findTb)

/-- The next turn of the loop of `CpuRunCtxInternal`, for the activation `a`. -/
def Activation.turn (ucEmuStart : UcEmuStart) (a : Activation) (s : State) : Engine × UcErr :=
  ucEmuStart a.context.cpu a.programCounter ⟨s.ue a.context.cpu, s.memory⟩

/-- The turn as a step of the system. -/
def Activation.turnAction (ucEmuStart : UcEmuStart) (a : Activation) (s : State) : Action :=
  let (e, ucErr) := a.turn ucEmuStart s
  .emulate e.regs e.memory ucErr

/-- What the turn makes `CpuRunCtxInternal` return, and the state it leaves. -/
def System.turnReturn (cfg : Config) (ucEmuStart : UcEmuStart) (sys : System) (a : Activation) :
    UINT64 × State :=
  let (e, ucErr) := a.turn ucEmuStart sys.emu
  sys.internalReturn cfg a e.regs e.memory ucErr

/-- The only native call of `a` has returned `value`, with the memory `m`.  With
the next turn `CpuRunCtxInternal` returns `value` and leaves the stack pointer at
`sp`. -/
structure Returning (cfg : Config) (ucEmuStart : UcEmuStart) (a : Activation) (rest : List Frame)
    (sp : UINT64) (call : NativeCall) (m : Memory) (value : UINT64) (sys : System) : Prop where
  stack : sys.stack = .run a :: rest
  calls : sys.callsBy a.id = [call]
  ends : EndsRun cfg a (a.turn ucEmuStart sys.emu).1.regs (a.turn ucEmuStart sys.emu).2
  result : (sys.turnReturn cfg ucEmuStart a).1 = value
  stackPointer : (sys.turnReturn cfg ucEmuStart a).2.ue a.context.cpu a.context.cpu.stackReg = sp
  reads : ReadsFrame a.context.cpu sp m (sys.turnReturn cfg ucEmuStart a).2.memory

/-- And then `CpuRunFunc` returns `value` to its caller. -/
structure Returned (cfg : Config) (ucEmuStart : UcEmuStart) (a : Activation) (rest : List Frame)
    (sp : UINT64) (call : NativeCall) (m : Memory) (value : UINT64) (sys : System) : Prop
    extends Returning cfg ucEmuStart a rest sp call m value sys where
  returned : ∃ sys', step cfg sys (a.turnAction ucEmuStart sys.emu) = some sys' ∧
    sys'.stack = rest ∧ sys'.trace = .returned a.id value :: sys.trace

section

variable {cfg : Config} {ucEmuStart : UcEmuStart} {images : Images} {sys sys' : System}
  {a : Activation} {rest : List Frame} {sp value : UINT64}

theorem programCounterReg_ne (cpu : CpuId) :
    cpu.returnValueReg ≠ cpu.programCounterReg ∧ cpu.stackReg ≠ cpu.programCounterReg := by
  cases cpu <;> decide

/-- At the return magic the engine stops, and the frame is taken off the stack. -/
theorem turnReturn_magic (hstop : StopsAtNative cfg images ucEmuStart)
    (hmagic : a.programCounter = cfg.returnToNativeMagic)
    (hvalue : sys.emu.ue a.context.cpu a.context.cpu.returnValueReg = value)
    (hsp : sys.emu.ue a.context.cpu a.context.cpu.stackReg = pushed sp
      (exitFrameLength a.context.cpu)) :
    EndsRun cfg a (a.turn ucEmuStart sys.emu).1.regs (a.turn ucEmuStart sys.emu).2 ∧
      (sys.turnReturn cfg ucEmuStart a).1 = value ∧
      (sys.turnReturn cfg ucEmuStart a).2.ue a.context.cpu a.context.cpu.stackReg = sp ∧
      ReadsFrame a.context.cpu sp sys.emu.memory (sys.turnReturn cfg ucEmuStart a).2.memory := by
  let regs := Function.update
    (sys.emu.ue a.context.cpu) a.context.cpu.programCounterReg a.programCounter
  have hturn : a.turn ucEmuStart sys.emu = (⟨regs, sys.emu.memory⟩, .findTb) :=
    hstop _ _ _ (by simp [cpuIsNativeCb, hmagic])
  have hreason : cpuExitReason cfg .findTb (regs a.context.cpu.programCounterReg) =
      .returnToNative := by
    simp [regs, cpuExitReason, hmagic]
  obtain ⟨-, hue, hmemory, -⟩ := emulated_spec a.context.cpu regs sys.emu.memory .findTb sys.emu
  have hregs : (System.emulated a.context.cpu regs sys.emu.memory .findTb sys.emu).ue
      a.context.cpu = regs := by
    rw [hue, Function.update_self]
  have hreturn : sys.turnReturn cfg ucEmuStart a =
      let s := (System.emulated a.context.cpu regs sys.emu.memory .findTb sys.emu).withEngine
        a.context.cpu
        (emuThunkPost a.context.cpu)
      (s.ue a.context.cpu a.context.cpu.returnValueReg, s) := by
    simp only [System.turnReturn, hturn, System.internalReturn, hregs, hreason]
  have hsp' : regs a.context.cpu.stackReg = pushed sp (exitFrameLength a.context.cpu) :=
    (Function.update_of_ne (programCounterReg_ne _).2 ..).trans hsp
  have hpost := emuThunkPost_spec a.context.cpu sp (e := ⟨regs, sys.emu.memory⟩) hsp'
  rw [hturn, hreturn]
  simp only [State.withEngine, Function.update_self, hregs, hmemory]
  refine ⟨.inl hreason, ?_, hpost⟩
  rw [returnValue_emuThunkPost]
  exact (Function.update_of_ne (programCounterReg_ne _).1 ..).trans hvalue

theorem resumed_stack (sys : System) (a : Activation) (rest : List Frame)
    (value : UINT64) (s : State) :
    (sys.resumed a rest value s).stack = .run { a with
      programCounter := (nativeThunkLeave a.context.cpu value ⟨s.ue a.context.cpu, s.memory⟩).1 } ::
        rest :=
  rfl

/-- The thunk has put the result back; the frame has been left in place. -/
theorem returning_of_resumed {s : State} {call : NativeCall}
    (hstop : StopsAtNative cfg images ucEmuStart)
    (hsp : s.ue a.context.cpu a.context.cpu.stackReg = pushed sp (entryFrameLength a.context.cpu))
    (hret : ReturnsTo cfg.returnToNativeMagic sp ⟨s.ue a.context.cpu, s.memory⟩ a.context.cpu)
    (hcalls : sys.callsBy a.id = [call]) (h : sys' = sys.resumed a rest value s) :
    Returning cfg ucEmuStart
      { a with programCounter := cfg.returnToNativeMagic } rest sp call s.memory
      value sys' := by
  obtain ⟨hpc, hvalue, hsp', hreads⟩ :=
    nativeThunkLeave_spec cfg.returnToNativeMagic value a.context.cpu sp
    (e := ⟨s.ue a.context.cpu, s.memory⟩) hsp hret
  let e := (nativeThunkLeave a.context.cpu value ⟨s.ue a.context.cpu, s.memory⟩).2
  let b : Activation := { a with programCounter := cfg.returnToNativeMagic }
  have hstack : sys'.stack = .run b :: rest := by
    rw [h, resumed_stack, hpc]
  have hemu : sys'.emu =
      { s with ue := Function.update s.ue a.context.cpu e.regs, memory := e.memory } := by
    rw [h]
    rfl
  have hregs : sys'.emu.ue b.context.cpu = e.regs := by
    rw [hemu]
    exact Function.update_self ..
  obtain ⟨hends, hresult, hpointer, hreads'⟩ := turnReturn_magic (a := b) hstop rfl
    ((congrFun hregs _).trans hvalue) ((congrFun hregs _).trans hsp')
  have hmemory : sys'.emu.memory = e.memory := by rw [hemu]
  rw [hmemory] at hreads'
  refine ⟨hstack, ?_, hends, hresult, hpointer, hreads.trans hreads'⟩
  rw [h]
  exact hcalls

/-- `CpuRunFunc` returns the value unless it is a nested one on the private stack. -/
theorem Returning.returned_iff {p : Platform} {actions : List Action}
    {call : NativeCall} {m : Memory} (h : Returning cfg ucEmuStart a rest sp call m value sys)
    (hrun : Run (step cfg) (Sparing cfg) (initial p) actions sys) :
    Returned cfg ucEmuStart a rest sp call m value sys ↔
      (cfg.onPrivateStack = true → activations rest = []) := by
  obtain ⟨chain, hsound⟩ := sound_of_run hrun
  have hreturns := returns_iff_outermost (a.turn ucEmuStart sys.emu).1.memory
    (numbered_of_run hrun) hsound.toAccounted h.stack h.ends
  have hvalue : (sys.internalReturn cfg a (a.turn ucEmuStart sys.emu).1.regs
      (a.turn ucEmuStart sys.emu).1.memory (a.turn ucEmuStart sys.emu).2).1 = value := h.result
  rw [hvalue] at hreturns
  exact ⟨fun hreturned => hreturns.mp hreturned.returned,
    fun houtermost => ⟨h, hreturns.mpr houtermost⟩⟩

/-- The native function returns to its thunk; the activation has been left as it called. -/
theorem returning_of_resume (sys : System) {chain : List CtxId} {regs : RegFile} {call : NativeCall}
    (value : UINT64) (hstop : StopsAtNative cfg images ucEmuStart)
    (h : Booked cfg sys.emu (.run a :: rest) chain)
    (hr : Resumes sys.emu (a.suspended regs :: waiting rest) chain)
    (hsp : regs a.context.cpu.stackReg = pushed sp (entryFrameLength a.context.cpu))
    (hret : ReturnsTo cfg.returnToNativeMagic sp ⟨regs, sys.emu.memory⟩ a.context.cpu)
    (hcalls : sys.callsBy a.id = [call]) :
    ∃ sys', sys.resume a rest value = some sys' ∧
      Returning cfg ucEmuStart { a with programCounter := cfg.returnToNativeMagic } rest sp call
        sys.emu.memory value sys' := by
  obtain ⟨pre, post, rfl⟩ := h.split
  have hbooked := h.compressed
  have hregs := (hr.compressed h.chained).1
  have hmemory := memory_compressed pre a.context sys.emu
  have hreturning := returning_of_resumed hstop (by rwa [hregs]) (by rwa [hregs, hmemory]) hcalls
    (rfl : sys.resumed a rest value (sys.emu.compressed pre a.context) = _)
  rw [hmemory] at hreturning
  exact ⟨_, resume_eq rest value h.chained, hreturning⟩

/-- A native function that returns finds its return address where it was. -/
def ReturnAddressKept (cpu : CpuId) (sp : UINT64) (m m' : Memory) : Prop :=
  cpu = .x64 →
    m'.word (pushed sp (entryFrameLength .x64)) = m.word (pushed sp (entryFrameLength .x64))

theorem ReturnsTo.kept {magic : UINT64} {cpu : CpuId} {regs : RegFile} {m m' : Memory}
    (h : ReturnsTo magic sp ⟨regs, m⟩ cpu) (hkept : ReturnAddressKept cpu sp m m') :
    ReturnsTo magic sp ⟨regs, m'⟩ cpu := by
  cases cpu with
  | x64 => exact (hkept rfl).trans h
  | aarch64 => exact h

/-- `CpuExitImage` leaves the innermost image if that is the one to exit. -/
theorem cpuExitImage_leaves {args : Args} {chain : List CtxId} (h : Chained sys.emu chain)
    (hsome : imageToExit sys.emu chain (args 0) ≠ none)
    (hstep : sys.cpuExitImage a rest args = some sys') :
    ∃ id below, sys'.stack = .native sys.nextId :: .exiting id :: below := by
  obtain ⟨record, hrecord⟩ := Option.ne_none_iff_exists'.mp hsome
  obtain ⟨s, -, -, heq⟩ := cpuExitImage_jumps a rest h hrecord
  obtain ⟨n, -, hexit⟩ := Option.bind_eq_some_iff.mp (heq.symm.trans hstep)
  obtain ⟨b, rest', _, s', -, rfl⟩ := cpuRunImageExit_eq_some hexit
  exact ⟨b.id, rest', rfl⟩

/-- When the engine stops at native code, its `NativeThunk` decodes the call, and
the function, or the driver's own wrapper, is called. -/
theorem step_turn {e : Engine} {programCounter : UINT64} (hstack : sys.stack = .run a :: rest)
    (hturn : a.turn ucEmuStart sys.emu = (e, .findTb))
    (hpc : e.regs a.context.cpu.programCounterReg = programCounter)
    (hmagic : programCounter ≠ cfg.returnToNativeMagic) :
    let r := nativeThunkEnter cfg a.context.cpu programCounter e
    let a₁ := { a with atCall := e.regs }
    ∃ sys₁ : System, SameBooks sys.emu sys₁.emu ∧
      sys₁.emu.ue = Function.update sys.emu.ue a.context.cpu e.regs ∧ sys₁.emu.memory = r.2.memory ∧
      sys₁.emu.images = sys.emu.images ∧ sys₁.stack = .run a₁ :: rest ∧ sys₁.nextId = sys.nextId ∧
      sys₁.callsBy a.id = r.1 :: sys.callsBy a.id ∧
      step cfg sys (a.turnAction ucEmuStart sys.emu) =
        match r.1.func with
        | .nativeUnsupported => sys₁.resume a₁ rest EFI_UNSUPPORTED
        | .cpuExitImage => sys₁.cpuExitImage a₁ rest r.1.args
        | _ =>
            some { sys₁ with
              stack := .native sys₁.nextId :: sys₁.stack
              nextId := sys₁.nextId + 1 } := by
  obtain ⟨hbooks, hue, hmemory, himages⟩ :=
    emulated_spec a.context.cpu e.regs e.memory .findTb sys.emu
  have hregs : (System.emulated a.context.cpu e.regs e.memory .findTb sys.emu).ue a.context.cpu =
      e.regs := by
    rw [hue, Function.update_self]
  have hreason : cpuExitReason cfg .findTb programCounter = .callToNative := by
    simp [cpuExitReason, hmagic]
  let r := nativeThunkEnter cfg a.context.cpu programCounter e
  let sys₀ : System :=
    { sys with emu := System.emulated a.context.cpu e.regs e.memory .findTb sys.emu }
  refine ⟨sys₀.called { a with atCall := e.regs } rest r.1 r.2,
    hbooks.trans (.setEngines _ _ _), ?_, rfl, himages, rfl, rfl, ?_, ?_⟩
  · change Function.update
      (System.emulated a.context.cpu e.regs e.memory .findTb sys.emu).ue a.context.cpu
      (nativeThunkEnter cfg a.context.cpu programCounter e).2.regs = _
    rw [nativeThunkEnter_regs, hue, Function.update_idem]
  · exact (callsBy_called ..).trans (if_pos rfl)
  · simp only [Activation.turnAction, hturn, step, hstack, System.cpuRunCtxInternal,
      hregs, hpc, hreason, System.callNative, hmemory]
    rfl

end

/-! ## the round trip -/

/-- `NativeThunk` has decoded `call`, of the function at `programCounter` with
`args`.  Since the memory was `m` it has read only words that `EmuThunkPre` has
pushed below `sp`, and it leaves the engine `e'` to the function. -/
structure Decodes (cfg : Config) (cpu : CpuId) (programCounter : UINT64) (args : Args) (sp : UINT64)
    (m : Memory) (call : NativeCall) (e' : Engine) : Prop where
  func : call.func = nativeValidateSupportedCall cfg programCounter
  originalProgramCounter : call.originalProgramCounter = programCounter
  returnAddress : call.wrapperCall = true → call.returnAddress = cfg.returnToNativeMagic
  args : call.args = args
  reads : ReadsFrame cpu sp m e'.memory

/-- What the call that `a` has made, with the memory `m`, comes to.  In `sys` the
driver's own wrappers have returned already, or an image has exited.  Any other
function runs in the native frame `n`; whatever it does, it can return. -/
def ComesBack (cfg : Config) (ucEmuStart : UcEmuStart) (a : Activation)
    (rest : List Frame) (sp : UINT64) (call : NativeCall) (m : Memory) (n : Nat)
    (sys : System) : Prop :=
  let b := { a with programCounter := cfg.returnToNativeMagic }
  match call.func with
  | .nativeUnsupported => Returned cfg ucEmuStart b rest sp call m EFI_UNSUPPORTED sys
  | .cpuExitImage =>
      Returned cfg ucEmuStart b rest sp call m EFI_INVALID_PARAMETER sys ∨
        ∃ id below, sys.stack = .native n :: .exiting id :: below
  | _ =>
      sys.stack = .native n :: .run a :: rest ∧ sys.emu.memory = m ∧
        ∀ after sys₂ below value, Run (step cfg) (Sparing cfg) sys after sys₂ →
          sys₂.stack = .native n :: below → ReturnAddressKept a.context.cpu sp m sys₂.emu.memory →
          ∃ sys₃, step cfg sys₂ (.ret value) = some sys₃ ∧
            Returned cfg ucEmuStart b rest sp call sys₂.emu.memory value sys₃

/-- `CpuRunFunc` calls a native function: in `sys₀` the activation `a` has been started with the
frame that `EmuThunkPre` lays out, its first turn makes `call`, and that comes back to the
caller of `CpuRunFunc`. -/
structure RoundTrip (cfg : Config) (ucEmuStart : UcEmuStart) (sys : System) (cpu : CpuId)
    (programCounter : UINT64) (args : Args) (fp : Nat) (sys₀ : System) (a : Activation)
    (call : NativeCall) (e : Engine) : Prop where
  started : step cfg sys (.runFunc cpu programCounter args fp) = some sys₀
  stack : sys₀.stack = .run a :: sys.stack
  engine : a.context.cpu = cpu
  entry : (⟨sys₀.emu.ue cpu, sys₀.emu.memory⟩ : Engine) =
    emuThunkPre cfg.returnToNativeMagic cpu args (sys.thunkEngine cfg cpu fp)
  enters : nativeThunkEnter cfg cpu programCounter (a.turn ucEmuStart sys₀.emu).1 = (call, e)
  decodes : Decodes cfg cpu programCounter args ((sys.thunkEngine cfg cpu fp).regs cpu.stackReg)
    sys.emu.memory call e
  calls : call.func ≠ .cpuExitImage →
    ∃ sys₁, step cfg sys₀ (a.turnAction ucEmuStart sys₀.emu) = some sys₁
  comesBack : ∀ sys₁, step cfg sys₀ (a.turnAction ucEmuStart sys₀.emu) = some sys₁ →
    sys₁.callsBy a.id = [call] ∧
      ComesBack cfg ucEmuStart { a with atCall := (a.turn ucEmuStart sys₀.emu).1.regs } sys.stack
        ((sys.thunkEngine cfg cpu fp).regs cpu.stackReg) call e.memory sys₀.nextId sys₁

/-- The function is `gBS->Exit`, and the image to exit is the innermost one. -/
def ExitsImage (cfg : Config) (sys : System) (programCounter : UINT64) (args : Args) (fp : Nat) :
    Prop :=
  nativeValidateSupportedCall cfg programCounter = .cpuExitImage ∧
    imageToExit sys.emu (kept cfg sys.emu fp sys.emu.chain) (args 0) ≠ none

section

variable {cfg : Config} {ucEmuStart : UcEmuStart} {images : Images} {sys sys' : System}
  {a : Activation} {rest : List Frame} {sp value : UINT64} {chain : List CtxId} {p : Platform}
  {actions : List Action}

/-- A step in which emulated code calls out drops nothing and finishes nothing. -/
theorem sparing_turn {e : Engine} (hstack : sys.stack = .run a :: rest)
    (hturn : a.turn ucEmuStart sys.emu = (e, .findTb))
    (hmagic : e.regs a.context.cpu.programCounterReg ≠ cfg.returnToNativeMagic) :
    Sparing cfg sys (a.turnAction ucEmuStart sys.emu) := by
  have hreason : cpuExitReason cfg .findTb (e.regs a.context.cpu.programCounterReg) =
      .callToNative := by
    simp [cpuExitReason, hmagic]
  have haction : a.turnAction ucEmuStart sys.emu = .emulate e.regs e.memory .findTb := by
    simp only [Activation.turnAction, hturn]
  rw [haction]
  refine ⟨⟨fun c hc => (by cases hc), fun b hb => ?_⟩, fun c hc => (by cases hc)⟩
  have hends : ¬ EndsRun cfg a e.regs .findTb := by
    unfold EndsRun
    rw [hreason]
    decide
  simp [Action.finishing, hstack, hends] at hb

/-- Nor does one in which native code returns, or calls in a build that drops no orphans. -/
theorem sparing_ret (cfg : Config) (sys : System) (value : UINT64) : Sparing cfg sys (.ret value) :=
  ⟨⟨fun c hc => (by cases hc), fun b hb => (by cases hb)⟩, fun c hc => (by cases hc)⟩

theorem sparing_runFunc (h : cfg.checkOrphanContexts = false) (sys : System) (cpu : CpuId)
    (programCounter : UINT64) (args : Args) (fp : Nat) :
    Sparing cfg sys (.runFunc cpu programCounter args fp) := by
  refine ⟨⟨fun c _ j hj => ?_, fun b hb => by cases hb⟩, fun c _ j hj => ?_⟩
  · simp [orphans, h] at hj
  · simp [orphans, h] at hj

/-- The first turn of the activation has decoded the call, and every thunk below can still be
returned to. -/
structure Decoded (cfg : Config) (sys : System) (a : Activation) (rest : List Frame) (sp : UINT64)
    (chain : List CtxId) (call : NativeCall) : Prop where
  booked : Booked cfg sys.emu (.run a :: rest) chain
  resumes : Resumes sys.emu (a.suspended a.atCall :: waiting rest) chain
  stackPointer : a.atCall a.context.cpu.stackReg = pushed sp (entryFrameLength a.context.cpu)
  returns : ReturnsTo cfg.returnToNativeMagic sp ⟨a.atCall, sys.emu.memory⟩ a.context.cpu
  calls : sys.callsBy a.id = [call]

/-- Whatever the driver's own wrappers do, they return to the thunk. -/
theorem Decoded.resumes_wrapper {call : NativeCall} (hstop : StopsAtNative cfg images ucEmuStart)
    (h : Decoded cfg sys a rest sp chain call) {s : State} (value : UINT64)
    (hquiet : Quiet sys.emu s) (hmemory : s.memory = sys.emu.memory) :
    ∃ sys', System.resume { sys with emu := s } a rest value = some sys' ∧
      Returning cfg ucEmuStart { a with programCounter := cfg.returnToNativeMagic } rest sp call
        sys.emu.memory value sys' := by
  have hresume := returning_of_resume { sys with emu := s } value hstop
    (h.booked.sameBooks hquiet.toSameBooks) (h.resumes.quiet hquiet) h.stackPointer
    (by simp only [hmemory]; exact h.returns) h.calls
  simp only [hmemory] at hresume
  exact hresume

/-- Any other function runs in a frame of its own; when it returns everybody can be resumed. -/
theorem Decoded.returning_of_run {call : NativeCall} {sys₁ sys₂ : System} {n : Nat}
    {after : List Action} {below : List Frame} (hstop : StopsAtNative cfg images ucEmuStart)
    (h : Decoded cfg sys₁ a rest sp chain call)
    (hrun : Run (step cfg) (Sparing cfg) (initial p) actions sys)
    (hstack : sys.stack = .native n :: .run a :: rest) (hcalls : sys.callsBy a.id = [call])
    (hafter : Run (step cfg) (Sparing cfg) sys after sys₂)
    (hstack₂ : sys₂.stack = .native n :: below)
    (hkept : ReturnAddressKept a.context.cpu sp sys₁.emu.memory sys₂.emu.memory) (value : UINT64) :
    ∃ sys₃, step cfg sys₂ (.ret value) = some sys₃ ∧
      Returning cfg ucEmuStart { a with programCounter := cfg.returnToNativeMagic } rest sp call
        sys₂.emu.memory value sys₃ := by
  have hnumbered := numbered_of_run hrun
  obtain rfl := (below_of_run (Below.of_top hnumbered hstack) hafter).2 [] _ below rfl hstack₂
  have hcalls₂ : sys₂.callsBy a.id = [call] :=
    (callsBy_of_run hnumbered hstack hafter (by simp [hstack₂])).trans hcalls
  obtain ⟨chain₂, hacc₂, hr₂⟩ := sound_of_run (hrun.append hafter)
  simp only [System.books, hstack₂] at hacc₂ hr₂
  obtain ⟨sys₃, heq, hreturning⟩ := returning_of_resume _ value hstop
    (hacc₂.toBooked.unwind [.native n]) hr₂ h.stackPointer (h.returns.kept hkept) hcalls₂
  exact ⟨sys₃, by simp only [step, hstack₂]; exact heq, hreturning⟩

/-- A native function in its own frame comes back, whatever it does, exactly when its activation
is not a nested one on the private stack. -/
theorem Decoded.called_iff {call : NativeCall} {sys₁ : System} {n : Nat}
    (hstop : StopsAtNative cfg images ucEmuStart) (h : Decoded cfg sys₁ a rest sp chain call)
    (hrun : Run (step cfg) (Sparing cfg) (initial p) actions sys)
    (hstack : sys.stack = .native n :: .run a :: rest) (hmemory : sys.emu.memory = sys₁.emu.memory)
    (hcalls : sys.callsBy a.id = [call]) :
    (sys.stack = .native n :: .run a :: rest ∧ sys.emu.memory = sys₁.emu.memory ∧
      ∀ after sys₂ below value, Run (step cfg) (Sparing cfg) sys after sys₂ →
        sys₂.stack = .native n :: below →
        ReturnAddressKept a.context.cpu sp sys₁.emu.memory sys₂.emu.memory →
        ∃ sys₃, step cfg sys₂ (.ret value) = some sys₃ ∧
          Returned cfg ucEmuStart { a with programCounter := cfg.returnToNativeMagic } rest sp call
            sys₂.emu.memory value sys₃) ↔
      (cfg.onPrivateStack = true → activations rest = []) := by
  constructor
  · rintro ⟨-, -, hreturns⟩
    obtain ⟨sys₃, hret, hreturned⟩ := hreturns [] sys _ 0 .nil hstack fun _ => by rw [hmemory]
    exact (hreturned.toReturning.returned_iff (hrun.snoc (sparing_ret ..) hret)).mp hreturned
  · intro houtermost
    refine ⟨hstack, hmemory, fun after sys₂ below value hafter hstack₂ hkept => ?_⟩
    obtain ⟨sys₃, hret, hreturning⟩ :=
      h.returning_of_run hstop hrun hstack hcalls hafter hstack₂ hkept value
    have hrun₃ := (hrun.append hafter).snoc (sparing_ret ..) hret
    exact ⟨sys₃, hret, (hreturning.returned_iff hrun₃).mpr houtermost⟩

/-- A native function that the running activation calls comes back to it, and then to the caller
of `CpuRunFunc` unless that is a nested one on the private stack. -/
theorem comesBack_iff_of_turn {e : Engine} {programCounter : UINT64}
    (hstop : StopsAtNative cfg images ucEmuStart)
    (hrun : Run (step cfg) (Sparing cfg) (initial p) actions sys)
    (hstack : sys.stack = .run a :: rest) (hnone : sys.callsBy a.id = [])
    (hturn : a.turn ucEmuStart sys.emu = (e, .findTb))
    (hpc : e.regs a.context.cpu.programCounterReg = programCounter)
    (hmagic : programCounter ≠ cfg.returnToNativeMagic)
    (hsp : e.regs a.context.cpu.stackReg = pushed sp (entryFrameLength a.context.cpu))
    (hret : ReturnsTo cfg.returnToNativeMagic sp
      (nativeThunkEnter cfg a.context.cpu programCounter e).2 a.context.cpu) :
    let r := nativeThunkEnter cfg a.context.cpu programCounter e
    let exits := r.1.func = .cpuExitImage ∧ imageToExit sys.emu sys.emu.chain (r.1.args 0) ≠ none
    (¬ exits → ∃ sys', step cfg sys (a.turnAction ucEmuStart sys.emu) = some sys') ∧
    ∀ sys', step cfg sys (a.turnAction ucEmuStart sys.emu) = some sys' →
      sys'.callsBy a.id = [r.1] ∧
      (ComesBack cfg ucEmuStart { a with atCall := e.regs } rest sp r.1 r.2.memory sys.nextId sys' ↔
        (cfg.onPrivateStack = true → activations rest = [] ∨ exits)) := by
  intro r exits
  let a₁ : Activation := { a with atCall := e.regs }
  obtain ⟨sys₁, hbooks, hue, hmemory, himages, hstack₁, hnext, hcalls, hstep⟩ :=
    step_turn hstack hturn hpc hmagic
  rw [hnone] at hcalls
  obtain ⟨chain, hacc, hr⟩ := sound_of_run hrun
  have hchain : sys.emu.chain = chain := hacc.chained.chain_eq
  simp only [System.books, hstack] at hacc hr
  obtain ⟨l, rfl⟩ := hacc.chain_eq_cons
  have hregs : (⟨e.regs, sys₁.emu.memory⟩ : Engine) = r.2 := by
    rw [hmemory, ← nativeThunkEnter_regs cfg a.context.cpu programCounter e]
  have hdecoded : Decoded cfg sys₁ a₁ rest sp (a.context :: l) r.1 :=
    { booked := (hacc.toBooked.sameBooks hbooks).modify a.programCounter e.regs
      resumes := Resumes.update hr hacc.chained hbooks hue
      stackPointer := hsp
      returns := by
        show ReturnsTo cfg.returnToNativeMagic sp ⟨e.regs, sys₁.emu.memory⟩ a.context.cpu
        rwa [hregs]
      calls := hcalls }
  have himage : imageToExit sys₁.emu (a.context :: l) (r.1.args 0) =
      imageToExit sys.emu sys.emu.chain (r.1.args 0) := by
    rw [hchain]
    exact imageToExit_congr himages (fun j _ => congrArg _ (congrFun hbooks.context j)) _
  change step cfg sys (a.turnAction ucEmuStart sys.emu) = match r.1.func with
    | .nativeUnsupported => _
    | .cpuExitImage => _
    | _ => _ at hstep
  have hsnoc : ∀ {sys'}, step cfg sys (a.turnAction ucEmuStart sys.emu) = some sys' →
      Run (step cfg) (Sparing cfg) (initial p)
        (actions ++ [a.turnAction ucEmuStart sys.emu]) sys' :=
    fun h => hrun.snoc (sparing_turn hstack hturn (by rwa [hpc])) h
  unfold ComesBack
  cases hfunc : r.1.func with
  | nativeUnsupported =>
      rw [hfunc] at hstep
      obtain ⟨sys', hresume, hreturning⟩ :=
        hdecoded.resumes_wrapper hstop EFI_UNSUPPORTED (.refl _) rfl
      have hone : step cfg sys (a.turnAction ucEmuStart sys.emu) = some sys' := hstep.trans hresume
      refine ⟨fun _ => ⟨sys', hone⟩, fun sys'' h => ?_⟩
      obtain rfl := Option.some.inj (hone.symm.trans h)
      rw [hmemory] at hreturning
      refine ⟨hreturning.calls, (hreturning.returned_iff (hsnoc hone)).trans ?_⟩
      simp [exits, hfunc]
  | cpuExitImage =>
      rw [hfunc] at hstep
      by_cases hnone : imageToExit sys.emu sys.emu.chain (r.1.args 0) = none
      · -- `CpuExitImage` returns an error
        obtain ⟨s, hquiet, -, hm, hexit⟩ :=
          cpuExitImage_returns a₁ rest hdecoded.booked.chained (himage.trans hnone)
        obtain ⟨sys', hresume, hreturning⟩ :=
          hdecoded.resumes_wrapper hstop EFI_INVALID_PARAMETER hquiet hm
        have hone : step cfg sys (a.turnAction ucEmuStart sys.emu) = some sys' :=
          hstep.trans (hexit.trans hresume)
        refine ⟨fun _ => ⟨sys', hone⟩, fun sys'' h => ?_⟩
        obtain rfl := Option.some.inj (hone.symm.trans h)
        rw [hmemory] at hreturning
        refine ⟨hreturning.calls, ?_⟩
        have hnot : ¬ ∃ id below, sys'.stack = .native sys.nextId :: .exiting id :: below := by
          simp [hreturning.stack]
        simp only [exits, hnone, hnot, or_false, ne_eq, not_true_eq_false, and_false]
        exact hreturning.returned_iff (hsnoc hone)
      · -- the image exits
        have hexits : exits := ⟨hfunc, hnone⟩
        refine ⟨fun hnot => absurd hexits hnot, fun sys' h => ?_⟩
        have hexit := hstep.symm.trans h
        obtain ⟨id, below, hgone⟩ :=
          cpuExitImage_leaves hdecoded.booked.chained (himage ▸ hnone) hexit
        refine ⟨(callsBy_cpuExitImage hexit).trans hcalls, iff_of_true ?_ fun _ => .inr hexits⟩
        exact .inr ⟨id, below, by rw [hgone, hnext]⟩
  | native | efiWrapperCreateEventCommon | efiWrapperCloseEvent =>
      rw [hfunc] at hstep
      refine ⟨fun _ => ⟨_, hstep⟩, fun sys' h => ?_⟩
      have hsys' := Option.some.inj (h.symm.trans hstep)
      have hstack' : sys'.stack = .native sys.nextId :: .run a₁ :: rest := by
        rw [hsys', ← hnext, ← hstack₁]
      have hcalls' : sys'.callsBy a.id = [r.1] := by
        rw [hsys']
        exact hcalls
      have hiff := hdecoded.called_iff hstop (hsnoc h) hstack' (by rw [hsys']) hcalls'
      rw [hmemory] at hiff
      refine ⟨hcalls', hiff.trans ?_⟩
      simp [exits, hfunc]

end

section

variable {cfg : Config} {p : Platform} {ucEmuStart : UcEmuStart}
  {before : List Action} {sys : System} {cpu : CpuId} {programCounter : UINT64}
  {args : Args} {fp : Nat}

/-- With a free context the function is started and called, with the arguments; whether the call
comes back is decided before. -/
theorem runFunc_turn (hrun : Run (step cfg) (Sparing cfg) (initial p) before sys)
    (hstop : StopsAtNative cfg sys.emu.images ucEmuStart)
    (haligned : programCounter &&& (cfg.host.nativeInsnAlignment - 1) = 0)
    (houtside : ∀ r ∈ sys.emu.images.mImageList,
      (sys.emu.images.record r).contains programCounter = false)
    (hmagic : programCounter ≠ cfg.returnToNativeMagic) (hcall : sys.CanCall fp)
    (hsparing : Sparing cfg sys (.runFunc cpu programCounter args fp))
    (hpool : sys.emu.runContextAlloc cpu ≠ []) :
    ∃ sys₀ a call e, let sp := (sys.thunkEngine cfg cpu fp).regs cpu.stackReg
      let e₀ := (a.turn ucEmuStart sys₀.emu).1
      step cfg sys (.runFunc cpu programCounter args fp) = some sys₀ ∧
      (sys₀.stack = .run a :: sys.stack ∧ a.context.cpu = cpu ∧
        (⟨sys₀.emu.ue cpu, sys₀.emu.memory⟩ : Engine) =
          emuThunkPre cfg.returnToNativeMagic cpu args (sys.thunkEngine cfg cpu fp) ∧
        nativeThunkEnter cfg cpu programCounter e₀ = (call, e) ∧
        Decodes cfg cpu programCounter args sp sys.emu.memory call e) ∧
      (¬ ExitsImage cfg sys programCounter args fp →
        ∃ sys₁, step cfg sys₀ (a.turnAction ucEmuStart sys₀.emu) = some sys₁) ∧
      ∀ sys₁, step cfg sys₀ (a.turnAction ucEmuStart sys₀.emu) = some sys₁ →
        sys₁.callsBy a.id = [call] ∧
        (ComesBack cfg ucEmuStart { a with atCall := e₀.regs } sys.stack sp call e.memory
            sys₀.nextId sys₁ ↔
          (cfg.onPrivateStack = true →
            activations sys.stack = [] ∨ ExitsImage cfg sys programCounter args fp)) := by
  obtain ⟨chain, hsound⟩ := sound_of_run hrun
  have ⟨sys₀, _, hstep, _⟩ := runFunc_starts cfg programCounter args
    hsound.chained.threaded hcall hpool
  obtain ⟨k, s, rfl, rfl, hpc, hengine, hexit⟩ :=
    runFunc_entered hsound.toAccounted hpool hsparing.1.1 hstep
  let a := sys.activation cfg k none fp s
  let before₀ := sys.thunkEngine cfg k.cpu fp
  have hturn : a.turn ucEmuStart s =
      (startEngine cfg.returnToNativeMagic k.cpu args before₀ programCounter, .findTb) := by
    have hstopped := hstop k.cpu programCounter ⟨s.ue k.cpu, s.memory⟩
      (cpuIsNativeCb_of_not_contains houtside haligned)
    rw [Activation.turn, show a.programCounter = programCounter from hpc]
    refine hstopped.trans ?_
    rw [startEngine, ← hengine]
    rfl
  have hsp := startEngine_sp cfg.returnToNativeMagic k.cpu args before₀ programCounter
  obtain ⟨hret, haddress⟩ :=
    nativeThunkEnter_returnsTo cfg cfg.returnToNativeMagic k.cpu args before₀
    programCounter
  have hloads :
    (startEngine cfg.returnToNativeMagic k.cpu args before₀ programCounter).memory.loads =
      sys.emu.memory.loads := by
    simp [startEngine, emuThunkPre_eq, before₀, thunkEngine_loads]
  obtain ⟨addrs, hreads, hframe⟩ := nativeThunkEnter_reads cfg k.cpu (before₀.regs k.cpu.stackReg)
    programCounter hsp
  have hstart : (a.turn ucEmuStart (sys.entered cfg k none fp s).emu).1 =
      startEngine cfg.returnToNativeMagic k.cpu args before₀ programCounter :=
        congrArg Prod.fst hturn
  have hstartPc : (startEngine cfg.returnToNativeMagic k.cpu args before₀ programCounter).regs
      k.cpu.programCounterReg = programCounter := Function.update_self ..
  have hnone : (sys.entered cfg k none fp s).callsBy a.id = [] := callsBy_unused hrun
  obtain ⟨hsome, hback⟩ :=
    comesBack_iff_of_turn (a := a) hstop (hrun.snoc hsparing hstep) rfl hnone hturn
    hstartPc hmagic hsp hret
  have hexits : ((nativeThunkEnter cfg k.cpu programCounter
      (startEngine cfg.returnToNativeMagic k.cpu args before₀ programCounter)).1.func =
      .cpuExitImage ∧
      imageToExit (sys.entered cfg k none fp s).emu (sys.entered cfg k none fp s).emu.chain
        ((nativeThunkEnter cfg k.cpu programCounter
          (startEngine cfg.returnToNativeMagic k.cpu args before₀ programCounter)).1.args 0) ≠
          none) ↔
      ExitsImage cfg sys programCounter args fp := by
    rw [nativeThunkEnter_func, nativeThunkEnter_args,
      show (sys.entered cfg k none fp s).emu = s from rfl, hexit, ExitsImage]
  refine ⟨_, a, _, _, hstep, ⟨rfl, rfl, hengine, rfl, ?_⟩, ?_, ?_⟩
  · rw [hstart]
    exact ⟨nativeThunkEnter_func .., nativeThunkEnter_target .., haddress, nativeThunkEnter_args ..,
      addrs, hreads.trans (by rw [hloads]), hframe⟩
  · exact fun hnot => hsome fun h => hnot (hexits.mp h)
  · rw [hstart]
    intro sys₁ h
    obtain ⟨hcalls, hiff⟩ := hback sys₁ h
    exact ⟨hcalls, hiff.trans (forall_congr' fun _ => or_congr_right hexits)⟩

/-- A round trip takes a free context, and on the private stack it is an outermost one. -/
theorem RoundTrip.outermost {sys₀ : System} {a : Activation} {call : NativeCall} {e : Engine}
    (h : RoundTrip cfg ucEmuStart sys cpu programCounter args fp sys₀ a call e)
    (hrun : Run (step cfg) (Sparing cfg) (initial p) before sys)
    (hstop : StopsAtNative cfg sys.emu.images ucEmuStart)
    (haligned : programCounter &&& (cfg.host.nativeInsnAlignment - 1) = 0)
    (houtside : ∀ r ∈ sys.emu.images.mImageList,
      (sys.emu.images.record r).contains programCounter = false)
    (hmagic : programCounter ≠ cfg.returnToNativeMagic) (hcall : sys.CanCall fp)
    (hsparing : Sparing cfg sys (.runFunc cpu programCounter args fp)) :
    sys.emu.runContextAlloc cpu ≠ [] ∧ (cfg.onPrivateStack = true →
      activations sys.stack = [] ∨ ExitsImage cfg sys programCounter args fp) := by
  have hpool : sys.emu.runContextAlloc cpu ≠ [] := fun hnil => by
    have hreturned := h.started.symm.trans (runFunc_exhausted hcall hnil)
    obtain rfl := Option.some.inj hreturned
    have hlength := congrArg List.length h.stack
    simp [System.returned] at hlength
  refine ⟨hpool, fun hprivate => or_iff_not_imp_right.mpr fun hstays => ?_⟩
  obtain ⟨sys₀', a', call', e', hstep, ⟨hstack, -, -, henters, -⟩, hsome, hback⟩ :=
    runFunc_turn hrun hstop haligned houtside hmagic hcall hsparing hpool
  obtain rfl := Option.some.inj (hstep.symm.trans h.started)
  obtain rfl := Frame.run.inj (List.cons.inj (hstack.symm.trans h.stack)).1
  obtain ⟨rfl, rfl⟩ := Prod.mk.inj (henters.symm.trans h.enters)
  obtain ⟨sys₁, hturn⟩ := hsome hstays
  exact ((hback sys₁ hturn).2.mp (h.comesBack sys₁ hturn).2 hprivate).resolve_right hstays

/-- `CpuRunFunc` calls a native function: the function, or the driver's wrapper for
it, is called once, with the arguments, and when it returns `CpuRunFunc` returns its
result and the stack pointer is back where `EmuThunkPre` has found it; exactly when a
context is free and the call is not nested in another on the private stack.  In a build
that neither drops orphans nor switches stacks, every step is `Sparing`. -/
theorem roundTrip_iff (cfg : Config) (p : Platform) (ucEmuStart : UcEmuStart) (before : List Action)
    (sys : System) (cpu : CpuId) (programCounter : UINT64) (args : Args) (fp : Nat)
    (hrun : Run (step cfg) (Sparing cfg) (initial p) before sys)
    (hstop : StopsAtNative cfg sys.emu.images ucEmuStart)
    (haligned : programCounter &&& (cfg.host.nativeInsnAlignment - 1) = 0)
    (houtside : ∀ r ∈ sys.emu.images.mImageList,
      (sys.emu.images.record r).contains programCounter = false)
    (hmagic : programCounter ≠ cfg.returnToNativeMagic) (hcall : sys.CanCall fp)
    (hsparing : Sparing cfg sys (.runFunc cpu programCounter args fp)) :
    (∃ sys₀ a call e, RoundTrip cfg ucEmuStart sys cpu programCounter args fp sys₀ a call e) ↔
      sys.emu.runContextAlloc cpu ≠ [] ∧ (cfg.onPrivateStack = true →
        activations sys.stack = [] ∨ ExitsImage cfg sys programCounter args fp) := by
  constructor
  · rintro ⟨sys₀, a, call, e, h⟩
    exact h.outermost hrun hstop haligned houtside hmagic hcall hsparing
  · rintro ⟨hpool, houtermost⟩
    obtain ⟨sys₀, a, call, e, hstep, ⟨hstack, hcpu, hentry, henters, hdecodes⟩, hsome, hback⟩ :=
      runFunc_turn hrun hstop haligned houtside hmagic hcall hsparing hpool
    refine ⟨sys₀, a, call, e, hstep, hstack, hcpu, hentry, henters, hdecodes, fun hfunc => ?_,
      fun sys₁ hturn => ?_⟩
    · exact hsome fun hexits => hfunc (hdecodes.func.trans hexits.1)
    · obtain ⟨hcalls, hiff⟩ := hback sys₁ hturn
      exact ⟨hcalls, hiff.mpr houtermost⟩

end

/-- An engine that can run nothing: it stops, or faults, wherever it is started. -/
def ucEmuStartEmpty (cfg : Config) : UcEmuStart := fun cpu programCounter e =>
  if cpuIsNativeCb cfg oneImageEach programCounter then
    (⟨Function.update e.regs cpu.programCounterReg programCounter, e.memory⟩, .findTb)
  else (e, .other 14)

/-- The arguments 1 to 16. -/
def countingArgs : Args := fun i => BitVec.ofNat 64 (i.val + 1)

/-- The firmware calls a native function as an x64 function, and gets its result. -/
theorem roundTrip_iff_firmware :
    ∃ sys₀ sys₁ sys₃ sys₄ call, ∃ a : Activation, step riscvConfig (initial examplePlatform)
        (.runFunc .x64 0x90000000 countingArgs 100) = some sys₀ ∧
      step riscvConfig sys₀ (a.turnAction (ucEmuStartEmpty riscvConfig) sys₀.emu) = some sys₁ ∧
      step riscvConfig sys₁ (.ret 7) = some sys₃ ∧ sys₃.callsBy a.id = [call] ∧
      call.args = countingArgs ∧
      step riscvConfig sys₃ ({ a with
        programCounter := riscvConfig.returnToNativeMagic
        atCall := (a.turn (ucEmuStartEmpty riscvConfig) sys₀.emu).1.regs }.turnAction
          (ucEmuStartEmpty riscvConfig) sys₃.emu) = some sys₄ ∧
      sys₄.trace.head? = some (.returned a.id 7) := by
  have hstop : StopsAtNative riscvConfig (initial examplePlatform).emu.images
      (ucEmuStartEmpty riscvConfig) := fun cpu programCounter e h => if_pos h
  have hcalled : (initial examplePlatform).CanCall 100 := ⟨⟨0, [], rfl⟩, by decide⟩
  obtain ⟨sys₀, a, call, e, htrip⟩ := (roundTrip_iff riscvConfig examplePlatform
    (ucEmuStartEmpty riscvConfig) []
    (initial examplePlatform) .x64 0x90000000 countingArgs 100 .nil hstop
    (by decide) (by decide) (by decide) hcalled (by decide)).mpr
    ⟨by decide, fun hprivate => nomatch hprivate⟩
  have hfunc : call.func = .native := htrip.decodes.func.trans (by decide)
  obtain ⟨sys₁, hturn⟩ := htrip.calls (by rw [hfunc]; decide)
  obtain ⟨-, hcomes⟩ := htrip.comesBack sys₁ hturn
  simp only [ComesBack, hfunc] at hcomes
  obtain ⟨hstack₁, hmemory, hreturns⟩ := hcomes
  obtain ⟨sys₃, hret, hreturned⟩ := hreturns [] sys₁ _ 7 .nil hstack₁ fun _ => by rw [hmemory]
  obtain ⟨sys₄, hlast, -, htrace⟩ := hreturned.returned
  exact ⟨sys₀, sys₁, sys₃, sys₄, call, a, htrip.started, hturn, hret, hreturned.calls,
    htrip.decodes.args, hlast, by rw [htrace]; rfl⟩

/-- On the private stack, native code called by an x64 function calls a native function as an x64
function, and does not get its result. -/
theorem nestedNative_lost :
    ∃ sys, Run (step privateConfig) (Sparing privateConfig) (initial examplePlatform)
        [.runFunc .x64 0x10400 (fun _ => 0) 100, callOut .x64] sys ∧
      ¬ ∃ sys₀ a call e, RoundTrip privateConfig (ucEmuStartEmpty privateConfig) sys .x64 0x90000000
        countingArgs 90 sys₀ a call e := by
  obtain ⟨sys, id, a, rest, hexec, himages, hstack, hfits⟩ :
    ∃ sys id a rest, exec (step privateConfig)
      (Sparing privateConfig) (initial examplePlatform)
      [.runFunc .x64 0x10400 (fun _ => 0) 100, callOut .x64] = some sys ∧
      sys.emu.images = oneImageEach ∧ sys.stack = .native id :: .run a :: rest ∧
      fpFits 90 sys.stack = true :=
    ⟨_, _, _, _, rfl, rfl, rfl, rfl⟩
  refine ⟨sys, .of_exec hexec, fun ⟨sys₀, b, call, e, htrip⟩ => ?_⟩
  have hstop : StopsAtNative privateConfig sys.emu.images (ucEmuStartEmpty privateConfig) := by
    rw [himages]
    exact fun cpu programCounter e h => if_pos h
  have houtside : ∀ r ∈ sys.emu.images.mImageList,
      (sys.emu.images.record r).contains 0x90000000 = false := by
    rw [himages]
    decide
  obtain ⟨-, houtermost⟩ := htrip.outermost (.of_exec hexec) hstop (by decide) houtside (by decide)
    ⟨⟨id, _, hstack⟩, hfits⟩ (sparing_runFunc rfl ..)
  rcases houtermost rfl with hnone | ⟨hexit, -⟩
  · simp [hstack] at hnone
  · exact absurd hexit (by decide)

end MultiArchUefi
