import MultiArchUefi.Moves

/-!
# MultiArchUefi.OneStack

The same system in a build without `MAU_ON_PRIVATE_STACK`.

`mOriginalStack` is read in one place, the end of `CpuRunCtxOnPrivateStack`.  As
long as the context that switched to the private stack is the only one to get
there, forgetting about the private stack turns every step into a step of the
other build.
-/

namespace MultiArchUefi

open Chain

/-! ## forgetting the private stack -/

def State.oneStack (s : State) : State := { s with mOriginalStack := none }

def Activation.oneStack (a : Activation) : Activation := { a with switched := false }

def Frame.oneStack : Frame → Frame
  | .native id => .native id
  | .run a => .run a.oneStack
  | .exiting id => .exiting id

def System.oneStack (sys : System) : System :=
  { sys with emu := sys.emu.oneStack, stack := sys.stack.map Frame.oneStack }

/-- The build without `MAU_ON_PRIVATE_STACK`. -/
def Config.oneStack (cfg : Config) : Config := { cfg with onPrivateStack := false }

@[simp] theorem oneStack_native (id : Nat) : (Frame.native id).oneStack = .native id := rfl

@[simp] theorem oneStack_run (a : Activation) : (Frame.run a).oneStack = .run a.oneStack := rfl

@[simp] theorem oneStack_exiting (id : Nat) : (Frame.exiting id).oneStack = .exiting id := rfl

/-! ## operations on the globals -/

namespace State

/-- No `ASSERT` of the emulator looks at `mOriginalStack`. -/
theorem oneStack_assert (s : State) (a : Assertion) (p : Prop) [Decidable p] :
    s.oneStack.assert a p = (s.assert a p).oneStack := by
  simp only [assert_eq]
  rfl

theorem oneStack_criticalEnd (s : State) : s.oneStack.criticalEnd = s.criticalEnd.oneStack := by
  simp only [criticalEnd, assert_eq]
  rfl

/-- Counting a context of an engine down, with its `ASSERT`. -/
theorem oneStack_countDown (cpu : CpuId) (s : State) :
    s.oneStack.countDown cpu = (s.countDown cpu).oneStack := by
  simp only [countDown, assert_eq]
  rfl

/-- The saved `uc_context` is restored alike in both builds. -/
theorem oneStack_restoreSaved (k : CtxId) (s : State) :
    s.oneStack.restoreSaved k = (s.restoreSaved k).oneStack := by
  unfold restoreSaved
  show (if (s.context k).haveSaved then _ else _) = _
  split <;> rfl

end State

theorem oneStack_cpuFreeContext (k : CtxId) (s : State) :
    cpuFreeContext k s.oneStack = (cpuFreeContext k s).oneStack := by
  simp only [cpuFreeContext, State.assert_eq]
  rfl

/-- One turn of the first loop of `CpuCompressLeakedContexts`. -/
theorem oneStack_popLeakedContext (k : CtxId) (s : State) :
    popLeakedContext k s.oneStack =
      ((popLeakedContext k s).1, (popLeakedContext k s).2.oneStack) := by
  simp only [popLeakedContext, State.oneStack_restoreSaved, State.oneStack_countDown]
  rfl

/-- One turn of a loop that frees a list of contexts. -/
theorem oneStack_freeNextContext (k : CtxId) (s : State) :
    freeNextContext k s.oneStack = ((freeNextContext k s).1, (freeNextContext k s).2.oneStack) := by
  simp only [freeNextContext, oneStack_cpuFreeContext]
  rfl

/-- `CpuCompressLeakedContexts` is the same function in both builds, and its loops end
in the same runs. -/
theorem oneStack_cpuCompressLeakedContexts (k : CtxId) (onImageExit : Bool) (s : State) :
    cpuCompressLeakedContexts k onImageExit s.oneStack =
      (cpuCompressLeakedContexts k onImageExit s).map State.oneStack := by
  let toContext := if onImageExit then s.next k else some k
  let s₀ : State := { s.criticalBegin with mTopContext := toContext }
  have hfirst := walk_map oneStack_popLeakedContext toContext chainFuel s.mTopContext s₀
  unfold cpuCompressLeakedContexts
  change (walk popLeakedContext toContext chainFuel s.mTopContext s₀.oneStack >>= fun s' =>
      walk freeNextContext toContext chainFuel s.mTopContext s'.criticalEnd) =
    (walk popLeakedContext toContext chainFuel s.mTopContext s₀ >>= fun s' =>
      walk freeNextContext toContext chainFuel s.mTopContext s'.criticalEnd).map State.oneStack
  rw [hfirst]
  cases walk popLeakedContext toContext chainFuel s.mTopContext s₀ with
  | none => rfl
  | some s₁ =>
      show walk freeNextContext toContext chainFuel s.mTopContext s₁.oneStack.criticalEnd = _
      rw [State.oneStack_criticalEnd]
      exact walk_map oneStack_freeNextContext toContext chainFuel s.mTopContext s₁.criticalEnd

/-- The check for leaked contexts at the return of a native call. -/
theorem oneStack_nativeThunkCheckLeakedContexts (k : CtxId) (s : State) :
    nativeThunkCheckLeakedContexts k s.oneStack =
      (nativeThunkCheckLeakedContexts k s).map State.oneStack := by
  unfold nativeThunkCheckLeakedContexts
  show (if s.mTopContext ≠ some k then _ else _) = _
  split
  · exact oneStack_cpuCompressLeakedContexts k false s
  · rfl

/-- `CpuAllocContext` takes the same context from the pool, or fails alike. -/
theorem oneStack_cpuAllocContext (cpu : CpuId) (s : State) :
    cpuAllocContext cpu s.oneStack =
      (cpuAllocContext cpu s).map fun ks => (ks.1, ks.2.oneStack) := by
  have hsame : s.oneStack.runContextAlloc cpu = s.runContextAlloc cpu := rfl
  cases hpool : s.runContextAlloc cpu with
  | nil => simp [cpuAllocContext, hsame, hpool]
  | cons index rest =>
      simp only [cpuAllocContext, hsame, hpool]
      rfl

/-- The first loop of `CpuDetectOrphanContexts` compares frames, which both builds share. -/
theorem oneStack_detectOrphans (k : CtxId) (n : Nat) (orphan : Option CtxId) (s : State) :
    detectOrphans k n orphan s.oneStack =
      (detectOrphans k n orphan s).map fun os => (os.1, os.2.oneStack) := by
  induction n generalizing orphan s with
  | zero => rfl
  | succ n ih =>
      rw [detectOrphans, detectOrphans]
      have hnext : s.oneStack.next k = s.next k := rfl
      rw [hnext]
      cases s.next k with
      | none => rfl
      | some prev =>
          simp only [State.oneStack_countDown]
          show (if (s.context k).leakCookie ≥ (s.context prev).leakCookie then _ else _) = _
          split
          · exact ih _ ((s.countDown k.cpu).modifyContext k fun c =>
              { c with prevContext := (s.countDown k.cpu).next prev })
          · rfl

theorem oneStack_lastOrphan (s : State) (stop : Option CtxId) (n : Nat) (iter : CtxId) :
    lastOrphan s.oneStack stop n iter = lastOrphan s stop n iter := by
  induction n generalizing iter with
  | zero => rfl
  | succ n ih =>
      rw [lastOrphan, lastOrphan]
      simp only [ih]
      rfl

/-- `CpuDetectOrphanContexts` finds the same orphans in both builds. -/
theorem oneStack_cpuDetectOrphanContexts (k : CtxId) (fp : Nat) (s : State) :
    cpuDetectOrphanContexts k fp s.oneStack =
      (cpuDetectOrphanContexts k fp s).map fun os => (os.1, os.2.oneStack) := by
  let s₀ := s.modifyContext k fun c => { c with leakCookie := fp }
  have hdetect := oneStack_detectOrphans k chainFuel none s₀
  unfold cpuDetectOrphanContexts
  change (detectOrphans k chainFuel none s₀.oneStack).bind _ =
    ((detectOrphans k chainFuel none s₀).bind _).map _
  rw [hdetect]
  cases detectOrphans k chainFuel none s₀ with
  | none => rfl
  | some os =>
      obtain ⟨orphan, s₁⟩ := os
      cases orphan with
      | none => rfl
      | some first =>
          simp only [Option.map_some, Option.bind_some]
          show ((lastOrphan s₁.oneStack (s₁.next k) chainFuel first).bind _) = _
          rw [oneStack_lastOrphan]
          cases lastOrphan s₁ (s₁.next k) chainFuel first <;> rfl

/-! ## entering a context -/

theorem oneStack_cpuRunCtxCheckOrphans (cfg : Config) (k : CtxId) (fp : Nat) (s : State) :
    cpuRunCtxCheckOrphans cfg.oneStack k fp s.oneStack =
      (cpuRunCtxCheckOrphans cfg k fp s).map State.oneStack := by
  unfold cpuRunCtxCheckOrphans
  cases hcheck : cfg.checkOrphanContexts with
  | false => simp [Config.oneStack, hcheck, State.oneStack_criticalEnd]
  | true =>
      simp only [Config.oneStack, hcheck, if_true, oneStack_cpuDetectOrphanContexts]
      cases cpuDetectOrphanContexts k fp s with
      | none => rfl
      | some os =>
          obtain ⟨orphan, s₁⟩ := os
          simp only [Option.map_some]
          show cpuFreeOrphanContexts orphan s₁.oneStack.criticalEnd =
            (cpuFreeOrphanContexts orphan s₁.criticalEnd).map State.oneStack
          rw [State.oneStack_criticalEnd]
          exact walk_map oneStack_freeNextContext none chainFuel orphan s₁.criticalEnd

/-- The save of the outer context, or the first set-up of the engine. -/
theorem oneStack_cpuRunCtxSaveOrInit (k : CtxId) (s : State) :
    cpuRunCtxSaveOrInit k s.oneStack = (cpuRunCtxSaveOrInit k s).oneStack := by
  unfold cpuRunCtxSaveOrInit
  show (if s.contexts k.cpu > 1 then _ else _) = _
  split <;> rfl

/-- A run is entered with the same books; the build with a private stack also fills a
jump buffer. -/
theorem oneStack_cpuRunCtxEnter (cfg : Config) (jumpBuffer : Option Nat) (k : CtxId)
    (fp : Nat) (s : State) :
    cpuRunCtxEnter cfg.oneStack none k fp s.oneStack =
      (cpuRunCtxEnter cfg jumpBuffer k fp s).map State.oneStack := by
  -- where the frame is the outermost one, the jump buffer is kept before the check
  have hrest (s₀ : State) (hs₀ : cpuEnterCritical k s.oneStack = s₀.oneStack) :
      cpuRunCtxEnter cfg.oneStack none k fp s.oneStack =
        (((cpuRunCtxCheckOrphans cfg k fp s₀).bind fun s => some (cpuRunCtxSaveOrInit k s)).bind
          fun s =>
          some (s.withEngine k.cpu
            (emuThunkPre cfg.returnToNativeMagic k.cpu (s.context k).args))).map
          State.oneStack := by
    have hcheck := oneStack_cpuRunCtxCheckOrphans cfg k fp s₀
    unfold cpuRunCtxEnter cpuRunCtxOnPrivateStackEnter
    simp only [hs₀]
    rw [hcheck]
    cases cpuRunCtxCheckOrphans cfg k fp s₀ with
    | none => rfl
    | some s₁ =>
        simp only [Option.map_some, Option.bind_some, Option.bind_eq_bind,
          oneStack_cpuRunCtxSaveOrInit]
        rfl
  cases jumpBuffer with
  | none => exact hrest (cpuEnterCritical k s) rfl
  | some id => exact hrest { cpuEnterCritical k s with mOriginalStack := some id } rfl

/-! ## the native stack -/

/-- The activations on the stack, in the other build. -/
theorem activations_oneStack (stack : List Frame) :
    activations (stack.map Frame.oneStack) = (activations stack).map Activation.oneStack := by
  induction stack with
  | nil => rfl
  | cons f stack ih => cases f <;> simp [ih]

theorem fpFits_oneStack (fp : Nat) (stack : List Frame) :
    fpFits fp (stack.map Frame.oneStack) = fpFits fp stack := by
  rw [fpFits, fpFits, activations_oneStack, List.all_map]
  rfl

/-- A long jump to a `CpuRunImage` drops the same frames in both builds. -/
theorem unwindToRun_oneStack (id : Nat) (stack : List Frame) :
    unwindToRun id (stack.map Frame.oneStack) =
      (unwindToRun id stack).map fun ar => (ar.1.oneStack, ar.2.map Frame.oneStack) := by
  induction stack with
  | nil => rfl
  | cons f stack ih =>
      cases f with
      | native id' => exact ih
      | exiting id' => exact ih
      | run a =>
          rw [List.map_cons, oneStack_run, unwindToRun, unwindToRun, ih]
          show (if a.id = id then _ else _) = _
          split <;> rfl

/-- A long jump to native code drops the same frames in both builds. -/
theorem unwindToNative_oneStack (id : Nat) (stack : List Frame) :
    unwindToNative id (stack.map Frame.oneStack) =
      (unwindToNative id stack).map (·.map Frame.oneStack) := by
  induction stack with
  | nil => rfl
  | cons f stack ih =>
      cases f with
      | run a => exact ih
      | exiting id' => exact ih
      | native id' =>
          rw [List.map_cons, oneStack_native, unwindToNative, unwindToNative, ih]
          split <;> rfl

/-! ## functions of the system -/

namespace System

variable {cfg : Config} {a : Activation} {rest : List Frame}

/-- Entering a run commutes with forgetting the private stack. -/
theorem oneStack_cpuRunCtx (cfg : Config) (sys : System) (k : CtxId)
    (image : Option RecordId) (fp : Nat) (s : State) :
    sys.oneStack.cpuRunCtx cfg.oneStack k image fp s.oneStack =
      (sys.cpuRunCtx cfg k image fp s).map oneStack := by
  unfold cpuRunCtx
  show (cpuRunCtxEnter cfg.oneStack none k fp s.oneStack).map _ = _
  rw [oneStack_cpuRunCtxEnter cfg (if sys.switches cfg then some sys.nextId else none)]
  cases cpuRunCtxEnter cfg (if sys.switches cfg then some sys.nextId else none) k fp s <;> rfl

/-- `CpuRunFunc`, up to the first instruction that is emulated. -/
theorem oneStack_cpuRunFunc (cfg : Config) (sys : System) (cpu : CpuId) (programCounter : UINT64)
    (args : Args) (fp : Nat) :
    sys.oneStack.cpuRunFunc cfg.oneStack cpu programCounter args fp =
      (sys.cpuRunFunc cfg cpu programCounter args fp).map oneStack := by
  have halloc := oneStack_cpuAllocContext cpu sys.emu
  simp only [cpuRunFunc, show sys.oneStack.emu = sys.emu.oneStack from rfl, halloc]
  cases cpuAllocContext cpu sys.emu with
  | none => rfl
  | some ks =>
      exact oneStack_cpuRunCtx cfg sys ks.1 none fp
        (ks.2.modifyContext ks.1 fun c => { c with programCounter := programCounter, args := args })

/-- `CpuRunImage`, up to the first instruction that is emulated. -/
theorem oneStack_cpuRunImage (cfg : Config) (sys : System) (imageHandle systemTable : UINT64)
    (loadedImage : Except UINT64 UINT64) (fp : Nat) :
    sys.oneStack.cpuRunImage cfg.oneStack imageHandle systemTable loadedImage fp =
      (sys.cpuRunImage cfg imageHandle systemTable loadedImage fp).map oneStack := by
  cases loadedImage with
  | error status => rfl
  | ok imageBase =>
      simp only [cpuRunImage, show sys.oneStack.emu = sys.emu.oneStack from rfl,
        show sys.emu.oneStack.images = sys.emu.images from rfl]
      cases imageFindByAddress sys.emu.images imageBase with
      | none => rfl
      | some record =>
          have halloc := oneStack_cpuAllocContext (sys.emu.images.record record).cpu sys.emu
          simp only [halloc]
          cases cpuAllocContext (sys.emu.images.record record).cpu sys.emu with
          | none => rfl
          | some ks =>
              let s := ks.2.modifyRecord record fun r => { r with imageHandle := imageHandle }
              exact oneStack_cpuRunCtx cfg sys ks.1 (some record) fp ((s.modifyContext ks.1 fun c =>
                { c with
                  imageRecord := some record
                  programCounter := (s.images.record record).imageEntry
                  args := imageArgs imageHandle systemTable }).modifyRecord record fun r =>
                    { r with imageExitJumpBuffer := some sys.nextId })

/-- A native call returns to the run that made it alike in both builds. -/
theorem oneStack_resume (sys : System) (a : Activation) (rest : List Frame) (value : UINT64) :
    sys.oneStack.resume a.oneStack (rest.map Frame.oneStack) value =
      (sys.resume a rest value).map oneStack := by
  unfold resume
  show (nativeThunkCheckLeakedContexts a.context sys.emu.oneStack).map _ = _
  rw [oneStack_nativeThunkCheckLeakedContexts]
  cases nativeThunkCheckLeakedContexts a.context sys.emu <;> rfl

/-- The search of `CpuExitImage` for an image's context follows links only. -/
theorem oneStack_findImageContext (s : State) (n : Nat) (context : Option CtxId) :
    findImageContext s.oneStack n context = findImageContext s n context := by
  induction n generalizing context with
  | zero => rfl
  | succ n ih =>
      cases context with
      | none => rfl
      | some k =>
          simp only [findImageContext, ih]
          rfl

/-- What `CpuRunImage` does behind the long jump of `CpuExitImage`. -/
theorem oneStack_cpuRunImageExit (sys : System) (id : Nat) :
    sys.oneStack.cpuRunImageExit id = (sys.cpuRunImageExit id).map oneStack := by
  have hunwind := unwindToRun_oneStack id sys.stack
  unfold cpuRunImageExit
  change (unwindToRun id (sys.stack.map Frame.oneStack)).bind _ =
    ((unwindToRun id sys.stack).bind _).map _
  rw [hunwind]
  cases unwindToRun id sys.stack with
  | none => rfl
  | some ar =>
      obtain ⟨a, rest⟩ := ar
      simp only [Option.map_some, Option.bind_some]
      show a.image.bind _ = (a.image.bind _).map _
      cases a.image with
      | none => rfl
      | some record =>
          simp only [Option.bind_some]
          show (cpuCompressLeakedContexts a.context true sys.emu.oneStack).bind _ = _
          rw [oneStack_cpuCompressLeakedContexts]
          cases cpuCompressLeakedContexts a.context true sys.emu <;> rfl

/-- `CpuExitImage` refuses, or long-jumps, alike in both builds. -/
theorem oneStack_cpuExitImage (sys : System) (a : Activation) (rest : List Frame) (args : Args) :
    sys.oneStack.cpuExitImage a.oneStack (rest.map Frame.oneStack) args =
      (sys.cpuExitImage a rest args).map oneStack := by
  unfold cpuExitImage
  have himages : sys.oneStack.emu.images = sys.emu.images := rfl
  simp only [himages]
  cases imageFindByHandle sys.emu.images (args 0) with
  | none => exact oneStack_resume sys a rest EFI_INVALID_PARAMETER
  | some currentImageRecord =>
      show (findImageContext sys.emu.criticalBegin.oneStack chainFuel sys.emu.mTopContext).bind _ =
        ((findImageContext sys.emu.criticalBegin chainFuel sys.emu.mTopContext).bind _).map _
      rw [oneStack_findImageContext]
      cases findImageContext sys.emu.criticalBegin chainFuel sys.emu.mTopContext with
      | none => rfl
      | some context =>
          simp only [Option.bind_some,
            show sys.oneStack.emu.criticalBegin = sys.emu.criticalBegin.oneStack
            from rfl, State.oneStack_assert, State.oneStack_criticalEnd]
          generalize (sys.emu.criticalBegin.assert .imageContext (context ≠ none)).criticalEnd = s
          cases context with
          | none => exact oneStack_resume { sys with emu := s } a rest EFI_INVALID_PARAMETER
          | some k =>
              show (if (s.context k).imageRecord ≠ some currentImageRecord then _ else _) = _
              by_cases hrecord : (s.context k).imageRecord ≠ some currentImageRecord
              · simp only [if_pos hrecord]
                exact oneStack_resume { sys with emu := s } a rest EFI_INVALID_PARAMETER
              · simp only [if_neg hrecord]
                let s' := s.setImageExit currentImageRecord args
                show (s'.images.record currentImageRecord).imageExitJumpBuffer.bind _ =
                  ((s'.images.record currentImageRecord).imageExitJumpBuffer.bind _).map _
                cases (s'.images.record currentImageRecord).imageExitJumpBuffer with
                | none => rfl
                | some id => exact oneStack_cpuRunImageExit { sys with emu := s' } id

/-- A native call from emulated code, whichever function it reaches. -/
theorem oneStack_callNative (cfg : Config) (sys : System) (a : Activation) (rest : List Frame)
    (programCounter : UINT64) :
    sys.oneStack.callNative cfg.oneStack a.oneStack (rest.map Frame.oneStack) programCounter =
      (sys.callNative cfg a rest programCounter).map oneStack := by
  let regs := sys.emu.ue a.context.cpu
  let r := nativeThunkEnter cfg a.context.cpu programCounter ⟨regs, sys.emu.memory⟩
  let b : Activation := { a with atCall := regs }
  have hsame : nativeThunkEnter cfg.oneStack a.oneStack.context.cpu programCounter
      ⟨sys.oneStack.emu.ue a.oneStack.context.cpu, sys.oneStack.emu.memory⟩ = r := rfl
  have hr : nativeThunkEnter cfg a.context.cpu programCounter
      ⟨sys.emu.ue a.context.cpu, sys.emu.memory⟩ = r := rfl
  simp only [callNative, hsame, hr]
  clear_value r
  cases hfunc : r.1.func with
  | nativeUnsupported => exact oneStack_resume (sys.called b rest r.1 r.2) b rest EFI_UNSUPPORTED
  | cpuExitImage => exact oneStack_cpuExitImage (sys.called b rest r.1 r.2) b rest r.1.args
  | _ => rfl

/-- What `uc_emu_start` leaves in the engine and in memory. -/
theorem oneStack_emulated (cpu : CpuId) (regs : RegFile) (memory : WordMemory.Memory)
    (ucErr : UcErr) (s : State) :
    emulated cpu regs memory ucErr s.oneStack = (emulated cpu regs memory ucErr s).oneStack := by
  simp only [emulated, State.criticalEnd, State.assert_eq]
  rfl

/-- The end of a context that returns to its own caller in both builds. -/
theorem oneStack_finish (sys : System) {l : List CtxId} {ret : UINT64}
    (h : Chained sys.emu (a.context :: l))
    (hswitch : cfg.onPrivateStack = true → sys.emu.mOriginalStack = some a.id) :
    sys.oneStack.finish cfg.oneStack a.oneStack (rest.map Frame.oneStack) ret =
      (sys.finish cfg a rest ret).map oneStack := by
  have h' : Chained sys.oneStack.emu (a.oneStack.context :: l) :=
    h.congr rfl (fun _ _ => .of_eq rfl) rfl rfl fun _ ha _ => ha
  rw [finish_eq _ _ ret h hswitch, finish_eq _ _ ret h' fun hcfg => absurd hcfg Bool.false_ne_true]
  rfl

/-- The loop of `CpuRunCtxInternal` until other code runs, where the jump buffer of a
run that ends belongs to that very run. -/
theorem oneStack_cpuRunCtxInternal (sys : System) {l : List CtxId} {regs : RegFile}
    {memory : WordMemory.Memory} {ucErr : UcErr} (h : Chained sys.emu (a.context :: l))
    (hswitch : EndsRun cfg a regs ucErr → cfg.onPrivateStack = true →
      sys.emu.mOriginalStack = some a.id) :
    sys.oneStack.cpuRunCtxInternal cfg.oneStack a.oneStack
      (rest.map Frame.oneStack) regs memory ucErr =
      (sys.cpuRunCtxInternal cfg a rest regs memory ucErr).map oneStack := by
  obtain ⟨hbooks, hue, -, -⟩ := emulated_spec a.context.cpu regs memory ucErr sys.emu
  have hregs : (emulated a.context.cpu regs memory ucErr sys.emu).ue a.context.cpu = regs := by
    rw [hue, Function.update_self]
  have hemulated := oneStack_emulated a.context.cpu regs memory ucErr sys.emu
  have hregs' : (emulated a.context.cpu regs memory ucErr sys.emu).oneStack.ue a.context.cpu =
      regs := hregs
  have hreason' : cpuExitReason cfg.oneStack = cpuExitReason cfg := rfl
  unfold cpuRunCtxInternal
  simp only [show sys.oneStack.emu = sys.emu.oneStack from rfl,
    show a.oneStack.context = a.context from rfl, hregs, hregs', hreason', hemulated]
  generalize emulated a.context.cpu regs memory ucErr sys.emu = s at *
  have hchained : Chained s (a.context :: l) := hbooks.chained h
  cases hreason : cpuExitReason cfg ucErr (regs a.context.cpu.programCounterReg) with
  | none => rfl
  | callToNative => exact oneStack_callNative cfg { sys with emu := s } a rest _
  | returnToNative =>
      refine oneStack_finish
        { sys with emu := s.withEngine a.context.cpu (emuThunkPost a.context.cpu) }
        ((SameBooks.withEngine s _ _).chained hchained) fun hcfg => ?_
      exact hbooks.mOriginalStack.trans (hswitch (.inl hreason) hcfg)
  | failedEmu =>
      refine oneStack_finish { sys with emu := s } hchained fun hcfg => ?_
      exact hbooks.mOriginalStack.trans (hswitch (.inr hreason) hcfg)

end System

/-! ## steps and runs -/

variable {cfg : Config} {sys : System} {action : Action} {chain : List CtxId}

/-- As long as only the context that switched to the private stack finishes, a
step is one of the build without a private stack. -/
theorem step_oneStack (h : Accounted cfg (sys.books chain))
    (hswitch : FinishesSwitched cfg sys action) :
    step cfg.oneStack sys.oneStack action = (step cfg sys action).map System.oneStack := by
  obtain ⟨emu, stack, nextId, trace⟩ := sys
  cases action with
  | runFunc cpu programCounter args fp =>
      cases stack with
      | nil => rfl
      | cons frame rest =>
          cases frame with
          | run a => rfl
          | exiting id => rfl
          | native id =>
              have hfits := fpFits_oneStack fp (.native id :: rest)
              have hrun := System.oneStack_cpuRunFunc cfg
                ⟨emu, .native id :: rest, nextId, trace⟩ cpu
                programCounter args fp
              simp only [step, System.oneStack, List.map_cons, oneStack_native] at hrun hfits ⊢
              rw [hfits, hrun]
              split <;> rfl
  | runImage imageHandle systemTable loadedImage fp =>
      cases stack with
      | nil => rfl
      | cons frame rest =>
          cases frame with
          | run a => rfl
          | exiting id => rfl
          | native id =>
              have hfits := fpFits_oneStack fp (.native id :: rest)
              have hrun := System.oneStack_cpuRunImage cfg
                ⟨emu, .native id :: rest, nextId, trace⟩ imageHandle
                systemTable loadedImage fp
              simp only [step, System.oneStack, List.map_cons, oneStack_native] at hrun hfits ⊢
              rw [hfits, hrun]
              split <;> rfl
  | emulate regs memory ucErr =>
      cases stack with
      | nil => rfl
      | cons frame rest =>
          cases frame with
          | native id => rfl
          | exiting id => rfl
          | run a =>
              obtain ⟨l, hchain⟩ : ∃ l, chain = a.context :: l := h.chain_eq_cons
              have hchained : Chained emu (a.context :: l) := hchain ▸ h.chained
              refine System.oneStack_cpuRunCtxInternal ⟨emu, .run a :: rest, nextId, trace⟩ hchained
                fun hends hcfg => ?_
              have hfinishing : Action.finishing cfg ⟨emu, .run a :: rest, nextId, trace⟩
                  (.emulate regs memory ucErr) = some a := by simp [Action.finishing, hends]
              exact (Live.only_of_switched h.live hcfg (hswitch a hfinishing hcfg)).2
  | store memory =>
      cases stack with
      | nil => rfl
      | cons frame rest => cases frame <;> rfl
  | ret value =>
      cases stack with
      | nil => rfl
      | cons frame below =>
          cases frame with
          | run a => rfl
          | exiting id => rfl
          | native id =>
              cases below with
              | nil => rfl
              | cons caller rest =>
                  cases caller with
                  | native id' => rfl
                  | run a =>
                      exact System.oneStack_resume
                        ⟨emu, .native id :: .run a :: rest, nextId, trace⟩ a rest value
                  | exiting id' =>
                      simp only [step, System.oneStack, List.map_cons, oneStack_native,
                        oneStack_exiting, Option.map_some, State.oneStack_assert]
  | longJump id =>
      cases stack with
      | nil => rfl
      | cons frame rest =>
          cases frame with
          | run a => rfl
          | exiting id' => rfl
          | native id' =>
              have hunwind := unwindToNative_oneStack id (.native id' :: rest)
              simp only [step, System.oneStack, List.map_cons, oneStack_native] at hunwind ⊢
              rw [hunwind]
              cases unwindToNative id (.native id' :: rest) <;> rfl

end MultiArchUefi
