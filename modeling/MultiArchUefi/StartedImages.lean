import MultiArchUefi.Accounting
import MultiArchUefi.ImageRegistry

/-!
# MultiArchUefi.StartedImages

Images are registered, started and unregistered while the system runs.  Only
`CpuRunImage` writes the handle of a record, and the contexts of the chain are
of images that it has started: that is what `CpuExitImage` relies on.
-/

namespace MultiArchUefi

open Chain Relation Transition

/-! ## the decision -/

/-- How `CpuExitImage` ends: with a `LongJump` to the buffer of a record, or
with a status. -/
inductive ExitImage where
  | longJump (record : RecordId)
  | returns (status : UINT64)
deriving DecidableEq

/-- `CpuExitImage`; `none` when its loop does not end. -/
def exitImage (args : Args) (s : State) : Option (ExitImage × State) :=
  match imageFindByHandle s.images (args 0) with
  | none => some (.returns EFI_INVALID_PARAMETER, s)
  | some currentImageRecord =>
      let s := s.criticalBegin
      (System.findImageContext s chainFuel s.mTopContext).map fun context =>
        let s := s.assert .imageContext (context ≠ none)
        let s := s.criticalEnd
        match context with
        | none => (.returns EFI_INVALID_PARAMETER, s)
        | some k =>
            if (s.context k).imageRecord ≠ some currentImageRecord then
              (.returns EFI_INVALID_PARAMETER, s)
            else (.longJump currentImageRecord, s.setImageExit currentImageRecord args)

/-- The activation that calls `CpuExitImage` gets the status, or control goes to
the `CpuRunImage` that filled the buffer. -/
theorem cpuExitImage_eq (sys : System) (a : Activation) (rest : List Frame) (args : Args) :
    sys.cpuExitImage a rest args = (exitImage args sys.emu).bind fun (o, s) =>
      match o with
      | .returns status => System.resume { sys with emu := s } a rest status
      | .longJump record =>
          (s.images.record record).imageExitJumpBuffer.bind fun id =>
            System.cpuRunImageExit { sys with emu := s } id := by
  unfold System.cpuExitImage exitImage
  cases imageFindByHandle sys.emu.images (args 0) with
  | none => rfl
  | some record =>
      simp only [Option.bind_eq_bind, Option.bind_map]
      refine Option.bind_congr fun context _ => ?_
      cases context with
      | none => rfl
      | some k =>
          simp only [Function.comp_apply]
          split <;> rfl

/-! ## what keeps the records -/

section

variable {s s' : State} {k : CtxId}

/-- A failed `ASSERT` is noted, and no image changes. -/
theorem images_assert (a : Assertion) (p : Prop) [Decidable p] (s : State) :
    (s.assert a p).images = s.images := by rw [State.assert_eq]

theorem images_criticalEnd (s : State) : s.criticalEnd.images = s.images := images_assert ..

theorem images_restoreSaved (k : CtxId) (s : State) : (s.restoreSaved k).images = s.images := by
  unfold State.restoreSaved
  split <;> rfl

theorem images_popLeakedContext (k : CtxId) (s : State) :
    (popLeakedContext k s).2.images = s.images :=
  (images_assert ..).trans (images_restoreSaved k s)

theorem images_cpuFreeContext (k : CtxId) (s : State) : (cpuFreeContext k s).images = s.images :=
  (images_assert ..).trans (images_assert ..)

/-- `CpuCompressLeakedContexts` touches no image, however many contexts it frees. -/
theorem images_cpuCompressLeakedContexts {onImageExit : Bool}
    (h : cpuCompressLeakedContexts k onImageExit s = some s') : s'.images = s.images := by
  obtain ⟨s₁, hpop, hfree⟩ := Option.bind_eq_some_iff.mp h
  have hpopped := walk_keeps (f := State.images) images_popLeakedContext hpop
  have hfreed := walk_keeps (f := State.images) images_cpuFreeContext hfree
  exact hfreed.trans ((images_criticalEnd s₁).trans hpopped)

/-- The check for leaked contexts touches no image. -/
theorem images_nativeThunkCheckLeakedContexts (h : nativeThunkCheckLeakedContexts k s = some s') :
    s'.images = s.images := by
  unfold nativeThunkCheckLeakedContexts at h
  split at h
  · exact images_cpuCompressLeakedContexts h
  · rw [Option.some.inj h]

/-- The loop that takes orphans off the chain touches no image. -/
theorem images_detectOrphans {n : Nat} {orphan orphan' : Option CtxId}
    (h : detectOrphans k n orphan s = some (orphan', s')) : s'.images = s.images := by
  induction n generalizing orphan s with
  | zero => cases h
  | succ n ih =>
      rw [detectOrphans] at h
      split at h
      · rw [← (Prod.mk.inj (Option.some.inj h)).2]
      · split at h
        · exact (ih h).trans (images_assert ..)
        · rw [← (Prod.mk.inj (Option.some.inj h)).2]

/-- `CpuDetectOrphanContexts` touches no image. -/
theorem images_cpuDetectOrphanContexts {fp : Nat} {orphan : Option CtxId}
    (h : cpuDetectOrphanContexts k fp s = some (orphan, s')) : s'.images = s.images := by
  obtain ⟨⟨first, s₁⟩, hdetect, h⟩ := Option.bind_eq_some_iff.mp h
  have hdetected : s₁.images = s.images := (images_detectOrphans hdetect :)
  cases first with
  | none =>
      obtain rfl := (Prod.mk.inj (Option.some.inj h)).2
      exact hdetected
  | some first =>
      obtain ⟨iter, -, h⟩ := Option.bind_eq_some_iff.mp h
      obtain rfl := (Prod.mk.inj (Option.some.inj h)).2
      exact hdetected

/-- Detecting and freeing orphans before a run touches no image. -/
theorem images_cpuRunCtxCheckOrphans {cfg : Config} {fp : Nat}
    (h : cpuRunCtxCheckOrphans cfg k fp s = some s') : s'.images = s.images := by
  cases hcfg : cfg.checkOrphanContexts with
  | false =>
      have hend : s.criticalEnd = s' := by simpa [cpuRunCtxCheckOrphans, hcfg] using h
      rw [← hend, images_criticalEnd]
  | true =>
      simp only [cpuRunCtxCheckOrphans, hcfg, if_true] at h
      obtain ⟨⟨orphan, s₁⟩, hdetect, hfree⟩ := Option.bind_eq_some_iff.mp h
      have hfreed : s'.images = s₁.criticalEnd.images :=
        walk_keeps (f := State.images) images_cpuFreeContext hfree
      rw [hfreed, images_criticalEnd, images_cpuDetectOrphanContexts hdetect]

theorem images_cpuRunCtxSaveOrInit (k : CtxId) (s : State) :
    (cpuRunCtxSaveOrInit k s).images = s.images := by
  unfold cpuRunCtxSaveOrInit
  split <;> rfl

/-- Entering a run touches no image. -/
theorem images_cpuRunCtxEnter {cfg : Config} {jumpBuffer : Option Nat} {fp : Nat}
    (h : cpuRunCtxEnter cfg jumpBuffer k fp s = some s') : s'.images = s.images := by
  obtain ⟨s₁, henter, h⟩ := Option.bind_eq_some_iff.mp h
  obtain ⟨s₂, hcheck, henter⟩ := Option.bind_eq_some_iff.mp henter
  obtain rfl := Option.some.inj h
  obtain rfl := Option.some.inj henter
  have hchecked := images_cpuRunCtxCheckOrphans hcheck
  refine (images_cpuRunCtxSaveOrInit k s₂).trans (hchecked.trans ?_)
  cases jumpBuffer <;> rfl

/-- Leaving a run touches no image, on the private stack or off it. -/
theorem images_cpuRunCtxReturn {caller : CtxId} (ret : UINT64) (s : State) :
    (cpuRunCtxReturn caller (cpuRunCtxOnPrivateStackLeave k ret s)).2.images = s.images := by
  have hleave : (cpuRunCtxOnPrivateStackLeave k ret s).images = s.images :=
    (images_assert ..).trans ((images_assert ..).trans (images_restoreSaved k _))
  exact (images_cpuFreeContext ..).trans ((images_criticalEnd _).trans hleave)

end

/-! ## who writes handles -/

/-- The image that the action starts, and the handle it is started with. -/
def Action.starts (sys : System) : Action → Option (RecordId × UINT64)
  | .runImage imageHandle _ (.ok imageBase) _ =>
      (imageFindByAddress sys.emu.images imageBase).bind fun record =>
        if sys.emu.runContextAlloc (sys.emu.images.record record).cpu = [] then none
        else some (record, imageHandle)
  | _ => none

/-- From `images` to `images'` handles have been written as `handle` says, and
the list is the same. -/
structure Handles (images images' : Images) (handle : RecordId → Option UINT64) : Prop where
  mImageList : images'.mImageList = images.mImageList
  imageHandle : ∀ r, (images'.record r).imageHandle = (handle r).getD (images.record r).imageHandle

/-- The handle that the action writes to the record. -/
def Action.handle (sys : System) (action : Action) (r : RecordId) : Option UINT64 :=
  (action.starts sys).bind fun start => if r = start.1 then some start.2 else none

namespace Handles

variable {images images' : Images}

/-- Where no image changes, no handle is written. -/
theorem of_eq (h : images' = images) : Handles images images' fun _ => none := by
  subst h
  exact ⟨rfl, fun _ => rfl⟩

/-- `CpuExitImage` writes the status and the exit data, and no handle. -/
theorem setImageExit (s : State) (record : RecordId) (args : Args) :
    Handles s.images (s.setImageExit record args).images fun _ => none := by
  refine ⟨rfl, fun r => ?_⟩
  by_cases hr : r = record
  · subst hr
    simp [State.setImageExit, State.modifyRecord]
  · simp [State.setImageExit, State.modifyRecord, Function.update_of_ne hr]

/-- The images before may be replaced by equal ones. -/
theorem of_eq_left {images₁ : Images} {handle : RecordId → Option UINT64}
    (h : Handles images₁ images' handle) (heq : images₁ = images) :
    Handles images images' handle := heq ▸ h

theorem of_eq_right {images₁ : Images} {handle : RecordId → Option UINT64}
    (h : Handles images images₁ handle) (heq : images' = images₁) :
    Handles images images' handle := heq ▸ h

end Handles

section

variable {cfg : Config} {sys sys' : System} {a : Activation} {rest : List Frame}

/-- A native call that returns leaves the images as they are. -/
theorem images_resume {value : UINT64} (h : sys.resume a rest value = some sys') :
    sys'.emu.images = sys.emu.images := by
  obtain ⟨s, hcheck, rfl⟩ := Option.map_eq_some_iff.mp h
  exact (images_nativeThunkCheckLeakedContexts hcheck :)

/-- `CpuRunImage` leaves the images alone behind the long jump. -/
theorem images_cpuRunImageExit {id : Nat} (h : sys.cpuRunImageExit id = some sys') :
    sys'.emu.images = sys.emu.images := by
  obtain ⟨⟨a, rest⟩, -, h⟩ := Option.bind_eq_some_iff.mp h
  obtain ⟨record, -, h⟩ := Option.bind_eq_some_iff.mp h
  obtain ⟨s, hcompress, h⟩ := Option.bind_eq_some_iff.mp h
  obtain rfl := Option.some.inj h
  exact images_cpuCompressLeakedContexts hcompress

/-- `CpuExitImage` writes no handle, whether it refuses or jumps. -/
theorem handles_cpuExitImage {args : Args} (h : sys.cpuExitImage a rest args = some sys') :
    Handles sys.emu.images sys'.emu.images fun _ => none := by
  rw [cpuExitImage_eq] at h
  obtain ⟨⟨o, s⟩, hexit, h⟩ := Option.bind_eq_some_iff.mp h
  have hs : Handles sys.emu.images s.images fun _ => none := by
    unfold exitImage at hexit
    split at hexit
    · obtain ⟨-, rfl⟩ := Prod.mk.inj (Option.some.inj hexit)
      exact .of_eq rfl
    · rename_i record _
      obtain ⟨context, -, hexit⟩ := Option.map_eq_some_iff.mp hexit
      have himages := (imageSection_same context sys.emu).1
      cases context with
      | none =>
          obtain ⟨-, rfl⟩ := Prod.mk.inj hexit
          exact .of_eq himages
      | some k =>
          simp only at hexit
          split at hexit
          · obtain ⟨-, rfl⟩ := Prod.mk.inj hexit
            exact .of_eq himages
          · obtain ⟨-, rfl⟩ := Prod.mk.inj hexit
            exact (Handles.setImageExit (sys.emu.imageSection (some k)) record args).of_eq_left
              himages
  cases o with
  | returns status => exact hs.of_eq_right (images_resume h)
  | longJump record =>
      obtain ⟨id, -, h⟩ := Option.bind_eq_some_iff.mp h
      exact hs.of_eq_right (images_cpuRunImageExit h)

/-- No native call writes a handle by itself. -/
theorem handles_callNative {programCounter : UINT64}
    (h : sys.callNative cfg a rest programCounter = some sys') :
    Handles sys.emu.images sys'.emu.images fun _ => none := by
  unfold System.callNative at h
  simp only at h
  split at h
  · exact .of_eq (images_resume h :)
  · exact (handles_cpuExitImage h :)
  · obtain rfl := Option.some.inj h
    exact .of_eq rfl

theorem images_finish {ret : UINT64} (h : sys.finish cfg a rest ret = some sys') :
    sys'.emu.images = sys.emu.images := by
  unfold System.finish at h
  simp only at h
  split at h
  · split at h
    · cases h
    · obtain rfl := Option.some.inj h
      exact images_cpuRunCtxReturn ret sys.emu
  · obtain rfl := Option.some.inj h
    exact images_cpuRunCtxReturn ret sys.emu

/-- Emulation writes no handle, whatever it ends with. -/
theorem handles_cpuRunCtxInternal {regs : RegFile} {memory : WordMemory.Memory} {ucErr : UcErr}
    (h : sys.cpuRunCtxInternal cfg a rest regs memory ucErr = some sys') :
    Handles sys.emu.images sys'.emu.images fun _ => none := by
  have hemulated := (emulated_spec a.context.cpu regs memory ucErr sys.emu).2.2.2
  unfold System.cpuRunCtxInternal at h
  simp only at h
  split at h
  · obtain rfl := Option.some.inj h
    exact .of_eq hemulated
  · exact (handles_callNative h).of_eq_left hemulated
  · exact .of_eq ((images_finish h).trans hemulated)
  · exact .of_eq ((images_finish h).trans hemulated)

theorem images_cpuAllocContext {cpu : CpuId} {k : CtxId} {s s' : State}
    (h : cpuAllocContext cpu s = some (k, s')) : s'.images = s.images := by
  unfold cpuAllocContext at h
  split at h
  · cases h
  · obtain ⟨-, rfl⟩ := Prod.mk.inj (Option.some.inj h)
    rfl

/-- A run that is entered has the images that it was given. -/
theorem images_cpuRunCtx {k : CtxId} {image : Option RecordId} {fp : Nat} {s : State}
    (h : sys.cpuRunCtx cfg k image fp s = some sys') : sys'.emu.images = s.images := by
  obtain ⟨s', henter, rfl⟩ := Option.map_eq_some_iff.mp h
  exact (images_cpuRunCtxEnter henter :)

/-- `CpuRunImage` writes the handle of the record it starts, and no other. -/
theorem handles_cpuRunImage {imageHandle systemTable : UINT64}
    {loadedImage : Except UINT64 UINT64} {fp : Nat}
    (h : sys.cpuRunImage cfg imageHandle systemTable loadedImage fp = some sys') :
    Handles sys.emu.images sys'.emu.images
      ((Action.runImage imageHandle systemTable loadedImage fp).handle sys) := by
  unfold System.cpuRunImage at h
  split at h
  · obtain rfl := Option.some.inj h
    exact .of_eq rfl
  · rename_i imageBase
    split at h
    · cases h
    · rename_i record hrecord
      split at h
      · rename_i halloc
        obtain rfl := Option.some.inj h
        have hnone : (Action.runImage imageHandle systemTable (.ok imageBase) fp).handle sys =
            fun _ => none := by
          funext r
          simp [Action.handle, Action.starts, hrecord, cpuAllocContext_eq_none halloc]
        rw [hnone]
        exact .of_eq (images_assert ..)
      · rename_i k s halloc
        have hpool : sys.emu.runContextAlloc (sys.emu.images.record record).cpu ≠ [] :=
          fun hnil => by
          simp [cpuAllocContext, hnil] at halloc
        have himages := images_cpuRunCtx h
        have hallocated : s.images = sys.emu.images := images_cpuAllocContext halloc
        have hlist : s.images.mImageList = sys.emu.images.mImageList := by rw [hallocated]
        refine ⟨(congrArg Images.mImageList himages).trans hlist, fun r => ?_⟩
        rw [himages]
        by_cases hr : r = record
        · simp [Action.handle, Action.starts, hrecord, hpool, State.modifyRecord,
            State.modifyContext, hr]
        · simp [Action.handle, Action.starts, hrecord, hpool, State.modifyRecord,
            State.modifyContext, hr, hallocated]

/-- In one step at most one handle is written: `CpuRunImage` writes that of the image
that it starts. -/
theorem handles_of_step {action : Action} (hstep : step cfg sys action = some sys') :
    Handles sys.emu.images sys'.emu.images (action.handle sys) := by
  unfold step at hstep
  split at hstep
  · -- `CpuRunFunc`
    split at hstep
    · unfold System.cpuRunFunc at hstep
      split at hstep
      · obtain rfl := Option.some.inj hstep
        exact .of_eq rfl
      · rename_i halloc
        exact .of_eq ((images_cpuRunCtx hstep).trans (images_cpuAllocContext halloc :))
    · cases hstep
  · split at hstep
    · exact handles_cpuRunImage hstep
    · cases hstep
  · exact handles_cpuRunCtxInternal hstep
  · obtain rfl := Option.some.inj hstep
    exact .of_eq rfl
  · exact .of_eq (images_resume hstep)
  · obtain rfl := Option.some.inj hstep
    exact .of_eq (images_assert ..)
  · obtain ⟨stack, -, rfl⟩ := Option.map_eq_some_iff.mp hstep
    exact .of_eq rfl
  · cases hstep

/-! ## whose images the contexts are -/

variable {action : Action} {chain : List CtxId}

/-- The contexts of the chain are those of `chain`, with the images they had, and
one of the image that the action starts. -/
def Carries (sys : System) (action : Action) (chain : List CtxId) (b : Books) : Prop :=
  ∀ k ∈ b.chain, ∀ r, (b.emu.context k).imageRecord = some r →
    (∃ j ∈ chain, (sys.emu.context j).imageRecord = some r) ∨
    ∃ handle, action.starts sys = some (r, handle)

@[simp] theorem imageRecord_clearFlags (l : List CtxId)
    (context : CtxId → CpuRunContext) (k : CtxId) :
    (clearFlags l context k).imageRecord = (context k).imageRecord := by
  unfold clearFlags
  split <;> rfl

/-- Contexts that stay on the chain with their records keep carrying started images. -/
theorem Carries.congr {b b' : Books} (h : Carries sys action chain b) (hsub : b'.chain ⊆ b.chain)
    (hrecord : ∀ k ∈ b'.chain, (b'.emu.context k).imageRecord = (b.emu.context k).imageRecord) :
    Carries sys action chain b' := by
  intro k hk r hr
  rw [hrecord k hk] at hr
  exact h k (hsub hk) r hr

/-- The image of the context that an action enters is the one that it starts. -/
theorem starts_of_entered {cpu : CpuId} {fp : Nat} {r : RecordId}
    (hcallee : action.callee sys = some (cpu, fp)) (himage : action.image sys = some r)
    (hpool : sys.emu.runContextAlloc cpu ≠ []) :
    ∃ handle, action.starts sys = some (r, handle) := by
  cases action with
  | runImage imageHandle systemTable loadedImage fp' =>
      cases loadedImage with
      | error status => cases himage
      | ok imageBase =>
          have hfind : imageFindByAddress sys.emu.images imageBase = some r := himage
          simp only [Action.callee, hfind, Option.map_some, Option.some.injEq,
            Prod.mk.injEq] at hcallee
          obtain ⟨rfl, -⟩ := hcallee
          exact ⟨imageHandle, by simp [Action.starts, hfind, hpool]⟩
  | _ => cases himage

/-- One change of the books puts no other image on the chain than the one started. -/
theorem Carries.move {b b' : Books} (h : Carries sys action chain b)
    (hmove : Move cfg sys action b b') :
    Carries sys action chain b' := by
  cases hmove with
  | quiet stack chain' hquiet =>
      exact h.congr (List.Subset.refl _) fun k _ => by rw [hquiet.context]
  | left => exact h.congr (List.Subset.refl _) fun _ _ => rfl
  | @entered k image fp s s' id rest chain' hstack hcallee haction hfp hpool hs himage
    hbuffer hentered ho =>
      intro j hj r hr
      rcases List.mem_cons.mp hj with rfl | hj
      · rw [hentered.imageRecord, himage, ← haction] at hr
        exact .inr (starts_of_entered hcallee hr hpool)
      · have hold : j ∈ chain' := by
          rw [← orphans_append_kept cfg sys.emu fp chain']
          exact List.mem_append_right _ hj
        rw [hentered.older j hj, hs.older j hold] at hr
        exact h j hold r hr
  | emulated programCounter regs hbooks hue =>
      exact h.congr (List.Subset.refl _) fun k _ => by rw [hbooks.context]
  | called => exact h.congr (List.Subset.refl _) fun _ _ => rfl
  | compressed s id a rest pre post =>
      refine h.congr (List.subset_append_right pre _) fun k _ => ?_
      unfold State.compressed
      split
      · rfl
      · exact imageRecord_clearFlags ..
  | finished s a id rest l ret _ =>
      refine h.congr (List.subset_cons_self a.context l) fun k _ => ?_
      refine (imageRecord_clearFlags ..).trans ?_
      by_cases hk : k = a.context
      · subst hk
        simp [State.setRet, State.modifyContext]
      · simp [State.setRet, State.modifyContext, hk]
  | exited s id id' frames a rest pre post _ =>
      exact h.congr (fun k hk => List.mem_append_right pre (List.mem_cons_of_mem _ hk)) fun k _ =>
        imageRecord_clearFlags ..

/-- The same for all that one step does to the books. -/
theorem Carries.moves {b b' : Books} (h : Carries sys action chain b)
    (hmoves : Moves cfg sys action b b') :
    Carries sys action chain b' := by
  induction hmoves with
  | refl => exact h
  | tail _ hmove ih => exact ih.move hmove

end

/-! ## the system and its images -/

/-- The system, the permissions of the engines, and the handles that images have
been started with since their records were allocated. -/
structure ImageSystem where
  sys : System
  perms : CodePerms
  startedWith : RecordId → Option UINT64

/-- What happens: a step of the system, or a call of the emulator protocol. -/
inductive ImageAction where
  | act (action : Action)
  | register (imageBase imageSize entryPoint : UINT64) (services : RegisterServices)
  | unregister (imageBase setMemoryAttributes : UINT64)

/-- The system with other images. -/
def ImageSystem.withRegistry (g : ImageSystem) (registry : Registry) : ImageSystem :=
  { g with
    sys := { g.sys with emu := { g.sys.emu with images := registry.images } }
    perms := registry.perms }

def ImageSystem.registry (g : ImageSystem) : Registry := ⟨g.sys.emu.images, g.perms⟩

/-- The record that `AllocatePool` returns has not been started. -/
def RegisterServices.forget (services : RegisterServices) (startedWith : RecordId → Option UINT64) :
    RecordId → Option UINT64 :=
  match services.allocatePool with
  | none => startedWith
  | some (r, _) => Function.update startedWith r none

/-- The protocol is called by native code. -/
def imageStep (cfg : Config) (cpuRunImage : UINT64) (g : ImageSystem) :
    ImageAction → Option ImageSystem
  | .act action => (step cfg g.sys action).map fun sys =>
      { g with sys := sys, startedWith := fun r => (action.handle g.sys r).or (g.startedWith r) }
  | .register imageBase imageSize entryPoint services =>
      match g.sys.stack with
      | .native _ :: _ =>
          let (_, _, registry) :=
            imageProtocolRegister cpuRunImage imageBase imageSize entryPoint services g.registry
          some { g.withRegistry registry with startedWith := services.forget g.startedWith }
      | _ => none
  | .unregister imageBase setMemoryAttributes =>
      match g.sys.stack with
      | .native _ :: _ =>
          some (g.withRegistry (imageProtocolUnregister imageBase setMemoryAttributes g.registry).2)
      | _ => none

/-- What the firmware promises: records come from free memory, and no image is
unregistered while a context of it is left. -/
def Promised (cfg : Config) (g : ImageSystem) : ImageAction → Prop
  | .act action => Accountable cfg g.sys action
  | .register _ _ _ services => ∀ p ∈ services.allocatePool.toList,
      p.1 ∉ g.sys.emu.images.mImageList ∧
        ∀ k ∈ g.sys.emu.chain, (g.sys.emu.context k).imageRecord ≠ some p.1
  | .unregister imageBase _ => ∀ r ∈ (imageFindByAddress g.sys.emu.images imageBase).toList,
      ∀ k ∈ g.sys.emu.chain, (g.sys.emu.context k).imageRecord ≠ some r

instance (cfg : Config) (g : ImageSystem) (action : ImageAction) :
    Decidable (Promised cfg g action) :=
  match action with
  | .act action => inferInstanceAs (Decidable (Accountable cfg g.sys action))
  | .register _ _ _ services => inferInstanceAs (Decidable (∀ p ∈ services.allocatePool.toList, _))
  | .unregister imageBase _ =>
      inferInstanceAs (Decidable (∀ r ∈ (imageFindByAddress g.sys.emu.images imageBase).toList, _))

/-! ## runs -/

/-- The contexts of the chain, and the handles that `CpuRunImage` has started the
registered images with; other records may hold anything. -/
structure StartedOn (s : State) (chain : List CtxId) (startedWith : RecordId → Option UINT64) :
    Prop where
  seg : Seg s.next s.mTopContext chain none
  bounded : ∀ k ∈ chain, k.index < RUN_CONTEXTS_LIMIT
  listed : ∀ k ∈ chain, ∀ r, (s.context k).imageRecord = some r → r ∈ s.images.mImageList
  started : ∀ k ∈ chain, ∀ r, (s.context k).imageRecord = some r → startedWith r ≠ none
  handle : ∀ r h, startedWith r = some h → (s.images.record r).imageHandle = h

variable {cfg : Config} {cpuRunImage : UINT64} {g g' : ImageSystem} {chain : List CtxId}

/-- The books are in order, and the chain is as `CpuExitImage` expects it. -/
structure Started (cfg : Config) (g : ImageSystem) (chain : List CtxId) : Prop where
  accounted : Accounted cfg (g.sys.books chain)
  startedOn : StartedOn g.sys.emu chain g.startedWith

/-- Images do not matter for the books. -/
theorem Accounted.withRegistry (h : Accounted cfg (g.sys.books chain)) (registry : Registry) :
    Accounted cfg ((g.withRegistry registry).sys.books chain) :=
  ⟨⟨h.chained.congr rfl (fun _ _ => .of_eq rfl) rfl rfl fun _ ha _ => ha,
    h.live.congr h.live.sublist (fun _ _ => ⟨rfl, rfl⟩) rfl, h.nested⟩, h.top⟩

/-- Only a registered image is started. -/
theorem mem_of_starts {sys : System} {action : Action} {r : RecordId} {handle : UINT64}
    (h : action.starts sys = some (r, handle)) : r ∈ sys.emu.images.mImageList := by
  unfold Action.starts at h
  split at h
  · obtain ⟨record, hfind, h⟩ := Option.bind_eq_some_iff.mp h
    split at h
    · cases h
    · obtain ⟨rfl, -⟩ := Prod.mk.inj (Option.some.inj h)
      exact (imageFindByAddress_eq_some hfind).1
  · cases h

/-- A step of the emulator keeps the record of what was started with which handle. -/
theorem Started.act {action : Action} {sys' : System} (h : Started cfg g chain)
    (hC : Accountable cfg g.sys action) (hstep : step cfg g.sys action = some sys') :
    ∃ chain', Started cfg
      { g with sys := sys', startedWith := fun r => (action.handle g.sys r).or (g.startedWith r) }
      chain' := by
  obtain ⟨hacc, hon⟩ := h
  obtain ⟨chain', hmoves⟩ := hacc.moves_of_step hC hstep
  have hacc' := hacc.moves hmoves
  have hstart : Carries g.sys action chain (g.sys.books chain) := fun k hk r hr => .inl ⟨k, hk, hr⟩
  have hcarries : Carries g.sys action chain (sys'.books chain') := hstart.moves hmoves
  have hhandles := handles_of_step hstep
  refine ⟨chain', hacc', hacc'.chained.seg, hacc'.chained.bounded, fun k hk r hr => ?_,
    fun k hk r hr => ?_, fun r handle hr => ?_⟩
  · rw [hhandles.mImageList]
    rcases hcarries k hk r hr with ⟨j, hj, hjr⟩ | ⟨handle, hstarts⟩
    · exact hon.listed j hj r hjr
    · exact mem_of_starts hstarts
  · rcases hcarries k hk r hr with ⟨j, hj, hjr⟩ | ⟨handle, hstarts⟩
    · have hold := hon.started j hj r hjr
      cases haction : action.handle g.sys r <;> simp [haction, hold]
    · simp [Action.handle, hstarts]
  · rw [hhandles.imageHandle]
    cases haction : action.handle g.sys r with
    | none =>
        simp only [haction, Option.none_or] at hr
        exact hon.handle r handle hr
    | some handle' => simpa [haction] using hr

/-- A registration adds the record it allocates, or nothing, and leaves the others alone. -/
theorem imageProtocolRegister_images (cpuRunImage imageBase imageSize entryPoint : UINT64)
    (services : RegisterServices) (registry : Registry) :
    let images := (imageProtocolRegister cpuRunImage imageBase imageSize entryPoint services
      registry).2.2.images
    registry.images.mImageList ⊆ images.mImageList ∧
      ∀ r, (∀ p ∈ services.allocatePool.toList, p.1 ≠ r) →
      images.record r = registry.images.record r := by
  obtain ⟨imageInfo, allocatePool, setMemoryAttributes⟩ := services
  cases imageInfo with
  | error status => exact ⟨List.Subset.refl _, fun _ _ => rfl⟩
  | ok cpu =>
      cases allocatePool with
      | none => exact ⟨List.Subset.refl _, fun _ _ => rfl⟩
      | some pool =>
          have hother : ∀ (record : ImageRecord) (r : RecordId), (∀ p ∈ [pool], p.1 ≠ r) →
              Function.update registry.images.record pool.1 record r = registry.images.record r :=
                fun record r hr =>
            Function.update_of_ne (hr pool List.mem_cons_self).symm ..
          simp only [imageProtocolRegister]
          split
          · exact ⟨List.subset_append_left _ _, hother _⟩
          · exact ⟨List.subset_append_left _ _, hother _⟩

/-- A record that is not handed out again is remembered. -/
theorem forget_of_ne {services : RegisterServices}
    {startedWith : RecordId → Option UINT64} {r : RecordId}
    (h : ∀ p ∈ services.allocatePool.toList, p.1 ≠ r) :
    services.forget startedWith r = startedWith r := by
  cases hpool : services.allocatePool with
  | none => simp only [RegisterServices.forget, hpool]
  | some pool =>
      have hne : pool.1 ≠ r := h pool (by simp [hpool])
      simp only [RegisterServices.forget, hpool]
      exact Function.update_of_ne hne.symm ..

/-- What is remembered was so before, of a record that was not handed out again. -/
theorem forget_eq_some {services : RegisterServices}
    {startedWith : RecordId → Option UINT64} {r : RecordId} {handle : UINT64}
    (h : services.forget startedWith r = some handle) :
    startedWith r = some handle ∧ ∀ p ∈ services.allocatePool.toList, p.1 ≠ r := by
  have hne : ∀ p ∈ services.allocatePool.toList, p.1 ≠ r := by
    rintro pool hpool rfl
    simp [RegisterServices.forget, Option.mem_toList.mp hpool] at h
  rw [forget_of_ne hne] at h
  exact ⟨h, hne⟩

/-- Registering an image keeps the images on the chain and their handles. -/
theorem Started.register {imageBase imageSize entryPoint : UINT64} {services : RegisterServices}
    (h : Started cfg g chain)
    (hC : Promised cfg g (.register imageBase imageSize entryPoint services)) :
    Started cfg { g.withRegistry
        (imageProtocolRegister cpuRunImage imageBase imageSize entryPoint services g.registry).2.2
        with
      startedWith := services.forget g.startedWith } chain := by
  obtain ⟨hacc, hon⟩ := h
  refine ⟨hacc.withRegistry _, ?_⟩
  have hchain : g.sys.emu.chain = chain := hacc.chained.chain_eq
  obtain ⟨hsub, hrecord⟩ :=
    imageProtocolRegister_images cpuRunImage imageBase imageSize entryPoint services g.registry
  -- the record that is allocated is none of those on the chain
  have hne : ∀ k ∈ chain, ∀ r, (g.sys.emu.context k).imageRecord = some r →
      ∀ p ∈ services.allocatePool.toList, p.1 ≠ r := by
    rintro k hk r hr p hp rfl
    exact (hC p hp).2 k (hchain ▸ hk) hr
  refine ⟨hon.seg, hon.bounded, fun k hk r hr => hsub (hon.listed k hk r hr), fun k hk r hr => ?_,
    fun r handle hr => ?_⟩
  · show services.forget g.startedWith r ≠ none
    rw [forget_of_ne (hne k hk r hr)]
    exact hon.started k hk r hr
  · obtain ⟨hr, hfresh⟩ := forget_eq_some hr
    exact (congrArg ImageRecord.imageHandle (hrecord r hfresh)).trans (hon.handle r handle hr)

/-- So does unregistering one, as images that run stay loaded. -/
theorem Started.unregister {imageBase setMemoryAttributes : UINT64} (h : Started cfg g chain)
    (hC : Promised cfg g (.unregister imageBase setMemoryAttributes)) :
    Started cfg (g.withRegistry
      (imageProtocolUnregister imageBase setMemoryAttributes g.registry).2) chain := by
  obtain ⟨hacc, hon⟩ := h
  refine ⟨hacc.withRegistry _, ?_⟩
  have hchain : g.sys.emu.chain = chain := hacc.chained.chain_eq
  unfold imageProtocolUnregister
  split
  · exact ⟨hon.seg, hon.bounded, hon.listed, hon.started, hon.handle⟩
  · rename_i r' hfind
    refine ⟨hon.seg, hon.bounded, fun k hk r hr => ?_, hon.started, hon.handle⟩
    have hne : r ≠ r' := fun heq => by
      have hfound : imageFindByAddress g.sys.emu.images imageBase = some r' := hfind
      refine hC r' (by rw [hfound]; exact List.mem_singleton.mpr rfl) k (hchain ▸ hk) (heq ▸ hr)
    exact (List.mem_erase_of_ne hne).mpr (hon.listed k hk r hr)

/-- The step lemma: started images carry the handle they were started with. -/
theorem Started.step {action : ImageAction} (h : Started cfg g chain) (hC : Promised cfg g action)
    (hstep : imageStep cfg cpuRunImage g action = some g') : ∃ chain', Started cfg g' chain' := by
  cases action with
  | act action =>
      obtain ⟨sys', hsys, rfl⟩ := Option.map_eq_some_iff.mp hstep
      exact h.act hC hsys
  | register imageBase imageSize entryPoint services =>
      simp only [imageStep] at hstep
      split at hstep
      · obtain rfl := Option.some.inj hstep
        exact ⟨chain, h.register hC⟩
      · cases hstep
  | unregister imageBase setMemoryAttributes =>
      simp only [imageStep] at hstep
      split at hstep
      · obtain rfl := Option.some.inj hstep
        exact ⟨chain, h.unregister hC⟩
      · cases hstep

/-- The driver has been loaded, and no image has been started. -/
def imageInitial (p : Platform) (perms : CodePerms) : ImageSystem :=
  ⟨initial p, perms, fun _ => none⟩

/-- In every state reached, the chain is as `CpuExitImage` expects it. -/
theorem startedOn_of_run {p : Platform} {perms : CodePerms} {actions : List ImageAction}
    (h : Run (imageStep cfg cpuRunImage) (Promised cfg) (imageInitial p perms) actions g) :
    StartedOn g.sys.emu g.sys.emu.chain g.startedWith := by
  have hstart : ∃ chain, Started cfg (imageInitial p perms) chain :=
    ⟨[], accounted_initial cfg p, rfl, by simp, by simp, by simp, fun r handle hr => nomatch hr⟩
  obtain ⟨chain, hacc, hon⟩ := h.invariant (I := fun g => ∃ chain, Started cfg g chain)
    (fun _ _ _ ⟨_, hg⟩ hC hstep => hg.step hC hstep) hstart
  have hchain : g.sys.emu.chain = chain := hacc.chained.chain_eq
  rw [hchain]
  exact hon

end MultiArchUefi
