import MultiArchUefi.StartedImages

/-!
# MultiArchUefi.ExitAdmission

When `CpuExitImage` takes the jump.  It looks for a record by the handle it is
passed, and for the innermost context of an image, and compares the two; the
handles of records whose images have not been started are whatever the memory
held before.
-/

namespace MultiArchUefi

open Chain Lookup Relation Transition

/-! ## admission -/

/-- The record of the innermost image context. -/
def innermostImage (s : State) (chain : List CtxId) : Option RecordId :=
  chain.findSome? fun k => (s.context k).imageRecord

/-- Nothing but the interrupt state may differ. -/
structure SameRecords (s s' : State) : Prop where
  mTopContext : s'.mTopContext = s.mTopContext
  context : s'.context = s.context
  contexts : s'.contexts = s.contexts
  runContextAlloc : s'.runContextAlloc = s.runContextAlloc
  images : s'.images = s.images
  ue : s'.ue = s.ue
  memory : s'.memory = s.memory

/-- `CpuExitImage` jumps exactly if the innermost image is the one that was
started with this handle, and leaves everything alone otherwise; no assertion fails. -/
structure AdmitsExit (s : State) (chain : List CtxId) (startedWith : RecordId → Option UINT64)
    (args : Args) :
    Prop where
  jumps : ∀ r, (∃ s', exitImage args s = some (.longJump r, s')) ↔
    innermostImage s chain = some r ∧ startedWith r = some (args 0)
  returns : (∀ r, innermostImage s chain = some r → startedWith r ≠ some (args 0)) →
    ∃ s', exitImage args s = some (.returns EFI_INVALID_PARAMETER, s') ∧ SameRecords s s'
  asserts : ∀ o s', exitImage args s = some (o, s') → s'.failedAsserts = s.failedAsserts

/-- No other record gets in the way: if the innermost image was started with the
handle, none before it in the list holds the handle too, and without an image
context none at all does. -/
def HandleClear (s : State) (chain : List CtxId) (startedWith : RecordId → Option UINT64)
    (args : Args) : Prop :=
  match innermostImage s chain with
  | some r => startedWith r = some (args 0) →
      ∀ r' ∈ s.images.mImageList.takeWhile (· ≠ r), (s.images.record r').imageHandle ≠ args 0
  | none => ∀ r' ∈ s.images.mImageList, (s.images.record r').imageHandle ≠ args 0

variable {s : State} {chain : List CtxId} {startedWith : RecordId → Option UINT64} {args : Args}

/-- The loop stops at the context that has the record. -/
theorem find_innermostImage (s : State) (chain : List CtxId) :
    match chain.find? fun k => (s.context k).imageRecord ≠ none with
    | some k =>
        k ∈ chain ∧ innermostImage s chain = (s.context k).imageRecord ∧
          innermostImage s chain ≠ none
    | none => innermostImage s chain = none := by
  induction chain with
  | nil => rfl
  | cons k chain ih =>
      cases hk : (s.context k).imageRecord with
      | some r => simp [innermostImage, hk]
      | none =>
          have htail : innermostImage s (k :: chain) = innermostImage s chain := by
            simp [innermostImage, hk]
          rw [htail, List.find?_cons_of_neg (by simp [hk])]
          split at ih
          · exact ⟨List.mem_cons_of_mem k ih.1, ih.2⟩
          · exact ih

/-- What `CpuExitImage` does, in terms of the chain. -/
theorem exitImage_eq (h : StartedOn s chain startedWith) {current : RecordId}
    (hcurrent : imageFindByHandle s.images (args 0) = some current) :
    ∃ s', SameRecords s s' ∧
      s'.failedAsserts = (if innermostImage s chain = none then .imageContext :: s.failedAsserts
        else s.failedAsserts) ∧
      exitImage args s = some (if innermostImage s chain = some current then
        (.longJump current, s'.setImageExit current args) else
          (.returns EFI_INVALID_PARAMETER, s')) := by
  have hlen := length_lt_chainFuel h.seg.nodup h.bounded
  have hfind : System.findImageContext s.criticalBegin chainFuel s.criticalBegin.mTopContext =
      some (chain.find? fun k => (s.context k).imageRecord ≠ none) :=
    findImageContext_eq (s := s.criticalBegin) h.seg hlen
  have hinnermost := find_innermostImage s chain
  have hsection : ∀ context, SameRecords s (s.imageSection context) := fun context => by
    have hquiet := imageSection_quiet context s
    obtain ⟨himages, hmemory⟩ := imageSection_same context s
    exact ⟨hquiet.mTopContext, hquiet.context, hquiet.contexts, hquiet.runContextAlloc,
      himages, hquiet.ue, hmemory⟩
  have hasserts : ∀ context, (s.imageSection context).failedAsserts =
      if context = none then .imageContext :: s.failedAsserts else s.failedAsserts :=
        fun context => by
    have hopen : CriticalEndAssert (criticalBegin s.interrupts) := by
      rw [criticalBegin_eq]
      exact Nat.succ_ne_zero _
    cases context with
    | none => simp [State.imageSection, State.criticalEnd, State.assert, State.criticalBegin, hopen]
    | some k =>
        simp [State.imageSection, State.criticalEnd, State.assert, State.criticalBegin, hopen]
  simp only [exitImage, hcurrent, hfind, Option.map_some]
  cases hcontext : chain.find? fun k => (s.context k).imageRecord ≠ none with
  | none =>
      rw [hcontext] at hinnermost
      refine ⟨s.imageSection none, hsection none, ?_, ?_⟩
      · rw [hasserts, if_pos rfl, if_pos hinnermost]
      · simp [hinnermost, State.imageSection]
  | some k =>
      rw [hcontext] at hinnermost
      obtain ⟨-, hrecord, hne⟩ := hinnermost
      refine ⟨s.imageSection (some k), hsection (some k), ?_, ?_⟩
      · rw [hasserts, if_neg hne, if_neg (Option.some_ne_none k)]
      · have hctx : ((s.imageSection (some k)).context k).imageRecord = innermostImage s chain := by
          rw [(hsection (some k)).context, hrecord]
        change some (if ((s.imageSection (some k)).context k).imageRecord ≠
          some current then _ else _) = _
        rw [hctx]
        by_cases heq : innermostImage s chain = some current
        · rw [if_neg (not_not.mpr heq), if_pos heq]
          rfl
        · rw [if_pos heq, if_neg heq]
          rfl

theorem innermostImage_mem {r : RecordId} (h : innermostImage s chain = some r) :
    ∃ k ∈ chain, (s.context k).imageRecord = some r := List.exists_of_findSome?_eq_some h

/-- The record that is found is the innermost image's if no other one gets in the way. -/
theorem imageFindByHandle_iff (h : StartedOn s chain startedWith) {r : RecordId}
    (hr : innermostImage s chain = some r) (hhandle : startedWith r = some (args 0)) :
    imageFindByHandle s.images (args 0) = some r ↔ HandleClear s chain startedWith args := by
  obtain ⟨k, hk, hrecord⟩ := innermostImage_mem hr
  have hself : (args 0 == (s.images.record r).imageHandle) = true := by
    rw [h.handle r _ hhandle, beq_self_eq_true]
  rw [imageFindByHandle, find?_eq_some_iff_takeWhile (h.listed k hk r hrecord) hself]
  simp only [HandleClear, hr, hhandle, forall_const]
  exact forall₂_congr fun r' _ => by rw [beq_eq_false_iff_ne, ne_comm]

/-- An innermost image that was not started with the handle is not found by it. -/
theorem ne_of_not_startedWith (h : StartedOn s chain startedWith) {r current : RecordId}
    (hr : innermostImage s chain = some r) (hhandle : startedWith r ≠ some (args 0))
    (hcurrent : imageFindByHandle s.images (args 0) = some current) : r ≠ current := by
  rintro rfl
  obtain ⟨k, hk, hrecord⟩ := innermostImage_mem hr
  obtain ⟨handle, hstarted⟩ := Option.ne_none_iff_exists'.mp (h.started k hk r hrecord)
  obtain ⟨-, hheld⟩ := imageFindByHandle_eq_some hcurrent
  rw [h.handle r handle hstarted] at hheld
  exact hhandle (hheld ▸ hstarted)

namespace AdmitsExit

/-- An exit that is refused, as it should be. -/
theorem of_returns {s' : State}
    (hexit : exitImage args s = some (.returns EFI_INVALID_PARAMETER, s'))
    (hsame : SameRecords s s') (hasserts : s'.failedAsserts = s.failedAsserts)
    (hnot : ∀ r, innermostImage s chain = some r → startedWith r ≠ some (args 0)) :
    AdmitsExit s chain startedWith args where
  jumps := fun r => by
    refine iff_of_false ?_ fun hr => hnot r hr.1 hr.2
    rintro ⟨t, heq⟩
    rw [hexit] at heq
    cases heq
  returns := fun _ => ⟨s', hexit, hsame⟩
  asserts := fun o t heq => by
    rw [hexit] at heq
    obtain ⟨-, rfl⟩ := Prod.mk.inj (Option.some.inj heq)
    exact hasserts

/-- An exit that is admitted, as it should be. -/
theorem of_jumps {s' : State} {r : RecordId} (hexit : exitImage args s = some (.longJump r, s'))
    (hasserts : s'.failedAsserts = s.failedAsserts) (hr : innermostImage s chain = some r)
    (hhandle : startedWith r = some (args 0)) : AdmitsExit s chain startedWith args where
  jumps := fun r' => by
    rw [hr, hexit]
    constructor
    · rintro ⟨t, heq⟩
      obtain ⟨hjump, -⟩ := Prod.mk.inj (Option.some.inj heq)
      obtain rfl := ExitImage.longJump.inj hjump
      exact ⟨rfl, hhandle⟩
    · rintro ⟨heq, -⟩
      obtain rfl := Option.some.inj heq
      exact ⟨s', rfl⟩
  returns := fun hnot => absurd hhandle (hnot r hr)
  asserts := fun o t heq => by
    rw [hexit] at heq
    obtain ⟨-, rfl⟩ := Prod.mk.inj (Option.some.inj heq)
    exact hasserts

end AdmitsExit

/-- Without a record that holds the handle no image has been started with it. -/
theorem not_startedWith_of_none (h : StartedOn s chain startedWith)
    (hfind : imageFindByHandle s.images (args 0) = none) {r : RecordId}
    (hr : innermostImage s chain = some r) :
    startedWith r ≠ some (args 0) := fun hhandle => by
  obtain ⟨k, hk, hrecord⟩ := innermostImage_mem hr
  have hne := List.find?_eq_none.mp hfind r (h.listed k hk r hrecord)
  rw [h.handle r _ hhandle, beq_self_eq_true] at hne
  exact hne rfl

theorem handleClear_of_none (h : StartedOn s chain startedWith)
    (hfind : imageFindByHandle s.images (args 0) = none) :
    HandleClear s chain startedWith args := by
  unfold HandleClear
  split
  · rename_i r hr
    exact fun hhandle => absurd hhandle (not_startedWith_of_none h hfind hr)
  · intro r' hr' heq
    have hne := List.find?_eq_none.mp hfind r' hr'
    rw [heq, beq_self_eq_true] at hne
    exact hne rfl

/-- `CpuExitImage` admits the calls that it should exactly if no other record
gets in the way. -/
theorem admitsExit_iff (h : StartedOn s chain startedWith) :
    AdmitsExit s chain startedWith args ↔ HandleClear s chain startedWith args := by
  cases hfind : imageFindByHandle s.images (args 0) with
  | none =>
      have hexit : exitImage args s = some (.returns EFI_INVALID_PARAMETER, s) := by
        simp [exitImage, hfind]
      exact iff_of_true (.of_returns hexit ⟨rfl, rfl, rfl, rfl, rfl, rfl, rfl⟩ rfl fun _ hr =>
        not_startedWith_of_none h hfind hr) (handleClear_of_none h hfind)
  | some current =>
      obtain ⟨hlisted, hheld⟩ := imageFindByHandle_eq_some hfind
      obtain ⟨s', hsame, hasserts, hexit⟩ := exitImage_eq h hfind
      cases hr : innermostImage s chain with
      | none =>
          -- the assertion that there is an image context fails
          refine iff_of_false (fun hadmits => ?_) fun hclear => ?_
          · rw [hr, if_neg (Option.some_ne_none current).symm] at hexit
            have hlen := congrArg List.length (hadmits.asserts _ _ hexit)
            rw [hasserts, if_pos hr] at hlen
            simp at hlen
          · rw [HandleClear, hr] at hclear
            exact hclear current hlisted hheld
      | some r =>
          rw [hr, if_neg (Option.some_ne_none r)] at hasserts
          rw [hr] at hexit
          by_cases hhandle : startedWith r = some (args 0)
          · rw [← imageFindByHandle_iff h hr hhandle, hfind, Option.some_inj]
            constructor
            · intro hadmits
              obtain ⟨s'', heq⟩ := (hadmits.jumps r).mpr ⟨hr, hhandle⟩
              by_contra hne
              rw [if_neg fun h => hne (Option.some.inj h).symm] at hexit
              rw [hexit] at heq
              cases heq
            · rintro rfl
              rw [if_pos rfl] at hexit
              exact .of_jumps hexit hasserts hr hhandle
          · have hne := ne_of_not_startedWith h hr hhandle hfind
            rw [if_neg fun h => hne (Option.some.inj h)] at hexit
            refine iff_of_true (.of_returns hexit hsame hasserts fun r' hr' => ?_) ?_
            · rw [hr] at hr'
              obtain rfl := Option.some.inj hr'
              exact hhandle
            · rw [HandleClear, hr]
              exact fun hstarted => absurd hstarted hhandle

/-- A platform without images. -/
def barePlatform : Platform := { examplePlatform with images := ⟨[], fun _ => freshRecord⟩ }

/-- A loader registers an x64 image in memory that still holds a handle. -/
def registerImage (imageBase : UINT64) (r : RecordId) (imageHandle : UINT64) : ImageAction :=
  .register imageBase 0x1000 (imageBase + 0x400)
    ⟨.ok .x64, some (r, { freshRecord with imageHandle := imageHandle }), EFI_SUCCESS⟩

/-- Two images are registered, and the second one is started with the handle `0x1000`. -/
def startSecondImage (imageHandle : UINT64) : List ImageAction :=
  [registerImage 0x30000 0 imageHandle, registerImage 0x10000 1 0,
    .act (.runImage 0x1000 0x2000 (.ok 0x10000) 100)]

/-- The arguments of `gBS->Exit` for the handle `0x1000`. -/
def exitArgs : Args := fun i => if i = 0 then 0x1000 else 0

/-- The record of the other image holds another handle. -/
theorem admitsExit_iff_startSecondImage :
    ∃ g, exec (imageStep riscvConfig 0x80004000) (Promised riscvConfig)
        (imageInitial barePlatform initialCodePerms) (startSecondImage 0x5000) = some g ∧
      AdmitsExit g.sys.emu g.sys.emu.chain g.startedWith exitArgs := by
  have hhandles : (exec (imageStep riscvConfig 0x80004000) (Promised riscvConfig)
      (imageInitial barePlatform initialCodePerms) (startSecondImage 0x5000)).map (fun g =>
        (innermostImage g.sys.emu g.sys.emu.chain, g.sys.emu.images.mImageList.takeWhile (· ≠ 1),
          (g.sys.emu.images.record 0).imageHandle)) = some (some 1, [0], 0x5000) := by decide
  obtain ⟨g, hg, heq⟩ := Option.map_eq_some_iff.mp hhandles
  simp only [Prod.mk.injEq] at heq
  obtain ⟨hinnermost, hbefore, hheld⟩ := heq
  refine ⟨g, hg, (admitsExit_iff (startedOn_of_run (.of_exec hg))).mpr ?_⟩
  simp only [HandleClear, hinnermost, hbefore]
  simp [hheld, exitArgs]

/-- The record of the other image happens to hold the handle: the image that
runs cannot exit. -/
theorem startSecondImage_refused :
    ∃ g, Run (imageStep riscvConfig 0x80004000) (Promised riscvConfig)
        (imageInitial barePlatform initialCodePerms) (startSecondImage 0x1000) g ∧
      ¬ AdmitsExit g.sys.emu g.sys.emu.chain g.startedWith exitArgs := by
  have hstate : (exec (imageStep riscvConfig 0x80004000) (Promised riscvConfig)
      (imageInitial barePlatform initialCodePerms) (startSecondImage 0x1000)).map (fun g =>
        (innermostImage g.sys.emu g.sys.emu.chain, g.startedWith 1,
          (exitImage exitArgs g.sys.emu).map Prod.fst)) =
      some (some 1, some 0x1000, some (.returns EFI_INVALID_PARAMETER)) := by decide
  obtain ⟨g, hg, heq⟩ := Option.map_eq_some_iff.mp hstate
  simp only [Prod.mk.injEq] at heq
  obtain ⟨hinnermost, hstarted, hexit⟩ := heq
  refine ⟨g, .of_exec hg, fun hadmits => ?_⟩
  obtain ⟨s', hjump⟩ := (hadmits.jumps 1).mpr ⟨hinnermost, hstarted⟩
  rw [hjump] at hexit
  cases hexit

end MultiArchUefi
