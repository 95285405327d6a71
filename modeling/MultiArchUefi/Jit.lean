import MultiArchUefi.Interleaving
import MultiArchUefi.Accounting

/-!
# MultiArchUefi.Jit

`uc_emu_start` runs alone and with interrupts off, whatever is delivered
between two statements of the driver.

A critical section that is open belongs to the innermost frame, and only there
can one be: while it is open nothing can be delivered on top of it, and whoever
calls out, or is interrupted, has closed what it opened.  `Masked` says so, and
every step keeps it.
-/

namespace MultiArchUefi

open Transition Chain

/-! ## operations that leave the interrupts alone -/

/-- The assertions about interrupts. -/
def Assertion.isMasking : Assertion → Bool
  | .interruptsDisabled | .sectionOpen => true
  | _ => false

/-- The interrupts, and the assertions about them that have failed. -/
def State.masking (s : State) : Interrupts × List Assertion :=
  (s.interrupts, s.failedAsserts.filter Assertion.isMasking)

/-- Most `ASSERT`s are not about masking. -/
theorem masking_assert {a : Assertion} (ha : a.isMasking = false) (p : Prop)
    [Decidable p] (s : State) :
    (s.assert a p).masking = s.masking := by
  by_cases h : p <;> simp [State.assert, State.masking, h, ha]

@[simp] theorem masking_modifyContext (k : CtxId) (f : CpuRunContext → CpuRunContext) (s : State) :
    (s.modifyContext k f).masking = s.masking := rfl

@[simp] theorem masking_countDown (cpu : CpuId) (s : State) :
    (s.countDown cpu).masking = s.masking :=
  masking_assert rfl ..

@[simp] theorem masking_restoreSaved (k : CtxId) (s : State) :
    (s.restoreSaved k).masking = s.masking := by
  unfold State.restoreSaved
  split <;> rfl

@[simp] theorem masking_cpuFreeContext (k : CtxId) (s : State) :
    (cpuFreeContext k s).masking = s.masking := by
  calc
    (cpuFreeContext k s).masking =
    ((s.assert .flagsClear ((s.context k).flags = 0)).assert .objectUnlisted
        (k.index ∉ (s.assert .flagsClear ((s.context k).flags = 0)).runContextAlloc
          k.cpu)).masking := rfl
    _ = s.masking := by rw [masking_assert rfl, masking_assert rfl]

/-- The end of an open section fails no assertion. -/
theorem masking_criticalEnd {s : State} (h : s.interrupts.gIgnoreInterruptManipulation ≠ 0) :
    s.criticalEnd.masking = (criticalEnd s.interrupts, s.masking.2) := by
  have hassert : s.assert .sectionOpen (CriticalEndAssert s.interrupts) = s := State.assert_of h s
  simp only [State.criticalEnd, hassert]
  rfl

/-- Taking a leaked context off the chain touches no interrupt state. -/
theorem masking_popLeakedContext (k : CtxId) (s : State) :
    (popLeakedContext k s).2.masking = s.masking :=
  (masking_countDown ..).trans (masking_restoreSaved ..)

/-- Nor does taking the orphans off it. -/
theorem masking_detectOrphans {k : CtxId} {n : Nat} {orphan orphan' : Option CtxId} {s s' : State}
    (h : detectOrphans k n orphan s = some (orphan', s')) : s'.masking = s.masking := by
  induction n generalizing orphan s with
  | zero => cases h
  | succ n ih =>
      rw [detectOrphans] at h
      split at h
      · obtain ⟨-, rfl⟩ := Prod.mk.inj (Option.some.inj h)
        rfl
      · split at h
        · exact (ih h).trans (masking_countDown ..)
        · obtain ⟨-, rfl⟩ := Prod.mk.inj (Option.some.inj h)
          rfl

/-- `CpuDetectOrphanContexts` runs inside a section and leaves it open. -/
theorem masking_cpuDetectOrphanContexts {k : CtxId} {fp : Nat}
    {orphan : Option CtxId} {s s' : State}
    (h : cpuDetectOrphanContexts k fp s = some (orphan, s')) : s'.masking = s.masking := by
  obtain ⟨⟨first, s₁⟩, hdetect, h⟩ := Option.bind_eq_some_iff.mp h
  have hs₁ : s₁.masking = s.masking :=
    (masking_detectOrphans hdetect).trans (masking_modifyContext ..)
  cases first with
  | none =>
      obtain ⟨-, rfl⟩ := Prod.mk.inj (Option.some.inj h)
      exact hs₁
  | some first =>
      obtain ⟨iter, -, h⟩ := Option.bind_eq_some_iff.mp h
      obtain ⟨-, rfl⟩ := Prod.mk.inj (Option.some.inj h)
      exact hs₁

/-- A section opened and closed with none open leaves none open. -/
theorem masking_compressSection {toContext : Option CtxId} {s s' : State}
    (h : Interleaving.Machine.compressSection toContext s = some s')
    (h0 : s.interrupts.gIgnoreInterruptManipulation = 0) :
    s'.interrupts.gIgnoreInterruptManipulation = 0 ∧ s'.masking.2 = s.masking.2 := by
  obtain ⟨s₁, hwalk, h⟩ := Option.bind_eq_some_iff.mp h
  obtain rfl := Option.some.inj h
  have hs₁ : s₁.masking = (criticalBegin s.interrupts, s.masking.2) :=
    walk_keeps masking_popLeakedContext hwalk
  have hi : s₁.interrupts = criticalBegin s.interrupts := congrArg Prod.fst hs₁
  have hone : s₁.interrupts.gIgnoreInterruptManipulation = 1 := by
    rw [hi, criticalBegin_eq, h0]
  constructor
  · rw [State.criticalEnd_eq, criticalEnd_one hone]
  · rw [masking_criticalEnd (by omega), hs₁]

/-- Without a failed `ASSERT` about masking, none of them has failed. -/
theorem not_mem_of_masking {s : State} (h : s.masking.2 = []) {a : Assertion}
    (ha : a.isMasking = true) :
    a ∉ s.failedAsserts := fun hmem =>
  (List.filter_eq_nil_iff.mp h) a hmem ha

namespace Interleaving

/-! ## open sections -/

/-- How many critical sections the run has open. -/
def Stage.depth : Stage → Nat
  | .entered | .locked | .emulating | .stopped _ | .left => 1
  | _ => 0

def Frame.depth : Frame → Nat
  | .native _ => 0
  | .criticalSection => 1
  | .run a => a.stage.depth

/-- The run is about to call `uc_emu_start`, in it, or has just returned from it. -/
def Stage.aroundJit : Stage → Bool
  | .locked | .emulating | .stopped _ => true
  | _ => false

/-- A wrapper runs that is a function of the driver, or `CpuRunCtx` has returned. -/
def Stage.inWrapper : Stage → Bool
  | .exitingImage _ | .checking _ | .returned => true
  | _ => false

/-- The innermost frame is in `uc_emu_start`. -/
def inJit : List Frame → Bool
  | .run a :: _ => match a.stage with
    | .emulating => true
    | _ => false
  | _ => false

/-- Sections of the innermost frame. -/
def topDepth : List Frame → Nat
  | [] => 0
  | f :: _ => f.depth

/-- The JIT runs alone and with interrupts off. -/
structure RunsAlone (m : Machine) : Prop where
  /-- around `uc_emu_start`, and in it -/
  masked : ∀ a rest, m.stack = .run a :: rest → a.stage.aroundJit = true →
    m.emu.interrupts.interruptState = false ∧ m.emu.interrupts.gIgnoreInterruptManipulation = 1
  /-- `uc_emu_start` is active while the innermost frame is in it, and only then -/
  alone : m.jitActive = if inJit m.stack then 1 else 0
  /-- when a native function starts, and as long as it is not interrupted or calls out -/
  native : ∀ id rest, m.stack = .native id :: rest →
    m.emu.interrupts.gIgnoreInterruptManipulation = 0
  /-- when a wrapper starts, and when `CpuRunCtx` returns -/
  wrapper : ∀ a rest, m.stack = .run a :: rest → a.stage.inWrapper = true →
    m.emu.interrupts.gIgnoreInterruptManipulation = 0
  interruptsDisabled : .interruptsDisabled ∉ m.emu.failedAsserts
  sectionOpen : .sectionOpen ∉ m.emu.failedAsserts

/-- Only the innermost frame has a section open, and then interrupts are off. -/
structure Masked (m : Machine) : Prop where
  depth : m.emu.interrupts.gIgnoreInterruptManipulation = topDepth m.stack
  off : topDepth m.stack ≠ 0 → m.emu.interrupts.interruptState = false
  below : ∀ f ∈ m.stack.tail, f.depth = 0
  active : m.jitActive = if inJit m.stack then 1 else 0
  asserts : m.emu.masking.2 = []

/-- A long jump to a run leaves what is below it. -/
theorem append_of_unwindToRun {id : Nat} {stack rest' : List Frame} {b : Activation}
    (h : unwindToRun id stack = some (b, rest')) : ∃ pre, stack = pre ++ .run b :: rest' := by
  induction stack with
  | nil => cases h
  | cons f stack ih =>
      have hcons (h : unwindToRun id stack = some (b, rest')) :
          ∃ pre, f :: stack = pre ++ .run b :: rest' := by
        obtain ⟨pre, hpre⟩ := ih h
        exact ⟨f :: pre, congrArg (f :: ·) hpre⟩
      cases f with
      | run a =>
          rw [unwindToRun] at h
          split at h
          · obtain ⟨rfl, rfl⟩ := Prod.mk.inj (Option.some.inj h)
            exact ⟨[], rfl⟩
          · exact hcons h
      | native id' => exact hcons h
      | criticalSection => exact hcons h

/-- A long jump to a native frame leaves it, and what is below. -/
theorem append_of_unwindToNative {id : Nat} {stack stack' : List Frame}
    (h : unwindToNative id stack = some stack') : ∃ pre, stack = pre ++ stack' := by
  induction stack with
  | nil => cases h
  | cons f stack ih =>
      have hcons (h : unwindToNative id stack = some stack') :
          ∃ pre, f :: stack = pre ++ stack' := by
        obtain ⟨pre, hpre⟩ := ih h
        exact ⟨f :: pre, congrArg (f :: ·) hpre⟩
      cases f with
      | native id' =>
          rw [unwindToNative] at h
          split at h
          · obtain rfl := Option.some.inj h
            exact ⟨[], rfl⟩
          · exact hcons h
      | run a => exact hcons h
      | criticalSection => exact hcons h

namespace Masked

variable {cfg : Config} {m : Machine} {a : Activation} {rest : List Frame}

/-- Masked machines emulate with interrupts off and one engine at a time. -/
theorem runsAlone (h : Masked m) : RunsAlone m where
  masked := fun a rest hs ha => by
    have hdepth : topDepth m.stack = 1 := by
      rw [hs]
      cases hstage : a.stage <;> simp_all [topDepth, Frame.depth, Stage.depth, Stage.aroundJit]
    exact ⟨h.off (by omega), h.depth.trans hdepth⟩
  alone := h.active
  native := fun id rest hs => by rw [h.depth, hs]; rfl
  wrapper := fun a rest hs ha => by
    rw [h.depth, hs]
    cases hstage : a.stage <;> simp_all [topDepth, Frame.depth, Stage.depth, Stage.inWrapper]
  interruptsDisabled := not_mem_of_masking h.asserts rfl
  sectionOpen := not_mem_of_masking h.asserts rfl

/-! ## one step -/

theorem rest_depth (h : Masked m) (hs : m.stack = .run a :: rest) : ∀ f ∈ rest, f.depth = 0 := by
  have := h.below
  rwa [hs] at this

/-- Requests are ignored exactly while the innermost run has a section open. -/
theorem ignored (h : Masked m) (hs : m.stack = .run a :: rest) :
    m.emu.interrupts.gIgnoreInterruptManipulation = a.stage.depth := by
  rw [h.depth, hs]
  rfl

/-- Without a section of its own the innermost frame is not in `uc_emu_start`. -/
theorem inJit_eq_false {stack : List Frame} (h : topDepth stack = 0) : inJit stack = false := by
  match stack with
  | [] | .native _ :: _ | .criticalSection :: _ => rfl
  | .run a :: _ =>
      cases hstage : a.stage <;> simp_all [inJit, topDepth, Frame.depth, Stage.depth]

/-- Outside of sections no engine emulates. -/
theorem idle (h : Masked m) (h0 : topDepth m.stack = 0) : m.jitActive = 0 := by
  rw [h.active, inJit_eq_false h0]
  rfl

/-- The frames stay, and so does everything about interrupts. -/
theorem congr (h : Masked m) {m' : Machine} (hs : m'.stack = m.stack)
    (hj : m'.jitActive = m.jitActive) (hm : m'.emu.masking = m.emu.masking) : Masked m' := by
  have hi : m'.emu.interrupts = m.emu.interrupts := congrArg Prod.fst hm
  refine ⟨?_, ?_, ?_, ?_, ?_⟩
  · rw [hi, hs]
    exact h.depth
  · rw [hi, hs]
    exact h.off
  · rw [hs]
    exact h.below
  · rw [hj, hs]
    exact h.active
  · rw [hm]
    exact h.asserts

theorem with_stores (h : Masked m) (stores : List Store) : Masked { m with stores := stores } :=
  h.congr rfl rfl rfl

/-- A stage without a section is reached. -/
theorem outside (h : Masked m) (hs : m.stack = .run a :: rest) (hidle : m.jitActive = 0)
    {b : Activation} {stage : Stage} (hstage : stage.depth = 0) {s : State}
    (h0 : s.interrupts.gIgnoreInterruptManipulation = 0) (ha : s.masking.2 = []) :
    Masked (m.goto b rest stage s) := by
  have htop : topDepth (m.goto b rest stage s).stack = 0 := hstage
  refine ⟨?_, fun hne => absurd htop hne, h.rest_depth hs, ?_, ha⟩
  · rw [htop]
    exact h0
  · rw [inJit_eq_false htop]
    exact hidle

/-- Between two stages without a section only data change. -/
theorem quiet (h : Masked m) (hs : m.stack = .run a :: rest) (ha : a.stage.depth = 0)
    {b : Activation} {stage : Stage} (hstage : stage.depth = 0) {s : State}
    (hm : s.masking = m.emu.masking) :
    Masked (m.goto b rest stage s) := by
  have hi : s.interrupts = m.emu.interrupts := congrArg Prod.fst hm
  refine h.outside hs (h.idle (by rw [hs]; exact ha)) hstage ?_ ?_
  · rw [hi, h.ignored hs, ha]
  · rw [hm]
    exact h.asserts

/-- A section is opened. -/
theorem opened (h : Masked m) (hs : m.stack = .run a :: rest) (ha : a.stage.depth = 0)
    {b : Activation} {stage : Stage} (hstage : stage.depth = 1)
    (hjit : stage ≠ .emulating) {s : State}
    (hm : s.masking = (criticalBegin m.emu.interrupts, m.emu.masking.2)) :
    Masked (m.goto b rest stage s) := by
  have hi : s.interrupts = criticalBegin m.emu.interrupts := congrArg Prod.fst hm
  have htop : topDepth (m.goto b rest stage s).stack = 1 := hstage
  have hidle : m.jitActive = 0 := h.idle (by rw [hs]; exact ha)
  refine ⟨?_, fun _ => ?_, h.rest_depth hs, ?_, ?_⟩
  · rw [htop, Machine.goto, hi, criticalBegin_eq, h.ignored hs, ha]
  · rw [Machine.goto, hi, criticalBegin_eq]
  · have hout : inJit (m.goto b rest stage s).stack = false := by
      cases stage <;> first | rfl | exact absurd rfl hjit
    rw [hout]
    exact hidle
  · exact (congrArg Prod.snd hm).trans h.asserts

/-- A section is closed. -/
theorem closed (h : Masked m) (hs : m.stack = .run a :: rest) (ha : a.stage.depth = 1)
    (hjit : a.stage ≠ .emulating) {b : Activation} {stage : Stage} (hstage : stage.depth = 0)
    {s : State} (hm : s.masking = m.emu.masking) : Masked (m.goto b rest stage s.criticalEnd) := by
  have hi : s.interrupts = m.emu.interrupts := congrArg Prod.fst hm
  have hone : s.interrupts.gIgnoreInterruptManipulation = 1 := by rw [hi, h.ignored hs, ha]
  have hout : inJit m.stack = false := by
    rw [hs]
    cases hstage : a.stage <;> first | exact absurd hstage hjit | simp only [inJit, hstage]
  refine h.outside hs ?_ hstage ?_ ?_
  · rw [h.active, hout]
    rfl
  · rw [State.criticalEnd_eq, criticalEnd_one hone]
  · rw [masking_criticalEnd (by omega), hm]
    exact h.asserts

/-- A frame is put on top of one that has no section open. -/
theorem push (h : Masked m) (h0 : topDepth m.stack = 0) {f : Frame}
    (hf : f.depth = 0) {m' : Machine} (hs : m'.stack = f :: m.stack)
    (hj : m'.jitActive = m.jitActive) (hm : m'.emu.masking = m.emu.masking) : Masked m' := by
  have hi : m'.emu.interrupts = m.emu.interrupts := congrArg Prod.fst hm
  have htop : topDepth m'.stack = 0 := by rw [hs]; exact hf
  refine ⟨?_, fun hne => absurd htop hne, ?_, ?_, ?_⟩
  · rw [hi, htop, h.depth, h0]
  · rw [hs]
    intro g hg
    match hstack : m.stack with
    | [] => simp [hstack] at hg
    | g' :: below =>
        rw [hstack] at hg h0
        rcases List.mem_cons.mp hg with rfl | hg
        · exact h0
        · have := h.below
          rw [hstack] at this
          exact this g hg
  · rw [hj, h.idle h0, inJit_eq_false htop]
    rfl
  · rw [hm]
    exact h.asserts

theorem push_native (h : Masked m) (h0 : topDepth m.stack = 0) (id nextId : Nat) :
    Masked { m with stack := .native id :: m.stack, nextId := nextId } :=
  h.push h0 (f := .native id) rfl rfl rfl rfl

/-- Frames without a section are dropped from the top. -/
theorem drop (h : Masked m) (h0 : topDepth m.stack = 0) {m' : Machine}
    (hsub : ∀ f ∈ m'.stack, f.depth = 0) (hj : m'.jitActive = m.jitActive)
    (hm : m'.emu.masking = m.emu.masking) : Masked m' := by
  have hi : m'.emu.interrupts = m.emu.interrupts := congrArg Prod.fst hm
  have htop : topDepth m'.stack = 0 := by
    match hstack : m'.stack with
    | [] => rfl
    | f :: _ => exact hsub f (by rw [hstack]; exact List.mem_cons_self)
  refine ⟨?_, fun hne => absurd htop hne, fun f hf => hsub f (List.mem_of_mem_tail hf), ?_, ?_⟩
  · rw [hi, htop, h.depth, h0]
  · rw [hj, h.idle h0, inJit_eq_false htop]
    rfl
  · rw [hm]
    exact h.asserts

/-! ## the statements of a run -/

/-- A statement of a thunk runs outside of sections. -/
theorem execStatement (h : Masked m) (hs : m.stack = .run a :: rest) (ha : a.stage.depth = 0)
    {stage : UINT64 → Stage} (hstage : ∀ rsp, (stage rsp).depth = 0) {rsp : UINT64} {st : Statement}
    {m' : Machine} (hstep : m.execStatement a rest stage rsp st = some m') : Masked m' := by
  simp only [Machine.execStatement] at hstep
  split at hstep
  · cases hstep
  · obtain rfl := Option.some.inj hstep
    refine (h.quiet hs ha (hstage _) ?_).with_stores _
    rfl

/-- Native code is called outside of sections. -/
theorem callNative (h : Masked m) (hs : m.stack = .run a :: rest) (ha : a.stage.depth = 0)
    {s : State} (hm : s.masking = m.emu.masking) (programCounter : UINT64) :
    Masked (m.callNative cfg a rest programCounter s) := by
  simp only [Machine.callNative]
  refine Masked.with_stores ?_ _
  split
  · exact h.quiet hs ha rfl hm
  · exact h.quiet hs ha rfl hm
  · refine Masked.push_native (h.quiet hs ha ?_ ?_) ?_ _ _
    · rfl
    · exact hm
    · rfl

/-- What follows an emulation is decided outside of sections. -/
theorem reason (h : Masked m) (hs : m.stack = .run a :: rest) (ha : a.stage.depth = 0)
    (ucErr : UcErr) :
    Masked (m.reason cfg a rest ucErr) := by
  have hassert := masking_assert (a := .programCounterNotNull) rfl
    (ucErr = .ok → m.emu.ue a.context.cpu a.context.cpu.programCounterReg ≠ 0) m.emu
  simp only [Machine.reason]
  split
  · exact h.quiet hs ha rfl hassert
  · exact h.callNative hs ha hassert _
  · exact h.quiet hs ha rfl hassert
  · exact h.quiet hs ha rfl hassert

/-- `CpuExitImage` opens a section for its search and closes it again. -/
theorem exitImage (h : Masked m) (hs : m.stack = .run a :: rest)
    (ha : a.stage.depth = 0) {args : Args} {m' : Machine}
    (hstep : m.exitImage a rest args = some m') : Masked m' := by
  have hidle : m.jitActive = 0 := h.idle (by rw [hs]; exact ha)
  simp only [Machine.exitImage] at hstep
  split at hstep
  · obtain rfl := Option.some.inj hstep
    exact h.quiet hs ha rfl rfl
  · obtain ⟨context, -, hstep⟩ := Option.bind_eq_some_iff.mp hstep
    -- the section around the search for the image's context
    have hsection :
      ((m.emu.criticalBegin.assert .imageContext (context ≠ none)).criticalEnd).masking =
        (⟨0, m.emu.interrupts.interruptState, m.emu.interrupts.interruptState⟩,
          m.emu.masking.2) := by
      have hbegin := masking_assert (a := .imageContext) rfl (context ≠ none) m.emu.criticalBegin
      have hi : (m.emu.criticalBegin.assert .imageContext (context ≠ none)).interrupts =
          criticalBegin m.emu.interrupts := congrArg Prod.fst hbegin
      have h0 : m.emu.interrupts.gIgnoreInterruptManipulation = 0 := by rw [h.ignored hs, ha]
      rw [masking_criticalEnd
        (by rw [hi, criticalBegin_eq]; simp), hi, criticalEnd_criticalBegin h0, hbegin]
      rfl
    have houtside {stage : Stage} (hstage : stage.depth = 0) {s : State}
        (hm : s.masking = (⟨0, m.emu.interrupts.interruptState, m.emu.interrupts.interruptState⟩,
          m.emu.masking.2)) : Masked (m.goto a rest stage s) := by
      refine h.outside hs hidle hstage ?_ ?_
      · rw [show s.interrupts = _ from congrArg Prod.fst hm]
      · exact (congrArg Prod.snd hm).trans h.asserts
    split at hstep
    · obtain rfl := Option.some.inj hstep
      exact houtside rfl hsection
    · split at hstep
      · obtain rfl := Option.some.inj hstep
        exact houtside rfl hsection
      · obtain rfl := Option.some.inj hstep
        exact houtside rfl hsection

/-- A long jump to a run leaves frames that were there before. -/
theorem mem_of_unwindToRun {id : Nat} {stack rest' : List Frame} {b : Activation}
    (h : unwindToRun id stack = some (b, rest')) : ∀ f ∈ rest', f ∈ stack := by
  obtain ⟨pre, rfl⟩ := append_of_unwindToRun h
  exact fun f hf => List.mem_append_right _ (List.mem_cons_of_mem _ hf)

theorem mem_of_unwindToNative {id : Nat} {stack stack' : List Frame}
    (h : unwindToNative id stack = some stack') : ∀ f ∈ stack', f ∈ stack := by
  obtain ⟨pre, rfl⟩ := append_of_unwindToNative h
  exact fun f hf => List.mem_append_right _ hf

/-- Without a section of the innermost frame there is none. -/
theorem depth_eq_zero (h : Masked m) (h0 : topDepth m.stack = 0) : ∀ f ∈ m.stack, f.depth = 0 := by
  intro f hf
  match hstack : m.stack with
  | [] => simp [hstack] at hf
  | g :: below =>
      rw [hstack] at hf h0
      rcases List.mem_cons.mp hf with rfl | hf
      · exact h0
      · have := h.below
        rw [hstack] at this
        exact this f hf

/-- `CpuCompressLeakedContexts` up to the end of its section. -/
theorem compressed (h : Masked m) (hs : m.stack = .run a :: rest) (ha : a.stage.depth = 0)
    {toContext : Option CtxId} {s : State} (hc : Machine.compressSection toContext m.emu = some s)
    {stage : Stage} (hstage : stage.depth = 0) : Masked (m.goto a rest stage s) := by
  obtain ⟨h0, hasserts⟩ := masking_compressSection hc (by rw [h.ignored hs, ha])
  exact h.outside hs (h.idle (by rw [hs]; exact ha)) hstage h0 (hasserts.trans h.asserts)

/-! ## the stages of a run -/

/-- The orphans are detected inside the section that ends there. -/
theorem entered (h : Masked m) (hs : m.stack = .run a :: rest) (hstage : a.stage = .entered)
    {m' : Machine} (hstep : m.advance cfg a rest = some m') : Masked m' := by
  have hclosed {orphan : Option CtxId} {s : State} (hm : s.masking = m.emu.masking) :
      Masked (m.goto a rest (.freeingOrphans orphan) s.criticalEnd) :=
    h.closed hs (by rw [hstage]; rfl) (by simp [hstage]) rfl hm
  simp only [Machine.advance, hstage] at hstep
  split at hstep
  · obtain ⟨⟨orphan, s⟩, hdetect, hstep⟩ := Option.bind_eq_some_iff.mp hstep
    obtain rfl := Option.some.inj hstep
    exact hclosed (masking_cpuDetectOrphanContexts hdetect)
  · obtain rfl := Option.some.inj hstep
    exact hclosed rfl

/-- Contexts are freed outside of sections. -/
theorem freeingOrphans (h : Masked m) (hs : m.stack = .run a :: rest) {orphan : Option CtxId}
    (hstage : a.stage = .freeingOrphans orphan) {m' : Machine}
    (hstep : m.advance cfg a rest = some m') : Masked m' := by
  simp only [Machine.advance, hstage] at hstep
  cases orphan with
  | none =>
      obtain rfl := Option.some.inj hstep
      exact h.quiet hs (by rw [hstage]; rfl) rfl rfl
  | some j =>
      obtain rfl := Option.some.inj hstep
      exact h.quiet hs (by rw [hstage]; rfl) rfl (masking_cpuFreeContext ..)

/-- The emulation starts under the section. -/
theorem locked (h : Masked m) (hs : m.stack = .run a :: rest) (hstage : a.stage = .locked)
    {m' : Machine} (hstep : m.advance cfg a rest = some m') : Masked m' := by
  simp only [Machine.advance, hstage] at hstep
  obtain rfl := Option.some.inj hstep
  have htop : topDepth m.stack = 1 := by rw [hs]; exact congrArg Stage.depth hstage
  have hout : inJit m.stack = false := by rw [hs]; simp [inJit, hstage]
  have hidle : m.jitActive = 0 := by rw [h.active, hout]; rfl
  exact ⟨h.depth.trans htop, fun _ => h.off (by omega), h.rest_depth hs, by
    simp [hidle, Machine.goto, inJit], h.asserts⟩

/-- Interrupts are still off when the section after an emulation ends. -/
theorem stopped (h : Masked m) (hs : m.stack = .run a :: rest) {ucErr : UcErr}
    (hstage : a.stage = .stopped ucErr) {m' : Machine} (hstep : m.advance cfg a rest = some m') :
    Masked m' := by
  simp only [Machine.advance, hstage] at hstep
  obtain rfl := Option.some.inj hstep
  have htop : topDepth m.stack ≠ 0 := by
    rw [hs]
    simp [topDepth, Frame.depth, Stage.depth, hstage]
  have hassert : m.emu.assert .interruptsDisabled
      (m.emu.interrupts.interruptState = false) = m.emu :=
    State.assert_of (h.off htop) _
  rw [hassert]
  exact h.closed hs (by rw [hstage]; rfl) (by simp [hstage]) rfl rfl

/-- A long jump drops frames that have no section open. -/
theorem longJumping (h : Masked m) (hs : m.stack = .run a :: rest) {record : RecordId}
    (hstage : a.stage = .longJumping record) {m' : Machine}
    (hstep : m.advance cfg a rest = some m') : Masked m' := by
  simp only [Machine.advance, hstage] at hstep
  obtain ⟨id, -, hstep⟩ := Option.bind_eq_some_iff.mp hstep
  obtain ⟨⟨caller, rest'⟩, hunwind, hstep⟩ := Option.bind_eq_some_iff.mp hstep
  obtain rfl := Option.some.inj hstep
  have h0 : topDepth m.stack = 0 := by rw [hs]; exact congrArg Stage.depth hstage
  refine h.drop h0 (fun f hf => ?_) rfl rfl
  rcases List.mem_cons.mp hf with rfl | hf
  · rfl
  · exact h.depth_eq_zero h0 f (mem_of_unwindToRun hunwind f hf)

/-- Leaked contexts are taken off the chain in a section of their own. -/
theorem checking (h : Masked m) (hs : m.stack = .run a :: rest) {value : UINT64}
    (hstage : a.stage = .checking value) {m' : Machine}
    (hstep : m.advance cfg a rest = some m') : Masked m' := by
  simp only [Machine.advance, hstage] at hstep
  split at hstep
  · obtain ⟨s, hc, hstep⟩ := Option.bind_eq_some_iff.mp hstep
    obtain rfl := Option.some.inj hstep
    exact h.compressed hs (by rw [hstage]; rfl) hc rfl
  · obtain rfl := Option.some.inj hstep
    exact h.quiet hs (by rw [hstage]; rfl) rfl rfl

/-- They are freed outside of sections. -/
theorem freeingLeaked (h : Masked m) (hs : m.stack = .run a :: rest) {value : UINT64}
    {fromContext toContext : Option CtxId}
    (hstage : a.stage = .freeingLeaked value fromContext toContext) {m' : Machine}
    (hstep : m.advance cfg a rest = some m') : Masked m' := by
  simp only [Machine.advance, hstage] at hstep
  split at hstep
  · obtain rfl := Option.some.inj hstep
    exact h.quiet hs (by rw [hstage]; rfl) rfl rfl
  · obtain ⟨j, -, hstep⟩ := Option.bind_eq_some_iff.mp hstep
    obtain rfl := Option.some.inj hstep
    exact h.quiet hs (by rw [hstage]; rfl) rfl (masking_cpuFreeContext ..)

/-- Behind the last leaked context the firmware's `gBS->Exit` runs. -/
theorem freeingExited (h : Masked m) (hs : m.stack = .run a :: rest)
    {fromContext toContext : Option CtxId}
    (hstage : a.stage = .freeingExited fromContext toContext) {m' : Machine}
    (hstep : m.advance cfg a rest = some m') : Masked m' := by
  simp only [Machine.advance, hstage] at hstep
  split at hstep
  · obtain rfl := Option.some.inj hstep
    refine Masked.push_native (h.quiet hs (by rw [hstage]; rfl) ?_ ?_) ?_ _ _
    all_goals rfl
  · obtain ⟨j, -, hstep⟩ := Option.bind_eq_some_iff.mp hstep
    obtain rfl := Option.some.inj hstep
    exact h.quiet hs (by rw [hstage]; rfl) rfl (masking_cpuFreeContext ..)

/-- One statement of the innermost run. -/
theorem advance (h : Masked m) (hs : m.stack = .run a :: rest) {m' : Machine}
    (hadvance : m.advance cfg a rest = some m') : Masked m' := by
  have hstep := hadvance
  cases hstage : a.stage <;> simp only [Machine.advance, hstage] at hstep
  case emulating => cases hstep
  case calling => cases hstep
  case callingExit => cases hstep
  case entered => exact h.entered hs hstage hadvance
  case freeingOrphans orphan => exact h.freeingOrphans hs hstage hadvance
  case locked => exact h.locked hs hstage hadvance
  case stopped ucErr => exact h.stopped hs hstage hadvance
  case longJumping record => exact h.longJumping hs hstage hadvance
  case checking value => exact h.checking hs hstage hadvance
  case freeingLeaked => exact h.freeingLeaked hs hstage hadvance
  case freeingExited => exact h.freeingExited hs hstage hadvance
  case exitingImage args => exact h.exitImage hs (by rw [hstage]; rfl) hstep
  case entering =>
    obtain rfl := Option.some.inj hstep
    refine h.opened hs (by rw [hstage]; rfl) ?_ ?_ ?_
    · rfl
    · simp
    · rfl
  case deciding =>
    obtain rfl := Option.some.inj hstep
    refine h.quiet hs (by rw [hstage]; rfl) ?_ rfl
    split <;> rfl
  case settingUp rsp stmts =>
    cases stmts with
    | nil =>
        obtain rfl := Option.some.inj hstep
        exact h.quiet hs (by rw [hstage]; rfl) rfl rfl
    | cons st stmts => exact h.execStatement hs (by rw [hstage]; rfl) (fun _ => rfl) hstep
  case cleaningUp rsp stmts =>
    cases stmts with
    | nil =>
        obtain rfl := Option.some.inj hstep
        exact h.quiet hs (by rw [hstage]; rfl) rfl rfl
    | cons st stmts => exact h.execStatement hs (by rw [hstage]; rfl) (fun _ => rfl) hstep
  case looping =>
    obtain rfl := Option.some.inj hstep
    refine h.opened hs (by rw [hstage]; rfl) ?_ ?_ ?_
    · rfl
    · simp
    · rfl
  case reasoning ucErr =>
    obtain rfl := Option.some.inj hstep
    exact h.reason hs (by rw [hstage]; rfl) ucErr
  case finished ret =>
    obtain rfl := Option.some.inj hstep
    refine h.quiet hs (by rw [hstage]; rfl) ?_ rfl
    split <;> rfl
  case leaving =>
    obtain rfl := Option.some.inj hstep
    refine h.opened hs (by rw [hstage]; rfl) ?_ ?_ ?_
    · rfl
    · simp
    · exact (masking_countDown ..).trans (masking_assert rfl ..)
  case left =>
    obtain rfl := Option.some.inj hstep
    exact h.closed hs (by rw [hstage]; rfl) (by simp [hstage]) rfl rfl
  case returned =>
    obtain rfl := Option.some.inj hstep
    have h0 : topDepth m.stack = 0 := by rw [hs]; exact congrArg Stage.depth hstage
    exact h.drop h0 (h.rest_depth hs) rfl (masking_cpuFreeContext ..)
  case imageExited =>
    obtain ⟨s, hc, hstep⟩ := Option.bind_eq_some_iff.mp hstep
    obtain rfl := Option.some.inj hstep
    exact h.compressed hs (by rw [hstage]; rfl) hc rfl
  case exitReturned status =>
    obtain rfl := Option.some.inj hstep
    have h0 : topDepth m.stack = 0 := by rw [hs]; exact congrArg Stage.depth hstage
    exact h.drop h0 (h.rest_depth hs) rfl (masking_assert rfl ..)
  -- what is left changes the data of the context and its engine
  all_goals
    obtain rfl := Option.some.inj hstep
    exact h.quiet hs (by rw [hstage]; rfl) rfl rfl

/-- `uc_emu_start` returns. -/
theorem emulated (h : Masked m) (hs : m.stack = .run a :: rest) (ha : a.stage = .emulating)
    (regs : RegFile) (memory : WordMemory.Memory) (ucErr : UcErr) :
    Masked { m.goto a rest (.stopped ucErr)
        { m.emu with ue := Function.update m.emu.ue a.context.cpu regs, memory := memory } with
      jitActive := m.jitActive - 1 } := by
  have htop : topDepth m.stack = 1 := by rw [hs]; exact congrArg Stage.depth ha
  have hin : inJit m.stack = true := by rw [hs]; simp [inJit, ha]
  have hactive : m.jitActive = 1 := by rw [h.active, hin]; rfl
  exact ⟨h.depth.trans htop, fun _ => h.off (by omega), h.rest_depth hs,
    by simp [hactive, Machine.goto, inJit], h.asserts⟩

/-- A hooked service only notes what it is asked for while a section is open. -/
theorem request (h : Masked m) {r : FlagRequest} (hr : r.isHooked = true) :
    Masked { m with emu := { m.emu with interrupts := (r.exec m.emu.interrupts).2 } } := by
  have hsame : (r.exec m.emu.interrupts).2.gIgnoreInterruptManipulation =
      m.emu.interrupts.gIgnoreInterruptManipulation := by
    cases r <;> simp [FlagRequest.isHooked, FlagRequest.exec, efiHooksCpuEnableInterrupt,
      efiHooksCpuDisableInterrupt, setInterruptState] at hr ⊢ <;> split <;> rfl
  have hoff (hne : m.emu.interrupts.gIgnoreInterruptManipulation ≠ 0) :
      (r.exec m.emu.interrupts).2.interruptState = m.emu.interrupts.interruptState := by
    cases r <;> simp [FlagRequest.isHooked, FlagRequest.exec, efiHooksCpuEnableInterrupt,
      efiHooksCpuDisableInterrupt, hne] at hr ⊢
  refine ⟨hsame.trans h.depth, fun hne => ?_, h.below, h.active, h.asserts⟩
  rw [hoff (by rw [h.depth]; exact hne)]
  exact h.off hne

/-- A new run is put on top of native code. -/
theorem runCtx (h : Masked m) (h0 : topDepth m.stack = 0) (k : CtxId)
    (image : Option RecordId) (fp : Nat) {s : State} (hm : s.masking = m.emu.masking) :
    Masked (m.runCtx k image fp s) :=
  h.push h0 (f := .run _) rfl rfl rfl hm

theorem masking_cpuAllocContext {cpu : CpuId} {s s' : State} {k : CtxId}
    (h : cpuAllocContext cpu s = some (k, s')) : s'.masking = s.masking := by
  unfold cpuAllocContext at h
  split at h
  · cases h
  · obtain ⟨-, rfl⟩ := Prod.mk.inj (Option.some.inj h)
    rfl

/-- The step lemma, with one case for every action. -/
theorem step (h : Masked m) {action : Action} {m' : Machine}
    (hstep : Interleaving.step cfg m action = some m') : Masked m' := by
  unfold Interleaving.step at hstep
  split at hstep
  case h_1 a rest hs => exact h.advance hs hstep
  case h_2 regs memory ucErr a rest hs =>
    split at hstep
    · rename_i ha
      obtain rfl := Option.some.inj hstep
      exact h.emulated hs ha regs memory ucErr
    · cases hstep
  case h_3 r =>
    split at hstep
    · rename_i hr
      obtain rfl := Option.some.inj hstep
      exact h.request hr
    · cases hstep
  case h_4 =>
    split at hstep
    · rename_i hon
      obtain rfl := Option.some.inj hstep
      have h0 : topDepth m.stack = 0 := by
        by_contra hne
        simp [h.off hne] at hon
      exact h.push_native h0 _ _
    · cases hstep
  case h_5 cpu programCounter args fp id rest hs =>
    have h0 : topDepth m.stack = 0 := by rw [hs]; rfl
    split at hstep
    · obtain rfl := Option.some.inj hstep
      unfold Machine.runFunc
      split
      · exact h
      · rename_i k s halloc
        have hm := masking_cpuAllocContext halloc
        exact h.runCtx h0 _ _ _ hm
    · cases hstep
  case h_6 imageHandle systemTable loadedImage fp id rest hs =>
    have h0 : topDepth m.stack = 0 := by rw [hs]; rfl
    split at hstep
    · unfold Machine.runImage at hstep
      split at hstep
      · obtain rfl := Option.some.inj hstep
        exact h
      · split at hstep
        · cases hstep
        · split at hstep
          · obtain rfl := Option.some.inj hstep
            exact h.congr rfl rfl (masking_assert rfl ..)
          · rename_i k s halloc
            obtain rfl := Option.some.inj hstep
            have hm := masking_cpuAllocContext halloc
            exact h.runCtx h0 _ _ _ hm
    · cases hstep
  case h_7 memory id rest hs =>
    obtain rfl := Option.some.inj hstep
    exact h.congr rfl rfl rfl
  case h_8 id rest hs =>
    obtain rfl := Option.some.inj hstep
    have h0 : topDepth m.stack = 0 := by rw [hs]; rfl
    refine ⟨?_, fun _ => ?_, h.depth_eq_zero h0, ?_, h.asserts⟩
    · rw [State.criticalBegin, criticalBegin_eq, h.depth, h0]
      rfl
    · simp [State.criticalBegin, criticalBegin_eq]
    · simpa [inJit] using h.idle h0
  case h_9 rest hs =>
    obtain rfl := Option.some.inj hstep
    have hone : m.emu.interrupts.gIgnoreInterruptManipulation = 1 := by rw [h.depth, hs]; rfl
    have hrest : ∀ f ∈ rest, f.depth = 0 := by
      have := h.below
      rwa [hs] at this
    have htop : topDepth rest = 0 := by
      cases rest with
      | nil => rfl
      | cons f rest => exact hrest f List.mem_cons_self
    refine ⟨?_, fun hne => absurd htop hne, fun f hf => hrest f (List.mem_of_mem_tail hf), ?_, ?_⟩
    · rw [State.criticalEnd_eq, criticalEnd_one hone]
      exact htop.symm
    · rw [h.active, hs, inJit_eq_false htop]
      rfl
    · rw [masking_criticalEnd (by omega)]
      exact h.asserts
  case h_10 value id f rest hs =>
    obtain rfl := Option.some.inj hstep
    have h0 : topDepth m.stack = 0 := by rw [hs]; rfl
    have hall : ∀ g ∈ f :: rest, g.depth = 0 := by
      have := h.below
      rwa [hs] at this
    refine h.drop h0 (fun g hg => ?_) rfl rfl
    unfold Machine.returnTo at hg
    split at hg
    · rename_i a rest' hframes
      obtain ⟨rfl, rfl⟩ := List.cons.inj hframes
      split at hg
      all_goals
        rcases List.mem_cons.mp hg with rfl | hg
        · first | rfl | exact hall _ List.mem_cons_self
        · exact hall g (List.mem_cons_of_mem _ hg)
    · exact hall g hg
  case h_11 id id' rest hs =>
    obtain ⟨stack, hunwind, rfl⟩ := Option.map_eq_some_iff.mp hstep
    have h0 : topDepth m.stack = 0 := by rw [hs]; rfl
    exact h.drop h0 (fun f hf => h.depth_eq_zero h0 f (mem_of_unwindToNative hunwind f hf)) rfl rfl
  case h_12 => cases hstep

end Masked

/-! ## whole runs -/

theorem masked_initial (p : Platform) : Masked (initial p) :=
  ⟨rfl, fun hne => absurd rfl hne, nofun, rfl, rfl⟩

/-- The run lemma: interrupts are masked in every state that is reached. -/
theorem masked_of_run {cfg : Config} {p : Platform} {C : Machine → Action → Prop} {as : List Action}
    {m : Machine} (h : Run (step cfg) C (initial p) as m) : Masked m :=
  h.invariant (fun _ _ _ hm _ hstep => hm.step hstep) (masked_initial p)

/-- In every state that the firmware, emulated code, native long jumps,
`gBS->Exit`, event notifications and hooked interrupt requests can reach, the
JIT runs alone and with interrupts off. -/
theorem runsAlone_of_run (cfg : Config) (p : Platform) (as : List Action) (m : Machine)
    (h : Run (step cfg) (fun _ _ => True) (initial p) as m) : RunsAlone m :=
  (masked_of_run h).runsAlone

/-- The innermost run executes `n` statements. -/
def advances (n : Nat) : List Action := List.replicate n .advance

/-- An AArch64 function is stopped after a while, an event is delivered that
runs another one, and interrupts are asked for while that one is emulated. -/
def preemptedInJit : List Action :=
  [.runFunc .aarch64 0x20400 (fun _ => 0) 100] ++ advances 41 ++
    [.emulate (fun _ => 0x71080000) ⟨fun _ => 0, []⟩ .ok, .advance, .notify,
      .runFunc .aarch64 0x20800 (fun _ => 0) 50] ++ advances 44 ++ [.request .enableInterrupt]

/-- An emulation that a hooked service has asked to unmask interrupts. -/
theorem runsAlone_of_run_preempted :
    ∃ m, exec (step riscvConfig) (fun _ _ => True)
      (initial examplePlatform) preemptedInJit = some m ∧
      m.jitActive = 1 ∧ m.emu.interrupts.gApparentInterruptState = true ∧ RunsAlone m := by
  have hvalues : (exec (step riscvConfig) (fun _ _ => True) (initial examplePlatform)
      preemptedInJit).map (fun m => (m.jitActive, m.emu.interrupts.gApparentInterruptState)) =
      some (1, true) := by decide
  obtain ⟨m, hm, heq⟩ := Option.map_eq_some_iff.mp hvalues
  obtain ⟨hactive, happarent⟩ := Prod.mk.inj heq
  exact ⟨m, hm, hactive, happarent, runsAlone_of_run _ _ _ _ (.of_exec hm)⟩

end Interleaving

end MultiArchUefi
