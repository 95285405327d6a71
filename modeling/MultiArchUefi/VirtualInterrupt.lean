import MultiArchUefi.Interrupt

/-!
# MultiArchUefi.VirtualInterrupt

The interrupt flag as the rest of the system sees it.  A sequence of critical
sections and hooked requests is compared with its *reduced* sequence, from
which the sections have been removed: every `GetInterruptState` should report
what it reports there, and whenever no section is open the real state should
be what the reduced sequence leaves.

`criticalBegin` takes over the real state at every nesting level, so entering
a nested section while the apparent state is on loses it; `transparent_iff` is
the exact condition under which the loss cannot be seen.
-/

namespace MultiArchUefi

/-- What code can do to the interrupt flag. -/
inductive FlagRequest where
  | criticalBegin
  | criticalEnd
  | enableInterrupt
  | disableInterrupt
  | getInterruptState
deriving DecidableEq, Repr

namespace FlagRequest

/-- A request that other code makes, rather than a section of the driver. -/
def isHooked : FlagRequest → Bool
  | .criticalBegin | .criticalEnd => false
  | _ => true

/-- One request: what `GetInterruptState` reported, if it was called, and the state after. -/
def exec (i : Interrupts) : FlagRequest → Option Bool × Interrupts
  | .criticalBegin => (none, MultiArchUefi.criticalBegin i)
  | .criticalEnd => (none, MultiArchUefi.criticalEnd i)
  | .enableInterrupt => (none, (efiHooksCpuEnableInterrupt i).2)
  | .disableInterrupt => (none, (efiHooksCpuDisableInterrupt i).2)
  | .getInterruptState => ((efiHooksCpuGetInterruptState false i).2, i)

@[simp] theorem exec_criticalBegin (i : Interrupts) :
    exec i .criticalBegin = (none, MultiArchUefi.criticalBegin i) := rfl

@[simp] theorem exec_criticalEnd (i : Interrupts) :
    exec i .criticalEnd = (none, MultiArchUefi.criticalEnd i) := rfl

@[simp] theorem exec_enableInterrupt (i : Interrupts) :
    exec i .enableInterrupt = (none, (efiHooksCpuEnableInterrupt i).2) := rfl

@[simp] theorem exec_disableInterrupt (i : Interrupts) :
    exec i .disableInterrupt = (none, (efiHooksCpuDisableInterrupt i).2) := rfl

/-- The state after a sequence of requests. -/
def execAll (i : Interrupts) (rs : List FlagRequest) : Interrupts :=
  rs.foldl (fun i r => (r.exec i).2) i

/-- The reports of the `GetInterruptState` calls of a sequence, in order. -/
def reports : Interrupts → List FlagRequest → List Bool
  | _, [] => []
  | i, r :: rs => (r.exec i).1.toList ++ reports (r.exec i).2 rs

/-- The sequence with all critical sections removed. -/
def reduced (rs : List FlagRequest) : List FlagRequest := rs.filter isHooked

/-- No section is closed that was not opened, starting with `d` sections open. -/
def ProperlyNested : Nat → List FlagRequest → Prop
  | _, [] => True
  | d, .criticalBegin :: rs => ProperlyNested (d + 1) rs
  | 0, .criticalEnd :: _ => False
  | d + 1, .criticalEnd :: rs => ProperlyNested d rs
  | d, _ :: rs => ProperlyNested d rs

/-- The sequence `rs` from state `i` cannot be told from its reduced sequence
from state `j`. -/
def Transparent (i j : Interrupts) (rs : List FlagRequest) : Prop :=
  reports i rs = reports j (reduced rs) ∧
    ∀ p, p <+: rs → (execAll i p).gIgnoreInterruptManipulation = 0 →
      (execAll i p).interruptState = (execAll j (reduced p)).interruptState

/-- With `d` sections open and the virtual flag at `v`: no `GetInterruptState`
inside a section and no closing of the outermost section happens while the
flag is `lost`, that is after a nested section was entered with the flag on
and before the next `EnableInterrupt` or `DisableInterrupt`. -/
def FlagKept : (d : Nat) → (v lost : Bool) → List FlagRequest → Prop
  | _, _, _, [] => True
  | 0, v, _, .criticalBegin :: rs => FlagKept 1 v false rs
  | d + 1, v, lost, .criticalBegin :: rs => FlagKept (d + 2) v (lost || v) rs
  | 0, _, _, .criticalEnd :: _ => True
  | 1, v, lost, .criticalEnd :: rs => lost = false ∧ FlagKept 0 v false rs
  | d + 2, v, lost, .criticalEnd :: rs => FlagKept (d + 1) v lost rs
  | d, _, _, .enableInterrupt :: rs => FlagKept d true false rs
  | d, _, _, .disableInterrupt :: rs => FlagKept d false false rs
  | d, v, lost, .getInterruptState :: rs => lost = false ∧ FlagKept d v lost rs

end FlagRequest

open FlagRequest

/-! ## the two runs side by side -/

/-- The run with sections is in state `i` with `d` of them open, the reduced
run is in state `j` with the flag at `v`; `lost` tells that the apparent state
no longer follows the flag. -/
structure SideBySide (d : Nat) (v lost : Bool) (i j : Interrupts) : Prop where
  depth : i.gIgnoreInterruptManipulation = d
  reduced_depth : j.gIgnoreInterruptManipulation = 0
  flag : j.interruptState = v
  real : i.interruptState = if d = 0 then v else false
  apparent : d ≠ 0 → i.gApparentInterruptState = (v && !lost)
  lost_on : lost = true → v = true ∧ d ≠ 0

theorem transparent_nil (i j : Interrupts) :
    Transparent i j [] ↔
      (i.gIgnoreInterruptManipulation = 0 → i.interruptState = j.interruptState) := by
  constructor
  · intro h
    exact h.2 [] List.prefix_rfl
  · refine fun h => ⟨rfl, fun p hp => ?_⟩
    rw [List.prefix_nil.mp hp]
    exact h

/-- One request of the driver's own: only the run with sections moves. -/
theorem transparent_cons_section {r : FlagRequest} (hr : r.isHooked = false)
    (hnone : ∀ i, (r.exec i).1 = none) (i j : Interrupts) (rs : List FlagRequest) :
    Transparent i j (r :: rs) ↔
      (i.gIgnoreInterruptManipulation = 0 → i.interruptState = j.interruptState) ∧
        Transparent (r.exec i).2 j rs := by
  have hred : ∀ p, reduced (r :: p) = reduced p := fun p => by simp [reduced, hr]
  constructor
  · rintro ⟨hrep, hpre⟩
    refine ⟨hpre [] List.nil_prefix, ?_, fun p hp => ?_⟩
    · simpa [reports, hnone, hred] using hrep
    · simpa [execAll, hred] using hpre (r :: p) (List.cons_prefix_cons.mpr ⟨rfl, hp⟩)
  · rintro ⟨h0, hrep, hpre⟩
    refine ⟨by simpa [reports, hnone, hred] using hrep, fun p hp => ?_⟩
    cases p with
    | nil => exact h0
    | cons r' p =>
        obtain ⟨rfl, hp'⟩ := List.cons_prefix_cons.mp hp
        simpa [execAll, hred] using hpre p hp'

/-- One hooked request: both runs move, and must report the same. -/
theorem transparent_cons_hooked {r : FlagRequest} (hr : r.isHooked = true)
    (hopt : ∀ i j : Interrupts, (r.exec i).1.isSome = (r.exec j).1.isSome)
    (i j : Interrupts) (rs : List FlagRequest) :
    Transparent i j (r :: rs) ↔
      (i.gIgnoreInterruptManipulation = 0 → i.interruptState = j.interruptState) ∧
        (r.exec i).1 = (r.exec j).1 ∧ Transparent (r.exec i).2 (r.exec j).2 rs := by
  have hred : ∀ p, reduced (r :: p) = r :: reduced p := fun p => by simp [reduced, hr]
  have hsplit : ∀ l m, (r.exec i).1.toList ++ l = (r.exec j).1.toList ++ m ↔
      (r.exec i).1 = (r.exec j).1 ∧ l = m := by
    intro l m
    have := hopt i j
    cases hi : (r.exec i).1 <;> cases hj : (r.exec j).1 <;> simp_all
  constructor
  · rintro ⟨hrep, hpre⟩
    rw [hred, reports, reports, hsplit] at hrep
    refine ⟨hpre [] List.nil_prefix, hrep.1, hrep.2, fun p hp => ?_⟩
    simpa [execAll, hred] using hpre (r :: p) (List.cons_prefix_cons.mpr ⟨rfl, hp⟩)
  · rintro ⟨h0, hone, hrep, hpre⟩
    refine ⟨by rw [hred, reports, reports, hsplit]; exact ⟨hone, hrep⟩, fun p hp => ?_⟩
    cases p with
    | nil => exact h0
    | cons r' p =>
        obtain ⟨rfl, hp'⟩ := List.cons_prefix_cons.mp hp
        simpa [execAll, hred] using hpre p hp'

namespace SideBySide

variable {d : Nat} {v lost : Bool} {i j : Interrupts}

/-- With no section open both runs have the same real state. -/
theorem real_eq (h : SideBySide d v lost i j) :
    i.gIgnoreInterruptManipulation = 0 → i.interruptState = j.interruptState := by
  intro h0
  rw [h.real, h.flag, if_pos (h.depth ▸ h0)]

/-- Entering a section: the outermost one takes over the flag, a nested one
sees the interrupts off and so loses a flag that is on. -/
theorem criticalBegin (h : SideBySide d v lost i j) :
    SideBySide (d + 1) v (decide (d ≠ 0) && (lost || v)) (MultiArchUefi.criticalBegin i) j := by
  obtain ⟨hd, hj, hf, hr, ha, hl⟩ := h
  rw [criticalBegin_eq]
  cases d with
  | zero => exact ⟨by simp [hd], hj, hf, by simp, by simp [hr], by simp⟩
  | succ d =>
      refine ⟨by simp [hd], hj, hf, by simp, ?_, ?_⟩
      · intro _
        cases v <;> cases lost <;> simp_all
      · cases v <;> cases lost <;> simp_all

/-- Leaving a nested section changes nothing anybody can see. -/
theorem criticalEnd_nested (h : SideBySide (d + 2) v lost i j) :
    SideBySide (d + 1) v lost (MultiArchUefi.criticalEnd i) j := by
  obtain ⟨hd, hj, hf, hr, ha, hl⟩ := h
  rw [criticalEnd_succ_succ hd]
  exact ⟨rfl, hj, hf, by simpa using hr, fun _ => ha (by simp),
    fun hlost => ⟨(hl hlost).1, by simp⟩⟩

/-- Leaving the outermost section with the flag kept. -/
theorem criticalEnd_outermost (h : SideBySide 1 v false i j) :
    SideBySide 0 v false (MultiArchUefi.criticalEnd i) j := by
  obtain ⟨hd, hj, hf, hr, ha, hl⟩ := h
  have hv : i.gApparentInterruptState = v := by simpa using ha (by simp)
  rw [criticalEnd_one hd, hv]
  exact ⟨rfl, hj, hf, by simp, by simp, by simp⟩

/-- Leaving the outermost section with the flag lost leaves the host with its
interrupts off, although the flag is on. -/
theorem criticalEnd_lost (h : SideBySide 1 v true i j) :
    (MultiArchUefi.criticalEnd i).gIgnoreInterruptManipulation = 0 ∧
      (MultiArchUefi.criticalEnd i).interruptState ≠ j.interruptState := by
  obtain ⟨hd, hj, hf, hr, ha, hl⟩ := h
  rw [criticalEnd_one hd]
  refine ⟨rfl, ?_⟩
  rw [hf, (hl rfl).1, ha (by simp)]
  simp

/-- A hooked request to set the flag to `b`. -/
theorem set_flag (h : SideBySide d v lost i j) {b : Bool} {i' j' : Interrupts}
    (hi : i' = ⟨d, b, if d = 0 then b else i.interruptState⟩) (hj' : j' = ⟨0, b, b⟩) :
    SideBySide d b false i' j' := by
  subst hi hj'
  refine ⟨rfl, rfl, rfl, ?_, by simp, by simp⟩
  have hr := h.real
  cases d <;> simp_all

/-- `GetInterruptState` reports the flag exactly when it is not lost. -/
theorem report_eq_iff (h : SideBySide d v lost i j) :
    (FlagRequest.getInterruptState.exec i).1 = (FlagRequest.getInterruptState.exec j).1 ↔
      lost = false := by
  obtain ⟨hd, hj, hf, hr, ha, hl⟩ := h
  simp only [FlagRequest.exec, efiHooksCpuGetInterruptState, hj, hf, hd]
  cases d with
  | zero => cases lost <;> simp_all
  | succ d => cases lost <;> cases v <;> simp_all

end SideBySide

/-! ## the exact condition -/

/-- From two runs side by side, the rest of the sequence is transparent exactly
when it keeps the flag. -/
theorem transparent_iff_flagKept {d : Nat} {v lost : Bool} {i j : Interrupts}
    {rs : List FlagRequest} (hn : ProperlyNested d rs) (h : SideBySide d v lost i j) :
    Transparent i j rs ↔ FlagKept d v lost rs := by
  induction rs generalizing d v lost i j with
  | nil => simpa [transparent_nil, FlagKept] using h.real_eq
  | cons r rs ih =>
      cases r with
      | criticalBegin =>
          rw [transparent_cons_section rfl (fun _ => rfl), and_iff_right h.real_eq]
          cases d with
          | zero => exact ih hn h.criticalBegin
          | succ d => simpa [FlagKept] using ih hn h.criticalBegin
      | criticalEnd =>
          rw [transparent_cons_section rfl (fun _ => rfl), and_iff_right h.real_eq]
          match d, lost, hn, h with
          | d + 2, _, hn, h => exact ih hn h.criticalEnd_nested
          | 1, false, hn, h => simpa [FlagKept] using ih hn h.criticalEnd_outermost
          | 1, true, hn, h =>
              obtain ⟨h0, hne⟩ := h.criticalEnd_lost
              simp only [FlagKept, reduceCtorEq, false_and, iff_false]
              exact fun ht => hne (ht.2 [] List.nil_prefix h0)
      | enableInterrupt =>
          rw [transparent_cons_hooked rfl (fun _ _ => rfl), and_iff_right h.real_eq, FlagKept,
            exec_enableInterrupt, exec_enableInterrupt, and_iff_right rfl]
          refine ih hn (h.set_flag (b := true) ?_ ?_)
          · cases d <;> simp [efiHooksCpuEnableInterrupt, setInterruptState, h.depth]
          · simp [efiHooksCpuEnableInterrupt, setInterruptState, h.reduced_depth]
      | disableInterrupt =>
          rw [transparent_cons_hooked rfl (fun _ _ => rfl), and_iff_right h.real_eq, FlagKept,
            exec_disableInterrupt, exec_disableInterrupt, and_iff_right rfl]
          refine ih hn (h.set_flag (b := false) ?_ ?_)
          · cases d <;> simp [efiHooksCpuDisableInterrupt, setInterruptState, h.depth]
          · simp [efiHooksCpuDisableInterrupt, setInterruptState, h.reduced_depth]
      | getInterruptState =>
          rw [transparent_cons_hooked rfl, and_iff_right h.real_eq, h.report_eq_iff, FlagKept]
          · exact and_congr_right fun _ => ih hn h
          · intro i j
            simp only [FlagRequest.exec, efiHooksCpuGetInterruptState, Bool.false_eq_true, if_false]
            split <;> split <;> rfl

/-- With no section open at the start, a properly nested sequence of sections
and hooked requests is transparent exactly when no report and no closing of an
outermost section comes while the flag is lost. -/
theorem transparent_iff (i : Interrupts) (h0 : i.gIgnoreInterruptManipulation = 0)
    (rs : List FlagRequest) (hn : ProperlyNested 0 rs) :
    Transparent i i rs ↔ FlagKept 0 i.interruptState false rs :=
  transparent_iff_flagKept hn ⟨h0, h0, rfl, by simp, by simp, by simp⟩

/-- A nested section in which the flag is set again before anybody looks. -/
theorem transparent_iff_reenabled :
    Transparent ⟨0, true, true⟩ ⟨0, true, true⟩
      [.criticalBegin, .criticalBegin, .enableInterrupt, .getInterruptState, .criticalEnd,
        .criticalEnd, .getInterruptState] :=
  (transparent_iff ⟨0, true, true⟩ rfl _ (by simp [ProperlyNested])).mpr (by simp [FlagKept])

/-- With interrupts on, a report inside a nested section says they are off,
and after the sections the host is left with its interrupts off. -/
theorem nested_section_loses_flag :
    ProperlyNested 0 [.criticalBegin, .criticalBegin, .getInterruptState, .criticalEnd,
      .criticalEnd] ∧
      ¬ Transparent ⟨0, true, true⟩ ⟨0, true, true⟩
        [.criticalBegin, .criticalBegin, .getInterruptState, .criticalEnd, .criticalEnd] ∧
      execAll ⟨0, true, true⟩
        [.criticalBegin, .criticalBegin, .getInterruptState, .criticalEnd, .criticalEnd] =
        ⟨0, false, false⟩ := by
  refine ⟨by simp [ProperlyNested], fun h => ?_, by decide⟩
  exact absurd h.1 (by decide)

end MultiArchUefi
