import MultiArchUefi.Basic
import MultiArchUefi.Lib.Counter

/-!
# MultiArchUefi.ExitPeriod

Emulated code is stopped every so many translated blocks, so that interrupts get
their turn: `CpuTimeoutCb` counts the blocks, and `CpuRunCtxInternal` adapts the
number to the time that has passed.  The counter goes on when the number
changes, and is never reset.
-/

namespace MultiArchUefi

open Counter

def UC_EMU_EXIT_PERIOD_TB_MAX : UINT64 := 0x100000
def UC_EMU_EXIT_PERIOD_TB_INITIAL : UINT64 := 0x1000
def UC_EMU_EXIT_PERIOD_TB_MIN : UINT64 := 0x100
def UC_EMU_EXIT_PERIOD_MS : UINT64 := 10

/-- The fields of a `CpuContext` that are there unless `MAU_EMU_TIMEOUT_NONE`. -/
structure ExitTimer where
  tbCount : UINT64
  exitPeriodTbs : UINT64
  exitPeriodTicks : UINT64
  stoppedOnTimeout : Bool

/-- `CpuInitEx`, with a performance counter of the frequency `properties`. -/
def exitTimerInit (properties : UINT64) : ExitTimer where
  tbCount := 0
  exitPeriodTbs := UC_EMU_EXIT_PERIOD_TB_INITIAL
  exitPeriodTicks := UC_EMU_EXIT_PERIOD_MS * properties / 1000
  stoppedOnTimeout := false

/-- The first component tells whether `uc_emu_stop` is called. -/
def cpuTimeoutCb (t : ExitTimer) : Bool × ExitTimer :=
  let t := { t with tbCount := t.tbCount + 1 }
  if t.tbCount &&& (t.exitPeriodTbs - 1) = 0 then (true, { t with stoppedOnTimeout := true })
    else (false, t)

/-- `CpuRunCtxInternal` after `uc_emu_start`; the performance counter was `before` when
it was called, and is `ticks` if it is read again. -/
def recalibrate (before ticks : UINT64) (t : ExitTimer) : ExitTimer :=
  let timeoutAbsTicks := t.exitPeriodTicks + before
  if t.stoppedOnTimeout then
    let t := { t with stoppedOnTimeout := false }
    if ticks > timeoutAbsTicks then
      if t.exitPeriodTbs > UC_EMU_EXIT_PERIOD_TB_MIN then
        { t with exitPeriodTbs := t.exitPeriodTbs >>> 1 } else t
    else if ticks < timeoutAbsTicks then
      if t.exitPeriodTbs < UC_EMU_EXIT_PERIOD_TB_MAX then
        { t with exitPeriodTbs := t.exitPeriodTbs <<< 1 } else t
    else t
  else t

/-- What happens to the timer of an engine. -/
inductive TimerAction where
  /-- A translated block starts. -/
  | block
  /-- `uc_emu_start` has returned. -/
  | stopped (before ticks : UINT64)

def TimerAction.isBlock : TimerAction → Bool
  | block => true
  | stopped _ _ => false

def timerStep (t : ExitTimer) : TimerAction → ExitTimer
  | .block => (cpuTimeoutCb t).2
  | .stopped before ticks => recalibrate before ticks t

/-! ## the period -/

/-- The period is a power of two between the least and the greatest. -/
structure PeriodFits (t : ExitTimer) : Prop where
  power : ∃ k, t.exitPeriodTbs.toNat = 2 ^ k
  min_le : UC_EMU_EXIT_PERIOD_TB_MIN ≤ t.exitPeriodTbs
  le_max : t.exitPeriodTbs ≤ UC_EMU_EXIT_PERIOD_TB_MAX

/-- The same by the exponent. -/
theorem periodFits_iff {t : ExitTimer} :
    PeriodFits t ↔ ∃ k, 8 ≤ k ∧ k ≤ 20 ∧ t.exitPeriodTbs.toNat = 2 ^ k := by
  have hmin : UC_EMU_EXIT_PERIOD_TB_MIN.toNat = 2 ^ 8 := by decide
  have hmax : UC_EMU_EXIT_PERIOD_TB_MAX.toNat = 2 ^ 20 := by decide
  constructor
  · rintro ⟨⟨k, hk⟩, hle, hge⟩
    rw [BitVec.le_def, hmin, hk] at hle
    rw [BitVec.le_def, hmax, hk] at hge
    exact ⟨k, (Nat.pow_le_pow_iff_right (by decide)).mp hle,
      (Nat.pow_le_pow_iff_right (by decide)).mp hge, hk⟩
  · rintro ⟨k, hle, hge, hk⟩
    refine ⟨⟨k, hk⟩, ?_, ?_⟩
    · rw [BitVec.le_def, hmin, hk]
      exact Nat.pow_le_pow_right (by decide) hle
    · rw [BitVec.le_def, hmax, hk]
      exact Nat.pow_le_pow_right (by decide) hge

/-- The callback reads the period and does not change it. -/
theorem exitPeriodTbs_cpuTimeoutCb (t : ExitTimer) :
    (cpuTimeoutCb t).2.exitPeriodTbs = t.exitPeriodTbs := by
  unfold cpuTimeoutCb
  simp only
  split <;> rfl

/-- The callback counts the block. -/
theorem tbCount_cpuTimeoutCb (t : ExitTimer) : (cpuTimeoutCb t).2.tbCount = t.tbCount + 1 := by
  unfold cpuTimeoutCb
  simp only
  split <;> rfl

theorem tbCount_recalibrate (before ticks : UINT64) (t : ExitTimer) :
    (recalibrate before ticks t).tbCount = t.tbCount := by
  unfold recalibrate
  grind

/-- The period is kept, halved above the least one, or doubled below the greatest. -/
theorem exitPeriodTbs_recalibrate (before ticks : UINT64) (t : ExitTimer) :
    (recalibrate before ticks t).exitPeriodTbs = t.exitPeriodTbs ∨
      (UC_EMU_EXIT_PERIOD_TB_MIN < t.exitPeriodTbs ∧
        (recalibrate before ticks t).exitPeriodTbs = t.exitPeriodTbs >>> 1) ∨
      (t.exitPeriodTbs < UC_EMU_EXIT_PERIOD_TB_MAX ∧
        (recalibrate before ticks t).exitPeriodTbs = t.exitPeriodTbs <<< 1) := by
  unfold recalibrate
  grind

/-- A new period fits, whatever has been measured. -/
theorem PeriodFits.recalibrate {t : ExitTimer} (h : PeriodFits t) (before ticks : UINT64) :
    PeriodFits (recalibrate before ticks t) := by
  obtain ⟨k, hmin, hmax, hk⟩ := periodFits_iff.mp h
  rw [periodFits_iff]
  rcases exitPeriodTbs_recalibrate before ticks t with hsame | ⟨hlt, hhalf⟩ | ⟨hlt, hdouble⟩
  · exact ⟨k, hmin, hmax, hsame ▸ hk⟩
  · have hgt : 2 ^ 8 < 2 ^ k := by
      rw [← hk]
      exact BitVec.lt_def.mp hlt
    have hk' : 8 < k := (Nat.pow_lt_pow_iff_right (by decide)).mp hgt
    refine ⟨k - 1, by omega, by omega, ?_⟩
    rw [hhalf, BitVec.toNat_ushiftRight, hk, Nat.shiftRight_eq_div_pow]
    exact Nat.pow_div (by omega) (by decide)
  · have hgt : 2 ^ k < 2 ^ 20 := by
      rw [← hk]
      exact BitVec.lt_def.mp hlt
    have hk' : k < 20 := (Nat.pow_lt_pow_iff_right (by decide)).mp hgt
    refine ⟨k + 1, by omega, by omega, ?_⟩
    have hsmall : 2 ^ (k + 1) ≤ 2 ^ 20 := Nat.pow_le_pow_right (by decide) hk'
    rw [hdouble, BitVec.toNat_shiftLeft, hk, Nat.shiftLeft_eq, ← pow_succ,
      Nat.mod_eq_of_lt (by omega)]

/-- The step lemma. -/
theorem PeriodFits.step {t : ExitTimer} (h : PeriodFits t) (action : TimerAction) :
    PeriodFits (timerStep t action) := by
  cases action with
  | block =>
      have hsame := exitPeriodTbs_cpuTimeoutCb t
      exact ⟨hsame ▸ h.power, hsame ▸ h.min_le, hsame ▸ h.le_max⟩
  | stopped before ticks => exact h.recalibrate before ticks

/-- The run lemma. -/
theorem PeriodFits.run {t : ExitTimer} (h : PeriodFits t) (actions : List TimerAction) :
    PeriodFits (actions.foldl timerStep t) := by
  induction actions generalizing t with
  | nil => exact h
  | cons action actions ih => exact ih (h.step action)

/-! ## the counter -/

/-- The counter counts the blocks, whatever the period does. -/
theorem tbCount_run (t : ExitTimer) (actions : List TimerAction) :
    (actions.foldl timerStep t).tbCount =
      t.tbCount + BitVec.ofNat 64 (actions.countP TimerAction.isBlock) := by
  induction actions generalizing t with
  | nil => simp
  | cons action actions ih =>
      rw [List.foldl_cons, ih]
      cases action with
      | block =>
          rw [List.countP_cons_of_pos rfl, timerStep, tbCount_cpuTimeoutCb, BitVec.ofNat_add,
            BitVec.add_assoc]
          exact congrArg _ (BitVec.add_comm ..)
      | stopped before ticks =>
          rw [List.countP_cons_of_neg
            (by simp [TimerAction.isBlock]), timerStep, tbCount_recalibrate]

/-- A block at which the counter comes to a multiple of the greatest period stops
the emulation. -/
theorem cpuTimeoutCb_stops {t : ExitTimer} (h : PeriodFits t)
    (hdvd : 2 ^ 20 ∣ (t.tbCount + 1).toNat) :
    (cpuTimeoutCb t).1 = true ∧ (cpuTimeoutCb t).2.stoppedOnTimeout = true := by
  obtain ⟨k, -, hmax, hk⟩ := periodFits_iff.mp h
  have hzero : (t.tbCount + 1) &&& (t.exitPeriodTbs - 1) = 0 :=
    (and_sub_one_eq_zero_iff hk).mpr ((pow_dvd_pow 2 hmax).trans hdvd)
  simp only [cpuTimeoutCb, if_pos hzero, and_self]

/-- The period always fits, and of as many blocks as the greatest one, one stops
the emulation, whatever is recalibrated in between. -/
theorem exitPeriod_of_run (properties : UINT64) (actions : List TimerAction) :
    PeriodFits (actions.foldl timerStep (exitTimerInit properties)) ∧
      ∀ next : List TimerAction, UC_EMU_EXIT_PERIOD_TB_MAX.toNat ≤ next.countP TimerAction.isBlock →
        ∃ pre post, next = pre ++ .block :: post ∧
          let t := (actions ++ pre).foldl timerStep (exitTimerInit properties)
          (cpuTimeoutCb t).1 = true ∧ (cpuTimeoutCb t).2.stoppedOnTimeout = true := by
  have hinit : PeriodFits (exitTimerInit properties) :=
    periodFits_iff.mpr ⟨12, by decide, by decide, rfl⟩
  refine ⟨hinit.run actions, fun next hnext => ?_⟩
  obtain ⟨i, hi, hdvd⟩ := exists_dvd_succ (k := 20) (by decide)
    (actions.foldl timerStep (exitTimerInit properties)).tbCount
  have hcount : i < next.countP TimerAction.isBlock := hi.trans_le hnext
  obtain ⟨pre, action, post, rfl, hblock, hpre⟩ := exists_split_countP hcount
  cases action with
  | stopped before ticks => cases hblock
  | block =>
      refine ⟨pre, post, rfl, cpuTimeoutCb_stops (hinit.run _) ?_⟩
      rw [List.foldl_append, tbCount_run, hpre]
      exact hdvd

end MultiArchUefi
