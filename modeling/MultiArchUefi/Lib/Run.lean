/-!
# Lib.Run

Runs of a labelled transition function `step : σ → α → Option σ`, where `none`
means the label is not enabled in the state.

A run carries a side condition `C` on every state and label it takes a step
from.  The rules are the ones a proof about runs needs: an invariant kept by
one step holds in every state reached, a matching of single steps is a
simulation of runs, and two side conditions that agree as long as an invariant
holds have the same runs.
-/

namespace Transition

/-- `Run step C s as t`: the labels `as` lead from `s` to `t`, and every step
is taken from a state and label satisfying `C`. -/
inductive Run (step : σ → α → Option σ) (C : σ → α → Prop) (s : σ) : List α → σ → Prop
  | nil : Run step C s [] s
  | snoc {as : List α} {t : σ} {a : α} {u : σ} :
      Run step C s as t → C t a → step t a = some u → Run step C s (as ++ [a]) u

/-- What one step keeps, a run keeps. -/
theorem Run.invariant {step : σ → α → Option σ} {C : σ → α → Prop} {I : σ → Prop}
    (hstep : ∀ t a u, I t → C t a → step t a = some u → I u)
    {s t : σ} {as : List α} (hs : I s) (h : Run step C s as t) : I t := by
  induction h with
  | nil => exact hs
  | snoc _ hc ha ih => exact hstep _ _ _ ih hc ha

/-- A run under a condition is a run under every weaker one. -/
theorem Run.mono {step : σ → α → Option σ} {C D : σ → α → Prop} (hCD : ∀ t a, C t a → D t a)
    {s t : σ} {as : List α} (h : Run step C s as t) : Run step D s as t := by
  induction h with
  | nil => exact .nil
  | snoc _ hc ha ih => exact .snoc ih (hCD _ _ hc) ha

/-- A run can be continued. -/
theorem Run.append {step : σ → α → Option σ} {C : σ → α → Prop} {s t u : σ} {as bs : List α}
    (h : Run step C s as t) (h' : Run step C t bs u) : Run step C s (as ++ bs) u := by
  induction h' with
  | nil => rwa [List.append_nil]
  | snoc _ hc ha ih =>
      rw [← List.append_assoc]
      exact ih.snoc hc ha

theorem Run.foldlM_eq {step : σ → α → Option σ} {C : σ → α → Prop} {s t : σ} {as : List α}
    (h : Run step C s as t) : as.foldlM step s = some t := by
  induction h with
  | nil => rfl
  | snoc _ _ ha ih => simp [List.foldlM_append, ih, ha]

/-- The labels decide where a run ends. -/
theorem Run.unique {step : σ → α → Option σ} {C D : σ → α → Prop} {s t u : σ} {as : List α}
    (h : Run step C s as t) (h' : Run step D s as u) : t = u :=
  Option.some.inj (h.foldlM_eq.symm.trans h'.foldlM_eq)

/-- Two conditions that agree, as long as an invariant of the second holds, on
the steps that can be taken have the same runs. -/
theorem Run.congr {step : σ → α → Option σ} {C D : σ → α → Prop} {I : σ → Prop}
    (hstep : ∀ t a u, I t → D t a → step t a = some u → I u)
    (hiff : ∀ t a u, I t → step t a = some u → (C t a ↔ D t a))
    {s t : σ} {as : List α} (hs : I s) : Run step C s as t ↔ Run step D s as t := by
  constructor
  · intro h
    induction h with
    | nil => exact .nil
    | snoc _ hc ha ih => exact .snoc ih ((hiff _ _ _ (ih.invariant hstep hs) ha).mp hc) ha
  · intro h
    induction h with
    | nil => exact .nil
    | snoc hrun hd ha ih =>
        exact .snoc ih ((hiff _ _ _ (hrun.invariant hstep hs) ha).mpr hd) ha

/-- A relation that one step of the first system and one step of the second
keep, for the same label, relates the ends of runs with the same labels. -/
theorem Run.simulate {step : σ → α → Option σ} {step' : τ → α → Option τ}
    {C : σ → α → Prop} {C' : τ → α → Prop} {R : σ → τ → Prop}
    (hstep : ∀ s a s₁ t, R s t → C s a → step s a = some s₁ →
      ∃ t₁, C' t a ∧ step' t a = some t₁ ∧ R s₁ t₁)
    {s s₁ : σ} {t : τ} {as : List α} (hst : R s t) (h : Run step C s as s₁) :
    ∃ t₁, Run step' C' t as t₁ ∧ R s₁ t₁ := by
  induction h with
  | nil => exact ⟨t, .nil, hst⟩
  | snoc _ hc ha ih =>
      obtain ⟨u, hu, hR⟩ := ih
      obtain ⟨u₁, hc', hu₁, hR₁⟩ := hstep _ _ _ _ hR hc ha
      exact ⟨u₁, .snoc hu hc' hu₁, hR₁⟩

/-! ## executing a run -/

/-- The state the labels lead to, when they are all enabled and meet the condition. -/
def exec (step : σ → α → Option σ) (C : σ → α → Prop) [∀ s a, Decidable (C s a)] :
    σ → List α → Option σ
  | s, [] => some s
  | s, a :: as => if C s a then (step s a).bind fun t => exec step C t as else none

/-- What can be executed is a run. -/
theorem Run.of_exec {step : σ → α → Option σ} {C : σ → α → Prop} [∀ s a, Decidable (C s a)]
    {s t : σ} {as : List α} (h : exec step C s as = some t) : Run step C s as t := by
  suffices hrun : ∀ (as pre : List α) (u : σ), Run step C s pre u → exec step C u as = some t →
      Run step C s (pre ++ as) t from hrun as [] s .nil h
  intro as
  induction as with
  | nil =>
      intro pre u hpre hexec
      obtain rfl := Option.some.inj hexec
      rwa [List.append_nil]
  | cons a as ih =>
      intro pre u hpre hexec
      rw [exec] at hexec
      split at hexec
      · rename_i hC
        obtain ⟨v, hstep, hexec⟩ := Option.bind_eq_some_iff.mp hexec
        have := ih (pre ++ [a]) v (.snoc hpre hC hstep) hexec
        rwa [List.append_assoc] at this
      · cases hexec

end Transition
