import Mathlib

/-!
# Lib.Lookup

Linear search in a list of which at most one element is what is looked for, and
the removal of that element.
-/

namespace Lookup

variable {α : Type*} {p : α → Bool} {l : List α} {x : α}

/-- At most one element of the list satisfies `p`. -/
def AtMostOne (p : α → Bool) (l : List α) : Prop :=
  ∀ x ∈ l, ∀ y ∈ l, p x = true → p y = true → x = y

/-- The search finds the one element there is. -/
theorem find?_eq_some_iff (h : AtMostOne p l) : l.find? p = some x ↔ x ∈ l ∧ p x = true := by
  constructor
  · exact fun hfind => ⟨List.mem_of_find?_eq_some hfind, List.find?_some hfind⟩
  · rintro ⟨hmem, hx⟩
    cases hfind : l.find? p with
    | none => exact absurd hx (List.find?_eq_none.mp hfind x hmem)
    | some y =>
        rw [h x hmem y (List.mem_of_find?_eq_some hfind) hx (List.find?_some hfind)]

/-- The search finds `x` when nothing before it satisfies `p`. -/
theorem find?_eq_some_iff_takeWhile [DecidableEq α] (hx : x ∈ l) (hp : p x = true) :
    l.find? p = some x ↔ ∀ y ∈ l.takeWhile (· ≠ x), p y = false := by
  induction l with
  | nil => cases hx
  | cons z l ih =>
      by_cases hz : z = x
      · subst hz
        simp [hp]
      · have hmem : x ∈ l := (List.mem_cons.mp hx).resolve_left (Ne.symm hz)
        cases hpz : p z with
        | true => simp [hpz, hz]
        | false => simpa [hpz, hz] using ih hmem

/-- Removing what has been found leaves what does not satisfy `p`. -/
theorem erase_eq_filter [DecidableEq α] (hnodup : l.Nodup) (h : AtMostOne p l) (hx : x ∈ l)
    (hp : p x = true) : l.erase x = l.filter fun y => !p y := by
  rw [hnodup.erase_eq_filter]
  refine List.filter_congr fun y hy => ?_
  by_cases heq : y = x
  · simp [heq, hp]
  · cases hpy : p y with
    | false => simp [heq]
    | true => exact absurd (h y hy x hx hpy hp) heq

/-- What satisfies `p` is the one element that does. -/
theorem filter_eq_singleton (hnodup : l.Nodup) (h : AtMostOne p l) (hx : x ∈ l) (hp : p x = true) :
    l.filter p = [x] := by
  have hmem : ∀ y ∈ l.filter p, y = x := fun y hy => by
    obtain ⟨hy, hpy⟩ := List.mem_filter.mp hy
    exact h y hy x hx hpy hp
  have hself : x ∈ l.filter p := List.mem_filter.mpr ⟨hx, hp⟩
  refine List.perm_singleton.mp
    ((List.perm_ext_iff_of_nodup (hnodup.filter p) (List.nodup_singleton x)).mpr
    fun y => ?_)
  rw [List.mem_singleton]
  exact ⟨hmem y, fun heq => heq ▸ hself⟩

end Lookup
