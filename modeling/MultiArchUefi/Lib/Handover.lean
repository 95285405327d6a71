import Mathlib

/-!
# Lib.Handover

A unit (a processor, a register bank) handed up a stack of holders.

A holder puts the unit's value aside and takes it over, does with it what it
likes, and gives it back as it was.  A holder that finds nobody below it who
minds may take the unit without putting anything aside.  All of this happens in
single steps, and a new holder may appear on top after every one of them, so
that it finds the unit in whatever state that step has left it.

`Held` says what the unit's value and the values put aside have to do with each
other; `Held.step` is the rule that one step keeps it, whatever the holders do
with the unit while they have it.  Holders and values are arbitrary types.
-/

namespace Handover

/-- How far a holder is. -/
inductive Phase (ρ : Type*) where
  /-- It has nothing to do with the unit: not yet, or not any more. -/
  | apart
  /-- It has decided to put the unit's value aside. -/
  | asking
  /-- It has put `v` aside, and not touched the unit yet. -/
  | keeping (v : ρ)
  /-- It has decided that nobody below it minds. -/
  | starting
  /-- It has the unit, and what it has put aside. -/
  | holding (v : Option ρ)

variable {κ ρ : Type*}

/-- The unit is at `p`, with the holders of the list above whoever left it as
`base` says, innermost first.  `R` relates a holder that has the unit to what it
has put aside and to the unit; `D` is what the decision to put a value aside asks
of the holders below. -/
def Held (R : κ → Option ρ → ρ → Prop) (D : ρ → List (κ × Phase ρ) → Prop) (base : ρ → Prop) :
    ρ → List (κ × Phase ρ) → Prop
  | p, [] => base p
  | p, (_, .apart) :: l => Held R D base p l
  | p, (_, .asking) :: l => D p l ∧ Held R D base p l
  | p, (_, .keeping v) :: l => v = p ∧ D p l ∧ Held R D base p l
  | _, (_, .starting) :: l => ∀ p, Held R D base p l
  | p, (a, .holding (some v)) :: l => R a (some v) p ∧ D v l ∧ Held R D base v l
  | p, (a, .holding none) :: l => R a none p ∧ ∀ p, Held R D base p l

section

variable {R : κ → Option ρ → ρ → Prop} {D : ρ → List (κ × Phase ρ) → Prop} {base : ρ → Prop}
  {p p' : ρ} {a : κ} {l l' : List (κ × Phase ρ)}

/-- Holders that have nothing to do with the unit leave it as they found it. -/
theorem held_of_apart (hl : ∀ e ∈ l, e.2 = .apart) (h : base p) : Held R D base p l := by
  induction l with
  | nil => exact h
  | cons e l ih =>
      obtain ⟨a, phase⟩ := e
      obtain rfl : phase = .apart := hl (a, phase) List.mem_cons_self
      exact ih fun e he => hl e (List.mem_cons_of_mem _ he)

/-- One step of the topmost holder, or of a new one. -/
inductive Step (R : κ → Option ρ → ρ → Prop) (D : ρ → List (κ × Phase ρ) → Prop) (base : ρ → Prop) :
    ρ → List (κ × Phase ρ) → ρ → List (κ × Phase ρ) → Prop
  | push {p : ρ} {l : List (κ × Phase ρ)} {a : κ} : Step R D base p l p ((a, .apart) :: l)
  | pop {p : ρ} {l : List (κ × Phase ρ)} {a : κ} : Step R D base p ((a, .apart) :: l) p l
  | move {p : ρ} {l : List (κ × Phase ρ)} {a a' : κ} :
      Step R D base p ((a, .apart) :: l) p ((a', .apart) :: l)
  | ask {p : ρ} {l : List (κ × Phase ρ)} {a a' : κ} (h : D p l) :
      Step R D base p ((a, .apart) :: l) p ((a', .asking) :: l)
  | start {p : ρ} {l : List (κ × Phase ρ)} {a a' : κ} (hl : ∀ e ∈ l, e.2 = .apart)
      (h : ∀ p, base p) :
      Step R D base p ((a, .apart) :: l) p ((a', .starting) :: l)
  | keep {p : ρ} {l : List (κ × Phase ρ)} {a a' : κ} :
      Step R D base p ((a, .asking) :: l) p ((a', .keeping p) :: l)
  | take {p v : ρ} {l : List (κ × Phase ρ)} {a a' : κ} (h : D v l → R a' (some v) v) :
      Step R D base p ((a, .keeping v) :: l) p ((a', .holding (some v)) :: l)
  | begin {p p' : ρ} {l : List (κ × Phase ρ)} {a a' : κ} (h : R a' none p') :
      Step R D base p ((a, .starting) :: l) p' ((a', .holding none) :: l)
  | hold {p p' : ρ} {l : List (κ × Phase ρ)} {a a' : κ} {v : Option ρ}
      (h : (∀ q, v = some q → D q l) → R a v p → R a' v p') :
      Step R D base p ((a, .holding v) :: l) p' ((a', .holding v) :: l)
  | giveBack {p v : ρ} {l : List (κ × Phase ρ)} {a a' : κ} :
      Step R D base p ((a, .holding (some v)) :: l) v ((a', .apart) :: l)
  | quit {p p' : ρ} {l : List (κ × Phase ρ)} {a a' : κ} :
      Step R D base p ((a, .holding none) :: l) p' ((a', .apart) :: l)

/-- Every step keeps what is held. -/
theorem Held.step (h : Held R D base p l) (hs : Step R D base p l p' l') : Held R D base p' l' := by
  cases hs with
  | push | pop | move => exact h
  | ask hD => exact ⟨hD, h⟩
  | start hl hbase => exact fun p => held_of_apart hl (hbase p)
  | keep => exact ⟨rfl, h⟩
  | take hR =>
      obtain ⟨rfl, hD, hheld⟩ := h
      exact ⟨hR hD, hD, hheld⟩
  | begin hR => exact ⟨hR, h⟩
  | @hold _ _ _ _ v hR =>
      cases v with
      | none => exact ⟨hR nofun h.1, h.2⟩
      | some v =>
          obtain ⟨hholds, hD, hheld⟩ := h
          refine ⟨hR (fun q hq => ?_) hholds, hD, hheld⟩
          obtain rfl := Option.some.inj hq
          exact hD
  | giveBack => exact h.2.2
  | quit => exact h.2 _

end

end Handover
