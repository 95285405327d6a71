import Mathlib

/-!
# Lib.Traced

Computations with the trace of what they do.

A `Traced` is the value of a computation and its events, in order: the places
that it reads, or the calls that it makes.  `do` blocks put the traces one after
the other, so a function keeps the shape of the source that it models.  `Within P`
says that every event satisfies `P`, and has one rule for every way to put a
computation together.
-/

/-- What a computation comes to, and what it has done on the way. -/
structure Traced (ε α : Type) where
  value : α
  trace : List ε

namespace Traced

variable {ε α β : Type}

instance : Monad (Traced ε) where
  pure a := ⟨a, []⟩
  bind x f := ⟨(f x.value).value, x.trace ++ (f x.value).trace⟩

@[simp] theorem value_pure (a : α) : (pure a : Traced ε α).value = a := rfl

@[simp] theorem trace_pure (a : α) : (pure a : Traced ε α).trace = [] := rfl

/-- A sequence returns what its second part does. -/
@[simp] theorem value_bind (x : Traced ε α) (f : α → Traced ε β) :
    (x >>= f).value = (f x.value).value := rfl

/-- The trace of a sequence is that of its parts, in order. -/
@[simp] theorem trace_bind (x : Traced ε α) (f : α → Traced ε β) :
    (x >>= f).trace = x.trace ++ (f x.value).trace := rfl

/-- Every event satisfies `P`. -/
def Within (P : ε → Prop) (x : Traced ε α) : Prop := ∀ e ∈ x.trace, P e

variable {P : ε → Prop}

/-- The rule for returning a value. -/
theorem Within.pure (a : α) :
    Within P (Pure.pure a : Traced ε α) := fun _ he => absurd he List.not_mem_nil

/-- The rule for sequences. -/
theorem Within.bind {x : Traced ε α} {f : α → Traced ε β} (hx : Within P x)
    (hf : Within P (f x.value)) :
    Within P (x >>= f) := by
  intro e he
  rcases List.mem_append.mp he with he | he
  · exact hx e he
  · exact hf e he

/-- The rule for branches. -/
theorem Within.ite {c : Prop} [Decidable c] {x y : Traced ε α} (hx : c → Within P x)
    (hy : ¬ c → Within P y) :
    Within P (if c then x else y) := by
  split
  · exact hx ‹_›
  · exact hy ‹_›

end Traced
