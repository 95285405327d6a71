import MultiArchUefi.Lib.Traced

/-!
# Lib.Ownership

Computations that get blocks from an allocator, and give them back.

The trace of a computation shows which blocks it has been given, and with which
pointers it has called the allocator to free something.  `Owes live x after`
says that `x`, started with the blocks of `live`, frees nothing but what it has
at that moment, and is left with the blocks of `after`.  There is one rule for
every way to put a computation together.
-/

namespace Ownership

/-- Pointers to blocks of the allocator, and to memory that is not its own. -/
inductive Pointer (α ρ : Type) where
  | null
  | block (b : α)
  | foreign (address : ρ)
deriving DecidableEq, Repr

/-- A block is handed out, a pointer is freed, or another call is made. -/
inductive Event (α ρ β : Type) where
  | allocated (b : α)
  | freed (p : Pointer α ρ)
  | other (e : β)
deriving DecidableEq, Repr

variable {α ρ β γ δ : Type}

/-! ## calls -/

/-- A call of the allocator, which may come to nothing. -/
def allocate (succeeds : Bool) (b : α) : Traced (Event α ρ β) (Pointer α ρ) :=
  if succeeds then ⟨.block b, [.allocated b]⟩ else ⟨.null, []⟩

def free (p : Pointer α ρ) : Traced (Event α ρ β) Unit := ⟨(), [.freed p]⟩

/-- Another call, and what it returns. -/
def call (e : β) (result : γ) : Traced (Event α ρ β) γ := ⟨result, [.other e]⟩

@[simp] theorem value_call (e : β) (result : γ) :
    (call e result : Traced (Event α ρ β) γ).value = result := rfl

@[simp] theorem value_allocate (b : α) :
    (allocate true b : Traced (Event α ρ β) (Pointer α ρ)).value = .block b := rfl

@[simp] theorem value_allocate_fails (b : α) :
    (allocate false b : Traced (Event α ρ β) (Pointer α ρ)).value = .null := rfl

/-- The calls that are not calls of the allocator. -/
def calls (x : Traced (Event α ρ β) γ) : List β := x.trace.filterMap fun
  | .other e => some e
  | _ => none

@[simp] theorem calls_pure (a : γ) : calls (pure a : Traced (Event α ρ β) γ) = [] := rfl

/-- The calls of a sequence are those of its parts, in order. -/
@[simp] theorem calls_bind (x : Traced (Event α ρ β) γ) (f : γ → Traced (Event α ρ β) δ) :
    calls (x >>= f) = calls x ++ calls (f x.value) := List.filterMap_append

/-- An allocation is not among the other calls. -/
@[simp] theorem calls_allocate (succeeds : Bool) (b : α) :
    calls (allocate succeeds b : Traced (Event α ρ β) (Pointer α ρ)) = [] := by
  cases succeeds <;> rfl

@[simp] theorem calls_free (p : Pointer α ρ) :
    calls (free p : Traced (Event α ρ β) Unit) = [] := rfl

/-- Another call is the only one it makes. -/
@[simp] theorem calls_call (e : β) (result : γ) :
    calls (call e result : Traced (Event α ρ β) γ) = [e] := rfl

/-! ## what is owed -/

variable [DecidableEq α]

/-- The blocks that are owed after an event; `none` when something is freed that is not owed. -/
def owedAfter (live : List α) : Event α ρ β → Option (List α)
  | .allocated b => some (b :: live)
  | .freed (.block b) => if b ∈ live then some (live.erase b) else none
  | .freed _ => none
  | .other _ => some live

/-- Nothing is freed that is not owed, and what is owed in the end. -/
def Owes (live : List α) (x : Traced (Event α ρ β) γ) (after : List α) : Prop :=
  x.trace.foldlM owedAfter live = some after

/-- Every block that is handed out is freed once, and nothing else is freed. -/
abbrev Balanced (x : Traced (Event α ρ β) γ) : Prop := Owes [] x []

section

variable {live mid after : List α} {x y : Traced (Event α ρ β) γ} {f : γ → Traced (Event α ρ β) δ}

theorem Owes.pure (live : List α) (a : γ) :
    Owes live (Pure.pure a : Traced (Event α ρ β) γ) live := rfl

/-- What is owed in the end is determined by the calls. -/
theorem Owes.unique {after' : List α} (h : Owes live x after) (h' : Owes live x after') :
    after = after' :=
  Option.some.inj (h.symm.trans h')

/-- The rule for sequences: the second part starts with what the first one owes. -/
theorem Owes.bind (hx : Owes live x mid) (hf : Owes mid (f x.value) after) :
    Owes live (x >>= f) after := by
  rw [Owes, Traced.trace_bind, List.foldlM_append, hx]
  exact hf

/-- What comes after a computation decides what is owed in the end. -/
theorem Owes.bind_iff (hx : Owes live x mid) :
    Owes live (x >>= f) after ↔ Owes mid (f x.value) after := by
  rw [Owes, Traced.trace_bind, List.foldlM_append, hx]
  exact Iff.rfl

/-- The order in which blocks are owed does not matter to one event. -/
theorem owedAfter_perm {live' : List α} (hperm : live.Perm live') {e : Event α ρ β}
    (h : owedAfter live e = some after) :
    ∃ after', after.Perm after' ∧ owedAfter live' e = some after' := by
  cases e with
  | allocated b => exact ⟨b :: live', Option.some.inj h ▸ hperm.cons b, rfl⟩
  | other e => exact ⟨live', Option.some.inj h ▸ hperm, rfl⟩
  | freed p =>
      cases p with
      | null => cases h
      | foreign address => cases h
      | block b =>
          by_cases hb : b ∈ live
          · rw [owedAfter, if_pos hb] at h
            exact ⟨live'.erase b, Option.some.inj h ▸ hperm.erase b, if_pos (hperm.mem_iff.mp hb)⟩
          · rw [owedAfter, if_neg hb] at h
            cases h

/-- The order in which blocks are owed does not matter. -/
theorem Owes.perm {live' : List α} (h : Owes live x after) (hperm : live.Perm live') :
    ∃ after', after.Perm after' ∧ Owes live' x after' := by
  unfold Owes at h ⊢
  generalize x.trace = events at h ⊢
  induction events generalizing live live' with
  | nil => exact ⟨live', Option.some.inj h ▸ hperm, rfl⟩
  | cons e events ih =>
      rw [List.foldlM_cons] at h
      obtain ⟨mid, hmid, hafter⟩ := Option.bind_eq_some_iff.mp h
      obtain ⟨mid', hperm', hmid'⟩ := owedAfter_perm hperm hmid
      obtain ⟨after', hperm'', hafter'⟩ := ih hperm' hafter
      refine ⟨after', hperm'', ?_⟩
      rw [List.foldlM_cons, hmid']
      exact hafter'

/-- Where a sequence frees rightly, its first part does. -/
theorem Owes.of_bind (h : Owes live (x >>= f) after) : ∃ mid, Owes live x mid := by
  rw [Owes, Traced.trace_bind, List.foldlM_append] at h
  obtain ⟨mid, hx, -⟩ := Option.bind_eq_some_iff.mp h
  exact ⟨mid, hx⟩

/-- The rule for branches. -/
theorem Owes.ite {c : Prop} [Decidable c] (hx : c → Owes live x after)
    (hy : ¬ c → Owes live y after) :
    Owes live (if c then x else y) after := by
  split
  · exact hx ‹_›
  · exact hy ‹_›

/-- The rule for other calls, which owe what was owed. -/
theorem Owes.call (live : List α) (e : β) (result : γ) :
    Owes live (Ownership.call e result : Traced (Event α ρ β) γ) live := rfl

/-- The rule for an allocation, whose block is owed from then on. -/
theorem Owes.allocate (live : List α) (b : α) :
    Owes live (Ownership.allocate true b : Traced (Event α ρ β) (Pointer α ρ)) (b :: live) := rfl

/-- A failed allocation adds nothing to what is owed. -/
theorem Owes.allocate_fails (live : List α) (b : α) :
    Owes live (Ownership.allocate false b : Traced (Event α ρ β) (Pointer α ρ)) live := rfl

/-- The rule for freeing a block that is owed. -/
theorem Owes.free {b : α} (hb : b ∈ live) :
    Owes live (Ownership.free (.block b) : Traced (Event α ρ β) Unit) (live.erase b) := by
  simp [Owes, Ownership.free, owedAfter, hb]

/-- Freeing the null pointer is an error. -/
theorem not_owes_free_null :
    ¬ Owes live (Ownership.free .null : Traced (Event α ρ β) Unit) after := by
  simp [Owes, Ownership.free, owedAfter]

end

/-! ## runs, call by call -/

section

variable {live after : List α} {b : α}

/-- At the end, what is owed is all that is left. -/
@[simp] theorem owes_pure_iff {a : γ} :
    Owes live (pure a : Traced (Event α ρ β) γ) after ↔ live = after := by
  simp [Owes]

/-- Symbolic execution: another call is stepped over. -/
@[simp] theorem owes_call_bind {e : β} {result : γ} {f : γ → Traced (Event α ρ β) δ} :
    Owes live (call e result >>= f) after ↔ Owes live (f result) after := (Owes.call ..).bind_iff

/-- Symbolic execution: an allocation adds its block. -/
@[simp] theorem owes_allocate_bind {f : Pointer α ρ → Traced (Event α ρ β) δ} :
    Owes live (allocate true b >>= f) after ↔ Owes (b :: live) (f (.block b)) after :=
      (Owes.allocate ..).bind_iff

/-- Symbolic execution: a failed allocation adds nothing. -/
@[simp] theorem owes_allocate_fails_bind {f : Pointer α ρ → Traced (Event α ρ β) δ} :
    Owes live (allocate false b >>= f) after ↔ Owes live (f .null) after :=
      (Owes.allocate_fails ..).bind_iff

/-- Symbolic execution: a block that is owed is taken off. -/
@[simp] theorem owes_free_bind {f : Unit → Traced (Event α ρ β) δ} (hb : b ∈ live) :
    Owes live (free (.block b) >>= f) after ↔ Owes (live.erase b) (f ()) after :=
      (Owes.free hb).bind_iff

/-- What frees a null pointer never frees rightly. -/
@[simp] theorem not_owes_free_null_bind {f : Unit → Traced (Event α ρ β) δ} :
    ¬ Owes live (free .null >>= f) after := fun h => h.of_bind.elim fun _ => not_owes_free_null

end

end Ownership
