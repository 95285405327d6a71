import Mathlib

/-!
# Lib.Layout

Data laid out in memory, one item after the other.

`Spells m offset data` says that `m` holds `data` from `offset` on.  Data that are
put together are spelled one after the other (`spells_append`), so a record is read
back field by field; numbers are little-endian.
-/

namespace Layout

variable {α : Type}

/-- From `offset` on, `m` holds `data`. -/
def Spells (m : Nat → α) (offset : Nat) (data : List α) : Prop :=
  ∀ i a, data[i]? = some a → m (offset + i) = a

variable {m : Nat → α} {offset : Nat}

@[simp] theorem spells_nil : Spells m offset [] := fun _ _ h => by simp at h

/-- Data is spelled element by element. -/
@[simp] theorem spells_cons {a : α} {data : List α} :
    Spells m offset (a :: data) ↔ m offset = a ∧ Spells m (offset + 1) data := by
  constructor
  · intro h
    refine ⟨h 0 a rfl, fun i a' hi => ?_⟩
    have hnext := h (i + 1) a' hi
    rwa [Nat.add_comm i 1, ← Nat.add_assoc] at hnext
  · rintro ⟨hhead, htail⟩ i a' hi
    cases i with
    | zero => exact hhead.trans (Option.some.inj hi)
    | succ i =>
        rw [Nat.add_comm i 1, ← Nat.add_assoc]
        exact htail i a' hi

/-- What is put together is spelled one after the other. -/
theorem spells_append {data rest : List α} :
    Spells m offset (data ++ rest) ↔
      Spells m offset data ∧ Spells m (offset + data.length) rest := by
  induction data generalizing offset with
  | nil => simp
  | cons a data ih =>
      rw [List.cons_append, spells_cons, spells_cons, ih, List.length_cons, Nat.add_assoc,
        Nat.add_comm 1, and_assoc]

/-- A list is what its items spell. -/
theorem spells_getD (data : List α) (a : α) :
    Spells (fun i => data.getD i a) 0 data := fun i b h => by
  simp [h]

/-! ## numbers -/

/-- The bytes of a number, the low one first. -/
def bytes16 (v : BitVec 16) : List (BitVec 8) := [v.extractLsb' 0 8, v.extractLsb' 8 8]

def bytes32 (v : BitVec 32) : List (BitVec 8) :=
  [v.extractLsb' 0 8, v.extractLsb' 8 8, v.extractLsb' 16 8, v.extractLsb' 24 8]

variable {bytes : Nat → BitVec 8}

@[simp] theorem length_bytes16 (v : BitVec 16) : (bytes16 v).length = 2 := rfl

@[simp] theorem length_bytes32 (v : BitVec 32) : (bytes32 v).length = 4 := rfl

/-- Two bytes in little-endian order. -/
theorem append_of_bytes16 {v : BitVec 16} (h : Spells bytes offset (bytes16 v)) :
    bytes (offset + 1) ++ bytes offset = v := by
  simp only [bytes16, spells_cons, spells_nil, and_true] at h
  rw [h.1, h.2]
  ext i hi
  simp only [BitVec.getElem_append, BitVec.getElem_extractLsb']
  grind

/-- Four bytes in little-endian order. -/
theorem append_of_bytes32 {v : BitVec 32} (h : Spells bytes offset (bytes32 v)) :
    bytes (offset + 3) ++ bytes (offset + 2) ++ bytes (offset + 1) ++ bytes offset = v := by
  simp only [bytes32, spells_cons, spells_nil, and_true, Nat.add_assoc, Nat.reduceAdd] at h
  obtain ⟨h₀, h₁, h₂, h₃⟩ := h
  rw [h₀, h₁, h₂, h₃]
  ext i hi
  simp only [BitVec.getElem_append, BitVec.getElem_extractLsb']
  grind

end Layout
