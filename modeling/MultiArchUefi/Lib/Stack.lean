import MultiArchUefi.Lib.Memory

/-!
# Lib.Stack

Words pushed onto a stack that grows downward through memory, and addressed
from its top afterwards.  The stack may lie anywhere, wrapping around included,
as long as the words pushed fit into the address space.
-/

namespace WordMemory

/-- Push `vals` below `sp`, the first one first. -/
def Memory.push (m : Memory) (sp : BitVec 64) : List (BitVec 64) → Memory
  | [] => m
  | v :: vals => (m.store64 (sp - 8) v).push (sp - 8) vals

/-- The pointer after `n` words have been pushed below `sp`. -/
def pushed (sp : BitVec 64) (n : Nat) : BitVec 64 := sp - BitVec.ofNat 64 (8 * n)

@[simp] theorem pushed_zero (sp : BitVec 64) : pushed sp 0 = sp := by simp [pushed]

/-- Pushing once and then `n` times. -/
theorem pushed_succ (sp : BitVec 64) (n : Nat) : pushed (sp - 8) n = pushed sp (n + 1) := by
  unfold pushed
  bv_omega

/-- What is pushed is popped by adding it up again. -/
theorem pushed_add (sp : BitVec 64) (n : Nat) : pushed sp n + BitVec.ofNat 64 (8 * n) = sp := by
  unfold pushed
  bv_omega

@[simp] theorem loads_push (m : Memory) (sp : BitVec 64) (vals : List (BitVec 64)) :
    (m.push sp vals).loads = m.loads := by
  induction vals generalizing m sp with
  | nil => rfl
  | cons v vals ih => rw [Memory.push, ih, store64_loads]

/-- Words apart from all those pushed stay as they are. -/
theorem word_push_of_apart {m : Memory} {sp b : BitVec 64} {vals : List (BitVec 64)}
    (h : ∀ i < vals.length, Apart (pushed sp (i + 1)) b) : (m.push sp vals).word b = m.word b := by
  induction vals generalizing m sp with
  | nil => rfl
  | cons v vals ih =>
      have hfirst : Apart (sp - 8) b := by
        have := h 0 (Nat.zero_lt_succ _)
        rwa [← pushed_succ, pushed_zero] at this
      rw [Memory.push, ih fun i hi => ?_, word_store64_of_apart hfirst]
      rw [pushed_succ]
      exact h (i + 1) (Nat.succ_lt_succ hi)

/-- Pushed words are found where they were pushed. -/
theorem word_push {m : Memory} {sp : BitVec 64} {vals : List (BitVec 64)}
    (hfit : 8 * vals.length ≤ 2 ^ 64) {i : Nat} (hi : i < vals.length) :
    (m.push sp vals).word (pushed sp (i + 1)) = vals[i] := by
  induction vals generalizing m sp i with
  | nil => cases hi
  | cons v vals ih =>
      rw [List.length_cons] at hfit hi
      cases i with
      | zero =>
          rw [← pushed_succ, pushed_zero, Memory.push,
            word_push_of_apart fun j hj => ?_, word_store64]
          · rfl
          · unfold pushed Apart
            constructor <;> bv_omega
      | succ i =>
          rw [Memory.push, ← pushed_succ, ih (by omega) (Nat.lt_of_succ_lt_succ hi)]
          rfl

/-- The `j`-th word from the top is the `j`-th of those pushed, the last one first. -/
theorem word_top (m : Memory) (sp : BitVec 64) {vals : List (BitVec 64)}
    (hfit : 8 * vals.length ≤ 2 ^ 64) {j : Nat} (hj : j < vals.length) :
    (m.push sp vals).word (pushed sp vals.length + BitVec.ofNat 64 (8 * j)) =
      vals.reverse.get ⟨j, by rwa [List.length_reverse]⟩ := by
  have haddr : pushed sp vals.length + BitVec.ofNat 64 (8 * j) = pushed sp
      (vals.length - 1 - j + 1) := by
    unfold pushed
    bv_omega
  rw [haddr, word_push hfit (by omega), List.get_eq_getElem, List.getElem_reverse]

end WordMemory
