import Mathlib

/-!
# Lib.Counter

A counter of fixed width that is never reset, and a period that is a power of two.
Since the period divides what the counter wraps at, the wrap does not disturb it.
-/

namespace Counter

variable {w k : Nat} {α : Type*} {p : α → Bool} {l : List α}

/-- `x & (period - 1)` tells whether the period divides `x`. -/
theorem and_sub_one_eq_zero_iff {x period : BitVec w} (hperiod : period.toNat = 2 ^ k) :
    x &&& (period - 1) = 0 ↔ 2 ^ k ∣ x.toNat := by
  have hlt : 2 ^ k < 2 ^ w := hperiod ▸ period.isLt
  have hpos : 0 < 2 ^ k := Nat.two_pow_pos k
  have hone : (1 : BitVec w).toNat = 1 := by
    have hlt' : 1 < 2 ^ w := by omega
    simp [BitVec.toNat_ofNat, Nat.mod_eq_of_lt hlt']
  have hmask : (period - 1).toNat = 2 ^ k - 1 := by
    rw [BitVec.toNat_sub_of_le (by rw [BitVec.le_def, hone, hperiod]; exact hpos), hone, hperiod]
  have hand : (x &&& (period - 1)).toNat = x.toNat % 2 ^ k := by
    rw [BitVec.toNat_and, hmask, Nat.and_two_pow_sub_one_eq_mod]
  constructor
  · intro hzero
    rw [hzero, BitVec.ofNat_eq_ofNat, BitVec.toNat_ofNat, Nat.zero_mod] at hand
    exact Nat.dvd_of_mod_eq_zero hand.symm
  · intro hdvd
    exact BitVec.eq_of_toNat_eq
      (by rw [hand, Nat.mod_eq_zero_of_dvd hdvd, BitVec.ofNat_eq_ofNat]; simp)

/-- Of `2 ^ k` consecutive values of the counter one is a multiple of `2 ^ k`, also
when the counter wraps in between. -/
theorem exists_dvd_succ (hk : k ≤ w) (c : BitVec w) :
    ∃ i < 2 ^ k, 2 ^ k ∣ (c + BitVec.ofNat w i + 1).toNat := by
  have hpos : 0 < 2 ^ k := Nat.two_pow_pos k
  have hmod := Nat.mod_lt c.toNat hpos
  refine ⟨2 ^ k - 1 - c.toNat % 2 ^ k, by omega, ?_⟩
  have hsum : c.toNat + (2 ^ k - 1 - c.toNat % 2 ^ k) + 1 = 2 ^ k * (c.toNat / 2 ^ k + 1) := by
    have hdiv := Nat.div_add_mod c.toNat (2 ^ k)
    have hmul : 2 ^ k * (c.toNat / 2 ^ k + 1) = 2 ^ k * (c.toNat / 2 ^ k) + 2 ^ k := by ring
    omega
  have hvalue : (c + BitVec.ofNat w (2 ^ k - 1 - c.toNat % 2 ^ k) + 1).toNat =
      (c.toNat + (2 ^ k - 1 - c.toNat % 2 ^ k) + 1) % 2 ^ w := by
    simp [BitVec.toNat_add, BitVec.toNat_ofNat]
  rw [hvalue, hsum]
  exact (Nat.dvd_mod_iff (pow_dvd_pow 2 hk)).mpr (Dvd.intro _ rfl)

/-- The element of a list that has exactly `n` others of its kind before it. -/
theorem exists_split_countP {n : Nat} (h : n < l.countP p) :
    ∃ pre a post, l = pre ++ a :: post ∧ p a = true ∧ pre.countP p = n := by
  induction l generalizing n with
  | nil => simp at h
  | cons a l ih =>
      cases hpa : p a with
      | false =>
          rw [List.countP_cons_of_neg (by simp [hpa])] at h
          obtain ⟨pre, b, post, rfl, hb, hcount⟩ := ih h
          exact ⟨a :: pre, b, post, rfl, hb, by
            rw [List.countP_cons_of_neg (by simp [hpa]), hcount]⟩
      | true =>
          cases n with
          | zero => exact ⟨[], a, l, rfl, hpa, rfl⟩
          | succ n =>
              rw [List.countP_cons_of_pos hpa] at h
              obtain ⟨pre, b, post, rfl, hb, hcount⟩ := ih (Nat.lt_of_succ_lt_succ h)
              exact ⟨a :: pre, b, post, rfl, hb, by rw [List.countP_cons_of_pos hpa, hcount]⟩

end Counter
