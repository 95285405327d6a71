import Mathlib

/-!
# Lib.Rounding

Rounding sizes up, in numbers and in machine words.

A region is measured in pages of `p`, and holds objects of size `s`.  The pages
for `n` objects are the ceiling of `s * n / p`; the objects that fill them are
the floor of the other quotient, and need the same pages.
-/

namespace Rounding

/-! ## pages and objects -/

section

variable {s n p : Nat}

/-- The objects that fit into the pages for `n` objects. -/
def fill (s n p : Nat) : Nat := (s * n) ⌈/⌉ p * p / s

theorem mul_le_pages (hp : 0 < p) (s n : Nat) : s * n ≤ (s * n) ⌈/⌉ p * p := by
  have h : s * n ≤ p * ((s * n) ⌈/⌉ p) := le_smul_ceilDiv hp
  rwa [Nat.mul_comm p] at h

theorem pages_lt (hp : 0 < p) (n : Nat) : n ⌈/⌉ p * p < n + p := by
  have h : n ⌈/⌉ p * p ≤ n + p - 1 := Nat.div_mul_le_self ..
  omega

theorem le_fill (hs : 0 < s) (hp : 0 < p) : n ≤ fill s n p := by
  rw [fill, Nat.le_div_iff_mul_le hs, Nat.mul_comm n]
  exact mul_le_pages hp s n

theorem mul_fill_le (s n p : Nat) : s * fill s n p ≤ (s * n) ⌈/⌉ p * p := Nat.mul_div_le _ _

/-- One more object does not fit. -/
theorem lt_mul_fill_succ (hs : 0 < s) : (s * n) ⌈/⌉ p * p < (fill s n p + 1) * s := by
  rw [← Nat.div_lt_iff_lt_mul hs]
  exact Nat.lt_succ_self _

/-- The objects that fill the pages need the same pages. -/
theorem ceilDiv_mul_fill (hs : 0 < s) (hp : 0 < p) : (s * fill s n p) ⌈/⌉ p = (s * n) ⌈/⌉ p := by
  refine Nat.le_antisymm ?_ ?_
  · rw [ceilDiv_le_iff_le_mul hp, Nat.mul_comm p]
    exact mul_fill_le s n p
  · rw [ceilDiv_le_iff_le_mul hp]
    calc
      s * n ≤ s * fill s n p := Nat.mul_le_mul_left s (le_fill hs hp)
      _ ≤ p * ((s * fill s n p) ⌈/⌉ p) := le_smul_ceilDiv hp

/-- The ceiling is one above the floor when there is a remainder. -/
theorem ceilDiv_eq (hp : 0 < p) (n : Nat) : n ⌈/⌉ p = n / p + if n % p ≠ 0 then 1 else 0 := by
  have hsplit : n + p - 1 = n % p + p - 1 + p * (n / p) := by
    have := Nat.div_add_mod n p
    omega
  rw [Nat.ceilDiv_eq_add_pred_div, hsplit, Nat.add_mul_div_left _ _ hp, Nat.add_comm]
  have hlt := Nat.mod_lt n hp
  split
  · have hone : (n % p + p - 1) / p = 1 := Nat.div_eq_of_lt_le (by omega) (by omega)
    rw [hone]
  · have hzero : (n % p + p - 1) / p = 0 := Nat.div_eq_of_lt (by omega)
    rw [hzero]

end

/-! ## machine words -/

variable {w : Nat}

theorem toNat_sub_one_of_pow {n : BitVec w} {k : Nat} (hn : n.toNat = 2 ^ k) :
    (n - 1).toNat = 2 ^ k - 1 := by
  have hpos : 0 < 2 ^ k := Nat.two_pow_pos k
  have hlt : 2 ^ k < 2 ^ w := hn ▸ n.isLt
  have hone : (1 : BitVec w).toNat = 1 := by
    show 1 % 2 ^ w = 1
    exact Nat.mod_eq_of_lt (by omega)
  rw [BitVec.toNat_sub_of_le (by rw [BitVec.le_def, hone]; omega), hn, hone]

/-- Masking with a power of two less one keeps the remainder. -/
theorem toNat_and_sub_one {n : BitVec w} {k : Nat} (hn : n.toNat = 2 ^ k) (x : BitVec w) :
    (x &&& (n - 1)).toNat = x.toNat % 2 ^ k := by
  rw [BitVec.toNat_and, toNat_sub_one_of_pow hn, Nat.and_two_pow_sub_one_eq_mod]

/-- Masking the remainder away leaves the multiple of the power of two. -/
theorem toNat_and_not_sub_one {n : BitVec w} {k : Nat} (hn : n.toNat = 2 ^ k) (x : BitVec w) :
    (x &&& ~~~(n - 1)).toNat = x.toNat / 2 ^ k * 2 ^ k := by
  have hbit : ∀ i, (n - 1).getLsbD i = decide (i < k) := by
    intro i
    rw [BitVec.getLsbD, toNat_sub_one_of_pow hn, Nat.testBit_two_pow_sub_one]
  have hshift : x &&& ~~~(n - 1) = (x >>> k) <<< k := by
    generalize n - 1 = mask at hbit
    refine BitVec.eq_of_getLsbD_eq fun i hi => ?_
    rw [BitVec.getLsbD_and, BitVec.getLsbD_not, hbit, BitVec.getLsbD_shiftLeft,
      BitVec.getLsbD_ushiftRight]
    by_cases hik : i < k
    · simp [hik]
    · simp [hi, hik, Nat.add_sub_cancel' (Nat.le_of_not_lt hik)]
  have hle : x.toNat / 2 ^ k * 2 ^ k < 2 ^ w := (Nat.div_mul_le_self ..).trans_lt x.isLt
  rw [hshift, BitVec.toNat_shiftLeft, BitVec.toNat_ushiftRight, Nat.shiftRight_eq_div_pow,
    Nat.shiftLeft_eq, Nat.mod_eq_of_lt hle]

/-- The pages of a size: a whole page for every page begun. -/
theorem toNat_pages {n : BitVec w} {k : Nat} (hn : n.toNat = 2 ^ k) (hk : 0 < k) (x : BitVec w) :
    ((x >>> k) + if x &&& (n - 1) ≠ 0 then 1 else 0).toNat = x.toNat ⌈/⌉ 2 ^ k := by
  have hrem := toNat_and_sub_one hn x
  have hzero : x &&& (n - 1) = 0 ↔ x.toNat % 2 ^ k = 0 := by
    rw [← hrem, ← BitVec.toNat_inj]
    rfl
  have hsmall : x.toNat / 2 ^ k + 1 < 2 ^ w := by
    have hlt : 2 ^ k < 2 ^ w := hn ▸ n.isLt
    have htwo : 2 ^ 1 ≤ 2 ^ k := Nat.pow_le_pow_right (by decide) hk
    have hhalf : x.toNat / 2 ^ k ≤ x.toNat / 2 := Nat.div_le_div_left htwo (by decide)
    have hx := x.isLt
    omega
  rw [ceilDiv_eq (Nat.two_pow_pos k), BitVec.toNat_add, BitVec.toNat_ushiftRight,
    Nat.shiftRight_eq_div_pow]
  have hone : (1 : BitVec w).toNat = 1 := by
    show 1 % 2 ^ w = 1
    exact Nat.mod_eq_of_lt (by omega)
  by_cases hx : x &&& (n - 1) = 0
  · rw [if_neg (not_not.mpr hx), if_neg (not_not.mpr (hzero.mp hx))]
    exact Nat.mod_eq_of_lt (by show x.toNat / 2 ^ k + 0 % 2 ^ w < 2 ^ w; rw [Nat.zero_mod]; omega)
  · rw [if_pos hx, if_pos (mt hzero.mpr hx), hone, Nat.mod_eq_of_lt hsmall]

/-- Rounding up to a multiple of a power of two, when that does not wrap around to zero. -/
theorem toNat_roundUp {n : BitVec w} {k : Nat} (hn : n.toNat = 2 ^ k) (x : BitVec w)
    (h : 0 < ((x + n - 1) &&& ~~~(n - 1)).toNat) :
    ((x + n - 1) &&& ~~~(n - 1)).toNat = x.toNat ⌈/⌉ 2 ^ k * 2 ^ k := by
  have hpos : 0 < 2 ^ k := Nat.two_pow_pos k
  have hsum : (x + n - 1).toNat = (x.toNat + (2 ^ k - 1)) % 2 ^ w := by
    rw [BitVec.sub_eq_add_neg, BitVec.add_assoc, ← BitVec.sub_eq_add_neg, BitVec.toNat_add,
      toNat_sub_one_of_pow hn]
  rw [toNat_and_not_sub_one hn] at h ⊢
  by_cases hwrap : x.toNat + (2 ^ k - 1) < 2 ^ w
  · rw [hsum, Nat.mod_eq_of_lt hwrap, Nat.ceilDiv_eq_add_pred_div, Nat.add_sub_assoc hpos]
  · -- what is left of a sum that wraps around is below the power of two
    have hx := x.isLt
    have hlt : 2 ^ k < 2 ^ w := hn ▸ n.isLt
    have hrest : (x + n - 1).toNat < 2 ^ k := by
      rw [hsum, Nat.mod_eq_sub_mod (Nat.le_of_not_lt hwrap), Nat.mod_eq_of_lt (by omega)]
      omega
    rw [Nat.div_eq_of_lt hrest] at h
    omega

end Rounding
