import Mathlib

/-!
# Lib.Memory

Byte-addressed memory with 64-bit addresses, and little-endian 64-bit words
in it.  Addresses wrap around, so two words are kept apart by their distance
in both directions.  A memory also remembers the addresses words were loaded
from, which is what lets a client say which words some code reads.
-/

namespace WordMemory

/-- Memory contents, and the addresses of the words loaded so far, newest
first. -/
structure Memory where
  bytes : BitVec 64 → BitVec 8
  loads : List (BitVec 64)

/-- The little-endian word at address `a`. -/
def Memory.word (m : Memory) (a : BitVec 64) : BitVec 64 :=
  m.bytes (a + 7) ++ m.bytes (a + 6) ++ m.bytes (a + 5) ++ m.bytes (a + 4) ++
    m.bytes (a + 3) ++ m.bytes (a + 2) ++ m.bytes (a + 1) ++ m.bytes a

/-- The little-endian 16-bit word at address `a`. -/
def Memory.word16 (m : Memory) (a : BitVec 64) : BitVec 16 := m.bytes (a + 1) ++ m.bytes a

/-- The little-endian 32-bit word at address `a`. -/
def Memory.word32 (m : Memory) (a : BitVec 64) : BitVec 32 :=
  m.bytes (a + 3) ++ m.bytes (a + 2) ++ m.bytes (a + 1) ++ m.bytes a

/-- Load the word at address `a`. -/
def Memory.load64 (m : Memory) (a : BitVec 64) : BitVec 64 × Memory :=
  (m.word a, { m with loads := a :: m.loads })

/-- Store a word at address `a`. -/
def Memory.store64 (m : Memory) (a v : BitVec 64) : Memory :=
  { m with bytes := fun b =>
      if (b - a).toNat < 8 then v.extractLsb' (8 * (b - a).toNat) 8 else m.bytes b }

/-- The words at `a` and `b` share no byte. -/
def Apart (a b : BitVec 64) : Prop := 8 ≤ (a - b).toNat ∧ 8 ≤ (b - a).toNat

instance (a b : BitVec 64) : Decidable (Apart a b) := inferInstanceAs (Decidable (_ ∧ _))

theorem Apart.symm {a b : BitVec 64} (h : Apart a b) : Apart b a := ⟨h.2, h.1⟩

@[simp] theorem load64_fst (m : Memory) (a : BitVec 64) : (m.load64 a).1 = m.word a := rfl

@[simp] theorem load64_snd_bytes (m : Memory) (a : BitVec 64) :
    (m.load64 a).2.bytes = m.bytes := rfl

@[simp] theorem load64_snd_loads (m : Memory) (a : BitVec 64) :
    (m.load64 a).2.loads = a :: m.loads := rfl

@[simp] theorem store64_loads (m : Memory) (a v : BitVec 64) :
    (m.store64 a v).loads = m.loads := rfl

/-- Words depend on the contents only. -/
theorem word_congr {m m' : Memory} (h : m.bytes = m'.bytes) (a : BitVec 64) :
    m.word a = m'.word a := by
  simp [Memory.word, h]

@[simp] theorem load64_snd_word (m : Memory) (a b : BitVec 64) : (m.load64 a).2.word b = m.word b :=
  word_congr rfl b

/-- A 32-bit word is two 16-bit ones, the lower one first. -/
theorem word32_eq (m : Memory) (a : BitVec 64) : m.word32 a = m.word16 (a + 2) ++ m.word16 a := by
  have haddr : a + 2 + 1 = a + 3 := by bv_omega
  rw [Memory.word32, Memory.word16, Memory.word16, haddr, BitVec.append_assoc]
  rfl

/-- The stored bytes, lowest address first. -/
theorem store64_byte (m : Memory) (a v : BitVec 64) {i : Nat} (hi : i < 8) :
    (m.store64 a v).bytes (a + BitVec.ofNat 64 i) = v.extractLsb' (8 * i) 8 := by
  have hoff : (a + BitVec.ofNat 64 i - a).toNat = i := by bv_omega
  simp only [Memory.store64, hoff, if_pos hi]

/-- A stored word is read back. -/
@[simp] theorem word_store64 (m : Memory) (a v : BitVec 64) : (m.store64 a v).word a = v := by
  have h0 : (m.store64 a v).bytes a = v.extractLsb' 0 8 := by
    simpa using store64_byte m a v (i := 0) (by decide)
  have h1 : (m.store64 a v).bytes (a + 1) = v.extractLsb' 8 8 :=
    store64_byte m a v (i := 1) (by decide)
  have h2 : (m.store64 a v).bytes (a + 2) = v.extractLsb' 16 8 :=
    store64_byte m a v (i := 2) (by decide)
  have h3 : (m.store64 a v).bytes (a + 3) = v.extractLsb' 24 8 :=
    store64_byte m a v (i := 3) (by decide)
  have h4 : (m.store64 a v).bytes (a + 4) = v.extractLsb' 32 8 :=
    store64_byte m a v (i := 4) (by decide)
  have h5 : (m.store64 a v).bytes (a + 5) = v.extractLsb' 40 8 :=
    store64_byte m a v (i := 5) (by decide)
  have h6 : (m.store64 a v).bytes (a + 6) = v.extractLsb' 48 8 :=
    store64_byte m a v (i := 6) (by decide)
  have h7 : (m.store64 a v).bytes (a + 7) = v.extractLsb' 56 8 :=
    store64_byte m a v (i := 7) (by decide)
  rw [Memory.word, h0, h1, h2, h3, h4, h5, h6, h7]
  ext i hi
  simp only [BitVec.getElem_append, BitVec.getElem_extractLsb']
  repeat' split
  all_goals rw [← BitVec.getLsbD_eq_getElem (by omega)]; congr 1; omega

/-- A store changes no word apart from the one it writes. -/
theorem word_store64_of_apart {a b : BitVec 64} (h : Apart a b) (m : Memory) (v : BitVec 64) :
    (m.store64 a v).word b = m.word b := by
  have hbyte : ∀ i : BitVec 64, i.toNat < 8 → (m.store64 a v).bytes (b + i) = m.bytes (b + i) := by
    intro i hi
    have hfar : ¬ (b + i - a).toNat < 8 := by
      obtain ⟨h1, h2⟩ := h
      bv_omega
    simp only [Memory.store64, if_neg hfar]
  have h0 : (m.store64 a v).bytes b = m.bytes b := by simpa using hbyte 0 (by decide)
  rw [Memory.word, Memory.word, h0, hbyte 1 (by decide), hbyte 2 (by decide), hbyte 3 (by decide),
    hbyte 4 (by decide), hbyte 5 (by decide), hbyte 6 (by decide), hbyte 7 (by decide)]

end WordMemory
