import MultiArchUefi.Lib.Memory

/-!
# Lib.StraightLine

Straight-line machine code, with the loads and stores that a function makes to
save registers in its frame.

A `Hart` is the registers and the memory of one processor.  `Convention` says
which registers a call uses and which of them a callee keeps, `Convention.arg`
is the argument that a callee finds by its number.  `storeWords` is what a row of
stores comes to; `word_storeWords` and `word_storeWords_of_apart` read it back.
-/

namespace StraightLine

open WordMemory

/-! ## rows of words -/

/-- Store `vals` from address `a` on, the first one at `a`. -/
def storeWords (m : Memory) (a : BitVec 64) : List (BitVec 64) → Memory
  | [] => m
  | v :: vals => storeWords (m.store64 a v) (a + 8) vals

/-- The address of the `i`-th word from `a` on. -/
def wordAt (a : BitVec 64) (i : Nat) : BitVec 64 := a + BitVec.ofNat 64 (8 * i)

@[simp] theorem wordAt_zero (a : BitVec 64) : wordAt a 0 = a := by simp [wordAt]

/-- The words of an array that starts a word further on. -/
theorem wordAt_succ (a : BitVec 64) (i : Nat) : wordAt (a + 8) i = wordAt a (i + 1) := by
  unfold wordAt
  bv_omega

/-- The words of an array that starts within another one. -/
theorem wordAt_add (a : BitVec 64) (i j : Nat) : wordAt (wordAt a i) j = wordAt a (i + j) := by
  unfold wordAt
  bv_omega

/-- Words of one row are apart as long as the row does not wrap around. -/
theorem apart_wordAt (a : BitVec 64) {i j : Nat} (hij : i < j) (hj : 8 * j + 8 ≤ 2 ^ 64) :
    Apart (wordAt a i) (wordAt a j) := by
  unfold wordAt Apart
  constructor <;> bv_omega

/-- Words apart from all those stored stay as they are. -/
theorem word_storeWords_of_apart {m : Memory} {a b : BitVec 64} {vals : List (BitVec 64)}
    (h : ∀ i < vals.length, Apart (wordAt a i) b) : (storeWords m a vals).word b = m.word b := by
  induction vals generalizing m a with
  | nil => rfl
  | cons v vals ih =>
      have hfirst : Apart a b := by simpa using h 0 (Nat.zero_lt_succ _)
      rw [storeWords, ih, word_store64_of_apart hfirst]
      intro i hi
      rw [wordAt_succ]
      exact h (i + 1) (Nat.succ_lt_succ hi)

/-- Stored words are found where they were stored. -/
theorem word_storeWords {m : Memory} {a : BitVec 64} {vals : List (BitVec 64)}
    (hfit : 8 * vals.length ≤ 2 ^ 64) {i : Nat} (hi : i < vals.length) :
    (storeWords m a vals).word (wordAt a i) = vals[i] := by
  induction vals generalizing m a i with
  | nil => cases hi
  | cons v vals ih =>
      rw [List.length_cons] at hfit hi
      cases i with
      | zero =>
          have happart : ∀ j < vals.length, Apart (wordAt (a + 8) j) (wordAt a 0) := fun j hj => by
            rw [wordAt_succ]
            exact (apart_wordAt a (Nat.zero_lt_succ j) (by omega)).symm
          rw [storeWords, word_storeWords_of_apart happart, wordAt_zero, word_store64]
          rfl
      | succ i =>
          rw [storeWords, ← wordAt_succ, ih (by omega) (Nat.lt_of_succ_lt_succ hi)]
          rfl

/-! ## code -/

/-- The registers, and the memory. -/
structure Hart (ρ : Type) where
  regs : ρ → BitVec 64
  memory : Memory

/-- The instructions, with sign-extended immediates. -/
inductive Insn (ρ : Type) where
  /-- `src` is stored at `base + imm`. -/
  | store (src base : ρ) (imm : BitVec 64)
  | load (dst base : ρ) (imm : BitVec 64)
  | addi (dst src : ρ) (imm : BitVec 64)
  | move (dst src : ρ)
  /-- Two registers at `base + imm`, the first one below the second. -/
  | storePair (src src' base : ρ) (imm : BitVec 64)
  /-- The same, and `base` becomes `base + imm`. -/
  | storePairPre (src src' base : ρ) (imm : BitVec 64)
  /-- Two registers from `base`, which then becomes `base + imm`. -/
  | loadPairPost (dst dst' base : ρ) (imm : BitVec 64)

variable {ρ : Type}

namespace Hart

def store (a val : BitVec 64) (m : Hart ρ) : Hart ρ := { m with memory := m.memory.store64 a val }

@[simp] theorem store_regs (a val : BitVec 64) (m : Hart ρ) : (m.store a val).regs = m.regs := rfl

@[simp] theorem store_memory (a val : BitVec 64) (m : Hart ρ) :
    (m.store a val).memory = m.memory.store64 a val := rfl

variable [DecidableEq ρ]

def set (r : ρ) (val : BitVec 64) (m : Hart ρ) : Hart ρ :=
  { m with regs := Function.update m.regs r val }

@[simp] theorem set_memory (r : ρ) (val : BitVec 64) (m : Hart ρ) :
    (m.set r val).memory = m.memory := rfl

@[simp] theorem set_regs (r : ρ) (val : BitVec 64) (m : Hart ρ) : (m.set r val).regs r = val := by
  simp [set]

/-- A register that is set leaves the others. -/
theorem set_regs_of_ne {r r' : ρ} (h : r' ≠ r) (val : BitVec 64) (m : Hart ρ) :
    (m.set r val).regs r' = m.regs r' := by
  simp [set, h]

end Hart

namespace Insn

variable [DecidableEq ρ]

def exec : Insn ρ → Hart ρ → Hart ρ
  | store src base imm, m => m.store (m.regs base + imm) (m.regs src)
  | load dst base imm, m => m.set dst (m.memory.word (m.regs base + imm))
  | addi dst src imm, m => m.set dst (m.regs src + imm)
  | move dst src, m => m.set dst (m.regs src)
  | storePair src src' base imm, m =>
      (m.store (m.regs base + imm) (m.regs src)).store (m.regs base + imm + 8) (m.regs src')
  | storePairPre src src' base imm, m =>
      ((m.store (m.regs base + imm) (m.regs src)).store (m.regs base + imm + 8) (m.regs src')).set
        base
        (m.regs base + imm)
  | loadPairPost dst dst' base imm, m =>
      ((m.set dst (m.memory.word (m.regs base))).set dst' (m.memory.word (m.regs base + 8))).set
        base
        (m.regs base + imm)

/-- One instruction after the other. -/
def execAll (code : List (Insn ρ)) (m : Hart ρ) : Hart ρ := code.foldl (fun m insn => insn.exec m) m

omit [DecidableEq ρ] in
/-- The registers that an instruction changes. -/
def dests : Insn ρ → List ρ
  | store _ _ _ => []
  | load dst _ _ => [dst]
  | addi dst _ _ => [dst]
  | move dst _ => [dst]
  | storePair _ _ _ _ => []
  | storePairPre _ _ base _ => [base]
  | loadPairPost dst dst' base _ => [dst, dst', base]

/-- An instruction leaves the registers that it does not name as destinations. -/
theorem exec_regs_of_notMem {insn : Insn ρ} {r : ρ} (h : r ∉ insn.dests) (m : Hart ρ) :
    (insn.exec m).regs r = m.regs r := by
  cases insn <;> simp_all [exec, dests, Hart.set, Hart.store]

/-- Code changes no other registers than its instructions do. -/
theorem execAll_regs_of_notMem {code : List (Insn ρ)} {r : ρ}
    (h : r ∉ code.flatMap dests) (m : Hart ρ) :
    (execAll code m).regs r = m.regs r := by
  induction code generalizing m with
  | nil => rfl
  | cons insn code ih =>
      rw [List.flatMap_cons, List.mem_append, not_or] at h
      exact (ih h.2 (insn.exec m)).trans (exec_regs_of_notMem h.1 m)

end Insn

/-! ## calls -/

/-- A calling convention: the stack pointer, the return address, the registers of
the first eight arguments, the first of which gets the result, and the registers
that a callee keeps. -/
structure Convention (ρ : Type) where
  sp : ρ
  ra : ρ
  a : Fin 8 → ρ
  kept : List ρ

namespace Convention

variable (c : Convention ρ)

/-- The `i`-th argument of the function that has just been called: those that are
not in registers lie on top of the stack. -/
def arg (m : Hart ρ) (i : Nat) : BitVec 64 :=
  if h : i < 8 then m.regs (c.a ⟨i, h⟩) else m.memory.word (wordAt (m.regs c.sp) (i - 8))

/-- What a callee may not touch: the stack pointer and the other registers it has
to keep, and the two words on top of the stack, its caller's own. -/
structure Keeps (m m' : Hart ρ) : Prop where
  sp : m'.regs c.sp = m.regs c.sp
  kept : ∀ r ∈ c.kept, m'.regs r = m.regs r
  first : m'.memory.word (m.regs c.sp) = m.memory.word (m.regs c.sp)
  second : m'.memory.word (wordAt (m.regs c.sp) 1) = m.memory.word (wordAt (m.regs c.sp) 1)

/-- The argument registers are stored behind two other words at the end of a frame
that lies on top of the stack: together with the stack they are all arguments in
a row. -/
theorem word_argBlock (m : Hart ρ) (memory : Memory) (v w : BitVec 64) {i : Nat}
    (hi : 8 * (i + 3) ≤ 2 ^ 64)
    (hmemory : memory = storeWords m.memory (m.regs c.sp - 80)
      (v :: w :: List.ofFn fun j => m.regs (c.a j))) :
    memory.word (wordAt (m.regs c.sp - 80) (i + 2)) = c.arg m i := by
  subst hmemory
  unfold arg
  split
  · rename_i h
    rw [word_storeWords (by simp) (by simp; omega)]
    simp only [List.getElem_cons_succ, List.getElem_ofFn]
  · rename_i h
    have haddr : wordAt (m.regs c.sp - 80) (i + 2) = wordAt (m.regs c.sp) (i - 8) := by
      unfold wordAt
      bv_omega
    rw [word_storeWords_of_apart, haddr]
    intro j hj
    simp only [List.length_cons, List.length_ofFn] at hj
    exact apart_wordAt _ (by omega) (by omega)

end Convention

end StraightLine
