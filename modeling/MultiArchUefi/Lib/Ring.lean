import Mathlib

/-!
# Lib.Ring

Circular doubly linked lists with a head node, threaded through a heap.

A heap is only seen through the two links of its nodes; the operations are the
stores that list code makes, one by one.  A node's links say by themselves whether
it is alone: it is when they point to the node itself, which no node of a longer
ring does.

Everything here is over an arbitrary node type.
-/

namespace Ring

/-- The two links of every node. -/
structure Links (α : Type*) where
  fwd : α → α
  back : α → α

variable {α : Type*} {m m' : Links α} {x y z a head : α} {l l₁ l₂ : List α}

/-! ## paths and rings -/

/-- `x` and `y` are neighbours, in this order. -/
def Joined (m : Links α) (x y : α) : Prop := m.fwd x = y ∧ m.back y = x

instance [DecidableEq α] (m : Links α) (x y : α) : Decidable (Joined m x y) :=
  inferInstanceAs (Decidable (_ ∧ _))

/-- The nodes `l` are linked in this order, between `x` and `y`. -/
def Path (m : Links α) (x : α) : List α → α → Prop
  | [], y => Joined m x y
  | a :: l, y => Joined m x a ∧ Path m a l y

/-- The nodes `l` are linked into a ring with `head`, in this order. -/
structure IsRing (m : Links α) (head : α) (l : List α) : Prop where
  path : Path m head l head
  nodup : (head :: l).Nodup

theorem path_append : Path m x (l₁ ++ a :: l₂) y ↔ Path m x l₁ a ∧ Path m a l₂ y := by
  induction l₁ generalizing x with
  | nil => exact Iff.rfl
  | cons b l₁ ih =>
      show Joined m x b ∧ Path m b (l₁ ++ a :: l₂) y ↔
        (Joined m x b ∧ Path m b l₁ a) ∧ Path m a l₂ y
      rw [ih, and_assoc]

/-- A path is made of the forward links from its start and the backward links to its end. -/
theorem Path.congr (h : Path m x l y) (hfwd : ∀ z ∈ x :: l, m'.fwd z = m.fwd z)
    (hback : ∀ z ∈ l ++ [y], m'.back z = m.back z) : Path m' x l y := by
  induction l generalizing x with
  | nil => exact ⟨(hfwd x (by simp)).trans h.1, (hback y (by simp)).trans h.2⟩
  | cons a l ih =>
      refine ⟨⟨(hfwd x (by simp)).trans h.1.1, (hback a (by simp)).trans h.1.2⟩, ?_⟩
      exact ih h.2 (fun z hz => hfwd z (List.mem_cons_of_mem x hz))
        fun z hz => hback z (List.mem_cons_of_mem a hz)

/-- The node before the end of a path is the last one on it. -/
theorem Path.back_mem (h : Path m x l y) : m.back y ∈ x :: l := by
  induction l generalizing x with
  | nil => simp [h.2]
  | cons a l ih => exact List.mem_cons_of_mem x (ih h.2)

/-- The node after the start of a path is the first one on it. -/
theorem Path.fwd_eq_head (h : Path m x l y) : m.fwd x = (l ++ [y]).head (by simp) := by
  cases l with
  | nil => exact h.1
  | cons a l => exact h.1.1

/-- The nodes on a ring are determined by its links. -/
theorem Path.unique (h₁ : Path m x l₁ y) (h₂ : Path m x l₂ y) (hl₁ : y ∉ l₁) (hl₂ : y ∉ l₂) :
    l₁ = l₂ := by
  induction l₁ generalizing x l₂ with
  | nil =>
      cases l₂ with
      | nil => rfl
      | cons b l₂ => exact absurd (h₁.1.symm.trans h₂.1.1) fun heq => hl₂ (heq ▸ List.mem_cons_self)
  | cons a l₁ ih =>
      cases l₂ with
      | nil => exact absurd (h₂.1.symm.trans h₁.1.1) fun heq => hl₁ (heq ▸ List.mem_cons_self)
      | cons b l₂ =>
          obtain rfl : a = b := h₁.1.1.symm.trans h₂.1.1
          rw [ih h₁.2 h₂.2 (fun hmem => hl₁ (List.mem_cons_of_mem a hmem))
            fun hmem => hl₂ (List.mem_cons_of_mem a hmem)]

namespace IsRing

theorem unique (h₁ : IsRing m head l₁) (h₂ : IsRing m head l₂) : l₁ = l₂ :=
  h₁.path.unique h₂.path (List.nodup_cons.mp h₁.nodup).1 (List.nodup_cons.mp h₂.nodup).1

theorem congr (h : IsRing m head l)
    (hl : ∀ z ∈ head :: l, m'.fwd z = m.fwd z ∧ m'.back z = m.back z) :
    IsRing m' head l := by
  refine ⟨h.path.congr (fun z hz => (hl z hz).1) fun z hz => (hl z ?_).2, h.nodup⟩
  rcases List.mem_append.mp hz with hz | hz
  · exact List.mem_cons_of_mem head hz
  · rw [List.mem_singleton.mp hz]
    exact List.mem_cons_self

/-- A ring of one node and the head. -/
theorem singleton_iff : IsRing m head [a] ↔ Joined m head a ∧ Joined m a head ∧ a ≠ head := by
  constructor
  · exact fun h => ⟨h.path.1, h.path.2, fun heq => by simpa [heq] using h.nodup⟩
  · exact fun ⟨h₁, h₂, hne⟩ => ⟨⟨h₁, h₂⟩, by simpa using hne.symm⟩

/-- The head of a ring is alone when there is nothing on the ring. -/
theorem fwd_head_eq_iff (h : IsRing m head l) : m.fwd head = head ↔ l = [] := by
  cases l with
  | nil => exact iff_of_true h.path.1 rfl
  | cons a l =>
      have hne : a ≠ head := fun heq => (List.nodup_cons.mp h.nodup).1 (heq ▸ List.mem_cons_self)
      exact iff_of_false (fun hfwd => hne (h.path.1.1.symm.trans hfwd)) (List.cons_ne_nil a l)

/-- No node on a ring is alone. -/
theorem fwd_ne (h : IsRing m head l) (ha : a ∈ l) : m.fwd a ≠ a := by
  obtain ⟨l₁, l₂, rfl⟩ := List.append_of_mem ha
  have hnodup := h.nodup
  rw [(path_append.mp h.path).2.fwd_eq_head]
  cases l₂ with
  | nil => grind
  | cons b l₂ => grind

end IsRing

/-! ## walks -/

/-- A walk that has come to a node twice goes round in circles. -/
theorem exists_lt_iterate_eq {f : α → α} {i j : Nat} (hij : i < j)
    (heq : f^[i] x = f^[j] x) (k : Nat) :
    ∃ k' < j, f^[k'] x = f^[k] x := by
  induction k using Nat.strong_induction_on with
  | _ k ih =>
      by_cases hk : k < j
      · exact ⟨k, hk, rfl⟩
      · obtain ⟨k', hk', hsame⟩ := ih (k - j + i) (by omega)
        refine ⟨k', hk', hsame.trans ?_⟩
        rw [Function.iterate_add_apply, heq, ← Function.iterate_add_apply,
          Nat.sub_add_cancel (by omega)]

section

variable [DecidableEq α] {p : α → Bool} {n : Nat}

/-- A walk from `x` to `head`, up to the first node that `p` holds of; `none` when it
has not ended after `n` tests. -/
def find (m : Links α) (head : α) (p : α → Bool) : Nat → α → Option (Option α)
  | 0, _ => none
  | n + 1, x =>
      if x = head then some none else if p x then some (some x) else find m head p n (m.fwd x)

/-- The nodes of a walk from `x` to `head`; `none` when it has not ended after `n` tests. -/
def walk (m : Links α) (head : α) : Nat → α → Option (List α)
  | 0, _ => none
  | n + 1, x => if x = head then some [] else (walk m head n (m.fwd x)).map (x :: ·)

/-- A walk along a path finds what there is to be found on it. -/
theorem Path.find_eq (h : Path m x l head) (hl : head ∉ l) (hn : l.length < n) :
    find m head p n (m.fwd x) = some (l.find? p) := by
  induction l generalizing x n with
  | nil =>
      obtain ⟨n, rfl⟩ := Nat.exists_eq_add_of_lt hn
      simp [find, h.1]
  | cons a l ih =>
      cases n with
      | zero => simp at hn
      | succ n =>
          have hfwd : m.fwd x = a := h.1.1
          have hne : a ≠ head := fun heq => hl (heq ▸ List.mem_cons_self)
          have htail := ih h.2 (fun hmem => hl (List.mem_cons_of_mem a hmem)) (by simpa using hn)
          rw [hfwd, find, if_neg hne, List.find?_cons]
          cases p a <;> simp [htail]

/-- A walk along a path visits its nodes. -/
theorem Path.walk_eq (h : Path m x l head) (hl : head ∉ l) (hn : l.length < n) :
    walk m head n (m.fwd x) = some l := by
  induction l generalizing x n with
  | nil =>
      obtain ⟨n, rfl⟩ := Nat.exists_eq_add_of_lt hn
      simp [walk, h.1]
  | cons a l ih =>
      cases n with
      | zero => simp at hn
      | succ n =>
          have hfwd : m.fwd x = a := h.1.1
          have hne : a ≠ head := fun heq => hl (heq ▸ List.mem_cons_self)
          have htail := ih h.2 (fun hmem => hl (List.mem_cons_of_mem a hmem)) (by simpa using hn)
          rw [hfwd, walk, if_neg hne, htail, Option.map_some]

theorem IsRing.find_eq (h : IsRing m head l) (hn : l.length < n) :
    find m head p n (m.fwd head) = some (l.find? p) :=
  h.path.find_eq (List.nodup_cons.mp h.nodup).1 hn

theorem IsRing.walk_eq (h : IsRing m head l) (hn : l.length < n) :
    walk m head n (m.fwd head) = some l :=
  h.path.walk_eq (List.nodup_cons.mp h.nodup).1 hn

/-- What is found is not the head, and `p` holds of it. -/
theorem find_eq_some (h : find m head p n x = some (some a)) : a ≠ head ∧ p a = true := by
  induction n generalizing x with
  | zero => cases h
  | succ n ih =>
      rw [find] at h
      split at h
      · cases h
      · split at h
        · obtain rfl := Option.some.inj (Option.some.inj h)
          exact ⟨by assumption, by assumption⟩
        · exact ih h

/-- A walk that has not ended has neither come to the head nor found anything. -/
theorem find_eq_none_iff :
    find m head p n x = none ↔ ∀ i < n, m.fwd^[i] x ≠ head ∧ p (m.fwd^[i] x) = false := by
  induction n generalizing x with
  | zero => simp [find]
  | succ n ih =>
      constructor
      · intro h i hi
        rw [find] at h
        split at h
        · cases h
        · split at h
          · cases h
          · rename_i hne hp
            cases i with
            | zero => exact ⟨hne, Bool.eq_false_iff.mpr hp⟩
            | succ i => exact ih.mp h i (by omega)
      · intro h
        obtain ⟨hne, hp⟩ : x ≠ head ∧ p x = false := h 0 (by omega)
        rw [find, if_neg hne, hp, if_neg Bool.false_ne_true]
        exact ih.mpr fun i hi => h (i + 1) (by omega)

/-- With `n` nodes in all, a walk that has not ended after `n + 1` tests never ends. -/
theorem find_eq_none_of_card (code : α → Fin n) (hcode : Function.Injective code)
    (h : find m head p (n + 1) x = none) (k : Nat) : find m head p k x = none := by
  obtain ⟨i, j, hne, heq⟩ := Fintype.exists_ne_map_eq_of_card_lt
    (fun i : Fin (n + 1) => code (m.fwd^[i.val] x)) (by simp)
  rw [find_eq_none_iff] at h ⊢
  have hcircle : ∃ i j : Nat, i < j ∧ j < n + 1 ∧ m.fwd^[i] x = m.fwd^[j] x := by
    rcases lt_or_gt_of_ne hne with hlt | hlt
    · exact ⟨i, j, hlt, j.isLt, hcode heq⟩
    · exact ⟨j, i, hlt, i.isLt, hcode heq.symm⟩
  obtain ⟨i, j, hij, hj, hsame⟩ := hcircle
  intro l _
  obtain ⟨l', hl', hvisit⟩ := exists_lt_iterate_eq hij hsame l
  rw [← hvisit]
  exact h l' (by omega)

/-- A walk to the head is a search for nothing. -/
theorem walk_eq_none_iff : walk m head n x = none ↔ find m head (fun _ => false) n x = none := by
  induction n generalizing x with
  | zero => simp [walk, find]
  | succ n ih =>
      rw [walk, find]
      split
      · simp
      · simpa using ih

end

/-! ## stores -/

section

variable [DecidableEq α]

/-- `x->ForwardLink = y`. -/
def Links.setFwd (x y : α) (m : Links α) : Links α := { m with fwd := Function.update m.fwd x y }

/-- `x->BackLink = y`. -/
def Links.setBack (x y : α) (m : Links α) : Links α := { m with back := Function.update m.back x y }

@[simp] theorem fwd_setFwd (m : Links α) (x y z : α) :
    (m.setFwd x y).fwd z = if z = x then y else m.fwd z := by
  by_cases hz : z = x <;> simp [Links.setFwd, hz]

@[simp] theorem back_setFwd (m : Links α) (x y z : α) : (m.setFwd x y).back z = m.back z := rfl

@[simp] theorem fwd_setBack (m : Links α) (x y z : α) : (m.setBack x y).fwd z = m.fwd z := rfl

@[simp] theorem back_setBack (m : Links α) (x y z : α) :
    (m.setBack x y).back z = if z = x then y else m.back z := by
  by_cases hz : z = x <;> simp [Links.setBack, hz]

theorem setFwd_eq_self (h : m.fwd x = y) : m.setFwd x y = m := by
  rw [Links.setFwd, ← h, Function.update_eq_self]

theorem setBack_eq_self (h : m.back x = y) : m.setBack x y = m := by
  rw [Links.setBack, ← h, Function.update_eq_self]

/-- `IsListEmpty`. -/
def isListEmpty (m : Links α) (x : α) : Bool := m.fwd x = x

/-- `InitializeListHead`. -/
def initializeListHead (x : α) (m : Links α) : Links α := (m.setFwd x x).setBack x x

/-- `InsertTailList`. -/
def insertTailList (head x : α) (m : Links α) : Links α :=
  let m := m.setFwd x head
  let m := m.setBack x (m.back head)
  let m := m.setFwd (m.back x) x
  m.setBack head x

/-- `RemoveEntryList`. -/
def removeEntryList (x : α) (m : Links α) : Links α :=
  let m := m.setBack (m.fwd x) (m.back x)
  m.setFwd (m.back x) (m.fwd x)

/-! ## what the operations do -/

theorem isListEmpty_iff (h : IsRing m head l) : isListEmpty m head = true ↔ l = [] := by
  rw [isListEmpty, decide_eq_true_eq, h.fwd_head_eq_iff]

/-- No node on a ring is taken for one that is alone. -/
theorem isListEmpty_of_mem (h : IsRing m head l) (ha : a ∈ l) : isListEmpty m a = false := by
  simp [isListEmpty, h.fwd_ne ha]

theorem isListEmpty_initialized (m : Links α) (x : α) :
    isListEmpty (initializeListHead x m) x = true := by
  simp [isListEmpty, initializeListHead]

theorem isRing_initialized (m : Links α) (x : α) : IsRing (initializeListHead x m) x [] :=
  ⟨⟨by simp [initializeListHead], by simp [initializeListHead]⟩, by simp⟩

/-- Initialising changes the node's own links only. -/
theorem initialize_of_ne (m : Links α) (h : z ≠ x) :
    (initializeListHead x m).fwd z = m.fwd z ∧ (initializeListHead x m).back z = m.back z := by
  simp [initializeListHead, h]

/-- The links after an insertion. -/
theorem insertTailList_links (_hx : m.back head ≠ x) (_hne : x ≠ head) (z : α) :
    ((insertTailList head x m).fwd z =
      if z = m.back head then x else if z = x then head else m.fwd z) ∧
    ((insertTailList head x m).back z =
      if z = head then x else if z = x then m.back head else m.back z) := by
  simp only [insertTailList, fwd_setBack, fwd_setFwd, back_setFwd, back_setBack]
  grind

/-- A node is inserted at the tail of the ring. -/
theorem IsRing.insertTail (h : IsRing m head l) (hx : x ∉ head :: l) :
    IsRing (insertTailList head x m) head (l ++ [x]) := by
  have hlast := h.path.back_mem
  have hne : x ≠ head := fun heq => hx (heq ▸ List.mem_cons_self)
  have hback : m.back head ≠ x := fun heq => hx (heq ▸ hlast)
  have hlinks := insertTailList_links hback hne
  refine ⟨path_append.mpr ⟨?_, ?_, ?_⟩, ?_⟩
  · rcases List.eq_nil_or_concat' l with rfl | ⟨l', t, rfl⟩
    · have hself : m.back head = head := h.path.2
      exact ⟨by simp [hlinks, hself], by simp [hlinks, hne, hself]⟩
    · -- the old tail is where the new node is linked in
      obtain ⟨hpath, hjoin⟩ := path_append.mp h.path
      have ht : m.back head = t := hjoin.2
      have hnodup := h.nodup
      refine path_append.mpr ⟨hpath.congr (fun z hz => ?_) fun z hz => ?_, ?_, ?_⟩
      · rw [(hlinks z).1, ht]
        grind
      · rw [(hlinks z).2]
        grind
      · rw [(hlinks t).1, ht, if_pos rfl]
      · rw [(hlinks x).2, ht, if_neg hne, if_pos rfl]
  · rw [(hlinks x).1, if_neg (Ne.symm hback), if_pos rfl]
  · rw [(hlinks head).2, if_pos rfl]
  · have hnodup := h.nodup
    grind

/-- An insertion leaves the links of other nodes alone. -/
theorem IsRing.insertTail_of_not_mem (h : IsRing m head l) (hx : x ∉ head :: l) (hz : z ∉ head :: l)
    (hne : z ≠ x) :
    (insertTailList head x m).fwd z = m.fwd z ∧ (insertTailList head x m).back z = m.back z := by
  have hlast := h.path.back_mem
  have hback : m.back head ≠ x := fun heq => hx (heq ▸ hlast)
  have hhead : x ≠ head := fun heq => hx (heq ▸ List.mem_cons_self)
  have hlinks := insertTailList_links hback hhead z
  rw [hlinks.1, hlinks.2]
  grind

/-- The links after a removal. -/
theorem removeEntryList_links (_hx : m.fwd x ≠ x) (z : α) :
    ((removeEntryList x m).fwd z = if z = m.back x then m.fwd x else m.fwd z) ∧
    ((removeEntryList x m).back z = if z = m.fwd x then m.back x else m.back z) := by
  simp only [removeEntryList, fwd_setBack, fwd_setFwd, back_setFwd, back_setBack]
  grind

/-- Linking the neighbours of `a` closes the gap. -/
theorem Path.close (h₁ : Path m x l₁ a) (h₂ : Path m a l₂ y) (hnodup : (x :: (l₁ ++ a :: l₂)).Nodup)
    (hy : y ∉ l₁ ++ a :: l₂)
    (hfwd : ∀ z, m'.fwd z = if z = m.back a then m.fwd a else m.fwd z)
    (hback : ∀ z, m'.back z = if z = m.fwd a then m.back a else m.back z) :
    Path m' x (l₁ ++ l₂) y := by
  induction l₁ generalizing x with
  | nil =>
      have hx : m.back a = x := h₁.2
      cases l₂ with
      | nil =>
          have ha : m.fwd a = y := h₂.1
          exact ⟨by rw [hfwd, hx, if_pos rfl, ha], by rw [hback, ha, if_pos rfl, hx]⟩
      | cons b l₂ =>
          have ha : m.fwd a = b := h₂.1.1
          refine ⟨⟨by rw [hfwd, hx, if_pos rfl, ha], by rw [hback, ha, if_pos rfl, hx]⟩, ?_⟩
          refine h₂.2.congr (fun z hz => ?_) fun z hz => ?_
          · rw [hfwd, hx]
            grind
          · rw [hback, ha]
            grind
  | cons b l₁ ih =>
      have hlast := h₁.2.back_mem
      have hfirst := h₂.fwd_eq_head
      refine ⟨⟨?_, ?_⟩, ih h₁.2 (List.nodup_cons.mp hnodup).2 fun hmem => hy
        (List.mem_cons_of_mem b hmem)⟩
      · rw [hfwd, if_neg (by grind)]
        exact h₁.1.1
      · rw [hback, if_neg (by cases l₂ <;> grind)]
        exact h₁.1.2

/-- A node is removed from the ring. -/
theorem IsRing.removeEntry (h : IsRing m head (l₁ ++ a :: l₂)) :
    IsRing (removeEntryList a m) head (l₁ ++ l₂) := by
  obtain ⟨h₁, h₂⟩ := path_append.mp h.path
  have hlinks := removeEntryList_links (h.fwd_ne (a := a) (by simp))
  refine ⟨h₁.close h₂ h.nodup (List.nodup_cons.mp h.nodup).1 (fun z => (hlinks z).1) fun z =>
    (hlinks z).2, ?_⟩
  have hnodup := h.nodup
  grind

/-- A removal leaves the links of other nodes alone. -/
theorem IsRing.removeEntry_of_not_mem (h : IsRing m head (l₁ ++ a :: l₂))
    (hz : z ∉ head :: (l₁ ++ l₂)) :
    (removeEntryList a m).fwd z = m.fwd z ∧ (removeEntryList a m).back z = m.back z := by
  obtain ⟨h₁, h₂⟩ := path_append.mp h.path
  have hlinks := removeEntryList_links (h.fwd_ne (a := a) (by simp)) z
  have hlast := h₁.back_mem
  have hfirst := h₂.fwd_eq_head
  rw [hlinks.1, hlinks.2]
  constructor
  · grind
  · rw [if_neg (by cases l₂ <;> grind)]

/-! ## store by store -/

/-- The stores of `RemoveEntryList`. -/
def removeEntry1 (x : α) (m : Links α) : Links α := m.setBack (m.fwd x) (m.back x)

def removeEntry2 (x : α) (m : Links α) : Links α := m.setFwd (m.back x) (m.fwd x)

/-- The stores of `InsertTailList`. -/
def insertTail1 (head x : α) (m : Links α) : Links α := m.setFwd x head

def insertTail2 (head x : α) (m : Links α) : Links α := m.setBack x (m.back head)

def insertTail3 (x : α) (m : Links α) : Links α := m.setFwd (m.back x) x

def insertTail4 (head x : α) (m : Links α) : Links α := m.setBack head x

theorem removeEntryList_eq (x : α) (m : Links α) :
    removeEntryList x m = removeEntry2 x (removeEntry1 x m) := rfl

theorem insertTailList_eq (head x : α) (m : Links α) :
    insertTailList head x m = insertTail4 head x
      (insertTail3 x (insertTail2 head x (insertTail1 head x m))) := rfl

/-- Stores to nodes that are not on the ring leave it as it is. -/
theorem IsRing.setFwd (h : IsRing m head l) (hx : x ∉ head :: l) : IsRing (m.setFwd x y) head l :=
  h.congr fun z hz => ⟨by rw [fwd_setFwd, if_neg (ne_of_mem_of_not_mem hz hx)], rfl⟩

theorem IsRing.setBack (h : IsRing m head l) (hx : x ∉ head :: l) : IsRing (m.setBack x y) head l :=
  h.congr fun z hz => ⟨rfl, by rw [back_setBack, if_neg (ne_of_mem_of_not_mem hz hx)]⟩

/-- The first two stores of an insertion, once made, change nothing when made again. -/
theorem insertTailList_of_prepared (hfwd : m.fwd x = head) (hback : m.back x = m.back head) :
    insertTailList head x m = insertTail4 head x (insertTail3 x m) := by
  rw [insertTailList_eq, insertTail1, setFwd_eq_self hfwd, insertTail2, setBack_eq_self hback]

end

end Ring
