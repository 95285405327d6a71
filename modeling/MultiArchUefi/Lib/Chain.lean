import Mathlib

/-!
# Lib.Chain

Singly linked chains threaded through a heap, and loops that walk them.

A heap is only seen through its link function `next : α → Option α`; a chain
segment `Seg next p l q` lists the nodes met when following `next` from the
pointer `p` up to, and excluding, the pointer `q`.  A `while` loop over such a
chain is `walk`: its body returns the pointer to continue from, so a loop that
frees a node may read the link before or after doing so.

Everything here is over an arbitrary node type.
-/

namespace Chain

/-! ## segments -/

/-- Following `next` from `p` visits exactly the nodes of `l`, in order, and
arrives at the pointer `q`. -/
def Seg (next : α → Option α) : Option α → List α → Option α → Prop
  | p, [], q => p = q
  | p, a :: l, q => p = some a ∧ Seg next (next a) l q

/-- The pointer a segment `l` ending at `q` starts from. -/
def ptr (l : List α) (q : Option α) : Option α :=
  match l with
  | [] => q
  | a :: _ => some a

@[simp] theorem ptr_nil (q : Option α) : ptr [] q = q := rfl

@[simp] theorem ptr_cons (a : α) (l : List α) (q : Option α) : ptr (a :: l) q = some a := rfl

@[simp] theorem seg_nil {next : α → Option α} {p q : Option α} : Seg next p [] q ↔ p = q := Iff.rfl

@[simp] theorem seg_cons {next : α → Option α} {a : α} {l : List α} {p q : Option α} :
    Seg next p (a :: l) q ↔ p = some a ∧ Seg next (next a) l q := Iff.rfl

/-- A segment starts at its own first node. -/
theorem Seg.eq_ptr {next : α → Option α} {l : List α} {p q : Option α} (h : Seg next p l q) :
    p = ptr l q := by
  cases l with
  | nil => exact h
  | cons a l => exact h.1

theorem seg_append {next : α → Option α} {l m : List α} {p q : Option α} :
    Seg next p (l ++ m) q ↔ ∃ r, Seg next p l r ∧ Seg next r m q := by
  induction l generalizing p with
  | nil => simp
  | cons a l ih =>
      simp only [List.cons_append, seg_cons, ih]
      constructor
      · rintro ⟨hp, r, h1, h2⟩
        exact ⟨r, ⟨hp, h1⟩, h2⟩
      · rintro ⟨r, ⟨hp, h1⟩, h2⟩
        exact ⟨hp, r, h1, h2⟩

/-- A segment survives every change of the heap that keeps the links of its
own nodes. -/
theorem Seg.congr {next next' : α → Option α} {l : List α} {p q : Option α}
    (h : Seg next p l q) (hl : ∀ a ∈ l, next' a = next a) : Seg next' p l q := by
  induction l generalizing p with
  | nil => exact h
  | cons a l ih =>
      refine ⟨h.1, ?_⟩
      rw [hl a List.mem_cons_self]
      exact ih h.2 fun b hb => hl b (List.mem_cons_of_mem a hb)

/-- The nodes on a chain that ends in the null pointer are determined by its
first pointer. -/
theorem Seg.unique {next : α → Option α} {l m : List α} {p : Option α}
    (hl : Seg next p l none) (hm : Seg next p m none) : l = m := by
  induction l generalizing p m with
  | nil =>
      cases m with
      | nil => rfl
      | cons b m => rw [seg_nil.mp hl] at hm; cases hm.1
  | cons a l ih =>
      cases m with
      | nil => rw [seg_nil.mp hm] at hl; cases hl.1
      | cons b m =>
          have hab : a = b := Option.some.inj (hl.1.symm.trans hm.1)
          subst hab
          rw [ih hl.2 hm.2]

/-- A chain that ends in the null pointer visits no node twice. -/
theorem Seg.nodup {next : α → Option α} {l : List α} {p : Option α}
    (h : Seg next p l none) : l.Nodup := by
  induction l generalizing p with
  | nil => exact List.nodup_nil
  | cons a l ih =>
      refine List.nodup_cons.mpr ⟨fun ha => ?_, ih h.2⟩
      -- a second visit of `a` would make its rest a proper suffix of itself
      obtain ⟨pre, post, rfl⟩ := List.append_of_mem ha
      obtain ⟨r, -, hr⟩ := seg_append.mp h.2
      have heq : pre ++ a :: post = post := Seg.unique h.2 hr.2
      have hlen := congrArg List.length heq
      simp only [List.length_append, List.length_cons] at hlen
      omega

/-- No node of the first part of a chain is where its second part starts. -/
theorem Seg.ne_ptr {next : α → Option α} {l m : List α} {p : Option α}
    (h : Seg next p (l ++ m) none) :
    ∀ a ∈ l, some a ≠ ptr m none := by
  intro a ha hptr
  cases m with
  | nil => cases hptr
  | cons b m =>
      have hab : a = b := Option.some.inj hptr
      exact (List.disjoint_of_nodup_append h.nodup) ha (hab ▸ List.mem_cons_self)

/-- The tail pointer of a node inside a chain. -/
theorem Seg.next_of_mem {next : α → Option α} {pre post : List α} {a : α} {p q : Option α}
    (h : Seg next p (pre ++ a :: post) q) : next a = ptr post q := by
  obtain ⟨r, -, hr⟩ := seg_append.mp h
  exact hr.2.eq_ptr

/-! ## loops over a chain -/

/-- `while (p != stop) p = body (*p);` — `none` when the loop reaches the null
pointer before `stop`, or has not ended after `n` tests of its condition. -/
def walk [DecidableEq α] (body : α → σ → Option α × σ) (stop : Option α) :
    Nat → Option α → σ → Option σ
  | 0, _, _ => none
  | n + 1, p, s =>
      if p = stop then some s
      else match p with
        | none => none
        | some a => walk body stop n (body a s).1 (body a s).2

/-- A loop whose body does the same in another state does the same there. -/
theorem walk_map [DecidableEq α] {body : α → σ → Option α × σ} {g : σ → σ}
    (hbody : ∀ a s, body a (g s) = ((body a s).1, g (body a s).2)) (stop : Option α) :
    ∀ (n : Nat) (p : Option α) (s : σ),
      walk body stop n p (g s) = (walk body stop n p s).map g := by
  intro n
  induction n with
  | zero => exact fun _ _ => rfl
  | succ n ih =>
      intro p s
      by_cases hp : p = stop
      · simp [walk, hp]
      · cases p with
        | none => simp [walk, hp]
        | some a =>
            simp only [walk, if_neg hp, hbody]
            exact ih _ _

/-- What the body of a loop keeps, the loop keeps. -/
theorem walk_keeps [DecidableEq α] {body : α → σ → Option α × σ} {f : σ → γ}
    (hbody : ∀ a s, f (body a s).2 = f s) {stop : Option α} {n : Nat} {p : Option α} {s s' : σ}
    (h : walk body stop n p s = some s') : f s' = f s := by
  induction n generalizing p s with
  | zero => cases h
  | succ n ih =>
      by_cases hp : p = stop
      · rw [walk.eq_def] at h
        simp only [if_pos hp] at h
        rw [Option.some.inj h]
      · cases p with
        | none => simp [walk, hp] at h
        | some a =>
            simp only [walk, if_neg hp] at h
            exact (ih h).trans (hbody a s)

/-- The walk rule: an invariant `I` of the nodes still ahead, kept by the body
together with the pointer to the next of them, holds at the end of the loop. -/
theorem walk_spec [DecidableEq α] {body : α → σ → Option α × σ} {stop : Option α}
    {I : List α → σ → Prop}
    (step : ∀ a l s, I (a :: l) s → (body a s).1 = ptr l stop ∧ I l (body a s).2) :
    ∀ (n : Nat) (l : List α) (s : σ), l.length < n → (∀ a ∈ l, some a ≠ stop) → I l s →
      ∃ s', walk body stop n (ptr l stop) s = some s' ∧ I [] s'
  | 0, _, _, hn, _, _ => absurd hn (Nat.not_lt_zero _)
  | n + 1, [], s, _, _, hI => ⟨s, by simp [walk], hI⟩
  | n + 1, a :: l, s, hn, hstop, hI => by
      obtain ⟨hptr, hI'⟩ := step a l s hI
      obtain ⟨s', hs', hend⟩ := walk_spec step n l (body a s).2 (by simpa using hn)
        (fun b hb => hstop b (List.mem_cons_of_mem a hb)) hI'
      refine ⟨s', ?_, hend⟩
      simp only [walk, ptr_cons, if_neg (hstop a List.mem_cons_self), hptr]
      exact hs'

/-- The nodes that the loop visits, each with the state in which its body starts. -/
def visits [DecidableEq α] (body : α → σ → Option α × σ) (stop : Option α) :
    Nat → Option α → σ → List (α × σ)
  | 0, _, _ => []
  | n + 1, p, s =>
      if p = stop then []
      else match p with
        | none => []
        | some a => (a, s) :: visits body stop n (body a s).1 (body a s).2

/-- Under the invariant of `walk_spec`, the nodes ahead are visited in order, and
each one while it is the first of those still ahead. -/
theorem visits_spec [DecidableEq α] {body : α → σ → Option α × σ} {stop : Option α}
    {I : List α → σ → Prop}
    (step : ∀ a l s, I (a :: l) s → (body a s).1 = ptr l stop ∧ I l (body a s).2) :
    ∀ (n : Nat) (l : List α) (s : σ), l.length < n → (∀ a ∈ l, some a ≠ stop) → I l s →
      (visits body stop n (ptr l stop) s).map Prod.fst = l ∧
        ∀ v ∈ visits body stop n (ptr l stop) s, ∃ rest, I (v.1 :: rest) v.2
  | 0, _, _, hn, _, _ => absurd hn (Nat.not_lt_zero _)
  | n + 1, [], s, _, _, _ => by simp [visits]
  | n + 1, a :: l, s, hn, hstop, hI => by
      obtain ⟨hptr, hI'⟩ := step a l s hI
      obtain ⟨hfst, hvisits⟩ := visits_spec step n l (body a s).2 (by simpa using hn)
        (fun b hb => hstop b (List.mem_cons_of_mem a hb)) hI'
      simp only [visits, ptr_cons, if_neg (hstop a List.mem_cons_self), hptr, List.map_cons,
        hfst, true_and]
      intro v hv
      rcases List.mem_cons.mp hv with rfl | hv
      · exact ⟨l, hI⟩
      · exact hvisits v hv

/-- A body that also notes what it does. -/
def logged (body : α → σ → Option α × σ) (log : α → σ → List ω) (a : α) (t : σ × List ω) :
    Option α × σ × List ω :=
  ((body a t.1).1, (body a t.1).2, t.2 ++ log a t.1)

/-- A loop that notes what it does is the loop, with the notes of its visits. -/
theorem walk_logged [DecidableEq α] (body : α → σ → Option α × σ) (log : α → σ → List ω)
    (stop : Option α) :
    ∀ (n : Nat) (p : Option α) (s : σ) (notes : List ω),
      walk (logged body log) stop n p (s, notes) =
        (walk body stop n p s).map fun s' =>
          (s', notes ++ (visits body stop n p s).flatMap fun v => log v.1 v.2) := by
  intro n
  induction n with
  | zero => exact fun _ _ _ => rfl
  | succ n ih =>
      intro p s notes
      by_cases hp : p = stop
      · simp [walk, visits, hp]
      · cases p with
        | none => simp [walk, hp]
        | some a =>
            simp only [walk, visits, if_neg hp, logged]
            rw [ih, List.flatMap_cons]
            simp only [List.append_assoc]

/-- Walking a segment folds the body's effect over its nodes, when the body
leaves with the link the segment has. -/
theorem walk_eq_foldl [DecidableEq α] {body : α → σ → Option α × σ} {stop : Option α}
    {n : Nat} {l : List α} {s : σ} (hn : l.length < n) (hstop : ∀ a ∈ l, some a ≠ stop)
    (hbody : ∀ pre a post, l = pre ++ a :: post →
      (body a (pre.foldl (fun s a => (body a s).2) s)).1 = ptr post stop) :
    walk body stop n (ptr l stop) s = some (l.foldl (fun s a => (body a s).2) s) := by
  let I : List α → σ → Prop := fun rest s' =>
    ∃ pre, l = pre ++ rest ∧ s' = pre.foldl (fun s a => (body a s).2) s
  have step : ∀ a rest s', I (a :: rest) s' →
      (body a s').1 = ptr rest stop ∧ I rest (body a s').2 := by
    rintro a rest s' ⟨pre, hpre, rfl⟩
    refine ⟨hbody pre a rest hpre, pre ++ [a], by simp [hpre], ?_⟩
    rw [List.foldl_append, List.foldl_cons, List.foldl_nil]
  obtain ⟨s', hs', pre, hpre, rfl⟩ := walk_spec step n l s hn hstop ⟨[], rfl, rfl⟩
  rw [List.append_nil] at hpre
  rw [hs', ← hpre]

end Chain
