import Mathlib

/-!
# Lib.Nesting

Nested activations over shared units.

Several *units* (processors, engines, register banks) each hold one state.
Activations are stacked; an activation that takes over a unit some older
activation is suspended on first saves that unit's state in its own entry of
the chain.  Activations can die without being popped, so the chain may hold
dead entries; `replay` is what popping a run of entries does to the units.

The module proves when a suspended activation gets its unit back as it left
it: `Resumable` ties the live activations, the chain and the units together,
and each operation on the chain keeps it.

Identifiers, units and states are arbitrary types.
-/

namespace Nesting

/-- One entry of the chain: who it belongs to, the unit it runs on, and the
state of that unit it saved on entry, if it saved one. -/
structure Entry (κ ε ρ : Type*) where
  id : κ
  unit : ε
  saved : Option ρ

variable {κ ε ρ : Type*}

/-! ## agreement on the units of a chain -/

/-- Two assignments of states agree on every unit the entries of `l` run on. -/
def AgreeOn (l : List (Entry κ ε ρ)) (regs regs' : ε → ρ) : Prop :=
  ∀ e ∈ l, regs e.unit = regs' e.unit

theorem AgreeOn.refl (l : List (Entry κ ε ρ)) (regs : ε → ρ) : AgreeOn l regs regs :=
  fun _ _ => rfl

theorem AgreeOn.symm {l : List (Entry κ ε ρ)} {regs regs' : ε → ρ} (h : AgreeOn l regs regs') :
    AgreeOn l regs' regs :=
  fun e he => (h e he).symm

theorem AgreeOn.trans {l : List (Entry κ ε ρ)} {regs regs' regs'' : ε → ρ}
    (h : AgreeOn l regs regs') (h' : AgreeOn l regs' regs'') : AgreeOn l regs regs'' :=
  fun e he => (h e he).trans (h' e he)

/-- Files that agree on a chain agree on every tail of it. -/
theorem AgreeOn.of_append_right {l m : List (Entry κ ε ρ)} {regs regs' : ε → ρ}
    (h : AgreeOn (l ++ m) regs regs') : AgreeOn m regs regs' :=
  fun e he => h e (List.mem_append_right l he)

/-! ## well-saved chains -/

/-- Every entry above an older entry of the same unit has saved that unit. -/
def WellSaved : List (Entry κ ε ρ) → Prop
  | [] => True
  | e :: l => ((∃ e' ∈ l, e'.unit = e.unit) → e.saved.isSome) ∧ WellSaved l

/-- A tail of a well-saved chain is well saved. -/
theorem WellSaved.of_append_right {l m : List (Entry κ ε ρ)} (h : WellSaved (l ++ m)) :
    WellSaved m := by
  induction l with
  | nil => exact h
  | cons e l ih => exact ih h.2

/-- An entry above another one of its unit has saved something. -/
theorem WellSaved.saved {l m : List (Entry κ ε ρ)} {e e' : Entry κ ε ρ} (h : WellSaved (l ++ m))
    (he : e ∈ l) (he' : e' ∈ m) (hu : e'.unit = e.unit) : e.saved.isSome := by
  induction l with
  | nil => cases he
  | cons d l ih =>
      rcases List.mem_cons.mp he with rfl | he
      · exact h.1 ⟨e', List.mem_append_right l he', hu⟩
      · exact ih h.2 he

/-! ## popping entries -/

variable [DecidableEq ε]

/-- Give back the state an entry saved. -/
def Entry.restore (e : Entry κ ε ρ) (regs : ε → ρ) : ε → ρ :=
  match e.saved with
  | some r => Function.update regs e.unit r
  | none => regs

/-- Pop the entries of `l`, newest first. -/
def replay (l : List (Entry κ ε ρ)) (regs : ε → ρ) : ε → ρ :=
  l.foldl (fun r e => e.restore r) regs

@[simp] theorem replay_nil (regs : ε → ρ) : replay ([] : List (Entry κ ε ρ)) regs = regs := rfl

@[simp] theorem replay_cons (e : Entry κ ε ρ) (l : List (Entry κ ε ρ)) (regs : ε → ρ) :
    replay (e :: l) regs = replay l (e.restore regs) := rfl

/-- Replaying two parts is replaying one after the other. -/
@[simp] theorem replay_append (l m : List (Entry κ ε ρ)) (regs : ε → ρ) :
    replay (l ++ m) regs = replay m (replay l regs) := List.foldl_append

/-! ## what a unit gets back -/

/-- Restoring an entry touches its own unit only. -/
theorem restore_of_ne {e : Entry κ ε ρ} {u : ε} (h : u ≠ e.unit) (regs : ε → ρ) :
    e.restore regs u = regs u := by
  cases hs : e.saved with
  | none => simp [Entry.restore, hs]
  | some r => simp [Entry.restore, hs, Function.update_of_ne h]

/-- An entry that has saved something gives it back. -/
theorem restore_of_saved {e : Entry κ ε ρ} {r : ρ} (h : e.saved = some r) (regs : ε → ρ) :
    e.restore regs = Function.update regs e.unit r := by
  simp [Entry.restore, h]

/-- Units are restored independently of each other. -/
theorem restore_congr {e : Entry κ ε ρ} {regs regs' : ε → ρ} {u : ε} (h : regs u = regs' u) :
    e.restore regs u = e.restore regs' u := by
  cases hs : e.saved with
  | none => simpa [Entry.restore, hs] using h
  | some r =>
      by_cases hu : u = e.unit
      · subst hu; simp [Entry.restore, hs]
      · simpa [Entry.restore, hs, Function.update_of_ne hu] using h

/-- What a unit ends with only depends on what it starts with. -/
theorem replay_congr {l : List (Entry κ ε ρ)} {regs regs' : ε → ρ} {u : ε}
    (h : regs u = regs' u) : replay l regs u = replay l regs' u := by
  induction l generalizing regs regs' with
  | nil => exact h
  | cons e l ih => exact ih (restore_congr h)

/-- A unit none of the popped entries saved is left alone. -/
theorem replay_of_not_saved {l : List (Entry κ ε ρ)} {u : ε}
    (h : ∀ e ∈ l, e.saved.isSome → e.unit ≠ u) (regs : ε → ρ) : replay l regs u = regs u := by
  induction l generalizing regs with
  | nil => rfl
  | cons e l ih =>
      rw [replay_cons, ih fun e' he' => h e' (List.mem_cons_of_mem e he')]
      cases hs : e.saved with
      | none => simp [Entry.restore, hs]
      | some r => exact restore_of_ne (h e List.mem_cons_self (by simp [hs])).symm regs

/-- What a unit gets does not depend on its state when a popped entry saved it. -/
theorem replay_eq_of_saved {l : List (Entry κ ε ρ)} {e : Entry κ ε ρ} (he : e ∈ l)
    (hs : e.saved.isSome) (regs regs' : ε → ρ) : replay l regs e.unit = replay l regs' e.unit := by
  induction l generalizing regs regs' with
  | nil => cases he
  | cons d l ih =>
      rcases List.mem_cons.mp he with rfl | he
      · obtain ⟨r, hr⟩ := Option.isSome_iff_exists.mp hs
        rw [replay_cons, replay_cons]
        refine replay_congr ?_
        rw [restore_of_saved hr, restore_of_saved hr, Function.update_self, Function.update_self]
      · exact ih he _ _

/-- What holds of a unit's state, and of all states the popped entries saved,
holds of what the unit gets. -/
theorem replay_induct {P : ε → ρ → Prop} {l : List (Entry κ ε ρ)} {regs : ε → ρ} {u : ε}
    (hsaved : ∀ e ∈ l, ∀ r, e.saved = some r → P e.unit r) (h : P u (regs u)) :
    P u (replay l regs u) := by
  induction l generalizing regs with
  | nil => exact h
  | cons e l ih =>
      rw [replay_cons]
      refine ih (fun e' he' => hsaved e' (List.mem_cons_of_mem e he')) ?_
      cases hs : e.saved with
      | none => simpa [Entry.restore, hs] using h
      | some r =>
          by_cases hu : u = e.unit
          · subst hu
            rw [restore_of_saved hs, Function.update_self]
            exact hsaved e List.mem_cons_self r hs
          · rwa [restore_of_ne hu]

/-- Replaying a chain keeps files in agreement about what is below it. -/
theorem AgreeOn.replay {l m : List (Entry κ ε ρ)} {regs regs' : ε → ρ} (h : AgreeOn m regs regs') :
    AgreeOn m (replay l regs) (replay l regs') :=
  fun e he => replay_congr (h e he)

/-- Whatever the newest activation does to its own unit is undone, as far as
the older entries are concerned, when it is popped. -/
theorem WellSaved.restore_update {e : Entry κ ε ρ} {l : List (Entry κ ε ρ)}
    (h : WellSaved (e :: l)) (regs : ε → ρ) (x : ρ) :
    AgreeOn l (e.restore (Function.update regs e.unit x)) (e.restore regs) := by
  intro e' he'
  by_cases hu : e'.unit = e.unit
  · obtain ⟨r, hr⟩ := Option.isSome_iff_exists.mp (h.1 ⟨e', he', hu⟩)
    rw [restore_of_saved hr, restore_of_saved hr, hu, Function.update_self, Function.update_self]
  · rw [restore_of_ne hu, restore_of_ne hu, Function.update_of_ne hu]

/-- Entering saves what popping gives back. -/
theorem WellSaved.restore_push {e : Entry κ ε ρ} {l : List (Entry κ ε ρ)} {regs : ε → ρ}
    (h : WellSaved (e :: l)) (hs : ∀ r, e.saved = some r → r = regs e.unit) (x : ρ) :
    AgreeOn l (e.restore (Function.update regs e.unit x)) regs := by
  refine (h.restore_update regs x).trans fun e' he' => ?_
  by_cases hu : e'.unit = e.unit
  · obtain ⟨r, hr⟩ := Option.isSome_iff_exists.mp (h.1 ⟨e', he', hu⟩)
    rw [restore_of_saved hr, hu, Function.update_self, hs r hr]
  · exact restore_of_ne hu regs

/-! ## resumable activations -/

/-- A suspended activation: its identifier, the state of its unit when it was
suspended, and the states of all units when it was entered. -/
structure Suspended (κ ε ρ : Type*) where
  id : κ
  atCall : ρ
  atEntry : ε → ρ

/-- The newest entry of a unit. -/
def newest (chain : List (Entry κ ε ρ)) (u : ε) : Option (Entry κ ε ρ) :=
  chain.find? fun e => e.unit = u

/-- The newest entry of a unit is on the chain. -/
theorem mem_of_newest {chain : List (Entry κ ε ρ)} {u : ε} {e : Entry κ ε ρ}
    (h : newest chain u = some e) : e ∈ chain :=
  List.mem_of_find?_eq_some h

/-- Entries of other units above do not hide the newest one. -/
theorem newest_append_of_ne {l m : List (Entry κ ε ρ)} {u : ε} (h : ∀ e ∈ l, e.unit ≠ u) :
    newest (l ++ m) u = newest m u := by
  have hnone : l.find? (fun e => e.unit = u) = none :=
    List.find?_eq_none.mpr fun e he => by simpa using h e he
  simp [newest, List.find?_append, hnone]

/-- Two assignments of states agree on every unit whose newest entry on the
chain is of one of the activations `as`: nobody cares for the others. -/
def Settled (as : List (Suspended κ ε ρ)) (chain : List (Entry κ ε ρ))
    (regs regs' : ε → ρ) : Prop :=
  ∀ e, newest chain e.unit = some e → (∃ a ∈ as, e.id = a.id) → regs e.unit = regs' e.unit

namespace Settled

variable {a : Suspended κ ε ρ} {as : List (Suspended κ ε ρ)} {pre post chain : List (Entry κ ε ρ)}
  {regs regs' regs'' : ε → ρ}

theorem symm (h : Settled as chain regs regs') : Settled as chain regs' regs :=
  fun e he ha => (h e he ha).symm

theorem trans (h : Settled as chain regs regs') (h' : Settled as chain regs' regs'') :
    Settled as chain regs regs'' :=
  fun e he ha => (h e he ha).trans (h' e he ha)

/-- Files that agree on the whole chain are settled for any stack. -/
theorem of_agreeOn (h : AgreeOn chain regs regs') : Settled as chain regs regs' :=
  fun e he _ => h e (mem_of_newest he)

theorem tail (h : Settled (a :: as) chain regs regs') : Settled as chain regs regs' :=
  fun e he ⟨b, hb, hid⟩ => h e he ⟨b, List.mem_cons_of_mem a hb, hid⟩

/-- With an activation for every entry, agreement is agreement on the chain. -/
theorem agreeOn (h : Settled as chain regs regs') (hlive : ∀ e ∈ chain, ∃ a ∈ as, e.id = a.id) :
    AgreeOn chain regs regs' := by
  intro e he
  cases hnew : newest chain e.unit with
  | none => exact absurd he fun hmem => by simpa using List.find?_eq_none.mp hnew e hmem
  | some d =>
      have hunit : d.unit = e.unit := by simpa using List.find?_some hnew
      rw [← hunit] at hnew ⊢
      exact h d hnew (hlive d (mem_of_newest hnew))

/-- A popped entry has saved its unit when an older entry needs it. -/
theorem replay (h : Settled as (pre ++ post) regs regs') (hw : WellSaved (pre ++ post)) :
    Settled as post (replay pre regs) (replay pre regs') := by
  intro e he ha
  by_cases hpre : ∃ d ∈ pre, d.unit = e.unit
  · obtain ⟨d, hd, hunit⟩ := hpre
    rw [← hunit]
    exact replay_eq_of_saved hd (hw.saved hd (mem_of_newest he) hunit.symm) regs regs'
  · refine replay_congr (h e ?_ ha)
    rwa [newest_append_of_ne fun d hd hunit => hpre ⟨d, hd, hunit⟩]

end Settled

/-- The suspended activations `as`, newest first, can all be resumed: each has
an entry on the chain, in the same order, and popping what is above that entry
gives the activation's unit back as it was when it was suspended; popping the
entry as well gives every unit that is then an activation's back as it was on
entry. -/
def Resumable : List (Suspended κ ε ρ) → List (Entry κ ε ρ) → (ε → ρ) → Prop
  | [], _, _ => True
  | a :: as, chain, regs => ∃ pre e post, chain = pre ++ e :: post ∧ e.id = a.id ∧
      replay pre regs e.unit = a.atCall ∧
      Settled as post (replay (pre ++ [e]) regs) a.atEntry ∧
      Resumable as post (replay (pre ++ [e]) regs)

/-- Only the units matter whose newest entry is an activation's. -/
theorem Resumable.congr {as : List (Suspended κ ε ρ)} {chain : List (Entry κ ε ρ)}
    {regs regs' : ε → ρ} (h : Resumable as chain regs) (hw : WellSaved chain)
    (hr : Settled as chain regs regs') : Resumable as chain regs' := by
  induction as generalizing chain regs regs' with
  | nil => trivial
  | cons a as ih =>
      obtain ⟨pre, e, post, rfl, hid, hcall, hentry, hrest⟩ := h
      have hown : replay pre regs e.unit = replay pre regs' e.unit :=
        hr.replay hw e (by simp [newest]) ⟨a, List.mem_cons_self, hid⟩
      have happ : pre ++ e :: post = (pre ++ [e]) ++ post := by simp
      have hpost : Settled as post (replay (pre ++ [e]) regs) (replay (pre ++ [e]) regs') := by
        rw [happ] at hr hw
        exact (hr.replay hw).tail
      exact ⟨pre, e, post, rfl, hid, hown.symm.trans hcall, hpost.symm.trans hentry,
        ih hrest hw.of_append_right.2 hpost⟩

/-- Entries put on top of the chain that give the units back when popped. -/
theorem Resumable.prepend {as : List (Suspended κ ε ρ)} {pre post : List (Entry κ ε ρ)}
    {regs : ε → ρ} (h : Resumable as post (replay pre regs)) :
    Resumable as (pre ++ post) regs := by
  cases as with
  | nil => trivial
  | cons a as =>
      obtain ⟨pre', e, post', rfl, hid, hcall, hentry, hrest⟩ := h
      refine ⟨pre ++ pre', e, post', by simp, hid, ?_, ?_, ?_⟩
      · simpa using hcall
      · simpa using hentry
      · simpa using hrest

/-- The newest suspended activation is discarded; its entry stays. -/
theorem Resumable.discard {a : Suspended κ ε ρ} {as : List (Suspended κ ε ρ)}
    {chain : List (Entry κ ε ρ)} {regs : ε → ρ} (h : Resumable (a :: as) chain regs) :
    Resumable as chain regs := by
  obtain ⟨pre, e, post, rfl, -, -, -, hrest⟩ := h
  simpa using hrest.prepend

/-- Outer activations can be resumed without the inner ones. -/
theorem Resumable.of_append {as as' : List (Suspended κ ε ρ)} {chain : List (Entry κ ε ρ)}
    {regs : ε → ρ} (h : Resumable (as ++ as') chain regs) : Resumable as' chain regs := by
  induction as with
  | nil => exact h
  | cons a as ih => exact ih h.discard

/-- With one entry for each identifier, the newest suspended activation is
resumed at its own entry, wherever that is. -/
theorem Resumable.split {a : Suspended κ ε ρ} {as : List (Suspended κ ε ρ)}
    {pre post : List (Entry κ ε ρ)} {e : Entry κ ε ρ} {regs : ε → ρ}
    (h : Resumable (a :: as) (pre ++ e :: post) regs) (hid : e.id = a.id)
    (hnodup : ((pre ++ e :: post).map Entry.id).Nodup) :
    replay pre regs e.unit = a.atCall ∧ Settled as post (replay (pre ++ [e]) regs) a.atEntry ∧
      Resumable as post (replay (pre ++ [e]) regs) := by
  obtain ⟨pre', e', post', heq, hid', hcall, hentry, hrest⟩ := h
  have he : e = e' := List.inj_on_of_nodup_map hnodup (by simp) (by rw [heq]; simp)
    (hid.trans hid'.symm)
  subst he
  have hnodup' : (pre' ++ e :: post').Nodup := heq ▸ List.Nodup.of_map Entry.id hnodup
  have hpre : e ∉ pre' := fun hmem => List.disjoint_of_nodup_append hnodup' hmem List.mem_cons_self
  have hpost : e ∉ post' := (List.nodup_cons.mp (List.Nodup.of_append_right hnodup')).1
  obtain ⟨rfl, -, rfl⟩ := (List.append_cons_inj_of_notMem hpre hpost).mp heq.symm
  exact ⟨hcall, hentry, hrest⟩

/-- The newest activation runs: what it does to its own unit is its own affair. -/
theorem Resumable.update {a : Suspended κ ε ρ} {as : List (Suspended κ ε ρ)} {e : Entry κ ε ρ}
    {chain : List (Entry κ ε ρ)} {regs : ε → ρ} (h : Resumable (a :: as) (e :: chain) regs)
    (hid : e.id = a.id) (hnodup : ((e :: chain).map Entry.id).Nodup) (hw : WellSaved (e :: chain))
    (x : ρ) : Resumable ({ a with atCall := x } :: as) (e :: chain)
    (Function.update regs e.unit x) := by
  rw [← List.nil_append (e :: chain)] at h hnodup
  obtain ⟨-, hentry, hrest⟩ := h.split hid hnodup
  have hagree := hw.restore_update regs x
  exact ⟨[], e, chain, rfl, hid, Function.update_self .., (Settled.of_agreeOn hagree).trans hentry,
    hrest.congr hw.2 (.of_agreeOn hagree.symm)⟩

/-- A new activation is entered on top: it saves its unit when the chain below
needs it, and then does what it likes with it. -/
theorem Resumable.push {as : List (Suspended κ ε ρ)} {e : Entry κ ε ρ}
    {chain : List (Entry κ ε ρ)} {regs : ε → ρ} (h : Resumable as chain regs)
    (hw : WellSaved (e :: chain)) (hs : ∀ r, e.saved = some r → r = regs e.unit) (x : ρ) :
    Resumable as (e :: chain) (Function.update regs e.unit x) := by
  have hagree := hw.restore_push hs x
  have hrest : Resumable as chain (replay [e] (Function.update regs e.unit x)) :=
    h.congr hw.2 (.of_agreeOn hagree.symm)
  exact hrest.prepend

/-- A new activation is entered, and is the newest one from then on. -/
theorem Resumable.enter {as : List (Suspended κ ε ρ)} {e : Entry κ ε ρ}
    {chain : List (Entry κ ε ρ)} {regs : ε → ρ} (h : Resumable as chain regs)
    (hw : WellSaved (e :: chain)) (hs : ∀ r, e.saved = some r → r = regs e.unit) (x : ρ) :
    Resumable (⟨e.id, x, regs⟩ :: as) (e :: chain) (Function.update regs e.unit x) := by
  have hagree := hw.restore_push hs x
  exact ⟨[], e, chain, rfl, rfl, Function.update_self .., .of_agreeOn hagree,
    h.congr hw.2 (.of_agreeOn hagree.symm)⟩

/-- Popping everything above the newest suspended activation resumes it. -/
theorem Resumable.resume {a : Suspended κ ε ρ} {as : List (Suspended κ ε ρ)}
    {chain : List (Entry κ ε ρ)} {regs : ε → ρ} (h : Resumable (a :: as) chain regs) :
    ∃ pre e post, chain = pre ++ e :: post ∧ e.id = a.id ∧ replay pre regs e.unit = a.atCall ∧
      Resumable (a :: as) (e :: post) (replay pre regs) := by
  obtain ⟨pre, e, post, rfl, hid, hcall, hentry, hrest⟩ := h
  refine ⟨pre, e, post, rfl, hid, hcall, [], e, post, rfl, hid, hcall, ?_, ?_⟩
  · simpa using hentry
  · simpa using hrest

/-- Entries no suspended activation owns may be dropped unpopped, as long as
none of them is the last one above the entry of an activation on the same unit. -/
theorem Resumable.drop {as : List (Suspended κ ε ρ)} {dead chain : List (Entry κ ε ρ)}
    {regs : ε → ρ} (h : Resumable as (dead ++ chain) regs) (hw : WellSaved (dead ++ chain))
    (hdead : ∀ e ∈ dead, ∀ a ∈ as, e.id ≠ a.id)
    (hneeded : ∀ e ∈ dead, ∀ e', newest chain e.unit = some e' → ∀ a ∈ as, e'.id ≠ a.id) :
    Resumable as chain regs := by
  cases as with
  | nil => trivial
  | cons a as =>
      obtain ⟨pre, e, post, heq, hid, hcall, hentry, hrest⟩ := h
      -- the entry of the newest suspended activation lies below the dead ones
      obtain ⟨mid, rfl, rfl⟩ : ∃ mid, pre = dead ++ mid ∧ chain = mid ++ e :: post := by
        rcases List.append_eq_append_iff.mp heq with ⟨mid, hpre, hchain⟩ | ⟨mid, hdead', hchain⟩
        · exact ⟨mid, hpre, hchain⟩
        · cases mid with
          | nil => exact ⟨[], by simpa using hdead'.symm, by simpa using hchain.symm⟩
          | cons e' mid =>
              have he' : e = e' := by simpa using (List.cons.inj hchain).1
              exact absurd hid (hdead e (by rw [hdead', he']; simp) a List.mem_cons_self)
      have hkeep : Settled (a :: as) (mid ++ e :: post) (replay dead regs) regs := by
        rintro e' hnew ⟨b, hb, hid'⟩
        refine replay_of_not_saved (fun d hd _ hunit => ?_) regs
        exact hneeded d hd e' (by rwa [hunit]) b hb hid'
      have hdrop : Resumable (a :: as) (mid ++ e :: post) (replay dead regs) :=
        ⟨mid, e, post, rfl, hid, by simpa using hcall, by simpa using hentry, by simpa using hrest⟩
      exact hdrop.congr hw.of_append_right hkeep

end Nesting
