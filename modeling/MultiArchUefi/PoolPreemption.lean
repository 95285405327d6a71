import MultiArchUefi.ObjectPool

/-!
# MultiArchUefi.PoolPreemption

`CpuRunFunc` allocates and frees its context with interrupts enabled, so an event
notification can run another `CpuRunFunc` of the same engine between any two of the
stores that `ObjectAlloc` and `ObjectFree` make.  The runs that have not returned
form a stack, and only the newest of them moves.

Between most stores the list is a ring, and the interrupted run does not mind that
its objects come back in another order.  It does mind between the stores of
`RemoveEntryList`, and where `InsertTailList` has read the tail or linked it.
-/

namespace MultiArchUefi

open Ring Transition

/-! ## runs and their stores -/

/-- What a `CpuRunFunc` has done to the list.  `linking n` is after the `n`th store of
`InsertTailList`; its fourth is the last of the run. -/
inductive PoolPosition where
  | allocating
  | chosen (entry : PoolEntry)
  | unlinking (entry : PoolEntry)
  | unlinked (entry : PoolEntry)
  | clearing (entry : PoolEntry)
  | running (entry : PoolEntry)
  | linking1 (entry : PoolEntry)
  | linking2 (entry : PoolEntry)
  | linking3 (entry : PoolEntry)
deriving DecidableEq, Repr

/-- The links, and where the runs are that have not returned, newest first. -/
structure PreemptedPool where
  links : Links PoolEntry
  stack : List PoolPosition

/-- The newest run makes its next store, or another one begins. -/
inductive PoolEvent where
  | step
  | notify
deriving DecidableEq, Repr

/-- `ObjectAlloc`, `CpuRunCtx` and `ObjectFree`, store by store: `GetFirstNode`,
`RemoveEntryList`, `InitializeListHead` and `InsertTailList`. -/
def preemptStep (list : PoolEntry) (p : PreemptedPool) : PoolEvent → Option PreemptedPool
  | .notify => some { p with stack := .allocating :: p.stack }
  | .step =>
      match p.stack with
      | [] => none
      | .allocating :: older =>
          -- the run fails when there is no free object
          if isListEmpty p.links list then some { p with stack := older }
          else some { p with stack := .chosen (p.links.fwd list) :: older }
      | .chosen e :: older => some ⟨removeEntry1 e p.links, .unlinking e :: older⟩
      | .unlinking e :: older => some ⟨removeEntry2 e p.links, .unlinked e :: older⟩
      | .unlinked e :: older => some ⟨p.links.setFwd e e, .clearing e :: older⟩
      | .clearing e :: older => some ⟨p.links.setBack e e, .running e :: older⟩
      | .running e :: older => some ⟨insertTail1 list e p.links, .linking1 e :: older⟩
      | .linking1 e :: older => some ⟨insertTail2 list e p.links, .linking2 e :: older⟩
      | .linking2 e :: older => some ⟨insertTail3 e p.links, .linking3 e :: older⟩
      | .linking3 e :: older => some ⟨insertTail4 list e p.links, older⟩

/-- The stores of a run that is not interrupted are those of the two functions. -/
theorem preemptStep_alone (list e : PoolEntry) (m : Links PoolEntry) :
    (exec (preemptStep list) (fun _ _ => True) ⟨m, [.chosen e]⟩ [.step, .step, .step, .step] =
      some ⟨unlinkEntry e m, [.running e]⟩) ∧
    exec (preemptStep list) (fun _ _ => True) ⟨m, [.running e]⟩ [.step, .step, .step, .step] =
      some ⟨insertTailList list e m, []⟩ :=
  ⟨rfl, rfl⟩

/-- The object that a run keeps to itself. -/
def PoolPosition.held : PoolPosition → Option PoolEntry
  | .allocating | .chosen _ | .linking3 _ => none
  | .unlinking e | .unlinked e | .clearing e | .running e | .linking1 e | .linking2 e => some e

/-- A run is not in the middle of a change of the list. -/
def PoolPosition.quiet : PoolPosition → Prop
  | .unlinking _ | .linking3 _ => False
  | _ => True

/-- A notification comes at a time when the interrupted run does not mind, and a run
links its object to the tail that it has read. -/
def KeepsList (list : PoolEntry) (p : PreemptedPool) : PoolEvent → Prop
  | .notify =>
      match p.stack with
      | .unlinking _ :: _ => False
      | .linking3 e :: _ => p.links.back e = list
      | _ => True
  | .step =>
      match p.stack with
      | .linking2 e :: _ => p.links.back e = p.links.back list
      | _ => True

instance (list : PoolEntry) (p : PreemptedPool) (event : PoolEvent) :
    Decidable (KeepsList list p event) := by
  unfold KeepsList
  cases event <;> (simp only; split <;> infer_instance)

/-! ## what holds of suspended runs -/

/-- The objects that are kept by runs. -/
def heldBy (stack : List PoolPosition) : List PoolEntry := stack.filterMap PoolPosition.held

section

variable (objects : List PoolEntry) (list : PoolEntry)

/-- What a run relies on while newer ones have control; `older` are the runs that it
has interrupted itself.  When a run is about to make its last store, its object was
the only one that was not kept by another run. -/
def SuspendedAt (m : Links PoolEntry) (older : List PoolPosition) : PoolPosition → Prop
  | .allocating | .unlinked _ | .clearing _ | .running _ => True
  | .unlinking _ => False
  | .chosen e => e ∈ objects ∧ e ∉ heldBy older
  | .linking1 e | .linking2 e => m.fwd e = list
  | .linking3 e => e ∈ objects ∧ e ∉ heldBy older ∧ ∀ o ∈ objects, o ≠ e → o ∈ heldBy older

def AllSuspended (m : Links PoolEntry) : List PoolPosition → Prop
  | [] => True
  | p :: older => SuspendedAt objects list m older p ∧ AllSuspended m older

/-- The list is a ring of the free objects `l`, but for the last store of a suspended
run that has put the only one of them there. -/
def Listed (m : Links PoolEntry) (l : List PoolEntry) (stack : List PoolPosition) : Prop :=
  IsRing m list l ∨ ∃ e, l = [e] ∧ .linking3 e ∈ stack ∧ IsRing (insertTail4 list e m) list [e] ∧
    m.back list = list

/-- What holds when the newest run is where it is. -/
def Active (m : Links PoolEntry) (l : List PoolEntry) (older : List PoolPosition) :
    PoolPosition → Prop
  | .allocating => Listed list m l older
  | .chosen e => Listed list m l older ∧ e ∈ l
  | .unlinking e => IsRing (removeEntry2 e m) list l ∧ m.back e ∈ list :: l
  | .unlinked _ | .clearing _ | .running _ => IsRing m list l
  | .linking1 e | .linking2 e => IsRing m list l ∧ m.fwd e = list
  | .linking3 e => IsRing (insertTail4 list e m) list l ∧ l.getLast? = some e ∧
      (m.back list = e ∨ m.back list = m.back e)

/-- What holds of the newest run and the others. -/
def StackHolds (m : Links PoolEntry) (l : List PoolEntry) : List PoolPosition → Prop
  | [] => IsRing m list l
  | p :: older => Active list m l older p ∧ AllSuspended objects list m older

/-- Every object is on the list or kept by a run, and the runs find what they rely on. -/
structure Preemptible (p : PreemptedPool) (l : List PoolEntry) : Prop where
  perm : (l ++ heldBy p.stack).Perm objects
  stack : StackHolds objects list p.links l p.stack

end

variable {objects l : List PoolEntry} {list e : PoolEntry} {m m' : Links PoolEntry}
  {p p' : PreemptedPool} {stack older : List PoolPosition} {q : PoolPosition} {event : PoolEvent}

theorem heldBy_cons (q : PoolPosition) (older : List PoolPosition) :
    heldBy (q :: older) = q.held.toList ++ heldBy older := by
  cases hheld : q.held with
  | none => simp [heldBy, hheld]
  | some e => simp [heldBy, hheld]

theorem heldBy_append (newer older : List PoolPosition) :
    heldBy (newer ++ older) = heldBy newer ++ heldBy older :=
  List.filterMap_append

/-- What suspended runs rely on are the objects that they have begun to link. -/
theorem AllSuspended.congr (h : AllSuspended objects list m older)
    (hfwd : ∀ e ∈ heldBy older, m'.fwd e = m.fwd e) : AllSuspended objects list m' older := by
  induction older with
  | nil => trivial
  | cons q older ih =>
      obtain ⟨hq, hrest⟩ := h
      have holder : ∀ e ∈ heldBy older, m'.fwd e = m.fwd e := fun e he => hfwd e (by
        rw [heldBy_cons]
        exact List.mem_append_right _ he)
      refine ⟨?_, ih hrest holder⟩
      cases q with
      | linking1 e | linking2 e => exact (hfwd e (by simp [heldBy, PoolPosition.held])).trans hq
      | allocating => trivial
      | unlinked e | clearing e | running e => trivial
      | unlinking e => exact hq
      | chosen e => exact hq
      | linking3 e => exact hq

/-- A run that is about to make its last store knows of all other objects who keeps them. -/
theorem AllSuspended.of_linking3 (h : AllSuspended objects list m older)
    (he : .linking3 e ∈ older) :
    ∀ o ∈ objects, o ≠ e → ∃ newer rest, older = newer ++ .linking3 e :: rest ∧
      o ∈ heldBy rest := by
  induction older with
  | nil => cases he
  | cons q older ih =>
      intro o ho hne
      obtain ⟨hq, hrest⟩ := h
      rcases List.mem_cons.mp he with rfl | he
      · exact ⟨[], older, rfl, hq.2.2 o ho hne⟩
      · obtain ⟨newer, rest, rfl, hheld⟩ := ih hrest he o ho hne
        exact ⟨q :: newer, rest, rfl, hheld⟩

/-- When the newest run keeps an object, the list is a ring. -/
theorem Listed.isRing (h : Listed list m l (q :: older)) (hq : q.held = some e)
    (hperm : (l ++ heldBy (q :: older)).Perm objects) (hnodup : objects.Nodup)
    (hsuspended : AllSuspended objects list m older) : IsRing m list l := by
  rcases h with hring | ⟨e', rfl, hmem, -, -⟩
  · exact hring
  · -- otherwise all objects but one are kept by runs older than a suspended one
    exfalso
    have hheld := hperm.nodup_iff.mpr hnodup
    have hmem' : .linking3 e' ∈ older := (List.mem_cons.mp hmem).resolve_left fun heq => by
      rw [← heq] at hq
      cases hq
    have he : e ∈ objects := hperm.subset (by simp [heldBy_cons, hq])
    have hne : e ≠ e' := by
      rintro rfl
      simp [heldBy_cons, hq] at hheld
    obtain ⟨newer, rest, rfl, hrest⟩ := hsuspended.of_linking3 hmem' e he hne
    rw [heldBy_cons, hq, heldBy_append, heldBy_cons] at hheld
    have hdisjoint := List.nodup_append.mp hheld
    simp [hrest] at hdisjoint

theorem mem_of_perm_cons (hperm : (l ++ heldBy stack).Perm objects) (he : e ∈ objects)
    (hnot : e ∉ heldBy stack) :
    e ∈ l :=
  (List.mem_append.mp (hperm.mem_iff.mpr he)).resolve_right hnot

/-- The next run goes on when the newest one has returned. -/
theorem stackHolds_of_listed (hlisted : Listed list m l stack)
    (hperm : (l ++ heldBy stack).Perm objects) (hnodup : objects.Nodup)
    (hsuspended : AllSuspended objects list m stack) :
    StackHolds objects list m l stack := by
  cases stack with
  | nil => exact hlisted.resolve_right fun ⟨_, _, hmem, _⟩ => nomatch hmem
  | cons q older =>
      obtain ⟨hq, holder⟩ := hsuspended
      refine ⟨?_, holder⟩
      have hweaken : (∀ e, q ≠ .linking3 e) → Listed list m l older := fun hne => by
        rcases hlisted with hring | ⟨e, hl, hmem, hhalf⟩
        · exact .inl hring
        · exact .inr ⟨e, hl, (List.mem_cons.mp hmem).resolve_left fun heq => hne e heq.symm, hhalf⟩
      cases q with
      | allocating => exact hweaken fun _ => nofun
      | chosen e => exact ⟨hweaken fun _ => nofun, mem_of_perm_cons hperm hq.1 hq.2⟩
      | unlinking e => exact hq.elim
      | unlinked e | clearing e | running e => exact hlisted.isRing rfl hperm hnodup holder
      | linking1 e | linking2 e => exact ⟨hlisted.isRing rfl hperm hnodup holder, hq⟩
      | linking3 e =>
          -- the object is the only one on the list
          have hmem := mem_of_perm_cons hperm hq.1 hq.2.1
          have hl : l = [e] := by
            have hall := hperm.nodup_iff.mpr hnodup
            have honly : ∀ o ∈ l, o = e := fun o ho => by
              by_contra hne
              have hheld := hq.2.2 o (hperm.subset (List.mem_append_left _ ho)) hne
              exact List.disjoint_of_nodup_append hall ho hheld
            have hsame : l.Perm [e] :=
              (List.perm_ext_iff_of_nodup hall.of_append_left (List.nodup_singleton e)).mpr
              fun o => ⟨fun ho => List.mem_singleton.mpr (honly o ho),
                fun ho => List.mem_singleton.mp ho ▸ hmem⟩
            exact List.perm_singleton.mp hsame
          subst hl
          rcases hlisted with hring | ⟨e', hl, -, hring, hback⟩
          · have hback : m.back list = e := (IsRing.singleton_iff.mp hring).2.1.2
            refine ⟨?_, rfl, .inl hback⟩
            rwa [insertTail4, setBack_eq_self hback]
          · obtain rfl : e = e' := List.singleton_inj.mp hl
            refine ⟨hring, rfl, .inr ?_⟩
            obtain ⟨hjoined, -, hne⟩ := IsRing.singleton_iff.mp hring
            have hfirst : m.back e = list := by simpa [insertTail4, hne] using hjoined.2
            rw [hback, hfirst]

/-! ## events -/

theorem Listed.mono (h : Listed list m l older) (q : PoolPosition) : Listed list m l (q :: older) :=
  h.imp_right fun ⟨e, hl, hmem, hhalf⟩ => ⟨e, hl, List.mem_cons_of_mem q hmem, hhalf⟩

/-- A run that minds no notification is suspended, and the list is as the next one wants it. -/
theorem preemptible_notify (h : Preemptible objects list p l) (hlist : list ∉ objects)
    (hnodup : objects.Nodup) (hkeeps : KeepsList list p .notify) :
    Preemptible objects list { p with stack := .allocating :: p.stack } l := by
  obtain ⟨m, stack⟩ := p
  obtain ⟨hperm, hstack⟩ := h
  refine ⟨by simpa [heldBy_cons, PoolPosition.held] using hperm, ?_⟩
  cases stack with
  | nil => exact ⟨.inl hstack, trivial⟩
  | cons q older =>
      obtain ⟨hq, holder⟩ := hstack
      have hdisjoint := List.disjoint_of_nodup_append (hperm.nodup_iff.mpr hnodup)
      have hobjects : ∀ o ∈ l, o ∈ objects := fun o ho => hperm.subset (List.mem_append_left _ ho)
      cases q with
      | allocating => exact ⟨hq.mono _, trivial, holder⟩
      | chosen e =>
          have he := hdisjoint hq.2
          rw [heldBy_cons] at he
          exact ⟨hq.1.mono _, ⟨hobjects e hq.2, he⟩, holder⟩
      | unlinking e => exact hkeeps.elim
      | unlinked e | clearing e | running e => exact ⟨.inl hq, trivial, holder⟩
      | linking1 e | linking2 e => exact ⟨.inl hq.1, hq.2, holder⟩
      | linking3 e =>
          obtain ⟨hring, hlast, hback⟩ := hq
          have hkeeps : m.back e = list := hkeeps
          obtain ⟨l₀, rfl⟩ := List.getLast?_eq_some_iff.mp hlast
          have he : e ≠ list := fun heq => hlist (heq ▸ hobjects e (by simp))
          -- nothing was on the list before the object
          have hl₀ : l₀ = [] := by
            have hpath := (path_append.mp hring.path).1
            rcases List.eq_nil_or_concat' l₀ with rfl | ⟨l₁, t, rfl⟩
            · rfl
            · have ht : m.back e = t := by
                simpa [insertTail4, he] using ((path_append.mp hpath).2).2
              exact absurd (ht.symm.trans hkeeps ▸ hobjects t (by simp)) hlist
          subst hl₀
          have hheld := hdisjoint (a := e) (by simp)
          rw [heldBy_cons] at hheld
          refine ⟨?_, ⟨hobjects e (by simp), hheld, fun o ho hne => ?_⟩, holder⟩
          · rcases hback with hback | hback
            · rw [insertTail4, setBack_eq_self hback] at hring
              exact .inl hring
            · exact .inr ⟨e, rfl, List.mem_cons_self, hring, hback.trans hkeeps⟩
          · have hmem := hperm.mem_iff.mpr ho
            rw [heldBy_cons] at hmem
            exact (List.mem_append.mp hmem).resolve_left fun hl => hne (List.mem_singleton.mp hl)

/-- The first entry of a list that is not empty is a free object. -/
theorem Listed.fwd_mem (h : Listed list m l older) (hempty : ¬ isListEmpty m list = true) :
    m.fwd list ∈ l := by
  rcases h with hring | ⟨e, rfl, -, hring, -⟩
  · cases l with
    | nil => exact absurd ((Ring.isListEmpty_iff hring).mpr rfl) hempty
    | cons a l =>
        rw [show m.fwd list = a from hring.path.1.1]
        exact List.mem_cons_self
  · rw [show m.fwd list = e from (IsRing.singleton_iff.mp hring).1.1]
    exact List.mem_cons_self

/-- What a store leaves to the suspended runs. -/
theorem AllSuspended.store {x y : PoolEntry} (h : AllSuspended objects list m older)
    (hx : x ∉ heldBy older) :
    AllSuspended objects list (m.setFwd x y) older :=
  h.congr fun e he => by rw [fwd_setFwd, if_neg (ne_of_mem_of_not_mem he hx)]

/-- The first store of an unlinking. -/
theorem active_unlinking (h : Listed list m l older) (he : e ∈ l) :
    ∃ l', l.Perm (e :: l') ∧ Active list (removeEntry1 e m) l' older (.unlinking e) := by
  rcases h with hring | ⟨e', rfl, -, hring, hback⟩
  · obtain ⟨l₁, l₂, rfl⟩ := List.append_of_mem he
    refine ⟨l₁ ++ l₂, List.perm_middle, ?_, ?_⟩
    · rw [← removeEntryList_eq]
      exact hring.removeEntry
    · have hlast := (path_append.mp hring.path).1.back_mem
      have hself := hring.fwd_ne he
      rw [removeEntry1, back_setBack, if_neg (Ne.symm hself)]
      simp only [List.mem_cons, List.mem_append] at hlast ⊢
      exact hlast.imp_right .inl
  · -- the last store of a suspended run is still to be made
    obtain rfl := List.mem_singleton.mp he
    obtain ⟨hfirst, hsecond, hne⟩ := IsRing.singleton_iff.mp hring
    have hfwd : m.fwd e = list := hsecond.1
    have hprev : m.back e = list := by simpa [insertTail4, hne] using hfirst.2
    have hstore : removeEntry1 e m = m := by rw [removeEntry1, hfwd, hprev, setBack_eq_self hback]
    rw [hstore]
    refine ⟨[], .refl _, ?_, by simp [hprev]⟩
    rw [removeEntry2, hprev, hfwd]
    exact ⟨⟨by simp, by simpa using hback⟩, by simp⟩

/-- The newest run makes its next store. -/
theorem preemptible_step (h : Preemptible objects list p l) (hlist : list ∉ objects)
    (hnodup : objects.Nodup) (hkeeps : KeepsList list p .step)
    (hstep : preemptStep list p .step = some p') :
    ∃ l', Preemptible objects list p' l' := by
  obtain ⟨m, stack⟩ := p
  obtain ⟨hperm, hstack⟩ := h
  cases stack with
  | nil => cases hstep
  | cons q older =>
      obtain ⟨hq, holder⟩ := hstack
      have hall := hperm.nodup_iff.mpr hnodup
      have hobjects : ∀ o ∈ l ++ heldBy (q :: older), o ∈ objects := fun o ho => hperm.subset ho
      have hnotHeld : ∀ e ∈ list :: l, e ∉ heldBy older := fun e he hheld => by
        have hmem : e ∈ heldBy (q :: older) := by
          rw [heldBy_cons]
          exact List.mem_append_right _ hheld
        rcases List.mem_cons.mp he with rfl | he
        · exact hlist (hobjects e (List.mem_append_right _ hmem))
        · exact List.disjoint_of_nodup_append hall he hmem
      -- an object that the run keeps is neither on the list nor kept by another run
      have hown : ∀ e, q.held = some e → e ∉ list :: l ∧ e ∉ heldBy older := fun e he => by
        rw [heldBy_cons, he] at hall hobjects
        have hne : e ≠ list := fun heq => hlist (heq ▸ hobjects e (by simp))
        have hdisjoint := List.disjoint_of_nodup_append hall
        have hnodup' := hall.of_append_right
        simp only [Option.toList_some, List.singleton_append] at hdisjoint hnodup'
        refine ⟨fun hmem => ?_, (List.nodup_cons.mp hnodup').1⟩
        exact (List.mem_cons.mp hmem).elim hne fun hl => hdisjoint hl List.mem_cons_self
      cases q with
      | allocating =>
          rw [preemptStep] at hstep
          simp only at hstep
          have hperm' : (l ++ heldBy older).Perm objects := hperm
          split at hstep
          · obtain rfl := Option.some.inj hstep
            exact ⟨l, hperm', stackHolds_of_listed hq hperm' hnodup holder⟩
          · rename_i hempty
            obtain rfl := Option.some.inj hstep
            exact ⟨l, hperm', ⟨hq, Listed.fwd_mem hq hempty⟩, holder⟩
      | chosen e =>
          obtain rfl := Option.some.inj hstep
          obtain ⟨l', hl, hactive⟩ := active_unlinking hq.1 hq.2
          refine ⟨l', ?_, hactive, holder.congr fun _ _ => rfl⟩
          refine List.Perm.trans ?_ hperm
          rw [heldBy_cons, heldBy_cons]
          exact List.perm_middle.trans (hl.symm.append_right _)
      | unlinking e =>
          obtain rfl := Option.some.inj hstep
          exact ⟨l, hperm, hq.1, holder.store (hnotHeld _ hq.2)⟩
      | unlinked e =>
          obtain rfl := Option.some.inj hstep
          obtain ⟨hfree, hheld⟩ := hown e rfl
          exact ⟨l, hperm, IsRing.setFwd hq hfree, holder.store hheld⟩
      | clearing e =>
          obtain rfl := Option.some.inj hstep
          exact ⟨l, hperm, IsRing.setBack hq (hown e rfl).1, holder.congr fun _ _ => rfl⟩
      | running e =>
          obtain rfl := Option.some.inj hstep
          obtain ⟨hfree, hheld⟩ := hown e rfl
          exact ⟨l, hperm, ⟨IsRing.setFwd hq hfree, by simp [insertTail1]⟩, holder.store hheld⟩
      | linking1 e =>
          obtain rfl := Option.some.inj hstep
          exact ⟨l, hperm, ⟨hq.1.setBack (hown e rfl).1, hq.2⟩, holder.congr fun _ _ => rfl⟩
      | linking2 e =>
          obtain rfl := Option.some.inj hstep
          obtain ⟨hring, hfwd⟩ := hq
          have hkeeps : m.back e = m.back list := hkeeps
          have hlast : m.back e ∈ list :: l := hkeeps ▸ hring.path.back_mem
          refine ⟨l ++ [e], ?_, ⟨?_, by simp, .inr hkeeps.symm⟩, holder.store (hnotHeld _ hlast)⟩
          · simpa [heldBy_cons, PoolPosition.held] using hperm
          · have hinsert := hring.insertTail (hown e rfl).1
            rwa [insertTailList_of_prepared hfwd hkeeps] at hinsert
      | linking3 e =>
          obtain rfl := Option.some.inj hstep
          have hperm' : (l ++ heldBy older).Perm objects := hperm
          exact ⟨l, hperm', stackHolds_of_listed (.inl hq.1) hperm' hnodup
            (holder.congr fun _ _ => rfl)⟩

/-! ## runs -/

/-- The contexts that are in use. -/
def objectsInUse (stack : List PoolPosition) : List PoolEntry :=
  stack.filterMap fun
    | .running e => some e
    | _ => none

theorem objectsInUse_sublist (stack : List PoolPosition) :
    (objectsInUse stack).Sublist (heldBy stack) := by
  induction stack with
  | nil => exact .slnil
  | cons q older ih =>
      cases q with
      | running e => exact ih.cons_cons e
      | allocating | chosen e | linking3 e => exact ih
      | unlinking e | unlinked e | clearing e | linking1 e | linking2 e => exact ih.cons e

/-- When no run is in the middle of a change, the list is a ring of the objects that no
run keeps; and no two runs use one object. -/
structure PoolIntact (context : ObjectAllocContext σ) (p : PreemptedPool) : Prop where
  ring : (∀ q ∈ p.stack, q.quiet) →
    ∃ l, IsRing p.links (.list context.address) l ∧ (l ++ heldBy p.stack).Perm
      (context.objects.map .link)
  distinct : (objectsInUse p.stack).Nodup

theorem Preemptible.intact {σ : Type} {context : ObjectAllocContext σ}
    (h : Preemptible (context.objects.map .link) (.list context.address) p l)
    (hnodup : context.objects.Nodup) :
    PoolIntact context p := by
  have hnodup' : (context.objects.map PoolEntry.link).Nodup :=
    hnodup.map fun _ _ => PoolEntry.link.inj
  obtain ⟨m, stack⟩ := p
  obtain ⟨hperm, hstack⟩ := h
  refine ⟨fun hquiet => ⟨l, ?_, hperm⟩, ?_⟩
  · have hring : Listed (.list context.address) m l stack := by
      cases stack with
      | nil => exact .inl hstack
      | cons q older =>
          have hq : q.quiet := hquiet q List.mem_cons_self
          have hactive := hstack.1
          cases q with
          | allocating => exact Listed.mono hactive _
          | chosen e => exact Listed.mono hactive.1 _
          | unlinking e => exact hq.elim
          | unlinked e | clearing e | running e => exact .inl hactive
          | linking1 e | linking2 e => exact .inl hactive.1
          | linking3 e => exact hq.elim
    exact hring.resolve_right fun ⟨e, _, hmem, _⟩ => hquiet _ hmem
  · exact (hperm.nodup_iff.mpr hnodup').of_append_right.sublist (objectsInUse_sublist stack)

/-- A pool survives notifications that come when the interrupted run does not mind. -/
theorem preemptedPool_of_run {σ : Type} (config : ObjectAllocConfig σ) (services : CreateServices σ)
    (slot : Option (ObjectAllocContext σ)) (w : PoolWorld σ)
    (hsuccess : (objectAllocCreate config services slot w).status = EFI_SUCCESS) :
    ∃ context, (objectAllocCreate config services slot w).context = some context ∧
      ∀ events p, Run (preemptStep (.list context.address)) (KeepsList (.list context.address))
          ⟨(objectAllocCreate config services slot w).world.links, []⟩ events p →
          PoolIntact context p := by
  obtain ⟨context, hcontext, -, hmade⟩ := objectAllocCreate_made hsuccess
  refine ⟨context, hcontext, fun events p hrun => ?_⟩
  have hnodup : (context.objects.map PoolEntry.link).Nodup :=
    hmade.nodup.map fun _ _ => PoolEntry.link.inj
  have hlist : PoolEntry.list context.address ∉ context.objects.map PoolEntry.link := by simp
  have hinitial : Preemptible (context.objects.map .link) (.list context.address)
      ⟨(objectAllocCreate config services slot w).world.links, []⟩ (context.objects.map .link) :=
    ⟨by simp [heldBy], hmade.ring⟩
  obtain ⟨l, hl⟩ := hrun.invariant
    (I := fun p => ∃ l, Preemptible (context.objects.map .link) (.list context.address) p l)
    (fun p event p' ⟨l, h⟩ hkeeps hstep => by
      cases event with
      | notify =>
          obtain rfl := Option.some.inj hstep
          exact ⟨l, preemptible_notify h hlist hnodup hkeeps⟩
      | step => exact preemptible_step h hlist hnodup hkeeps hstep)
    ⟨_, hinitial⟩
  exact hl.intact hmade.nodup

/-- The pool of two objects, which is at 0x1000. -/
def pairPool : PreemptedPool :=
  ⟨(objectAllocCreate pairConfig pairServices none emptyWorld).world.links, []⟩

/-- A run is interrupted while its context is in use, and both runs return. -/
theorem preemptedPool_of_run_pair :
    ∃ (context : ObjectAllocContext Bool) (p : PreemptedPool),
      Run (preemptStep (.list 0x1000)) (KeepsList (.list 0x1000)) pairPool
        ([.notify] ++ List.replicate 5 .step ++ [.notify] ++ List.replicate 13 .step) p ∧
      p.stack = [] ∧ PoolIntact context p := by
  obtain ⟨context, hcontext, hintact⟩ :=
    preemptedPool_of_run pairConfig pairServices none emptyWorld (by decide)
  have haddress : context.address = 0x1000 := by
    have hmap : (objectAllocCreate pairConfig pairServices none emptyWorld).context.map
        (·.address) = some 0x1000 := by
      decide
    rw [hcontext] at hmap
    exact Option.some.inj hmap
  rw [haddress] at hintact
  have hexec : (exec (preemptStep (.list 0x1000)) (KeepsList (.list 0x1000)) pairPool
      ([.notify] ++ List.replicate 5 .step ++ [.notify] ++ List.replicate 13 .step)).map
      (·.stack) = some [] := by
    decide
  obtain ⟨p, hp, hstack⟩ := Option.map_eq_some_iff.mp hexec
  exact ⟨context, p, .of_exec hp, hstack, hintact _ p (.of_exec hp)⟩

/-- When all runs have returned, no object of an intact pool is alone. -/
theorem PoolIntact.fwd_ne {σ : Type} {context : ObjectAllocContext σ} (h : PoolIntact context p)
    (hstack : p.stack = []) {o : UINT64} (ho : o ∈ context.objects) :
    p.links.fwd (.link o) ≠ .link o := by
  obtain ⟨l, hring, hperm⟩ := h.ring (by simp [hstack])
  rw [hstack] at hperm
  refine IsRing.fwd_ne hring (hperm.mem_iff.mpr (List.mem_map_of_mem ho) |> fun hmem => ?_)
  simpa [heldBy] using hmem

/-- A notification between the stores of `RemoveEntryList`, and one before the last
store of `InsertTailList`: when both runs have returned, an object is lost. -/
theorem preempted_lost :
    ∃ context ∈ (objectAllocCreate pairConfig pairServices none emptyWorld).context,
      (∃ p, Run (preemptStep (.list context.address)) (fun _ _ => True) pairPool
        ([.notify] ++ List.replicate 2 .step ++ [.notify] ++ List.replicate 16 .step) p ∧
        p.stack = [] ∧ ¬ PoolIntact context p) ∧
      ∃ p, Run (preemptStep (.list context.address)) (fun _ _ => True) pairPool
        ([.notify] ++ List.replicate 8 .step ++ [.notify] ++ List.replicate 10 .step) p ∧
        p.stack = [] ∧ ¬ PoolIntact context p := by
  obtain ⟨context, hcontext, haddress, hobjects⟩ : ∃ context,
      (objectAllocCreate pairConfig pairServices none emptyWorld).context = some context ∧
        context.address = 0x1000 ∧ context.objects = [0x10000, 0x10800] := by
    have hmap : (objectAllocCreate pairConfig pairServices none emptyWorld).context.map
        (fun context => (context.address, context.objects)) = some
        (0x1000, [0x10000, 0x10800]) := by decide
    obtain ⟨context, hcontext, heq⟩ := Option.map_eq_some_iff.mp hmap
    exact ⟨context, hcontext, congrArg Prod.fst heq, congrArg Prod.snd heq⟩
  have hlost : ∀ (events : List PoolEvent) (o : UINT64), o ∈ context.objects →
      (exec (preemptStep (.list 0x1000)) (fun _ _ => True) pairPool events).map
        (fun p => (p.stack, decide (p.links.fwd (.link o) = .link o))) = some ([], true) →
      ∃ p, Run (preemptStep (.list context.address)) (fun _ _ => True) pairPool events p ∧
        p.stack = [] ∧ ¬ PoolIntact context p := by
    intro events o ho hexec
    obtain ⟨p, hp, heq⟩ := Option.map_eq_some_iff.mp hexec
    simp only [Prod.mk.injEq, decide_eq_true_eq] at heq
    rw [haddress]
    exact ⟨p, .of_exec hp, heq.1, fun hintact => hintact.fwd_ne heq.1 ho heq.2⟩
  exact ⟨context, hcontext, hlost _ 0x10000 (by simp [hobjects]) (by decide),
    hlost _ 0x10800 (by simp [hobjects]) (by decide)⟩

end MultiArchUefi
