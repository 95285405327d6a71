import MultiArchUefi.Orderly

/-!
# MultiArchUefi.LeakedRuns

Runs of the interleaved machine in which native code and `CpuExitImage` may
long-jump, on builds without `MAU_CHECK_ORPHAN_CONTEXTS`.

The contexts of runs that have been jumped over stay on the chain, above that of
an older run, until the older run looks for them and takes them off to free
them.  `Leaky` is what such runs keep as long as `CpuLeaveCritical` finds its own
context on top, which its `ASSERT` says.
-/

namespace MultiArchUefi

open Transition Chain

namespace Interleaving

/-! ## contexts on the chain and off it -/

/-- The context of the run is on the chain, though not always on top. -/
def Stage.onChain : Stage → Bool
  | .entering | .left | .returned | .freeingExited .. | .callingExit | .exitReturned _ => false
  | _ => true

/-- The contexts that live runs have on the chain. -/
def liveContexts (l : List Activation) : List CtxId :=
  (l.filter fun a => a.stage.onChain).map (·.context)

/-- A run that is on the chain adds its context. -/
theorem liveContexts_cons_of_onChain {a : Activation} (h : a.stage.onChain = true)
    (l : List Activation) : liveContexts (a :: l) = a.context :: liveContexts l := by
  simp [liveContexts, h]

theorem liveContexts_cons_of_not_onChain {a : Activation} (h : a.stage.onChain = false)
    (l : List Activation) : liveContexts (a :: l) = liveContexts l := by
  simp [liveContexts, h]

theorem liveContexts_append (l m : List Activation) :
    liveContexts (l ++ m) = liveContexts l ++ liveContexts m := by
  simp [liveContexts]

/-- The contexts `p` are linked from `fromContext` up to `toContext`. -/
def Detached (s : State) (fromContext toContext : Option CtxId) (p : List CtxId) : Prop :=
  Seg s.next fromContext p toContext ∧ ∀ k ∈ p, some k ≠ toContext

/-- A detached segment only depends on its links. -/
theorem Detached.congr {s s' : State} {fromContext toContext : Option CtxId} {p : List CtxId}
    (h : Detached s fromContext toContext p) (hnext : ∀ k ∈ p, s'.next k = s.next k) :
    Detached s' fromContext toContext p := ⟨h.1.congr hnext, h.2⟩

/-- The segment that ends where it starts is empty. -/
theorem Detached.eq_nil {s : State} {toContext : Option CtxId} {p : List CtxId}
    (h : Detached s toContext toContext p) : p = [] := by
  cases p with
  | nil => rfl
  | cons k p => exact absurd h.1.1.symm (h.2 k List.mem_cons_self)

/-- The run has the contexts `p` off the chain: its own, or those that it has taken
off and is about to free. -/
def Pending (s : State) (a : Activation) (p : List CtxId) : Prop :=
  match a.stage with
  | .entering => p = [a.context] ∧ (s.context a.context).flags = 0
  | .left | .returned => p = [a.context]
  | .freeingLeaked _ fromContext toContext => Detached s fromContext toContext p
  | .freeingExited fromContext toContext => Detached s fromContext toContext p
  | .freeingOrphans (some _) => False
  | _ => p = []

/-- What the runs `l` have off the chain. -/
inductive Holds (s : State) : List Activation → List CtxId → Prop
  | nil : Holds s [] []
  | cons {a : Activation} {l : List Activation} {p off : List CtxId} (h : Pending s a p)
      (hl : Holds s l off) : Holds s (a :: l) (p ++ off)

section

variable {s s' : State} {a : Activation} {l : List Activation} {p off : List CtxId}

/-- What a run has yet to free only depends on these contexts. -/
theorem Pending.congr (h : Pending s a p) (hcontext : ∀ k ∈ p, s'.context k = s.context k) :
    Pending s' a p := by
  have hnext : ∀ k ∈ p, s'.next k = s.next k := fun k hk => State.next_congr (hcontext k hk)
  unfold Pending at h ⊢
  split at h
  case h_1 =>
    obtain ⟨rfl, hflags⟩ := h
    exact ⟨rfl, by rwa [hcontext _ List.mem_cons_self]⟩
  case h_4 => exact h.congr hnext
  case h_5 => exact h.congr hnext
  all_goals exact h

theorem Holds.congr (h : Holds s l off) (hcontext : ∀ k ∈ off, s'.context k = s.context k) :
    Holds s' l off := by
  induction h with
  | nil => exact .nil
  | cons h _ ih =>
      exact .cons (h.congr fun k hk => hcontext k (List.mem_append_left _ hk))
        (ih fun k hk => hcontext k (List.mem_append_right _ hk))

/-- Frames that are dropped take what they hold with them. -/
theorem Holds.of_append {pre : List Activation} (h : Holds s (pre ++ l) off) :
    ∃ off₁ off₂, off = off₁ ++ off₂ ∧ Holds s l off₂ := by
  induction pre generalizing off with
  | nil => exact ⟨[], off, rfl, h⟩
  | cons b pre ih =>
      cases h with
      | @cons _ _ p _ _ hl =>
          obtain ⟨off₁, off₂, rfl, h₂⟩ := ih hl
          exact ⟨p ++ off₁, off₂, (List.append_assoc ..).symm, h₂⟩

end

/-! ## the books -/

/-- The books are in order for the runs `l`, innermost first: their contexts are on
the `chain` in this order, leaked ones in between, or among those that are `off` it and
not free yet. -/
structure Leaky (s : State) (l : List Activation) (chain off : List CtxId) : Prop where
  linked : Linked s chain
  live : (liveContexts l).Sublist chain
  holds : Holds s l off
  nodup : (off ++ chain).Nodup
  allocated : ∀ k ∈ off, k.index ∉ s.runContextAlloc k.cpu
  bounded : ∀ k ∈ off, k.index < RUN_CONTEXTS_LIMIT

/-- The run holds nothing off the chain, and its own context is on it. -/
def Stage.settled : Stage → Bool
  | .entering | .left | .returned | .freeingExited .. | .callingExit | .exitReturned _
  | .freeingLeaked .. | .freeingOrphans (some _) => false
  | _ => true

/-- Between entering and leaving, a run's context is on the chain. -/
theorem Stage.onChain_of_settled {stage : Stage} (h : stage.settled = true) :
    stage.onChain = true := by
  cases stage <;> first | rfl | cases h

theorem pending_of_settled {s : State} {a : Activation} {p : List CtxId}
    (h : a.stage.settled = true) : Pending s a p ↔ p = [] := by
  unfold Pending
  split <;> simp_all [Stage.settled]

namespace Leaky

variable {s s' : State} {a a' : Activation} {l : List Activation} {chain off : List CtxId}

/-- The innermost run is taken from the others. -/
theorem of_cons (h : Leaky s (a :: l) chain off) :
    ∃ p off', off = p ++ off' ∧ Pending s a p ∧ Leaky s l chain off' := by
  obtain ⟨hlinked, hlive, hholds, hnodup, hallocated, hbounded⟩ := h
  cases hholds with
  | @cons _ _ p off' hp hl =>
      refine ⟨p, off', rfl, hp, hlinked, ?_, hl, ?_,
        fun k hk => hallocated k (List.mem_append_right p hk),
        fun k hk => hbounded k (List.mem_append_right p hk)⟩
      · cases ha : a.stage.onChain with
        | true =>
            rw [liveContexts_cons_of_onChain ha] at hlive
            exact (List.sublist_cons_self ..).trans hlive
        | false => rwa [liveContexts_cons_of_not_onChain ha] at hlive
      · rw [List.append_assoc] at hnodup
        exact hnodup.of_append_right

/-- A run that is on the chain and holds nothing off it. -/
theorem settled (h : Leaky s (a :: l) chain off) (ha : a.stage.settled = true) :
    a.context ∈ chain ∧ Holds s l off := by
  obtain ⟨p, off', rfl, hp, hl⟩ := h.of_cons
  obtain rfl := (pending_of_settled ha).mp hp
  have hlive := h.live
  rw [liveContexts_cons_of_onChain (Stage.onChain_of_settled ha)] at hlive
  exact ⟨hlive.subset List.mem_cons_self, hl.holds⟩

/-- What is on the chain is held by nobody off it. -/
theorem not_mem_off (h : Leaky s l chain off) {k : CtxId} (hk : k ∈ chain) : k ∉ off :=
  fun hoff => List.disjoint_of_nodup_append h.nodup hoff hk

/-- The innermost run goes on, and stays on the chain. -/
theorem own (h : Leaky s (a :: l) chain off) (ho : OwnChange a.context s s')
    (hctx : a'.context = a.context) (ha : a.stage.settled = true) (ha' : a'.stage.settled = true)
    (hflags : (s'.context a.context).flags = 0 ∨
      (s'.context a.context).flags = CRC_HAVE_SAVED_UC_CONTEXT) :
    Leaky s' (a' :: l) chain off := by
  obtain ⟨hmem, hholds⟩ := h.settled ha
  have hlive := h.live
  rw [liveContexts_cons_of_onChain (Stage.onChain_of_settled ha)] at hlive
  refine ⟨ho.linked h.linked fun _ => hflags, ?_, ?_, h.nodup, ho.runContextAlloc ▸ h.allocated,
    h.bounded⟩
  · rwa [liveContexts_cons_of_onChain (Stage.onChain_of_settled ha'), hctx]
  · have hother : ∀ k ∈ off, s'.context k = s.context k := fun k hk =>
      ho.other k fun heq => h.not_mem_off hmem (heq ▸ hk)
    exact .cons ((pending_of_settled ha').mpr rfl) (hholds.congr hother)

/-- Nothing in the books has changed. -/
theorem sameBooks (h : Leaky s l chain off) (hs : SameBooks s s') : Leaky s' l chain off := by
  refine ⟨?_, h.live, h.holds.congr fun k _ => by rw [hs.context], h.nodup,
    hs.runContextAlloc ▸ h.allocated, h.bounded⟩
  refine h.linked.congr hs.mTopContext (fun k _ => State.next_congr (by rw [hs.context]))
    (fun k hk => ?_) hs.contexts hs.runContextAlloc hs.asserts
  rw [hs.context]
  exact h.linked.flags k hk

/-- The innermost run goes on to a stage at which it holds the same. -/
theorem stage (h : Leaky s (a :: l) chain off)
    (honChain : a'.stage.onChain = true → a.stage.onChain = true ∧ a'.context = a.context)
    (hpending : ∀ p, Pending s a p → Pending s a' p) : Leaky s (a' :: l) chain off := by
  obtain ⟨p, off', rfl, hp, hl⟩ := h.of_cons
  refine ⟨h.linked, ?_, .cons (hpending p hp) hl.holds, h.nodup, h.allocated, h.bounded⟩
  cases ha' : a'.stage.onChain with
  | true =>
      obtain ⟨ha, hctx⟩ := honChain ha'
      have hlive := h.live
      rwa [liveContexts_cons_of_onChain ha'.symm.symm, hctx, ← liveContexts_cons_of_onChain ha]
  | false =>
      rw [liveContexts_cons_of_not_onChain ha']
      exact hl.live

/-- Runs have been jumped over, and what they held is forgotten. -/
theorem of_append {pre : List Activation} (h : Leaky s (pre ++ l) chain off) :
    ∃ off', Leaky s l chain off' := by
  obtain ⟨off₁, off', rfl, hl⟩ := h.holds.of_append
  have hlive := h.live
  rw [liveContexts_append] at hlive
  have hnodup := h.nodup
  rw [List.append_assoc] at hnodup
  exact ⟨off', h.linked, (List.sublist_append_right ..).trans hlive, hl, hnodup.of_append_right,
    fun k hk => h.allocated k (List.mem_append_right _ hk),
    fun k hk => h.bounded k (List.mem_append_right _ hk)⟩

variable (a') in
/-- The innermost run goes on to a stage at which it is on the chain and holds nothing,
whatever it has held. -/
theorem forget (h : Leaky s (a :: l) chain off) (hctx : a'.context = a.context)
    (ha : a.stage.onChain = true) (ha' : a'.stage.settled = true) :
    ∃ off', Leaky s (a' :: l) chain off' := by
  obtain ⟨p, off', rfl, -, hl⟩ := h.of_cons
  have hlive := h.live
  rw [liveContexts_cons_of_onChain ha] at hlive
  refine ⟨off', h.linked, ?_, .cons ((pending_of_settled ha').mpr rfl) hl.holds, hl.nodup,
    hl.allocated, hl.bounded⟩
  rwa [liveContexts_cons_of_onChain (Stage.onChain_of_settled ha'), hctx]

variable (a') in
/-- `CpuEnterCritical`. -/
theorem enter (h : Leaky s (a :: l) chain off) (ha : a.stage = .entering)
    (ha' : a'.stage = .entered) (hctx : a'.context = a.context) :
    ∃ off', Leaky (cpuEnterCritical a.context s) (a' :: l) (a.context :: chain) off' := by
  obtain ⟨p, off', rfl, hp, hl⟩ := h.of_cons
  simp only [Pending, ha] at hp
  obtain ⟨rfl, hflags⟩ := hp
  have hnodup := List.nodup_cons.mp h.nodup
  have hnot : a.context ∉ chain := fun hmem => hnodup.1 (List.mem_append_right _ hmem)
  have hfresh : Fresh s chain a.context :=
    ⟨hnot, h.bounded _ List.mem_cons_self, h.allocated _ List.mem_cons_self, hflags⟩
  refine ⟨off', linked_cpuEnterCritical h.linked hfresh, ?_, ?_, ?_, hl.allocated, hl.bounded⟩
  · rw [liveContexts_cons_of_onChain (by rw [ha']; rfl), hctx]
    exact hl.live.cons_cons _
  · have hother : ∀ k ∈ off', (cpuEnterCritical a.context s).context k = s.context k := by
      intro k hk
      have hne : k ≠ a.context := by
        rintro rfl
        exact hnodup.1 (List.mem_append_left _ hk)
      exact Function.update_of_ne hne ..
    exact .cons ((pending_of_settled (by rw [ha']; rfl)).mpr rfl) (hl.holds.congr hother)
  · exact List.nodup_middle.mpr h.nodup

variable (a') in
/-- `CpuLeaveCritical` finds the context of the run on top. -/
theorem leave (h : Leaky s (a :: l) chain off) (ha : a.stage = .leaving) (ha' : a'.stage = .left)
    (hctx : a'.context = a.context) (htop : s.mTopContext = some a.context) :
    ∃ chain', Leaky (cpuLeaveCritical a.context s) (a' :: l) chain' (a.context :: off) := by
  obtain ⟨hmem, hholds⟩ := h.settled (by rw [ha]; rfl)
  obtain ⟨k, chain', rfl⟩ : ∃ k chain', chain = k :: chain' :=
    List.exists_cons_of_ne_nil (List.ne_nil_of_mem hmem)
  obtain rfl : k = a.context := Option.some.inj (h.linked.seg.1.symm.trans htop)
  obtain ⟨hlinked, hcontext, hpool⟩ := h.linked.leave
  have hlive := h.live
  rw [liveContexts_cons_of_onChain (by rw [ha]; rfl)] at hlive
  have hnodup := List.nodup_middle.mp h.nodup
  refine ⟨chain', hlinked, ?_, ?_, hnodup, fun j hj => ?_, fun j hj => ?_⟩
  · rw [liveContexts_cons_of_not_onChain (by rw [ha']; rfl)]
    exact List.cons_sublist_cons.mp hlive
  · have hp : Pending (cpuLeaveCritical a.context s) a' [a.context] := by
      simp only [Pending, ha', hctx]
    exact .cons hp (hholds.congr fun k _ => by rw [hcontext])
  · rw [hpool]
    rcases List.mem_cons.mp hj with rfl | hj
    · exact fun hfree => (h.linked.pool_free _ hfree).2 List.mem_cons_self
    · exact h.allocated j hj
  · rcases List.mem_cons.mp hj with rfl | hj
    · exact h.linked.bounded _ List.mem_cons_self
    · exact h.bounded j hj

/-- A context that is held off the chain is freed. -/
theorem free {k : CtxId} (h : Leaky s l chain off) (hk : k ∉ chain) (hoff : k ∉ off)
    (hlt : k.index < RUN_CONTEXTS_LIMIT) (hpool : k.index ∉ s.runContextAlloc k.cpu) :
    Leaky (cpuFreeContext k s) l chain off := by
  refine ⟨h.linked.free hk hlt hpool, h.live, h.holds.congr fun j _ => ?_, h.nodup,
    fun j hj hfree => ?_, h.bounded⟩
  · rw [context_cpuFreeContext]
  · rcases mem_runContextAlloc_cpuFreeContext.mp hfree with hfree | rfl
    · exact h.allocated j hj hfree
    · exact hoff hj

/-- `CpuFreeContext` of a run that returns. -/
theorem pop (h : Leaky s (a :: l) chain off) (ha : a.stage = .returned) :
    ∃ off', Leaky (cpuFreeContext a.context s) l chain off' := by
  obtain ⟨p, off', rfl, hp, hl⟩ := h.of_cons
  simp only [Pending, ha] at hp
  obtain rfl := hp
  have hnot := (List.nodup_cons.mp h.nodup).1
  exact ⟨off', hl.free (fun hmem => hnot (List.mem_append_right _ hmem))
    (fun hmem => hnot (List.mem_append_left _ hmem)) (h.bounded _ List.mem_cons_self)
    (h.allocated _ List.mem_cons_self)⟩

variable (a') in
/-- The next of the contexts that the innermost run has taken off the chain is freed. -/
theorem freeNext {k : CtxId} {toContext : Option CtxId} (h : Leaky s (a :: l) chain off)
    (hne : some k ≠ toContext)
    (hp : ∀ p, Pending s a p → Detached s (some k) toContext p)
    (hp' : ∀ p, Detached (cpuFreeContext k s) (s.next k) toContext p →
      Pending (cpuFreeContext k s) a' p)
    (honChain : a'.stage.onChain = true → a.stage.onChain = true ∧ a'.context = a.context) :
    ∃ off', Leaky (cpuFreeContext k s) (a' :: l) chain off' := by
  obtain ⟨p, off', rfl, hpending, hl⟩ := h.of_cons
  obtain ⟨hseg, hstop⟩ := hp p hpending
  cases p with
  | nil => exact absurd hseg hne
  | cons j p =>
      obtain ⟨hjk, hseg⟩ := hseg
      obtain rfl : k = j := Option.some.inj hjk
      have hnodup := h.nodup
      rw [List.cons_append, List.cons_append, List.nodup_cons] at hnodup
      obtain ⟨hnot, hnodup⟩ := hnodup
      simp only [List.mem_append, not_or] at hnot
      obtain ⟨⟨hkp, hkoff⟩, hkchain⟩ := hnot
      have hfree := hl.free hkchain hkoff (h.bounded k List.mem_cons_self)
        (h.allocated k List.mem_cons_self)
      have hdetached : Detached s (s.next k) toContext p :=
        ⟨hseg, fun i hi => hstop i (List.mem_cons_of_mem _ hi)⟩
      have hpending' : Pending (cpuFreeContext k s) a' p :=
        hp' p (hdetached.congr fun j _ => congrFun (next_freeNextContext k s) j)
      refine ⟨p ++ off', hfree.linked, ?_, .cons hpending' hfree.holds, hnodup,
        fun i hi hpool => ?_, fun i hi => h.bounded i (List.mem_cons_of_mem _ hi)⟩
      · cases ha' : a'.stage.onChain with
        | true =>
            obtain ⟨ha, hctx⟩ := honChain ha'
            have hlive := h.live
            rwa [liveContexts_cons_of_onChain ha', hctx, ← liveContexts_cons_of_onChain ha]
        | false =>
            rw [liveContexts_cons_of_not_onChain ha']
            exact hl.live
      · rcases mem_runContextAlloc_cpuFreeContext.mp hpool with hpool | rfl
        · exact h.allocated i (List.mem_cons_of_mem _ hi) hpool
        · rcases List.mem_append.mp hi with hi | hi
          · exact hkp hi
          · exact hkoff hi

variable (a') in
/-- The first part of `CpuCompressLeakedContexts` takes what is above `toContext` off
the chain. -/
theorem compress {pre post : List CtxId} (h : Leaky s (a :: l) (pre ++ post) off)
    (ha : a.stage.settled = true) (hlive : (liveContexts (a' :: l)).Sublist post)
    (hp : ∀ t : State, Detached t s.mTopContext (ptr post none) pre → Pending t a' pre) :
    ∃ t, Machine.compressSection (ptr post none) s = some t ∧
      Leaky t (a' :: l) post (pre ++ off) := by
  obtain ⟨-, hholds⟩ := h.settled ha
  obtain ⟨s₁, asserts, hwalk, hend, -, hsame⟩ := walk_popLeakedContext_eq h.linked.threaded
  rw [hsame h.linked.countOn_le] at hend
  have hwalk' : walk popLeakedContext (ptr post none) chainFuel s.criticalBegin.mTopContext
      { s.criticalBegin with mTopContext := ptr post none } = some s₁ := hwalk
  have hcompress : Machine.compressSection (ptr post none) s = some s₁.criticalEnd := by
    simp only [Machine.compressSection, hwalk', Option.bind_eq_bind, Option.bind_some]
  have hpopped := h.linked.of_append
  have hfree : ∀ k : CtxId, k.index ∈ s.runContextAlloc k.cpu → k ∉ pre ++ post := fun k hk =>
    (h.linked.pool_free k hk).2
  refine ⟨s₁.criticalEnd, hcompress, ?_⟩
  rw [hend]
  have hnext (runContextAlloc : CpuId → List Nat) (failedAsserts : List Assertion) :
      State.next { s.popped pre (ptr post none) with
        runContextAlloc := runContextAlloc
        failedAsserts := failedAsserts } = s.next := by
    funext k
    exact prevContext_clearFlags ..
  refine ⟨⟨hpopped.seg, hpopped.counted, h.linked.pool_nodup, fun k hk => ?_, hpopped.bounded,
    hpopped.flags, h.linked.asserts⟩, hlive,
      .cons (hp _ ⟨?_, h.linked.threaded.ne_ptr⟩) (hholds.congr fun k hk => ?_), ?_,
      fun k hk => ?_, fun k hk => ?_⟩
  · exact ⟨(h.linked.pool_free k hk).1, fun hmem => hfree k hk (List.mem_append_right _ hmem)⟩
  · obtain ⟨htop, hseg, -⟩ := h.linked.threaded.seg_append
    rw [hnext, htop]
    exact hseg
  · have hnot : k ∉ pre := fun hmem =>
      List.disjoint_of_nodup_append h.nodup hk (List.mem_append_left _ hmem)
    exact clearFlags_of_not_mem hnot _
  · have hperm : (pre ++ off ++ post).Perm (off ++ (pre ++ post)) := by
      rw [← List.append_assoc]
      exact List.perm_append_comm.append_right post
    exact hperm.nodup_iff.mpr h.nodup
  · rcases List.mem_append.mp hk with hk | hk
    · exact fun hpool => hfree k hpool (List.mem_append_left _ hk)
    · exact h.allocated k hk
  · rcases List.mem_append.mp hk with hk | hk
    · exact h.linked.bounded k (List.mem_append_left _ hk)
    · exact h.bounded k hk

/-- A new run has taken its context from the pool, and filled it in. -/
theorem push {s₁ : State} {cpu : CpuId} (h : Leaky s l chain off)
    (halloc : cpuAllocContext cpu s = some (a.context, s₁)) (ho : OwnChange a.context s₁ s')
    (hflags : (s'.context a.context).flags = (s₁.context a.context).flags)
    (ha : a.stage = .entering) : Leaky s' (a :: l) chain (a.context :: off) := by
  obtain ⟨hlinked, hfresh⟩ := linked_cpuAllocContext h.linked halloc
  obtain ⟨hcpu, rest, hpool, hs₁⟩ := cpuAllocContext_eq_some halloc
  have hhead : a.context.index ∈ s.runContextAlloc a.context.cpu := by
    rw [hcpu, hpool]
    exact List.mem_cons_self
  have hoff : a.context ∉ off := fun hmem => h.allocated _ hmem hhead
  have hother : ∀ k ∈ off, s'.context k = s.context k := by
    intro k hk
    have hne : k ≠ a.context := ne_of_mem_of_not_mem hk hoff
    rw [ho.other k hne, hs₁]
    exact Function.update_of_ne hne ..
  have hp : Pending s' a [a.context] := by
    simp only [Pending, ha]
    exact ⟨trivial, hflags.trans hfresh.flags⟩
  refine ⟨ho.linked hlinked fun hmem => absurd hmem hfresh.not_mem, ?_,
    .cons hp (h.holds.congr hother), ?_, fun k hk => ?_, fun k hk => ?_⟩
  · rw [liveContexts_cons_of_not_onChain (by rw [ha]; rfl)]
    exact h.live
  · refine List.nodup_cons.mpr ⟨fun hmem => ?_, h.nodup⟩
    rcases List.mem_append.mp hmem with hmem | hmem
    · exact hoff hmem
    · exact hfresh.not_mem hmem
  · rw [ho.runContextAlloc]
    rcases List.mem_cons.mp hk with rfl | hk
    · exact hfresh.allocated
    · exact fun hfree => h.allocated k hk (mem_of_cpuAllocContext halloc hfree)
  · rcases List.mem_cons.mp hk with rfl | hk
    · exact hfresh.bounded
    · exact h.bounded k hk

end Leaky

/-! ## one step -/

/-- The books of the machine are in order, whatever has been leaked. -/
def Leaks (m : Machine) : Prop := ∃ chain off, Leaky m.emu (activations m.stack) chain off

section

variable {cfg : Config} {m m' : Machine} {a a' : Activation} {l : List Activation}
  {rest : List Frame} {chain off : List CtxId}

/-- A context on the chain has saved registers, or no flag at all. -/
theorem flags_of_settled {s : State} (h : Leaky s (a :: l) chain off)
    (ha : a.stage.settled = true) :
    (s.context a.context).flags = 0 ∨ (s.context a.context).flags = CRC_HAVE_SAVED_UC_CONTEXT :=
  h.linked.flags _ (h.settled ha).1

/-- The innermost run goes on to `a'`, and changes its context at most. -/
theorem leaks_of_own (h : Leaky m.emu (a :: l) chain off) (hl : activations m'.stack = a' :: l)
    (ho : OwnChange a.context m.emu m'.emu) (hctx : a'.context = a.context)
    (ha : a.stage.settled = true) (ha' : a'.stage.settled = true)
    (hflags : (m'.emu.context a.context).flags = 0 ∨
      (m'.emu.context a.context).flags = CRC_HAVE_SAVED_UC_CONTEXT) : Leaks m' :=
  ⟨chain, off, hl ▸ h.own ho hctx ha ha' hflags⟩

/-- The innermost run goes on to `a'`, and changes nothing in the books. -/
theorem leaks_of_use (h : Leaky m.emu (a :: l) chain off) (hl : activations m'.stack = a' :: l)
    (hsame : SameBooks m.emu m'.emu) (hctx : a'.context = a.context)
    (ha : a.stage.settled = true) (ha' : a'.stage.settled = true) : Leaks m' := by
  refine leaks_of_own h hl (.of_sameBooks hsame _) hctx ha ha' ?_
  rw [hsame.context]
  exact flags_of_settled h ha

/-- The innermost run goes on to `stage`, and modifies its context. -/
theorem leaks_of_modify (h : Leaky m.emu (a :: activations rest) chain off)
    (ha : a.stage.settled = true) {f : CpuRunContext → CpuRunContext} {stage : Stage}
    (hlink : ∀ c, (f c).prevContext = c.prevContext)
    (hflags : ∀ c : CpuRunContext, c.flags = 0 ∨ c.flags = CRC_HAVE_SAVED_UC_CONTEXT →
      (f c).flags = 0 ∨ (f c).flags = CRC_HAVE_SAVED_UC_CONTEXT)
    (hstage : stage.settled = true) :
    Leaks (m.goto a rest stage (m.emu.modifyContext a.context f)) := by
  refine leaks_of_own h rfl ?_ rfl ha hstage ?_
  · exact .modifyContext _ hlink _
  · have hself : (m.emu.modifyContext a.context f).context a.context =
        f (m.emu.context a.context) := by simp [State.modifyContext]
    rw [Machine.goto, hself]
    exact hflags _ (flags_of_settled h ha)

/-- Other code goes on, is called or returns. -/
theorem leaks_of_still (h : Leaky m.emu (activations m.stack) chain off)
    (hl : activations m'.stack = activations m.stack) (hsame : SameBooks m.emu m'.emu) :
    Leaks m' :=
  ⟨chain, off, hl ▸ h.sameBooks hsame⟩

/-- A statement of a thunk works on the engine and memory only. -/
theorem leaks_execStatement (h : Leaky m.emu (a :: activations rest) chain off)
    {stage : UINT64 → Stage} {rsp : UINT64} {st : Statement} (ha : a.stage.settled = true)
    (hstage : ∀ rsp, (stage rsp).settled = true)
    (hstep : m.execStatement a rest stage rsp st = some m') : Leaks m' := by
  simp only [Machine.execStatement] at hstep
  split at hstep
  · cases hstep
  · obtain rfl := Option.some.inj hstep
    exact leaks_of_use h rfl (.setEngines _ _ _) rfl ha (hstage _)

theorem leaks_callNative (h : Leaky m.emu (a :: activations rest) chain off)
    (ha : a.stage.settled = true) {s : State} (hsame : SameBooks m.emu s)
    (programCounter : UINT64) : Leaks (m.callNative cfg a rest programCounter s) := by
  simp only [Machine.callNative]
  split <;> exact leaks_of_use h rfl (hsame.trans (.setEngines _ _ _)) rfl ha rfl

/-- After an emulation the run goes on, ends or calls native code, with the same books. -/
theorem leaks_reason (h : Leaky m.emu (a :: activations rest) chain off)
    (ha : a.stage.settled = true) (ucErr : UcErr) : Leaks (m.reason cfg a rest ucErr) := by
  have hsame : SameBooks m.emu (m.emu.assert .programCounterNotNull (ucErr = .ok →
      m.emu.ue a.context.cpu a.context.cpu.programCounterReg ≠ 0)) := .assert _ rfl (by decide) _
  simp only [Machine.reason]
  split
  · exact leaks_of_use h rfl hsame rfl ha rfl
  · exact leaks_callNative h ha hsame _
  · exact leaks_of_use h rfl hsame rfl ha rfl
  · exact leaks_of_use h rfl hsame rfl ha rfl

/-- `CpuExitImage` searches the chain and leaves it as it is. -/
theorem leaks_exitImage (h : Leaky m.emu (a :: activations rest) chain off) {args : Args}
    (ha : a.stage.settled = true) (hstep : m.exitImage a rest args = some m') : Leaks m' := by
  simp only [Machine.exitImage] at hstep
  split at hstep
  · obtain rfl := Option.some.inj hstep
    exact leaks_of_use h rfl (.refl _) rfl ha rfl
  · rename_i record _
    obtain ⟨context, -, hstep⟩ := Option.bind_eq_some_iff.mp hstep
    have hquiet : Quiet m.emu
        ((m.emu.criticalBegin.assert .imageContext (context ≠ none)).criticalEnd) :=
      imageSection_quiet context m.emu
    split at hstep
    · obtain rfl := Option.some.inj hstep
      exact leaks_of_use h rfl hquiet.toSameBooks rfl ha rfl
    · split at hstep
      · obtain rfl := Option.some.inj hstep
        exact leaks_of_use h rfl hquiet.toSameBooks rfl ha rfl
      · obtain rfl := Option.some.inj hstep
        exact leaks_of_use h rfl
          (hquiet.toSameBooks.trans (SameBooks.setImageExit _ record args)) rfl ha rfl

/-- Where the innermost run is on the chain, the older ones are below it. -/
theorem live_below (h : Leaky m.emu (a :: l) chain off) (ha : a.stage.settled = true) :
    ∃ pre post, chain = pre ++ a.context :: post ∧ (liveContexts l).Sublist post := by
  obtain ⟨pre, post, rfl⟩ := List.append_of_mem (h.settled ha).1
  have hlive := h.live
  rw [liveContexts_cons_of_onChain (Stage.onChain_of_settled ha)] at hlive
  have hnot : a.context ∉ pre := fun hmem =>
    List.disjoint_of_nodup_append h.linked.nodup hmem List.mem_cons_self
  exact ⟨pre, post, rfl, sublist_of_cons_sublist hlive hnot⟩

/-- What is above the innermost run on the chain is taken off it, if there is anything. -/
theorem leaks_checking (h : Leaky m.emu (a :: activations rest) chain off) {value : UINT64}
    (ha : a.stage = .checking value) (hstep : m.advance cfg a rest = some m') : Leaks m' := by
  have hsettled : a.stage.settled = true := by rw [ha]; rfl
  simp only [Machine.advance, ha] at hstep
  split at hstep
  · obtain ⟨s', hcompress, hstep⟩ := Option.bind_eq_some_iff.mp hstep
    obtain rfl := Option.some.inj hstep
    obtain ⟨pre, post, rfl, hbelow⟩ := live_below h hsettled
    let b : Activation := { a with
      stage := .freeingLeaked value m.emu.mTopContext (some a.context)
      sp := s'.ue a.context.cpu a.context.cpu.stackReg }
    have hlive : (liveContexts (b :: activations rest)).Sublist (a.context :: post) :=
      hbelow.cons_cons a.context
    obtain ⟨t, ht, hleaky⟩ := h.compress b hsettled hlive fun t ht => ht
    obtain rfl := Option.some.inj (hcompress.symm.trans ht)
    exact ⟨_, _, hleaky⟩
  · obtain rfl := Option.some.inj hstep
    exact leaks_of_use h rfl (.refl _) rfl hsettled rfl

/-- `CpuRunImage` takes the image's own context off the chain, too. -/
theorem leaks_imageExited (h : Leaky m.emu (a :: activations rest) chain off)
    (ha : a.stage = .imageExited) (hstep : m.advance cfg a rest = some m') : Leaks m' := by
  have hsettled : a.stage.settled = true := by rw [ha]; rfl
  simp only [Machine.advance, ha] at hstep
  obtain ⟨s', hcompress, hstep⟩ := Option.bind_eq_some_iff.mp hstep
  obtain rfl := Option.some.inj hstep
  obtain ⟨pre, post, rfl, hbelow⟩ := live_below h hsettled
  have hnext : m.emu.next a.context = ptr post none := h.linked.seg.next_of_mem
  rw [List.append_cons] at h
  let b : Activation := { a with
    stage := .freeingExited m.emu.mTopContext (m.emu.next a.context)
    sp := s'.ue a.context.cpu a.context.cpu.stackReg }
  obtain ⟨t, ht, hleaky⟩ := h.compress b hsettled hbelow fun t ht => by
    rw [← hnext] at ht
    exact ht
  rw [hnext] at hcompress
  obtain rfl := Option.some.inj (hcompress.symm.trans ht)
  exact ⟨_, _, hleaky⟩

/-- The next leaked context is freed, or there is none left. -/
theorem leaks_freeingLeaked (h : Leaky m.emu (a :: activations rest) chain off) {value : UINT64}
    {fromContext toContext : Option CtxId}
    (ha : a.stage = .freeingLeaked value fromContext toContext)
    (hstep : m.advance cfg a rest = some m') : Leaks m' := by
  simp only [Machine.advance, ha] at hstep
  split at hstep
  · rename_i heq
    obtain rfl := Option.some.inj hstep
    refine ⟨chain, off, h.stage (fun _ => ⟨by rw [ha]; rfl, rfl⟩) fun p hp => ?_⟩
    simp only [Pending, ha, heq] at hp
    exact hp.eq_nil
  · rename_i hne
    obtain ⟨k, rfl, hstep⟩ := Option.bind_eq_some_iff.mp hstep
    obtain rfl := Option.some.inj hstep
    let b : Activation := { a with
      stage := .freeingLeaked value (m.emu.next k) toContext
      sp := (cpuFreeContext k m.emu).ue a.context.cpu a.context.cpu.stackReg }
    obtain ⟨off', hleaky⟩ := h.freeNext b hne
      (fun p hp => by simpa only [Pending, ha] using hp) (fun p hp => hp)
      fun _ => ⟨by rw [ha]; rfl, rfl⟩
    exact ⟨chain, off', hleaky⟩

/-- The same in `CpuRunImage`, which then calls the native `gBS->Exit`. -/
theorem leaks_freeingExited (h : Leaky m.emu (a :: activations rest) chain off)
    {fromContext toContext : Option CtxId} (ha : a.stage = .freeingExited fromContext toContext)
    (hstep : m.advance cfg a rest = some m') : Leaks m' := by
  simp only [Machine.advance, ha] at hstep
  split at hstep
  · rename_i heq
    obtain rfl := Option.some.inj hstep
    let b : Activation := { a with
      stage := .callingExit
      sp := m.emu.ue a.context.cpu a.context.cpu.stackReg }
    have hleaky : Leaky m.emu (b :: activations rest) chain off := by
      refine h.stage (fun hb => by cases hb) fun p hp => ?_
      simp only [Pending, ha, heq] at hp
      exact hp.eq_nil
    exact ⟨chain, off, hleaky⟩
  · rename_i hne
    obtain ⟨k, rfl, hstep⟩ := Option.bind_eq_some_iff.mp hstep
    obtain rfl := Option.some.inj hstep
    let b : Activation := { a with
      stage := .freeingExited (m.emu.next k) toContext
      sp := (cpuFreeContext k m.emu).ue a.context.cpu a.context.cpu.stackReg }
    obtain ⟨off', hleaky⟩ := h.freeNext b hne
      (fun p hp => by simpa only [Pending, ha] using hp) (fun p hp => hp) fun hb => by cases hb
    exact ⟨chain, off', hleaky⟩

/-- `CpuLeaveCritical` has failed its assertion unless its context is on top. -/
theorem top_of_leave {k : CtxId} {s : State}
    (h : ∀ x ∈ (cpuLeaveCritical k s).failedAsserts, x.isAccounting = false) :
    s.mTopContext = some k := by
  by_contra hne
  have hfailed : .topContext ∈ (s.criticalBegin.assert .topContext
      (s.criticalBegin.mTopContext = some k)).failedAsserts := by
    have hne' : ¬s.criticalBegin.mTopContext = some k := hne
    rw [State.assert, if_neg hne']
    exact List.mem_cons_self
  have hkept : .topContext ∈ (cpuLeaveCritical k s).failedAsserts := by
    simp only [cpuLeaveCritical, State.countDown, State.assert_eq] at hfailed ⊢
    split
    · exact hfailed
    · exact List.mem_cons_of_mem _ hfailed
  exact absurd (h _ hkept) (by decide)

/-- No assertion about the chain, the counters and the pools has failed. -/
def AssertsHold (cfg : Config) (m : Machine) (action : Action) : Prop :=
  ∀ m', step cfg m action = some m' → ∀ x ∈ m'.emu.failedAsserts, x.isAccounting = false

/-- When an image exits, the context of the `CpuRunImage` to which the long jump leads is on
the chain. -/
def ExitsOnChain (m : Machine) (action : Action) : Prop :=
  action = .advance → ∀ a rest record id caller below, m.stack = .run a :: rest →
    a.stage = .longJumping record →
      (m.emu.images.record record).imageExitJumpBuffer = some id →
        unwindToRun id m.stack = some (caller, below) → caller.stage.onChain = true

/-- The long jump of an exiting image leaks what is above the `CpuRunImage` that it leads to. -/
theorem leaks_longJumping (hs : m.stack = .run a :: rest)
    (h : Leaky m.emu (activations m.stack) chain off) (hexits : ExitsOnChain m .advance)
    {record : RecordId} (ha : a.stage = .longJumping record)
    (hstep : m.advance cfg a rest = some m') : Leaks m' := by
  simp only [Machine.advance, ha] at hstep
  obtain ⟨id, hid, hstep⟩ := Option.bind_eq_some_iff.mp hstep
  obtain ⟨⟨caller, below⟩, hunwind, hstep⟩ := Option.bind_eq_some_iff.mp hstep
  obtain rfl := Option.some.inj hstep
  obtain ⟨pre, hpre⟩ := append_of_unwindToRun hunwind
  rw [hpre, activations_append, activations_run] at h
  obtain ⟨off₁, hcaller⟩ := h.of_append
  let b : Activation := { caller with
    stage := .imageExited
    sp := m.emu.ue caller.context.cpu caller.context.cpu.stackReg }
  obtain ⟨off₂, h'⟩ := hcaller.forget b rfl
    (hexits rfl a rest record id caller below hs ha hid hunwind) rfl
  exact ⟨_, _, h'⟩

/-- A run that leaves is on top of the chain, as `CpuLeaveCritical` asserts. -/
theorem leaks_leaving (hs : m.stack = .run a :: rest)
    (h : Leaky m.emu (a :: activations rest) chain off) (hasserts : AssertsHold cfg m .advance)
    (ha : a.stage = .leaving) (hstep : m.advance cfg a rest = some m') : Leaks m' := by
  have hfull : step cfg m .advance = some m' := by
    simp only [step, hs]
    exact hstep
  simp only [Machine.advance, ha] at hstep
  obtain rfl := Option.some.inj hstep
  have htop : m.emu.mTopContext = some a.context := top_of_leave (hasserts _ hfull)
  let b : Activation := { a with
    stage := .left
    sp := (cpuLeaveCritical a.context m.emu).ue a.context.cpu a.context.cpu.stackReg }
  obtain ⟨chain', h'⟩ := h.leave b ha rfl rfl htop
  exact ⟨_, _, h'⟩

/-- The section of `CpuLeaveCritical` ends; the context is still to be freed. -/
theorem leaks_left (h : Leaky m.emu (a :: activations rest) chain off) (ha : a.stage = .left)
    (hstep : m.advance cfg a rest = some m') : Leaks m' := by
  simp only [Machine.advance, ha] at hstep
  obtain rfl := Option.some.inj hstep
  have h' : Leaky m.emu.criticalEnd ({ a with
      stage := .returned
      sp := m.emu.criticalEnd.ue a.context.cpu a.context.cpu.stackReg } :: activations rest)
      chain off := by
    refine (h.sameBooks (.criticalEnd _)).stage (fun hb => by cases hb) fun p hp => ?_
    simpa only [Pending, ha] using hp
  exact ⟨_, _, h'⟩

/-- `CRC_HAVE_SAVED_UC_CONTEXT` is set or cleared. -/
theorem leaks_of_flag (h : Leaky m.emu (a :: activations rest) chain off)
    (ha : a.stage.settled = true) (flag : UINT64 → UINT64) {stage : Stage}
    (hflag : ∀ x, x = 0 ∨ x = CRC_HAVE_SAVED_UC_CONTEXT →
      flag x = 0 ∨ flag x = CRC_HAVE_SAVED_UC_CONTEXT) (hstage : stage.settled = true) :
    Leaks (m.goto a rest stage
      (m.emu.modifyContext a.context fun c => { c with flags := flag c.flags })) := by
  refine leaks_of_modify h ha ?_ ?_ hstage
  · exact fun _ => rfl
  · exact fun c hc => hflag c.flags hc

/-- One statement of the innermost run. -/
theorem leaks_advance (horphans : cfg.checkOrphanContexts = false) (hs : m.stack = .run a :: rest)
    (h : Leaks m) (hasserts : AssertsHold cfg m .advance) (hexits : ExitsOnChain m .advance)
    (hstep : m.advance cfg a rest = some m') : Leaks m' := by
  obtain ⟨chain, off, hleaky⟩ := h
  have hall : Leaky m.emu (a :: activations rest) chain off := by rwa [hs] at hleaky
  have hfull := hstep
  cases hstage : a.stage <;> simp only [Machine.advance, hstage] at hstep
  case emulating | calling | callingExit => cases hstep
  case entering =>
    obtain rfl := Option.some.inj hstep
    let b : Activation := { a with
      stage := .entered
      sp := (cpuEnterCritical a.context m.emu).ue a.context.cpu a.context.cpu.stackReg }
    obtain ⟨off', h'⟩ := hall.enter b hstage rfl rfl
    exact ⟨_, _, h'⟩
  case entered =>
    rw [horphans] at hstep
    obtain rfl := Option.some.inj hstep
    exact leaks_of_use hall rfl (.criticalEnd _) rfl (by rw [hstage]; rfl) rfl
  case freeingOrphans orphan =>
    cases orphan with
    | none =>
        obtain rfl := Option.some.inj hstep
        exact leaks_of_use hall rfl (.refl _) rfl (by rw [hstage]; rfl) rfl
    | some j =>
        obtain ⟨p, off', -, hp, -⟩ := hall.of_cons
        simp only [Pending, hstage] at hp
  case deciding =>
    obtain rfl := Option.some.inj hstep
    refine leaks_of_use hall rfl (.refl _) rfl (by rw [hstage]; rfl) ?_
    show (if m.emu.contexts a.context.cpu > 1 then Stage.saving else .initializing).settled = true
    split <;> rfl
  case exitingImage args => exact leaks_exitImage hall (by rw [hstage]; rfl) hstep
  case longJumping record => exact leaks_longJumping hs hleaky hexits hstage hfull
  case checking value => exact leaks_checking hall hstage hfull
  case imageExited => exact leaks_imageExited hall hstage hfull
  case freeingLeaked => exact leaks_freeingLeaked hall hstage hfull
  case freeingExited => exact leaks_freeingExited hall hstage hfull
  case saving =>
    obtain rfl := Option.some.inj hstep
    refine leaks_of_modify hall (by rw [hstage]; rfl) ?_ ?_ ?_
    · exact fun _ => rfl
    · exact fun _ h => h
    · rfl
  case flagging =>
    obtain rfl := Option.some.inj hstep
    refine leaks_of_flag hall (by rw [hstage]; rfl) (· ||| CRC_HAVE_SAVED_UC_CONTEXT)
      (fun x hx => ?_) ?_
    · rcases hx with hzero | hset
      · simp [hzero]
      · simp [hset]
    · rfl
  case initializing =>
    obtain rfl := Option.some.inj hstep
    exact leaks_of_use hall rfl (.setEngines _ _ _) rfl (by rw [hstage]; rfl) rfl
  case settingUp rsp stmts =>
    cases stmts with
    | nil =>
        obtain rfl := Option.some.inj hstep
        exact leaks_of_use hall rfl (.refl _) rfl (by rw [hstage]; rfl) rfl
    | cons st stmts =>
        exact leaks_execStatement hall (by rw [hstage]; rfl) (fun _ => rfl) hstep
  case looping =>
    obtain rfl := Option.some.inj hstep
    exact leaks_of_use hall rfl (.criticalBegin _) rfl (by rw [hstage]; rfl) rfl
  case locked =>
    obtain rfl := Option.some.inj hstep
    exact leaks_of_use hall rfl (.refl _) rfl (by rw [hstage]; rfl) rfl
  case stopped ucErr =>
    obtain rfl := Option.some.inj hstep
    have hsame : SameBooks m.emu (m.emu.assert .interruptsDisabled
        (m.emu.interrupts.interruptState = false)).criticalEnd :=
      (SameBooks.assert _ rfl (by decide) _).trans (.criticalEnd _)
    exact leaks_of_use hall rfl hsame rfl (by rw [hstage]; rfl) rfl
  case reasoning ucErr =>
    obtain rfl := Option.some.inj hstep
    exact leaks_reason hall (by rw [hstage]; rfl) ucErr
  case resuming value =>
    obtain rfl := Option.some.inj hstep
    exact leaks_of_use hall rfl (.setEngines _ _ _) rfl (by rw [hstage]; rfl) rfl
  case cleaningUp rsp stmts =>
    cases stmts with
    | nil =>
        obtain rfl := Option.some.inj hstep
        exact leaks_of_use hall rfl (.refl _) rfl (by rw [hstage]; rfl) rfl
    | cons st stmts =>
        exact leaks_execStatement hall (by rw [hstage]; rfl) (fun _ => rfl) hstep
  case finished ret =>
    obtain rfl := Option.some.inj hstep
    refine leaks_of_modify hall (by rw [hstage]; rfl) (f := fun c => { c with ret := ret }) ?_ ?_ ?_
    · exact fun _ => rfl
    · exact fun _ h => h
    · split <;> rfl
  case restoring =>
    obtain rfl := Option.some.inj hstep
    exact leaks_of_use hall rfl (.setEngines _ _ _) rfl (by rw [hstage]; rfl) rfl
  case unflagging =>
    obtain rfl := Option.some.inj hstep
    refine leaks_of_flag hall (by rw [hstage]; rfl) (· ^^^ CRC_HAVE_SAVED_UC_CONTEXT)
      (fun x hx => ?_) ?_
    · rcases hx with hzero | hset
      · simp [hzero]
      · simp [hset]
    · rfl
  case leaving => exact leaks_leaving hs hall hasserts hstage hfull
  case left => exact leaks_left hall hstage hfull
  case returned =>
    obtain rfl := Option.some.inj hstep
    obtain ⟨off', h'⟩ := hall.pop hstage
    exact ⟨_, _, h'⟩
  case exitReturned status =>
    obtain rfl := Option.some.inj hstep
    obtain ⟨p, off', -, -, hl⟩ := hall.of_cons
    exact ⟨_, _, hl.sameBooks (SameBooks.assert _ rfl (by decide) _)⟩

/-! ## other code -/

/-- `CpuRunFunc` or `CpuRunImage` has filled its context in. -/
theorem leaks_runCtx (h : Leaks m) {cpu : CpuId} {k : CtxId} {image : Option RecordId} {fp : Nat}
    {s s' : State} (halloc : cpuAllocContext cpu m.emu = some (k, s)) (ho : OwnChange k s s')
    (hflags : (s'.context k).flags = (s.context k).flags) : Leaks (m.runCtx k image fp s') := by
  obtain ⟨chain, off, hleaky⟩ := h
  let a : Activation := ⟨m.nextId, fp, k, image, 0, .entering, 0, s'.ue k.cpu k.cpu.stackReg⟩
  have h' : Leaky s' (a :: activations m.stack) chain (k :: off) := hleaky.push halloc ho hflags rfl
  exact ⟨chain, _, h'⟩

/-- `CpuRunFunc` has a context of its own, or fails. -/
theorem leaks_runFunc (h : Leaks m) (cpu : CpuId) (programCounter : UINT64) (args : Args)
    (fp : Nat) : Leaks (m.runFunc cpu programCounter args fp) := by
  unfold Machine.runFunc
  split
  · exact h
  · rename_i k s halloc
    refine leaks_runCtx h halloc (.modifyContext _ ?_ _) ?_
    · exact fun _ => rfl
    · simp [State.modifyContext]

/-- So has `CpuRunImage`, once it has found the image. -/
theorem leaks_runImage (h : Leaks m) {imageHandle systemTable : UINT64}
    {loadedImage : Except UINT64 UINT64} {fp : Nat}
    (hstep : m.runImage imageHandle systemTable loadedImage fp = some m') : Leaks m' := by
  unfold Machine.runImage at hstep
  split at hstep
  · obtain rfl := Option.some.inj hstep
    exact h
  · split at hstep
    · cases hstep
    · split at hstep
      · obtain rfl := Option.some.inj hstep
        obtain ⟨chain, off, hleaky⟩ := h
        exact leaks_of_still hleaky rfl
          (SameBooks.assert (a := .contextNotNull) m.emu rfl (by decide) False)
      · rename_i k s halloc
        obtain rfl := Option.some.inj hstep
        refine leaks_runCtx h halloc ⟨rfl, rfl, rfl, rfl, fun j hj => ?_, ?_, fun _ hb _ => hb⟩ ?_
        · exact Function.update_of_ne hj ..
        · simp [State.modifyContext, State.modifyRecord]
        · simp [State.modifyContext, State.modifyRecord]

/-- What a native frame that returns does to the run that has called it. -/
theorem leaks_returnTo {value : UINT64} {f : Frame}
    (h : Leaky m.emu (activations (f :: rest)) chain off)
    (hs : m'.stack = Machine.returnTo value (f :: rest)) (hemu : m'.emu = m.emu) : Leaks m' := by
  have hsame : Leaky m'.emu (activations (f :: rest)) chain off := by rwa [hemu]
  unfold Leaks
  rw [hs]
  unfold Machine.returnTo
  split
  · rename_i b rest' hframes
    obtain ⟨rfl, rfl⟩ := List.cons.inj hframes
    split
    case h_1 hstage =>
      refine ⟨chain, off, hsame.stage (fun _ => ⟨by rw [hstage]; rfl, rfl⟩) fun p hp => ?_⟩
      simpa only [Pending, hstage] using hp
    case h_2 hstage =>
      refine ⟨chain, off, hsame.stage (fun hb => by cases hb) fun p hp => ?_⟩
      simpa only [Pending, hstage] using hp
    case h_3 => exact ⟨chain, off, hsame⟩
  · exact ⟨chain, off, hsame⟩

/-- One step, long jumps included. -/
theorem leaks_step {action : Action} (horphans : cfg.checkOrphanContexts = false) (h : Leaks m)
    (hasserts : AssertsHold cfg m action) (hexits : ExitsOnChain m action)
    (hstep : Interleaving.step cfg m action = some m') : Leaks m' := by
  have hleaks := h
  obtain ⟨chain, off, h⟩ := h
  have hfull := hstep
  unfold Interleaving.step at hstep
  split at hstep
  case h_1 a rest hs => exact leaks_advance horphans hs hleaks hasserts hexits hstep
  case h_2 regs memory ucErr a rest hs =>
    split at hstep
    · rename_i hstage
      obtain rfl := Option.some.inj hstep
      rw [hs] at h
      exact leaks_of_use h rfl (.setEngines _ _ _) rfl (by rw [hstage]; rfl) rfl
    · cases hstep
  case h_3 r =>
    split at hstep
    · obtain rfl := Option.some.inj hstep
      exact leaks_of_still h rfl ⟨rfl, rfl, rfl, rfl, rfl, rfl, rfl, fun _ ha _ => ha, id⟩
    · cases hstep
  case h_4 =>
    split at hstep
    · obtain rfl := Option.some.inj hstep
      exact leaks_of_still h rfl (.refl _)
    · cases hstep
  case h_5 cpu programCounter args fp id rest hs =>
    split at hstep
    · obtain rfl := Option.some.inj hstep
      exact leaks_runFunc hleaks cpu programCounter args fp
    · cases hstep
  case h_6 imageHandle systemTable loadedImage fp id rest hs =>
    split at hstep
    · exact leaks_runImage hleaks hstep
    · cases hstep
  case h_7 memory id rest hs =>
    obtain rfl := Option.some.inj hstep
    exact leaks_of_still h rfl (.setEngines _ _ _)
  case h_8 id rest hs =>
    obtain rfl := Option.some.inj hstep
    exact leaks_of_still h rfl (.criticalBegin _)
  case h_9 rest hs =>
    obtain rfl := Option.some.inj hstep
    exact leaks_of_still h (by rw [hs]; rfl) (.criticalEnd _)
  case h_10 value id f rest hs =>
    obtain rfl := Option.some.inj hstep
    rw [hs, activations_native] at h
    exact leaks_returnTo h rfl rfl
  case h_11 id id' rest hs =>
    obtain ⟨stack, hunwind, rfl⟩ := Option.map_eq_some_iff.mp hstep
    obtain ⟨pre, hpre⟩ := append_of_unwindToNative hunwind
    rw [hpre, activations_append] at h
    obtain ⟨off', h'⟩ := h.of_append
    exact ⟨_, _, h'⟩
  case h_12 => cases hstep

/-- In the beginning nothing is on the chain and all contexts are free. -/
theorem leaks_initial (p : Platform) : Leaks (initial p) :=
  ⟨[], [], linked_initial p, .slnil, .nil, List.nodup_nil, nofun, nofun⟩

/-- In every run in which the assertions hold, the books are in order. -/
theorem leaks_of_run {p : Platform} {as : List Action} (horphans : cfg.checkOrphanContexts = false)
    (h : Run (step cfg)
      (fun m action => AssertsHold cfg m action ∧ ExitsOnChain m action) (initial p) as m) :
    Leaks m :=
  h.invariant (fun _ _ _ hm hC hstep => leaks_step horphans hm hC.1 hC.2 hstep) (leaks_initial p)

end

end Interleaving

end MultiArchUefi
