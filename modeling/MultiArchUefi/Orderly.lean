import MultiArchUefi.Jit
import MultiArchUefi.Invariant

/-!
# MultiArchUefi.Orderly

Runs of the interleaved machine in which nobody long-jumps: every function that
is called returns to its caller, however it is interrupted.

Then the chain consists of the contexts of the runs on the native stack that
have been entered and not left, and no run is ever compressed or orphaned.
`Tidy` says so of the runs, innermost first, and here are the rules that keep it:
a run goes on, comes, goes, and is entered and left.
-/

namespace MultiArchUefi

open Chain

namespace Interleaving

/-! ## runs without long jumps -/

/-- The step long-jumps. -/
def longJumps (m : Machine) : Action → Bool
  | .longJump _ => true
  | .advance =>
      match m.stack with
      | .run a :: _ =>
          match a.stage with
          | .longJumping _ => true
          | _ => false
      | _ => false
  | _ => false

/-- Neither native code nor `CpuExitImage` long-jumps. -/
abbrev Straight (m : Machine) (action : Action) : Prop := longJumps m action = false

/-! ## stages -/

/-- The context of the run is on the chain. -/
def Stage.counted : Stage → Bool
  | .entering | .left | .returned => false
  | _ => true

/-- A run gets to the stage without a long jump. -/
def Stage.straight : Stage → Bool
  | .freeingOrphans (some _) | .freeingLeaked .. | .imageExited | .freeingExited .. | .callingExit
  | .exitReturned _ => false
  | _ => true

/-- The context of the run has its `LeakCookie`. -/
def Stage.marked : Stage → Bool
  | .entering | .entered | .left | .returned => false
  | _ => true

/-- What `Context->Flags` can be. -/
def Stage.FlagsFit (flags : UINT64) : Stage → Prop
  | .entering | .entered | .freeingOrphans _ | .deciding | .saving | .flagging | .initializing
  | .leaving
  | .left | .returned => flags = 0
  | .restoring | .unflagging => flags = CRC_HAVE_SAVED_UC_CONTEXT
  | _ => flags = 0 ∨ flags = CRC_HAVE_SAVED_UC_CONTEXT

/-- The flags that fit a stage are none, or the saved one. -/
theorem Stage.FlagsFit.cases {stage : Stage} {flags : UINT64} (h : stage.FlagsFit flags) :
    flags = 0 ∨ flags = CRC_HAVE_SAVED_UC_CONTEXT := by
  cases stage <;> first | exact h | exact .inl h | exact .inr h

/-! ## the books -/

/-- The contexts on the chain, when the runs `l` are on the stack. -/
def chainOf (l : List Activation) : List CtxId :=
  (l.filter fun a => a.stage.counted).map (·.context)

/-- A run between entering and leaving adds its context. -/
theorem chainOf_cons_of_counted {a : Activation} (h : a.stage.counted = true)
    (l : List Activation) :
    chainOf (a :: l) = a.context :: chainOf l := by
  simp [chainOf, h]

/-- Before and after, a run adds nothing. -/
theorem chainOf_cons_of_not_counted {a : Activation} (h : a.stage.counted = false)
    (l : List Activation) :
    chainOf (a :: l) = chainOf l := by
  simp [chainOf, h]

/-- What is on the chain belongs to a run. -/
theorem mem_map_of_mem_chainOf {l : List Activation} {k : CtxId} (h : k ∈ chainOf l) :
    ∃ a ∈ l, a.stage.counted = true ∧ a.context = k := by
  obtain ⟨a, ha, rfl⟩ := List.mem_map.mp h
  exact ⟨a, (List.mem_filter.mp ha).1, (List.mem_filter.mp ha).2, rfl⟩

theorem linked_initial (p : Platform) : Linked (initial p).emu [] :=
  ⟨rfl, fun _ => rfl, fun _ => List.nodup_range,
    fun _ hk => ⟨(List.mem_range.mp hk).trans_le p.runContexts_le, List.not_mem_nil⟩, by simp,
    by simp, by simp [initial, cpuInit]⟩

/-- The books are in order for the runs `l`, innermost first. -/
structure Tidy (cfg : Config) (s : State) (l : List Activation) : Prop where
  linked : Linked s (chainOf l)
  nodup : (l.map (·.context)).Nodup
  allocated : ∀ a ∈ l, a.context.index ∉ s.runContextAlloc a.context.cpu
  bounded : ∀ a ∈ l, a.context.index < RUN_CONTEXTS_LIMIT
  flags : ∀ a ∈ l, a.stage.FlagsFit (s.context a.context).flags
  straight : ∀ a ∈ l, a.stage.straight = true
  cookies : cfg.checkOrphanContexts = true → ∀ a ∈ l, a.stage.marked = true →
    (s.context a.context).leakCookie = a.fp
  fps : l.Pairwise fun a b => a.fp < b.fp

/-- From `s` to `s'` only the data of the context `k`, its engine, and what is
not in the books has changed. -/
structure OwnChange (k : CtxId) (s s' : State) : Prop where
  mTopContext : s'.mTopContext = s.mTopContext
  contexts : s'.contexts = s.contexts
  runContextAlloc : s'.runContextAlloc = s.runContextAlloc
  initialState : s'.initialState = s.initialState
  other : ∀ j, j ≠ k → s'.context j = s.context j
  link : (s'.context k).prevContext = (s.context k).prevContext
  asserts : ∀ a ∈ s'.failedAsserts, a.isAccounting = true → a ∈ s.failedAsserts

/-- No change of the books is a change of the run's own context. -/
theorem OwnChange.of_sameBooks {s s' : State} (h : SameBooks s s') (k : CtxId) : OwnChange k s s' :=
  ⟨h.mTopContext, h.contexts, h.runContextAlloc, h.initialState, fun j _ => by rw [h.context],
    by rw [h.context], h.asserts⟩

/-- A field of the run's own context may change, but for the link. -/
theorem OwnChange.modifyContext (k : CtxId) {f : CpuRunContext → CpuRunContext}
    (hf : ∀ c, (f c).prevContext = c.prevContext) (s : State) :
    OwnChange k s (s.modifyContext k f) where
  mTopContext := rfl
  contexts := rfl
  runContextAlloc := rfl
  initialState := rfl
  other := fun _ hj => Function.update_of_ne hj ..
  link := by simp [State.modifyContext, hf]
  asserts := fun _ ha _ => ha

theorem OwnChange.trans {k : CtxId} {s s' s'' : State} (h : OwnChange k s s')
    (h' : OwnChange k s' s'') :
    OwnChange k s s'' where
  mTopContext := h'.mTopContext.trans h.mTopContext
  contexts := h'.contexts.trans h.contexts
  runContextAlloc := h'.runContextAlloc.trans h.runContextAlloc
  initialState := h'.initialState.trans h.initialState
  other := fun j hj => (h'.other j hj).trans (h.other j hj)
  link := h'.link.trans h.link
  asserts := fun a ha hacc => h.asserts a (h'.asserts a ha hacc) hacc

/-- The links stay the same. -/
theorem OwnChange.next {k : CtxId} {s s' : State} (h : OwnChange k s s') : s'.next = s.next := by
  funext j
  by_cases hj : j = k
  · subst hj
    exact h.link
  · exact State.next_congr (h.other j hj)

/-- The chain stays in order if the flags of the context are still such that they can be. -/
theorem OwnChange.linked {k : CtxId} {s s' : State} {l : List CtxId} (h : OwnChange k s s')
    (hl : Linked s l)
    (hflags : k ∈ l → (s'.context k).flags = 0 ∨
      (s'.context k).flags = CRC_HAVE_SAVED_UC_CONTEXT) : Linked s' l := by
  refine hl.congr h.mTopContext (fun j _ => congrFun h.next j) (fun j hj => ?_) h.contexts
    h.runContextAlloc h.asserts
  by_cases hjk : j = k
  · subst hjk
    exact hflags hj
  · rw [h.other j hjk]
    exact hl.flags j hj

namespace Tidy

variable {cfg : Config} {s s' : State} {a a' : Activation} {l : List Activation}

/-- No two runs have one context. -/
theorem not_mem (h : Tidy cfg s (a :: l)) : ∀ b ∈ l, b.context ≠ a.context := by
  have hnot := (List.nodup_cons.mp h.nodup).1
  exact fun b hb heq => hnot (List.mem_map.mpr ⟨b, hb, heq⟩)

theorem not_mem_chainOf (h : Tidy cfg s (a :: l)) : a.context ∉ chainOf l := by
  intro hmem
  obtain ⟨b, hb, -, heq⟩ := mem_map_of_mem_chainOf hmem
  exact h.not_mem b hb heq

/-- The innermost run goes on, and stays on the chain or off it. -/
theorem own (h : Tidy cfg s (a :: l)) (ho : OwnChange a.context s s')
    (hctx : a'.context = a.context) (hfp : a'.fp = a.fp) (hc : a'.stage.counted = a.stage.counted)
    (hflags : a'.stage.FlagsFit (s'.context a.context).flags) (hstraight : a'.stage.straight = true)
    (hcookie : cfg.checkOrphanContexts = true → a'.stage.marked = true →
      (s'.context a.context).leakCookie = a.fp) : Tidy cfg s' (a' :: l) := by
  have hother : ∀ b ∈ l, s'.context b.context = s.context b.context := fun b hb =>
    ho.other _ (h.not_mem b hb)
  have hchain : chainOf (a' :: l) = chainOf (a :: l) := by
    cases hcount : a.stage.counted with
    | true => rw [chainOf_cons_of_counted hcount, chainOf_cons_of_counted (hc.trans hcount), hctx]
    | false =>
        rw [chainOf_cons_of_not_counted hcount, chainOf_cons_of_not_counted (hc.trans hcount)]
  refine ⟨?_, ?_, fun b hb => ?_, fun b hb => ?_, fun b hb => ?_, fun b hb => ?_,
    fun hcfg b hb hm => ?_, ?_⟩
  · rw [hchain]
    exact ho.linked h.linked fun _ => hflags.cases
  · simpa [hctx] using h.nodup
  · rw [ho.runContextAlloc]
    rcases List.mem_cons.mp hb with rfl | hb
    · rw [hctx]
      exact h.allocated a List.mem_cons_self
    · exact h.allocated b (List.mem_cons_of_mem _ hb)
  · rcases List.mem_cons.mp hb with rfl | hb
    · rw [hctx]
      exact h.bounded a List.mem_cons_self
    · exact h.bounded b (List.mem_cons_of_mem _ hb)
  · rcases List.mem_cons.mp hb with rfl | hb
    · rw [hctx]
      exact hflags
    · rw [hother b hb]
      exact h.flags b (List.mem_cons_of_mem _ hb)
  · rcases List.mem_cons.mp hb with rfl | hb
    · exact hstraight
    · exact h.straight b (List.mem_cons_of_mem _ hb)
  · rcases List.mem_cons.mp hb with rfl | hb
    · rw [hctx, hfp]
      exact hcookie hcfg hm
    · rw [hother b hb]
      exact h.cookies hcfg b (List.mem_cons_of_mem _ hb) hm
  · obtain ⟨hlt, hfps⟩ := List.pairwise_cons.mp h.fps
    exact List.pairwise_cons.mpr ⟨fun b hb => hfp ▸ hlt b hb, hfps⟩

/-- Nothing in the books has changed. -/
theorem sameBooks (h : Tidy cfg s l) (hs : SameBooks s s') : Tidy cfg s' l where
  linked := h.linked.congr hs.mTopContext (fun k _ => State.next_congr (by rw [hs.context]))
    (fun k hk => by rw [hs.context]; exact h.linked.flags k hk) hs.contexts
    hs.runContextAlloc hs.asserts
  nodup := h.nodup
  allocated := hs.runContextAlloc ▸ h.allocated
  bounded := h.bounded
  flags := hs.context ▸ h.flags
  straight := h.straight
  cookies := hs.context ▸ h.cookies
  fps := h.fps

/-- A run that has just been started has a context of its own. -/
theorem fresh (h : Tidy cfg s (a :: l)) (hflags : (s.context a.context).flags = 0) :
    Fresh s (chainOf l) a.context :=
  ⟨h.not_mem_chainOf, h.bounded a List.mem_cons_self, h.allocated a List.mem_cons_self, hflags⟩

/-- What the books say about the runs below the innermost one, when only its
context has changed and the pools are the same. -/
theorem below (h : Tidy cfg s (a :: l)) (hother : ∀ j, j ≠ a.context → s'.context j = s.context j)
    (hlinked : Linked s' (chainOf l))
    (hpool : ∀ b ∈ l, b.context.index ∉ s'.runContextAlloc b.context.cpu) :
    Tidy cfg s' l := by
  have hctx : ∀ b ∈ l, s'.context b.context = s.context b.context := fun b hb =>
    hother _ (h.not_mem b hb)
  refine ⟨hlinked, (List.nodup_cons.mp h.nodup).2, hpool,
    fun b hb => h.bounded b (List.mem_cons_of_mem _ hb), fun b hb => ?_,
    fun b hb => h.straight b (List.mem_cons_of_mem _ hb), fun hcfg b hb hm => ?_,
    (List.pairwise_cons.mp h.fps).2⟩
  · rw [hctx b hb]
    exact h.flags b (List.mem_cons_of_mem _ hb)
  · rw [hctx b hb]
    exact h.cookies hcfg b (List.mem_cons_of_mem _ hb) hm

/-- A run comes on top of the others. -/
theorem cons (h : Tidy cfg s l) (hlinked : Linked s (chainOf (a :: l)))
    (hnot : ∀ b ∈ l, b.context ≠ a.context)
    (hpool : a.context.index ∉ s.runContextAlloc a.context.cpu)
    (hbounded : a.context.index < RUN_CONTEXTS_LIMIT)
    (hflags : a.stage.FlagsFit (s.context a.context).flags) (hstraight : a.stage.straight = true)
    (hmarked : a.stage.marked = false) (hfp : ∀ b ∈ l, a.fp < b.fp) :
    Tidy cfg s (a :: l) := by
  refine ⟨hlinked, ?_, ?_, ?_, ?_, ?_, fun hcfg b hb hm => ?_, List.pairwise_cons.mpr ⟨hfp, h.fps⟩⟩
  · refine List.nodup_cons.mpr ⟨fun hmem => ?_, h.nodup⟩
    obtain ⟨b, hb, heq⟩ := List.mem_map.mp hmem
    exact hnot b hb heq
  · exact List.forall_mem_cons.mpr ⟨hpool, h.allocated⟩
  · exact List.forall_mem_cons.mpr ⟨hbounded, h.bounded⟩
  · exact List.forall_mem_cons.mpr ⟨hflags, h.flags⟩
  · exact List.forall_mem_cons.mpr ⟨hstraight, h.straight⟩
  · rcases List.mem_cons.mp hb with rfl | hb
    · rw [hmarked] at hm
      cases hm
    · exact h.cookies hcfg b hb hm

/-- `CpuEnterCritical`. -/
theorem enter (h : Tidy cfg s (a :: l)) (ha : a.stage = .entering) (hstage : a'.stage = .entered)
    (hctx : a'.context = a.context) (hfp : a'.fp = a.fp) :
    Tidy cfg (cpuEnterCritical a.context s) (a' :: l) := by
  have hflags : (s.context a.context).flags = 0 := by
    have := h.flags a List.mem_cons_self
    rwa [ha] at this
  have hchain : chainOf (a :: l) = chainOf l := chainOf_cons_of_not_counted (by rw [ha]; rfl) l
  have hchain' : chainOf (a' :: l) = a.context :: chainOf l := by
    rw [chainOf_cons_of_counted (by rw [hstage]; rfl), hctx]
  have hlinked : Linked (cpuEnterCritical a.context s) (a.context :: chainOf l) :=
    linked_cpuEnterCritical (hchain ▸ h.linked) (h.fresh hflags)
  have hl : Tidy cfg s l :=
    h.below (fun _ _ => rfl) (hchain ▸ h.linked) fun b hb => h.allocated b
      (List.mem_cons_of_mem _ hb)
  have hother : ∀ b ∈ l, (cpuEnterCritical a.context s).context b.context = s.context b.context :=
    fun b hb => Function.update_of_ne (h.not_mem b hb) ..
  have hself : ((cpuEnterCritical a.context s).context a.context).flags =
      (s.context a.context).flags := by
    simp [cpuEnterCritical, State.modifyContext, State.criticalBegin]
  refine ⟨by rwa [hchain'], by simpa [hctx] using h.nodup, ?_, ?_, ?_, ?_,
    fun hcfg b hb hm => ?_, ?_⟩
  · refine List.forall_mem_cons.mpr ⟨?_, hl.allocated⟩
    rw [hctx]
    exact h.allocated a List.mem_cons_self
  · refine List.forall_mem_cons.mpr ⟨?_, hl.bounded⟩
    rw [hctx]
    exact h.bounded a List.mem_cons_self
  · refine List.forall_mem_cons.mpr ⟨?_, fun b hb => ?_⟩
    · rw [hctx, hself, hflags, hstage]
      rfl
    · rw [hother b hb]
      exact hl.flags b hb
  · exact List.forall_mem_cons.mpr ⟨by rw [hstage]; rfl, hl.straight⟩
  · rcases List.mem_cons.mp hb with rfl | hb
    · rw [hstage] at hm
      cases hm
    · rw [hother b hb]
      exact hl.cookies hcfg b hb hm
  · obtain ⟨hlt, hfps⟩ := List.pairwise_cons.mp h.fps
    exact List.pairwise_cons.mpr ⟨fun b hb => hfp ▸ hlt b hb, hfps⟩

/-- `CpuLeaveCritical`. -/
theorem leave (h : Tidy cfg s (a :: l)) (ha : a.stage = .leaving) (hstage : a'.stage = .left)
    (hctx : a'.context = a.context) (hfp : a'.fp = a.fp) :
    Tidy cfg (cpuLeaveCritical a.context s) (a' :: l) := by
  have hlinked : Linked s (a.context :: chainOf l) := by
    have := h.linked
    rwa [chainOf_cons_of_counted (by rw [ha]; rfl)] at this
  obtain ⟨hleft, hcontext, hpool⟩ := hlinked.leave
  have hflags : (s.context a.context).flags = 0 := by
    have := h.flags a List.mem_cons_self
    rwa [ha] at this
  have hchain : chainOf (a' :: l) = chainOf l := chainOf_cons_of_not_counted (by rw [hstage]; rfl) l
  refine (h.below (fun j _ => by rw [hcontext]) hleft ?_).cons (hchain ▸ hleft) ?_ ?_ ?_ ?_ ?_ ?_ ?_
  · rw [hpool]
    exact fun b hb => h.allocated b (List.mem_cons_of_mem _ hb)
  · rw [hctx]
    exact h.not_mem
  · rw [hctx, hpool]
    exact h.allocated a List.mem_cons_self
  · rw [hctx]
    exact h.bounded a List.mem_cons_self
  · rw [hctx, hcontext, hstage]
    exact hflags
  · rw [hstage]
    rfl
  · rw [hstage]
    rfl
  · rw [hfp]
    exact (List.pairwise_cons.mp h.fps).1

/-- `CpuFreeContext` of a run that returns. -/
theorem pop (h : Tidy cfg s (a :: l)) (ha : a.stage = .returned) :
    Tidy cfg (cpuFreeContext a.context s) l := by
  have hlinked : Linked s (chainOf l) := by
    have := h.linked
    rwa [chainOf_cons_of_not_counted (by rw [ha]; rfl)] at this
  have hnot := h.allocated a List.mem_cons_self
  have hfree : Linked (cpuFreeContext a.context s) (chainOf l) :=
    hlinked.free h.not_mem_chainOf (h.bounded a List.mem_cons_self) hnot
  refine h.below (fun j _ => by rw [context_cpuFreeContext]) hfree fun b hb hk => ?_
  rcases mem_runContextAlloc_cpuFreeContext.mp hk with hk | heq
  · exact h.allocated b (List.mem_cons_of_mem _ hb) hk
  · exact h.not_mem b hb heq

/-- A new run has taken its context from the pool, and filled it in. -/
theorem push {s₁ : State} {cpu : CpuId} (h : Tidy cfg s l)
    (halloc : cpuAllocContext cpu s = some (a.context, s₁)) (ho : OwnChange a.context s₁ s')
    (hflags : (s'.context a.context).flags = (s₁.context a.context).flags)
    (ha : a.stage = .entering) (hfp : ∀ b ∈ l, a.fp < b.fp) : Tidy cfg s' (a :: l) := by
  obtain ⟨hlinked₁, hfresh⟩ := linked_cpuAllocContext h.linked halloc
  obtain ⟨hcpu, rest, hpool, rfl⟩ := cpuAllocContext_eq_some halloc
  have hhead : a.context.index ∈ s.runContextAlloc a.context.cpu := by
    rw [hcpu, hpool]
    exact List.mem_cons_self
  have hnot : ∀ b ∈ l, b.context ≠ a.context := fun b hb heq => h.allocated b hb (heq ▸ hhead)
  have hother : ∀ b ∈ l, s'.context b.context = s.context b.context := fun b hb => by
    rw [ho.other _ (hnot b hb)]
    exact Function.update_of_ne (hnot b hb) ..
  have hsub {k : CtxId} (hk : k.index ∈ s'.runContextAlloc k.cpu) :
      k.index ∈ s.runContextAlloc k.cpu := mem_of_cpuAllocContext halloc (ho.runContextAlloc ▸ hk)
  have hlinked : Linked s' (chainOf l) :=
    ho.linked hlinked₁ fun hmem => absurd hmem hfresh.not_mem
  have hl : Tidy cfg s' l := by
    refine ⟨hlinked, h.nodup, fun b hb hk => h.allocated b hb (hsub hk), h.bounded, fun b hb => ?_,
      h.straight, fun hcfg b hb hm => ?_, h.fps⟩
    · rw [hother b hb]
      exact h.flags b hb
    · rw [hother b hb]
      exact h.cookies hcfg b hb hm
  refine hl.cons ?_ hnot ?_ hfresh.bounded ?_ ?_ ?_ hfp
  · rwa [chainOf_cons_of_not_counted (by rw [ha]; rfl)]
  · rw [ho.runContextAlloc]
    exact hfresh.allocated
  · rw [ha, hflags]
    exact hfresh.flags
  · rw [ha]
    rfl
  · rw [ha]
    rfl

end Tidy

end Interleaving

end MultiArchUefi
