import MultiArchUefi.Context

/-!
# MultiArchUefi.LeakedContexts

`CpuCompressLeakedContexts`: what is above a context on the chain is popped,
newest first, and every engine gets back what the popped contexts saved of it.

The two loops of the function are walks over the same part of the chain;
`popped` is the state they leave, and `cpuCompressLeakedContexts_spec` says so
for every chain.
-/

namespace MultiArchUefi

open Chain Nesting

/-- The first loop: apply what the context saved, and no longer count it. -/
def popLeakedContext (k : CtxId) (s : State) : Option CtxId × State :=
  let s := s.restoreSaved k
  let s := s.countDown k.cpu
  (s.next k, s)

/-- The second loop, also used by `CpuFreeOrphanContexts`; the link is read first. -/
def freeNextContext (k : CtxId) (s : State) : Option CtxId × State :=
  (s.next k, cpuFreeContext k s)

/-- `none` when a loop runs off the chain. -/
def cpuCompressLeakedContexts (currentContext : CtxId) (onImageExit : Bool) (s : State) :
    Option State := do
  let s := s.criticalBegin
  let fromContext := s.mTopContext
  let toContext := if onImageExit then s.next currentContext else some currentContext
  let s := { s with mTopContext := toContext }
  let s ← walk popLeakedContext toContext chainFuel fromContext s
  let s := s.criticalEnd
  walk freeNextContext toContext chainFuel fromContext s

def nativeThunkCheckLeakedContexts (context : CtxId) (s : State) : Option State :=
  if s.mTopContext ≠ some context then cpuCompressLeakedContexts context false s else some s

/-! ## the loops follow the chain -/

/-- Restoring registers changes no link. -/
theorem next_restoreSaved (k : CtxId) (s : State) : (s.restoreSaved k).next = s.next := by
  funext j
  unfold State.restoreSaved
  split
  · by_cases hj : j = k
    · subst hj; simp [State.next, State.modifyContext]
    · simp [State.next, State.modifyContext, Function.update_of_ne hj]
  · rfl

theorem next_countDown (cpu : CpuId) (s : State) : (s.countDown cpu).next = s.next := by
  simp only [State.countDown, State.assert_eq]
  rfl

/-- A context that is taken off the chain keeps its own link. -/
theorem next_popLeakedContext (k : CtxId) (s : State) : (popLeakedContext k s).2.next = s.next :=
  (next_countDown k.cpu _).trans (next_restoreSaved k s)

/-- The walk goes on with the next context. -/
theorem popLeakedContext_fst (k : CtxId) (s : State) : (popLeakedContext k s).1 = s.next k :=
  congrFun (next_popLeakedContext k s) k

/-- Freeing a context leaves its link readable. -/
theorem next_freeNextContext (k : CtxId) (s : State) : (freeNextContext k s).2.next = s.next := by
  simp only [freeNextContext, cpuFreeContext, State.assert_eq]
  rfl

/-- A loop that keeps the links and follows them is a fold over the part of the
chain it walks. -/
theorem walk_chain {body : CtxId → State → Option CtxId × State} {s : State} {l : List CtxId}
    {stop : Option CtxId} (hfst : ∀ k s, (body k s).1 = s.next k)
    (hnext : ∀ k s, (body k s).2.next = s.next) (hseg : Seg s.next (ptr l stop) l stop)
    (hstop : ∀ k ∈ l, some k ≠ stop) (hn : l.length < chainFuel) :
    walk body stop chainFuel (ptr l stop) s = some (l.foldl (fun s k => (body k s).2) s) := by
  refine walk_eq_foldl hn hstop fun pre k post hl => ?_
  have hfold : ∀ (pre : List CtxId) (s : State),
      (pre.foldl (fun s k => (body k s).2) s).next = s.next := by
    intro pre
    induction pre with
    | nil => exact fun _ => rfl
    | cons j pre ih => exact fun s => (ih _).trans (hnext j s)
  rw [hfst, hfold]
  exact Seg.next_of_mem (hl ▸ hseg)

/-! ## the loops as folds -/

/-- The flags of the contexts in `l` cleared. -/
def clearFlags (l : List CtxId) (context : CtxId → CpuRunContext) : CtxId → CpuRunContext :=
  fun k => if k ∈ l then { context k with flags := 0 } else context k

@[simp] theorem clearFlags_nil (context : CtxId → CpuRunContext) :
    clearFlags [] context = context := by
  funext k
  simp [clearFlags]

/-- Contexts that are not in the list keep their flags. -/
theorem clearFlags_of_not_mem {l : List CtxId} {k : CtxId} (h : k ∉ l)
    (context : CtxId → CpuRunContext) : clearFlags l context k = context k := if_neg h

@[simp] theorem prevContext_clearFlags (l : List CtxId)
    (context : CtxId → CpuRunContext) (k : CtxId) :
    (clearFlags l context k).prevContext = (context k).prevContext := by
  unfold clearFlags
  split <;> rfl

/-- The flags are cleared one context after the other. -/
theorem clearFlags_cons (k : CtxId) (l : List CtxId) (context : CtxId → CpuRunContext) :
    clearFlags l (Function.update context k { context k with flags := 0 }) =
      clearFlags (k :: l) context := by
  funext j
  by_cases hj : j = k
  · subst hj
    by_cases hl : j ∈ l <;> simp [clearFlags, hl]
  · simp [clearFlags, hj]

/-- How many contexts of `l` belong to each engine. -/
def countOn (l : List CtxId) : CpuId → Nat := fun cpu => l.countP fun k => k.cpu = cpu

/-- The indices of the contexts of `l`, by engine. -/
def indicesOn (l : List CtxId) : CpuId → List Nat :=
  fun cpu => (l.filter fun k => k.cpu = cpu).map CtxId.index

/-- The first loop pops the contexts of `l`.  The counters do not go negative when
the contexts are all counted. -/
theorem foldl_popLeakedContext {l : List CtxId} {s : State} (hl : l.Nodup)
    (hf : ∀ k ∈ l, (s.context k).flags = 0 ∨ (s.context k).flags = CRC_HAVE_SAVED_UC_CONTEXT) :
    ∃ asserts, l.foldl (fun s k => (popLeakedContext k s).2) s =
        { s with
          ue := replay (l.map s.entry) s.ue
          context := clearFlags l s.context
          contexts := fun cpu => s.contexts cpu - countOn l cpu
          failedAsserts := asserts } ∧
      (∀ a ∈ asserts, a ≠ .contextsNonNegative → a ∈ s.failedAsserts) ∧
      ((∀ cpu, (countOn l cpu : Int) ≤ s.contexts cpu) → asserts = s.failedAsserts) := by
  induction l generalizing s with
  | nil => exact ⟨s.failedAsserts, by simp [countOn], fun a ha _ => ha, fun _ => rfl⟩
  | cons k l ih =>
      obtain ⟨hkl, hl⟩ := List.nodup_cons.mp hl
      have hcount : ∀ cpu, (countOn (k :: l) cpu : Int) = countOn l cpu + if k.cpu =
          cpu then 1 else 0 := by
        intro cpu
        by_cases hcpu : k.cpu = cpu <;> simp [countOn, hcpu]
      obtain ⟨asserts₁, hdown, hother₁, hsame₁⟩ := (s.restoreSaved k).countDown_spec k.cpu
      rw [State.restoreSaved_eq (hf k List.mem_cons_self)] at hdown hother₁ hsame₁
      let s₁ : State :=
        { s with
          ue := (s.entry k).restore s.ue
          context := Function.update s.context k { s.context k with flags := 0 }
          contexts := Function.update s.contexts k.cpu (s.contexts k.cpu - 1)
          failedAsserts := asserts₁ }
      have hstep : (popLeakedContext k s).2 = s₁ := by
        simp only [popLeakedContext, State.restoreSaved_eq (hf k List.mem_cons_self)]
        exact hdown
      have hother : ∀ j ∈ l, s₁.context j = s.context j := fun j hj =>
        Function.update_of_ne (ne_of_mem_of_not_mem hj hkl) ..
      have hsub : ∀ cpu, s₁.contexts cpu = s.contexts cpu - if k.cpu = cpu then 1 else 0 := by
        intro cpu
        by_cases hcpu : k.cpu = cpu
        · subst hcpu; simp [s₁]
        · simp [s₁, hcpu, Function.update_of_ne (Ne.symm hcpu)]
      obtain ⟨asserts, hrest, hother₂, hsame₂⟩ := ih (s := s₁) hl fun j hj => by
        rw [hother j hj]
        exact hf j (List.mem_cons_of_mem k hj)
      refine ⟨asserts, ?_, fun a ha hne => hother₁ a (hother₂ a ha hne) hne, fun hc => ?_⟩
      · have hentries : l.map s₁.entry = l.map s.entry :=
          List.map_congr_left fun j hj => State.entry_congr (hother j hj)
        have hcontexts : (fun cpu => s₁.contexts cpu - (countOn l cpu : Int)) =
            fun cpu => s.contexts cpu - countOn (k :: l) cpu := by
          funext cpu
          rw [hsub, hcount]
          omega
        rw [List.foldl_cons, hstep, hrest, hentries, hcontexts]
        simp only [s₁, clearFlags_cons, List.map_cons, replay_cons]
      · have hone := hc k.cpu
        rw [hcount, if_pos rfl] at hone
        have hfirst : asserts₁ = s.failedAsserts := hsame₁ (by simp only; omega)
        rw [← hfirst]
        refine hsame₂ fun cpu => ?_
        have := hc cpu
        rw [hcount] at this
        rw [hsub]
        omega

/-- The second loop gives the contexts of `l` back to their pools, in order. -/
theorem foldl_freeNextContext {l : List CtxId} {s : State} (hl : l.Nodup)
    (hp : ∀ k ∈ l, k.index ∉ s.runContextAlloc k.cpu) :
    ∃ asserts, l.foldl (fun s k => (freeNextContext k s).2) s =
        { s with
          runContextAlloc := fun cpu => s.runContextAlloc cpu ++ indicesOn l cpu
          failedAsserts := asserts } ∧
      (∀ a ∈ asserts, a ≠ .flagsClear → a ∈ s.failedAsserts) ∧
      ((∀ k ∈ l, (s.context k).flags = 0) → asserts = s.failedAsserts) := by
  induction l generalizing s with
  | nil => exact ⟨s.failedAsserts, by simp [indicesOn], fun a ha _ => ha, fun _ => rfl⟩
  | cons k l ih =>
      obtain ⟨hkl, hl⟩ := List.nodup_cons.mp hl
      let s₁ := cpuFreeContext k s
      have hs₁ : s₁ =
          { s with
            runContextAlloc :=
              Function.update s.runContextAlloc k.cpu (s.runContextAlloc k.cpu ++ [k.index])
            failedAsserts :=
              if (s.context k).flags = 0 then s.failedAsserts
                else .flagsClear :: s.failedAsserts } := by
        have hfree := hp k List.mem_cons_self
        simp [s₁, cpuFreeContext, State.assert_eq, hfree]
      have hpool : ∀ cpu, s₁.runContextAlloc cpu =
          s.runContextAlloc cpu ++ if k.cpu = cpu then [k.index] else [] := by
        intro cpu
        by_cases hcpu : k.cpu = cpu
        · subst hcpu; simp [hs₁]
        · simp [hs₁, hcpu, Function.update_of_ne (Ne.symm hcpu)]
      have hnot : ∀ j ∈ l, j.index ∉ s₁.runContextAlloc j.cpu := by
        intro j hj hmem
        rw [hpool, List.mem_append] at hmem
        rcases hmem with hmem | hmem
        · exact hp j (List.mem_cons_of_mem k hj) hmem
        · by_cases hcpu : k.cpu = j.cpu
          · rw [if_pos hcpu, List.mem_singleton] at hmem
            exact hkl (ctxId_ext hcpu hmem.symm ▸ hj)
          · simp [if_neg hcpu] at hmem
      obtain ⟨asserts, heq, honly, hclear⟩ := ih hl hnot
      refine ⟨asserts, ?_, fun a ha hne => ?_, fun hflags => ?_⟩
      · rw [List.foldl_cons]
        change List.foldl _ s₁ l = _
        rw [heq]
        have hindices : (fun cpu => s₁.runContextAlloc cpu ++ indicesOn l cpu) =
            fun cpu => s.runContextAlloc cpu ++ indicesOn (k :: l) cpu := by
          funext cpu
          rw [hpool]
          by_cases hcpu : k.cpu = cpu <;> simp [indicesOn, hcpu]
        rw [hindices]
        simp [hs₁]
      · have hmem := honly a ha hne
        rw [hs₁] at hmem
        by_cases hk : (s.context k).flags = 0
        · simpa only [if_pos hk] using hmem
        · simp only [if_neg hk] at hmem
          exact (List.mem_cons.mp hmem).resolve_left hne
      · rw [hclear fun j hj => ?_]
        · simp [hs₁, hflags k List.mem_cons_self]
        · rw [hs₁]
          exact hflags j (List.mem_cons_of_mem k hj)

/-! ## popping the top of the chain -/

/-- The state after the contexts of `l` have been popped off the chain and
freed, which leaves `toContext` on top. -/
def State.popped (l : List CtxId) (toContext : Option CtxId) (s : State) : State :=
  { s with
    mTopContext := toContext
    ue := replay (l.map s.entry) s.ue
    context := clearFlags l s.context
    contexts := fun cpu => s.contexts cpu - countOn l cpu
    runContextAlloc := fun cpu => s.runContextAlloc cpu ++ indicesOn l cpu
    interrupts := MultiArchUefi.criticalEnd (MultiArchUefi.criticalBegin s.interrupts) }

/-- The contexts of an engine in two parts add up. -/
theorem countOn_append (l m : List CtxId) (cpu : CpuId) :
    countOn (l ++ m) cpu = countOn l cpu + countOn m cpu := List.countP_append

/-- A context is in the list when its index is among those of its engine. -/
theorem mem_indicesOn {l : List CtxId} {k : CtxId} : k.index ∈ indicesOn l k.cpu ↔ k ∈ l := by
  simp only [indicesOn, List.mem_map, List.mem_filter, decide_eq_true_eq]
  constructor
  · rintro ⟨j, ⟨hj, hcpu⟩, hindex⟩
    have hjk : j = k := by cases j; cases k; simp_all
    exact hjk ▸ hj
  · exact fun hk => ⟨k, ⟨hk, rfl⟩, rfl⟩

theorem nodup_indicesOn {l : List CtxId} (h : l.Nodup) (cpu : CpuId) : (indicesOn l cpu).Nodup := by
  refine List.Nodup.map_on (fun j hj k hk hjk => ?_) (h.filter _)
  simp only [List.mem_filter, decide_eq_true_eq] at hj hk
  cases j; cases k
  simp_all

namespace Threaded

variable {s : State} {l post : List CtxId}

/-- Where the upper part of a chain ends, and where it starts. -/
theorem seg_append (h : Threaded s (l ++ post)) :
    s.mTopContext = ptr l (ptr post none) ∧ Seg s.next (ptr l (ptr post none)) l (ptr post none) ∧
      Seg s.next (ptr post none) post none := by
  obtain ⟨r, hl, hpost⟩ := Chain.seg_append.mp h.seg
  have hr := hpost.eq_ptr
  subst hr
  exact ⟨hl.eq_ptr, hl.eq_ptr ▸ hl, hpost⟩

theorem ne_ptr (h : Threaded s (l ++ post)) : ∀ k ∈ l, some k ≠ ptr post none := h.seg.ne_ptr

/-- Popping keeps the older contexts as they are. -/
theorem context_popped (h : Threaded s (l ++ post)) (toContext : Option CtxId) {k : CtxId}
    (hk : k ∈ post) : (s.popped l toContext).context k = s.context k :=
  clearFlags_of_not_mem (fun hmem => List.disjoint_of_nodup_append h.nodup hmem hk) _

/-- Contexts taken off the top of the chain go back to their pools. -/
theorem of_append (h : Threaded s (l ++ post)) : Threaded (s.popped l (ptr post none)) post where
  seg := h.seg_append.2.2.congr fun k _ => prevContext_clearFlags ..
  pool_nodup := fun cpu => by
    refine List.nodup_append.mpr
      ⟨h.pool_nodup cpu, nodup_indicesOn h.nodup.of_append_left cpu, fun i hi j hj hij => ?_⟩
    subst hij
    obtain ⟨k, hk, rfl⟩ := List.mem_map.mp hj
    simp only [List.mem_filter, decide_eq_true_eq] at hk
    exact (h.pool_free k (hk.2 ▸ hi)).2 (List.mem_append_left post hk.1)
  pool_free := fun k hk => by
    rcases List.mem_append.mp hk with hk | hk
    · obtain ⟨hlt, hnot⟩ := h.pool_free k hk
      exact ⟨hlt, fun hmem => hnot (List.mem_append_right l hmem)⟩
    · have hkl := mem_indicesOn.mp hk
      exact ⟨h.bounded k (List.mem_append_left post hkl),
        List.disjoint_of_nodup_append h.nodup hkl⟩
  bounded := fun k hk => h.bounded k (List.mem_append_right l hk)
  flags := fun k hk => by
    rw [h.context_popped _ hk]
    exact h.flags k (List.mem_append_right l hk)

end Threaded

namespace Linked

variable {s : State} {l post : List CtxId}

/-- What is above on the chain is counted, so that no counter goes below zero. -/
theorem countOn_le (h : Linked s (l ++ post)) (cpu : CpuId) :
    (countOn l cpu : Int) ≤ s.contexts cpu := by
  have hcount := h.counted cpu
  have happ := countOn_append l post cpu
  simp only [countOn] at happ ⊢
  omega

/-- The contexts that are left are counted. -/
theorem of_append (h : Linked s (l ++ post)) : Linked (s.popped l (ptr post none)) post := by
  obtain ⟨hseg, hnodup, hfree, hbounded, hflags⟩ := h.threaded.of_append
  refine ⟨hseg, fun cpu => ?_, hnodup, hfree, hbounded, hflags, h.asserts⟩
  have hcount := h.counted cpu
  have happ := countOn_append l post cpu
  simp only [countOn, State.popped] at happ ⊢
  omega

end Linked

/-! ## a context goes back to its pool -/

section

variable {s : State} {l : List CtxId} {k j : CtxId}

@[simp] theorem context_cpuFreeContext (k : CtxId) (s : State) :
    (cpuFreeContext k s).context = s.context := by
  simp only [cpuFreeContext, State.assert_eq]

/-- `CpuFreeContext` puts one context back into the pool of its engine. -/
theorem mem_runContextAlloc_cpuFreeContext :
    j.index ∈ (cpuFreeContext k s).runContextAlloc j.cpu ↔
      j.index ∈ s.runContextAlloc j.cpu ∨ j = k := by
  have hpool : (cpuFreeContext k s).runContextAlloc =
      Function.update s.runContextAlloc k.cpu (s.runContextAlloc k.cpu ++ [k.index]) := by
    simp only [cpuFreeContext, State.assert_eq]
  rw [hpool]
  by_cases hcpu : j.cpu = k.cpu
  · rw [hcpu, Function.update_self, List.mem_append, List.mem_singleton]
    exact or_congr_right ⟨ctxId_ext hcpu, congrArg CtxId.index⟩
  · rw [Function.update_of_ne hcpu]
    exact (or_iff_left fun heq => hcpu (congrArg CtxId.cpu heq)).symm

/-- The chain does not lose a context that is freed and was not on it. -/
theorem Linked.free (h : Linked s l) (hnot : k ∉ l) (hlt : k.index < RUN_CONTEXTS_LIMIT)
    (hpool : k.index ∉ s.runContextAlloc k.cpu) : Linked (cpuFreeContext k s) l where
  seg := by
    have hnext := next_freeNextContext k s
    simp only [freeNextContext] at hnext
    rw [hnext]
    simpa only [cpuFreeContext, State.assert_eq] using h.seg
  counted := by simpa only [cpuFreeContext, State.assert_eq] using h.counted
  pool_nodup cpu := by
    simp only [cpuFreeContext, State.assert_eq]
    by_cases hcpu : cpu = k.cpu
    · subst hcpu
      rw [Function.update_self]
      exact (h.pool_nodup _).append (List.nodup_singleton _) (by simpa using hpool)
    · rw [Function.update_of_ne hcpu]
      exact h.pool_nodup cpu
  pool_free j hj := by
    rcases mem_runContextAlloc_cpuFreeContext.mp hj with hj | rfl
    · exact h.pool_free j hj
    · exact ⟨hlt, hnot⟩
  bounded := h.bounded
  flags := by simpa using h.flags
  asserts a ha := by
    simp only [cpuFreeContext, State.assert_of hpool, State.assert_eq] at ha
    split at ha
    · exact h.asserts a ha
    · rcases List.mem_cons.mp ha with rfl | ha
      · rfl
      · exact h.asserts a ha

end

/-- The chain that is left when what is above has been taken off. -/
theorem Chained.of_append {s : State} {l post : List CtxId} (h : Chained s (l ++ post)) :
    Chained (s.popped l (ptr post none)) post where
  toLinked := h.toLinked.of_append
  saved := by
    rw [List.map_congr_left fun k hk => State.entry_congr (h.threaded.context_popped _ hk)]
    have hsaved := h.saved
    rw [List.map_append] at hsaved
    exact hsaved.of_append_right

/-- Between the loops of `CpuCompressLeakedContexts` the contexts of `l` are off
the chain, and not free yet. -/
theorem walk_popLeakedContext_eq {s : State} {l post : List CtxId} (h : Threaded s (l ++ post)) :
    ∃ s₁ asserts, walk popLeakedContext (ptr post none) chainFuel s.mTopContext
        { s.criticalBegin with mTopContext := ptr post none } = some s₁ ∧
      s₁.criticalEnd = { s.popped l (ptr post none) with
        runContextAlloc := s.runContextAlloc
        failedAsserts := asserts } ∧
      (∀ a ∈ asserts, a ≠ .contextsNonNegative → a ∈ s.failedAsserts) ∧
      ((∀ cpu, (countOn l cpu : Int) ≤ s.contexts cpu) → asserts = s.failedAsserts) := by
  obtain ⟨hfrom, hseg, -⟩ := h.seg_append
  have hlen : l.length < chainFuel := by
    have := h.length_lt
    rw [List.length_append] at this
    omega
  let s₀ : State := { s.criticalBegin with mTopContext := ptr post none }
  have hfirst : walk popLeakedContext (ptr post none) chainFuel (ptr l (ptr post none)) s₀ =
      some (l.foldl (fun s k => (popLeakedContext k s).2) s₀) :=
    walk_chain popLeakedContext_fst next_popLeakedContext hseg h.ne_ptr hlen
  obtain ⟨asserts, hpop, hother, hsame⟩ := foldl_popLeakedContext (s := s₀) h.nodup.of_append_left
    fun k hk => h.flags k (List.mem_append_left post hk)
  refine ⟨_, asserts, by rw [hfrom, hfirst, hpop], ?_, hother, hsame⟩
  simp [s₀, State.criticalEnd, State.criticalBegin, State.assert_eq, State.popped,
    CriticalEndAssert, criticalBegin_eq]
  rfl

/-- `CpuCompressLeakedContexts` pops exactly what is above the context it stops
at, whatever the counters say. -/
theorem cpuCompressLeakedContexts_eq {s : State} {l post : List CtxId} (k : CtxId)
    (onImageExit : Bool) (h : Threaded s (l ++ post))
    (hto : (if onImageExit then s.next k else some k) = ptr post none) :
    ∃ asserts, cpuCompressLeakedContexts k onImageExit s =
        some { s.popped l (ptr post none) with failedAsserts := asserts } ∧
      (∀ a ∈ asserts, a ≠ .contextsNonNegative → a ∈ s.failedAsserts) ∧
      ((∀ cpu, (countOn l cpu : Int) ≤ s.contexts cpu) → asserts = s.failedAsserts) := by
  obtain ⟨hfrom, hseg, -⟩ := h.seg_append
  have hlen : l.length < chainFuel := by
    have := h.length_lt
    rw [List.length_append] at this
    omega
  obtain ⟨s₁, asserts, hfirst, hend, hother, hsame⟩ := walk_popLeakedContext_eq h
  refine ⟨asserts, ?_, hother, hsame⟩
  have hsecond : walk freeNextContext (ptr post none) chainFuel
    (ptr l (ptr post none)) s₁.criticalEnd =
      some (l.foldl (fun s k => (freeNextContext k s).2) s₁.criticalEnd) := by
    refine walk_chain (fun _ _ => rfl) next_freeNextContext (hseg.congr fun k _ => ?_) h.ne_ptr hlen
    rw [hend]
    exact prevContext_clearFlags ..
  obtain ⟨asserts', hfree, -, hclear⟩ := foldl_freeNextContext (s := s₁.criticalEnd)
    h.nodup.of_append_left fun k hk hmem => by
      rw [hend] at hmem
      exact (h.pool_free k hmem).2 (List.mem_append_left post hk)
  rw [hfree, hclear fun k hk => by rw [hend]; simp [State.popped, clearFlags, hk]] at hsecond
  simp only [cpuCompressLeakedContexts]
  rw [show s.criticalBegin.next k = s.next k from rfl, hto,
    show s.criticalBegin.mTopContext = s.mTopContext from rfl, hfirst]
  simp only [bind, Option.bind]
  rw [hfrom, hsecond, hend]
  rfl

/-- `CpuCompressLeakedContexts` takes off and frees exactly what is above `toContext`. -/
theorem cpuCompressLeakedContexts_spec {s : State} {l post : List CtxId} (k : CtxId)
    (onImageExit : Bool) (h : Linked s (l ++ post))
    (hto : (if onImageExit then s.next k else some k) = ptr post none) :
    cpuCompressLeakedContexts k onImageExit s = some (s.popped l (ptr post none)) := by
  obtain ⟨asserts, heq, -, hsame⟩ := cpuCompressLeakedContexts_eq k onImageExit h.threaded hto
  rw [heq, hsame h.countOn_le]
  rfl

/-- `NativeThunkCheckLeakedContexts` makes a context on the chain the top one. -/
theorem nativeThunkCheckLeakedContexts_spec {s : State} {l post : List CtxId} {k : CtxId}
    (h : Linked s (l ++ k :: post)) :
    nativeThunkCheckLeakedContexts k s = some (if l = [] then s else s.popped l (some k)) := by
  cases l with
  | nil => simp [nativeThunkCheckLeakedContexts, h.seg.1]
  | cons j l =>
      have hjk : s.mTopContext ≠ some k := by
        rw [h.seg.1]
        exact h.threaded.ne_ptr j List.mem_cons_self
      rw [nativeThunkCheckLeakedContexts, if_pos hjk, if_neg (List.cons_ne_nil j l)]
      exact cpuCompressLeakedContexts_spec k false h rfl

end MultiArchUefi
