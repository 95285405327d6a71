import MultiArchUefi.System

/-!
# MultiArchUefi.Invariant

What every step of the system keeps: the chain is well formed and counted, and
the activations on the native stack have their contexts on it, in order.  The
chain may hold more contexts than that: those of activations native code has
jumped out of.

Each function of the driver gets one description of what it does to a system
in such a state; the step lemma is assembled from them.
-/

namespace MultiArchUefi

open Chain Nesting

/-! ## steps that leave the books alone -/

/-- `Record->ImageExitJumpBuffer`. -/
def State.jumpBuffer (s : State) (r : RecordId) : Option Nat :=
  (s.images.record r).imageExitJumpBuffer

/-- The chain, the counters, the pools and the jump buffers are the same, and no assertion about
them, or about what a context has saved, has failed in between. -/
structure SameBooks (s s' : State) : Prop where
  mTopContext : s'.mTopContext = s.mTopContext
  context : s'.context = s.context
  contexts : s'.contexts = s.contexts
  runContextAlloc : s'.runContextAlloc = s.runContextAlloc
  initialState : s'.initialState = s.initialState
  mOriginalStack : s'.mOriginalStack = s.mOriginalStack
  jumpBuffer : s'.jumpBuffer = s.jumpBuffer
  asserts : ∀ a ∈ s'.failedAsserts, a.isAccounting = true → a ∈ s.failedAsserts
  flagsClear : .flagsClear ∈ s'.failedAsserts → .flagsClear ∈ s.failedAsserts

namespace SameBooks

variable {s s' s'' : State}

theorem refl (s : State) :
    SameBooks s s := ⟨rfl, rfl, rfl, rfl, rfl, rfl, rfl, fun _ ha _ => ha, id⟩

theorem trans (h : SameBooks s s') (h' : SameBooks s' s'') : SameBooks s s'' where
  mTopContext := h'.mTopContext.trans h.mTopContext
  context := h'.context.trans h.context
  contexts := h'.contexts.trans h.contexts
  runContextAlloc := h'.runContextAlloc.trans h.runContextAlloc
  initialState := h'.initialState.trans h.initialState
  mOriginalStack := h'.mOriginalStack.trans h.mOriginalStack
  jumpBuffer := h'.jumpBuffer.trans h.jumpBuffer
  asserts := fun a ha hacc => h.asserts a (h'.asserts a ha hacc) hacc
  flagsClear := fun ha => h.flagsClear (h'.flagsClear ha)

theorem chained {l : List CtxId} (h : SameBooks s s') (hs : Chained s l) : Chained s' l :=
  hs.congr h.mTopContext
    (fun k _ => .of_eq (by rw [h.context])) h.contexts h.runContextAlloc h.asserts

/-- Noting an `ASSERT` that is not about accounts leaves the books alone. -/
theorem assert (s : State) {a : Assertion} (ha : a.isAccounting = false) (hne : a ≠ .flagsClear)
    (p : Prop) [Decidable p] : SameBooks s (s.assert a p) := by
  have hmem : ∀ b ∈ (s.assert a p).failedAsserts, b ≠ a → b ∈ s.failedAsserts := fun b hb hba => by
    rw [State.assert_eq] at hb
    simp only at hb
    split at hb
    · exact hb
    · exact (List.mem_cons.mp hb).resolve_left hba
  rw [State.assert_eq] at hmem ⊢
  refine ⟨rfl, rfl, rfl, rfl, rfl, rfl, rfl, fun b hb hacc => hmem b hb ?_,
    fun hb => hmem _ hb hne.symm⟩
  rintro rfl
  rw [ha] at hacc
  cases hacc

theorem criticalBegin (s : State) : SameBooks s s.criticalBegin :=
  ⟨rfl, rfl, rfl, rfl, rfl, rfl, rfl, fun _ ha _ => ha, id⟩

theorem criticalEnd (s : State) : SameBooks s s.criticalEnd := by
  have h := SameBooks.assert s (a := .sectionOpen) rfl (by decide) (CriticalEndAssert s.interrupts)
  exact ⟨h.mTopContext, h.context, h.contexts, h.runContextAlloc, h.initialState, h.mOriginalStack,
    h.jumpBuffer, h.asserts, h.flagsClear⟩

theorem withEngine (s : State) (cpu : CpuId) (f : Engine → Engine) :
    SameBooks s (s.withEngine cpu f) :=
  ⟨rfl, rfl, rfl, rfl, rfl, rfl, rfl, fun _ ha _ => ha, id⟩

/-- `CpuExitImage` writes an image record, which is no part of the books. -/
theorem setImageExit (s : State) (r : RecordId) (args : Args) :
    SameBooks s (s.setImageExit r args) := by
  refine ⟨rfl, rfl, rfl, rfl, rfl, rfl, funext fun r' => ?_, fun _ ha _ => ha, id⟩
  by_cases hr : r' = r
  · subst hr
    simp [State.jumpBuffer, State.setImageExit, State.modifyRecord]
  · simp [State.jumpBuffer, State.setImageExit, State.modifyRecord, Function.update_of_ne hr]

/-- Registers and memory are no part of the books. -/
theorem setEngines (s : State) (ue : CpuId → RegFile) (memory : WordMemory.Memory) :
    SameBooks s { s with ue := ue, memory := memory } :=
  ⟨rfl, rfl, rfl, rfl, rfl, rfl, rfl, fun _ ha _ => ha, id⟩

end SameBooks

/-! ## the activations and the chain -/

/-- A sublist that has nothing of the first part lies in the second one. -/
theorem sublist_of_append_of_not_mem {α : Type*} {l m n : List α} (h : l.Sublist (m ++ n))
    (hm : ∀ x ∈ l, x ∉ m) : l.Sublist n := by
  obtain ⟨l₁, l₂, rfl, h₁, h₂⟩ := List.sublist_append_iff.mp h
  cases l₁ with
  | nil => exact h₂
  | cons x l₁ =>
      exact absurd (h₁.subset List.mem_cons_self) (hm x List.mem_cons_self)

/-- What comes after `k` in a list stays behind `k` in a longer one. -/
theorem sublist_of_cons_sublist {α : Type*} {k : α} {l pre post : List α}
    (h : (k :: l).Sublist (pre ++ k :: post)) (hk : k ∉ pre) : l.Sublist post := by
  obtain ⟨l₁, l₂, hl, h₁, h₂⟩ := List.sublist_append_iff.mp h
  cases l₁ with
  | nil =>
      obtain rfl : k :: l = l₂ := hl
      exact List.cons_sublist_cons.mp h₂
  | cons x l₁ =>
      obtain rfl : k = x := (List.cons.inj hl).1
      exact absurd (h₁.subset List.mem_cons_self) hk

/-- The activations `acts` are live: their contexts are on the chain in their
order and carry their data, and with a private stack the outermost one, and no
other, has switched to it. -/
structure Live (cfg : Config) (s : State) (chain : List CtxId) (acts : List Activation) : Prop where
  sublist : (acts.map (·.context)).Sublist chain
  cookies : cfg.checkOrphanContexts = true → ∀ a ∈ acts, (s.context a.context).leakCookie = a.fp
  images : ∀ a ∈ acts, (s.context a.context).imageRecord = a.image
  switched : cfg.onPrivateStack = true → ∀ as a, acts = as ++ [a] →
    s.mOriginalStack = some a.id ∧ a.switched = true ∧ ∀ b ∈ as, b.switched = false

namespace Live

variable {cfg : Config} {s s' : State} {chain chain' : List CtxId} {a : Activation}
  {acts pre : List Activation}

/-- The context of a live activation is on the chain. -/
theorem context_mem (h : Live cfg s chain acts) (ha : a ∈ acts) : a.context ∈ chain :=
  h.sublist.subset (List.mem_map_of_mem ha)

theorem nil (s : State) (chain : List CtxId) : Live cfg s chain [] where
  sublist := List.nil_sublist _
  cookies := by simp
  images := by simp
  switched := by simp

/-- Outer activations stay live when inner ones go. -/
theorem of_append (h : Live cfg s chain (pre ++ acts)) : Live cfg s chain acts where
  sublist := by
    have := h.sublist
    rw [List.map_append] at this
    exact (List.sublist_append_right _ _).trans this
  cookies := fun hcfg a ha => h.cookies hcfg a (List.mem_append_right pre ha)
  images := fun a ha => h.images a (List.mem_append_right pre ha)
  switched := fun hcfg as a hacts => by
    obtain ⟨ho, hs, hrest⟩ := h.switched hcfg (pre ++ as) a (by rw [hacts, List.append_assoc])
    exact ⟨ho, hs, fun b hb => hrest b (List.mem_append_right pre hb)⟩

/-- Only the contexts of the activations and `mOriginalStack` matter. -/
theorem congr (h : Live cfg s chain acts) (hsub : (acts.map (·.context)).Sublist chain')
    (hc : ∀ a ∈ acts, (s'.context a.context).leakCookie = (s.context a.context).leakCookie ∧
      (s'.context a.context).imageRecord = (s.context a.context).imageRecord)
    (ho : s'.mOriginalStack = s.mOriginalStack) : Live cfg s' chain' acts where
  sublist := hsub
  cookies := fun hcfg a ha => by rw [(hc a ha).1]; exact h.cookies hcfg a ha
  images := fun a ha => by rw [(hc a ha).2]; exact h.images a ha
  switched := fun hcfg as a hacts => by rw [ho]; exact h.switched hcfg as a hacts

theorem sameBooks (h : Live cfg s chain acts) (hs : SameBooks s s') : Live cfg s' chain acts :=
  h.congr h.sublist (fun a _ => by simp [hs.context]) hs.mOriginalStack

/-- What an activation remembers besides its identity does not matter. -/
theorem modify (h : Live cfg s chain (a :: acts)) (programCounter : UINT64) (atCall : RegFile) :
    Live cfg s chain ({ a with programCounter := programCounter, atCall := atCall } :: acts) where
  sublist := h.sublist
  cookies := fun hcfg b hb => by
    rcases List.mem_cons.mp hb with rfl | hb
    · exact h.cookies hcfg a List.mem_cons_self
    · exact h.cookies hcfg b (List.mem_cons_of_mem a hb)
  images := fun b hb => by
    rcases List.mem_cons.mp hb with rfl | hb
    · exact h.images a List.mem_cons_self
    · exact h.images b (List.mem_cons_of_mem a hb)
  switched := fun hcfg as b hacts => by
    cases as with
    | nil =>
        obtain ⟨rfl, rfl⟩ : { a with programCounter := programCounter, atCall := atCall } = b ∧
          acts = [] := by
          simpa using hacts
        exact h.switched hcfg [] a rfl
    | cons c as =>
        obtain ⟨rfl, rfl⟩ : { a with programCounter := programCounter, atCall := atCall } = c ∧
            acts = as ++ [b] := by simpa using hacts
        obtain ⟨ho, hs, hrest⟩ := h.switched hcfg (a :: as) b rfl
        refine ⟨ho, hs, fun d hd => ?_⟩
        rcases List.mem_cons.mp hd with rfl | hd
        · exact hrest a List.mem_cons_self
        · exact hrest d (List.mem_cons_of_mem a hd)

/-- The chain below an activation's context holds the outer activations. -/
theorem split {post : List CtxId} {l : List CtxId} (h : Live cfg s chain (a :: acts))
    (hchain : chain = l ++ a.context :: post) (hnodup : chain.Nodup) :
    (acts.map (·.context)).Sublist post := by
  have hsub := h.sublist
  rw [hchain] at hsub hnodup
  have hdisj := List.disjoint_of_nodup_append hnodup
  obtain ⟨l₁, l₂, heq, h₁, h₂⟩ := List.sublist_append_iff.mp hsub
  cases l₁ with
  | nil =>
      rw [List.nil_append] at heq
      rw [← heq, List.map_cons] at h₂
      exact h₂.of_cons_cons
  | cons x l₁ =>
      have hx : x = a.context := (List.cons.inj heq).1.symm
      have hmem := h₁.subset List.mem_cons_self
      exact absurd (hx ▸ List.mem_cons_self) (hdisj hmem)

/-- No live activation's context is an orphan of a new frame that fits. -/
theorem kept {stack : List Frame} {fp : Nat} (h : Live cfg s chain (activations stack))
    (hfp : fpFits fp stack = true) :
    ((activations stack).map (·.context)).Sublist (kept cfg s fp chain) := by
  have hfit : ∀ a ∈ activations stack, fp < a.fp := by simpa [fpFits] using hfp
  refine sublist_of_append_of_not_mem (m := orphans cfg s fp chain) ?_ fun j hj hmem => ?_
  · rw [orphans_append_kept]
    exact h.sublist
  · obtain ⟨a, ha, rfl⟩ := List.mem_map.mp hj
    have hle := leakCookie_of_mem_orphans hmem
    cases hcfg : cfg.checkOrphanContexts with
    | false => simp [orphans, hcfg] at hmem
    | true =>
        rw [h.cookies hcfg a ha] at hle
        exact absurd (hfit a ha) (Nat.not_lt.mpr hle)

end Live

/-- Emulated code is only called by native code. -/
def Nested : List Frame → Prop
  | [] => True
  | .native _ :: rest => Nested rest
  | .run _ :: rest => (∃ id rest', rest = .native id :: rest') ∧ Nested rest
  | .exiting _ :: rest => (∃ id rest', rest = .native id :: rest') ∧ Nested rest

/-- What is left of a nested stack is nested. -/
theorem Nested.of_append {pre stack : List Frame} (h : Nested (pre ++ stack)) : Nested stack := by
  induction pre with
  | nil => exact h
  | cons f pre ih =>
      cases f with
      | native id => exact ih h
      | run a => exact ih h.2
      | exiting id => exact ih h.2

/-- The books are in order for the native stack `stack`: the chain is `chain`,
and the activations on the stack are live. -/
structure Booked (cfg : Config) (s : State) (stack : List Frame) (chain : List CtxId) : Prop where
  chained : Chained s chain
  live : Live cfg s chain (activations stack)
  nested : Nested stack

/-! ## unwinding the stack -/

/-- A long jump to a run drops the frames above it. -/
theorem unwindToRun_eq_some {id : Nat} {stack rest : List Frame} {a : Activation}
    (h : unwindToRun id stack = some (a, rest)) :
    a.id = id ∧ ∃ pre, stack = pre ++ .run a :: rest := by
  induction stack with
  | nil => cases h
  | cons f stack ih =>
      cases f with
      | native id' =>
          obtain ⟨hid, pre, rfl⟩ := ih h
          exact ⟨hid, .native id' :: pre, rfl⟩
      | exiting id' =>
          obtain ⟨hid, pre, rfl⟩ := ih h
          exact ⟨hid, .exiting id' :: pre, rfl⟩
      | run b =>
          by_cases hb : b.id = id
          · rw [unwindToRun, if_pos hb] at h
            obtain ⟨rfl, rfl⟩ := Prod.mk.inj (Option.some.inj h)
            exact ⟨hb, [], rfl⟩
          · rw [unwindToRun, if_neg hb] at h
            obtain ⟨hid, pre, rfl⟩ := ih h
            exact ⟨hid, .run b :: pre, rfl⟩

/-- A long jump to native code drops the frames above it. -/
theorem unwindToNative_eq_some {id : Nat} {stack stack' : List Frame}
    (h : unwindToNative id stack = some stack') :
    ∃ pre rest, stack = pre ++ stack' ∧ stack' = .native id :: rest := by
  induction stack with
  | nil => cases h
  | cons f stack ih =>
      cases f with
      | native id' =>
          by_cases hid : id' = id
          · rw [unwindToNative, if_pos hid] at h
            obtain rfl := Option.some.inj h
            exact ⟨[], stack, rfl, by rw [hid]⟩
          · rw [unwindToNative, if_neg hid] at h
            obtain ⟨pre, rest, rfl, hrest⟩ := ih h
            exact ⟨.native id' :: pre, rest, rfl, hrest⟩
      | exiting id' =>
          obtain ⟨pre, rest, rfl, hrest⟩ := ih h
          exact ⟨.exiting id' :: pre, rest, rfl, hrest⟩
      | run b =>
          obtain ⟨pre, rest, rfl, hrest⟩ := ih h
          exact ⟨.run b :: pre, rest, rfl, hrest⟩

/-! ## taking a context from its pool -/

/-- From `s` to `s'` the context `k` has been taken from its pool and prepared;
the chain is still `l`. -/
structure Allocated (k : CtxId) (l : List CtxId) (s s' : State) : Prop where
  chained : Chained s' l
  fresh : Fresh s' l k
  older : ∀ j ∈ l, s'.context j = s.context j
  ue : s'.ue = s.ue
  memory : s'.memory = s.memory
  initialState : s'.initialState = s.initialState
  mOriginalStack : s'.mOriginalStack = s.mOriginalStack

namespace Allocated

variable {k : CtxId} {l : List CtxId} {s s' : State}

/-- Filling a context in that was just allocated changes nothing else. -/
theorem modifyContext (h : Allocated k l s s') {f : CpuRunContext → CpuRunContext}
    (hf : ∀ c, (f c).flags = c.flags) : Allocated k l s (s'.modifyContext k f) := by
  have hother : ∀ j ∈ l, (s'.modifyContext k f).context j = s'.context j := fun j hj =>
    Function.update_of_ne (ne_of_mem_of_not_mem hj h.fresh.not_mem) ..
  refine ⟨h.chained.congr rfl (fun j hj => .of_eq (hother j hj)) rfl rfl fun _ ha _ => ha,
    ⟨h.fresh.not_mem, h.fresh.bounded, h.fresh.allocated, ?_⟩,
    fun j hj => (hother j hj).trans (h.older j hj), h.ue, h.memory, h.initialState,
      h.mOriginalStack⟩
  simpa [State.modifyContext, hf] using h.fresh.flags

theorem modifyRecord (h : Allocated k l s s') (r : RecordId) (f : ImageRecord → ImageRecord) :
    Allocated k l s (s'.modifyRecord r f) :=
  ⟨h.chained.congr rfl (fun _ _ => .of_eq rfl) rfl rfl fun _ ha _ => ha,
    ⟨h.fresh.not_mem, h.fresh.bounded, h.fresh.allocated, h.fresh.flags⟩, h.older, h.ue, h.memory,
    h.initialState, h.mOriginalStack⟩

end Allocated

/-- `CpuAllocContext` fails only when the pool is empty. -/
theorem cpuAllocContext_eq_none {cpu : CpuId} {s : State} (h : cpuAllocContext cpu s = none) :
    s.runContextAlloc cpu = [] := by
  unfold cpuAllocContext at h
  split at h
  · assumption
  · cases h

/-- The state after the context `k` has been taken from the head of its pool. -/
theorem cpuAllocContext_eq_some {cpu : CpuId} {s s' : State} {k : CtxId}
    (halloc : cpuAllocContext cpu s = some (k, s')) :
    k.cpu = cpu ∧ ∃ rest, s.runContextAlloc cpu = k.index :: rest ∧
      s' = { s with
        context := Function.update s.context k (cpuRunContextOnAlloc (s.context k))
        runContextAlloc := Function.update s.runContextAlloc cpu rest } := by
  unfold cpuAllocContext at halloc
  split at halloc
  · cases halloc
  · rename_i index rest hpool
    obtain ⟨rfl, rfl⟩ := Prod.mk.inj (Option.some.inj halloc)
    exact ⟨rfl, rest, hpool, rfl⟩

/-- What is free after an allocation was free before. -/
theorem mem_of_cpuAllocContext {cpu : CpuId} {s s' : State} {k j : CtxId}
    (halloc : cpuAllocContext cpu s = some (k, s')) (hj : j.index ∈ s'.runContextAlloc j.cpu) :
    j.index ∈ s.runContextAlloc j.cpu := by
  obtain ⟨-, rest, hpool, rfl⟩ := cpuAllocContext_eq_some halloc
  have hj : j.index ∈ Function.update s.runContextAlloc cpu rest j.cpu := hj
  by_cases hcpu : j.cpu = cpu
  · rw [hcpu, Function.update_self] at hj
    rw [hcpu, hpool]
    exact List.mem_cons_of_mem _ hj
  · rwa [Function.update_of_ne hcpu] at hj

/-- Allocation takes a context of the engine that is nowhere else. -/
theorem threaded_cpuAllocContext {cpu : CpuId} {s s' : State} {l : List CtxId} {k : CtxId}
    (h : Threaded s l) (halloc : cpuAllocContext cpu s = some (k, s')) :
    Threaded s' l ∧ Fresh s' l k ∧ ∀ j ∈ l, s'.context j = s.context j := by
  obtain ⟨rfl, rest, hpool, rfl⟩ := cpuAllocContext_eq_some halloc
  have hnodup := h.pool_nodup k.cpu
  rw [hpool] at hnodup
  obtain ⟨hindex, hrest⟩ := List.nodup_cons.mp hnodup
  obtain ⟨hlt, hk⟩ := h.pool_free k (by rw [hpool]; exact List.mem_cons_self)
  have hother : ∀ j ∈ l, Function.update s.context k
      (cpuRunContextOnAlloc (s.context k)) j = s.context j :=
    fun j hj => Function.update_of_ne (ne_of_mem_of_not_mem hj hk) ..
  have hflags : ∀ j ∈ l,
    (Function.update s.context k (cpuRunContextOnAlloc (s.context k)) j).flags = 0 ∨
      (Function.update s.context k (cpuRunContextOnAlloc (s.context k)) j).flags =
        CRC_HAVE_SAVED_UC_CONTEXT := fun j hj => by
    rw [hother j hj]
    exact h.flags j hj
  refine ⟨⟨h.seg.congr fun j hj => State.next_congr (hother j hj), fun cpu' => ?_,
    fun j hj => h.pool_free j (mem_of_cpuAllocContext halloc hj), h.bounded, hflags⟩,
      ⟨hk, hlt, ?_, ?_⟩, hother⟩
  · by_cases hcpu : cpu' = k.cpu
    · subst hcpu
      simpa using hrest
    · simpa [Function.update_of_ne hcpu] using h.pool_nodup cpu'
  · simpa using hindex
  · simp [cpuRunContextOnAlloc]

/-- The chain stays in order when a context is taken from its pool. -/
theorem linked_cpuAllocContext {cpu : CpuId} {s s' : State} {l : List CtxId} {k : CtxId}
    (h : Linked s l) (halloc : cpuAllocContext cpu s = some (k, s')) :
    Linked s' l ∧ Fresh s' l k := by
  obtain ⟨⟨hseg, hnodup, hfree, hbounded, hflags⟩, hfresh, -⟩ :=
    threaded_cpuAllocContext h.threaded halloc
  obtain ⟨-, rest, -, rfl⟩ := cpuAllocContext_eq_some halloc
  exact ⟨⟨hseg, h.counted, hnodup, hfree, hbounded, hflags, h.asserts⟩, hfresh⟩

/-- `CpuAllocContext` takes the first context of its engine's pool. -/
theorem cpuAllocContext_spec {cpu : CpuId} {s s' : State} {l : List CtxId} {k : CtxId}
    (h : Chained s l) (halloc : cpuAllocContext cpu s = some (k, s')) :
    k.cpu = cpu ∧ s.runContextAlloc cpu ≠ [] ∧ Allocated k l s s' ∧ s'.images = s.images ∧
      (s'.context k).imageRecord = none := by
  obtain ⟨⟨hseg, hnodup, hfree, hbounded, hflags⟩, hfresh, hother⟩ :=
    threaded_cpuAllocContext h.threaded halloc
  obtain ⟨hcpu, rest, hpool, rfl⟩ := cpuAllocContext_eq_some halloc
  refine ⟨hcpu, by
    simp [hpool], ⟨⟨⟨hseg, h.counted, hnodup, hfree, hbounded, hflags, h.asserts⟩, ?_⟩, hfresh,
      hother, rfl, rfl, rfl, rfl⟩, rfl, ?_⟩
  · rw [List.map_congr_left fun j hj => State.entry_congr (hother j hj)]
    exact h.saved
  · simp [cpuRunContextOnAlloc]

/-! ## what the operations do to the books -/

/-- What is above `k` on the chain, namely `pre`, is popped, if there is anything. -/
def State.compressed (pre : List CtxId) (k : CtxId) (s : State) : State :=
  if pre = [] then s else s.popped pre (some k)

/-- Compressing the leaked contexts gives back what they have saved, the newest first. -/
theorem ue_compressed (pre : List CtxId) (k : CtxId) (s : State) :
    (s.compressed pre k).ue = replay (pre.map s.entry) s.ue := by
  unfold State.compressed
  split
  · subst pre; rfl
  · rfl

theorem memory_compressed (pre : List CtxId) (k : CtxId) (s : State) :
    (s.compressed pre k).memory = s.memory := by
  unfold State.compressed
  split <;> rfl

/-- What stays on the chain keeps its data. -/
theorem context_compressed {s : State} {pre post : List CtxId} {k j : CtxId}
    (h : Chained s (pre ++ k :: post)) (hj : j ∈ k :: post) :
    (s.compressed pre k).context j = s.context j := by
  unfold State.compressed
  split
  · rfl
  · exact h.threaded.context_popped _ hj

/-- Compressing the leaked contexts leaves a chain. -/
theorem Chained.compressed {s : State} {pre post : List CtxId} {k : CtxId}
    (h : Chained s (pre ++ k :: post)) : Chained (s.compressed pre k) (k :: post) := by
  unfold State.compressed
  split
  · subst pre; exact h
  · exact h.of_append

theorem mTopContext_compressed {s : State} {pre post : List CtxId} {k : CtxId}
    (h : Chained s (pre ++ k :: post)) : (s.compressed pre k).mTopContext = some k :=
  h.compressed.seg.1

namespace Booked

variable {cfg : Config} {s s' : State} {stack rest : List Frame} {chain pre post : List CtxId}
  {a : Activation}

/-- Frames that are dropped leave the books as they are. -/
theorem unwind (frames : List Frame) (h : Booked cfg s (frames ++ stack) chain) :
    Booked cfg s stack chain where
  chained := h.chained
  live := by
    have := h.live
    rw [activations_append] at this
    exact this.of_append
  nested := h.nested.of_append

theorem sameBooks (h : Booked cfg s stack chain) (hs : SameBooks s s') :
    Booked cfg s' stack chain :=
  ⟨hs.chained h.chained, h.live.sameBooks hs, h.nested⟩

/-- The innermost activation may note where it runs and what it calls with. -/
theorem modify (h : Booked cfg s (.run a :: rest) chain) (programCounter : UINT64)
    (atCall : RegFile) :
    Booked cfg s (.run { a with programCounter := programCounter, atCall := atCall } :: rest)
      chain :=
  ⟨h.chained, h.live.modify programCounter atCall, h.nested⟩

/-- The context of a live activation is somewhere on the chain. -/
theorem split (h : Booked cfg s (.run a :: rest) chain) :
    ∃ pre post, chain = pre ++ a.context :: post :=
  List.append_of_mem (h.live.context_mem List.mem_cons_self)

/-- Popping what is above the innermost activation. -/
theorem compressed (h : Booked cfg s (.run a :: rest) (pre ++ a.context :: post)) :
    Booked cfg (s.compressed pre a.context) (.run a :: rest) (a.context :: post) where
  chained := h.chained.compressed
  live := by
    have hsub := h.live.split rfl h.chained.nodup
    refine h.live.congr (hsub.cons_cons _) (fun b hb => ?_) ?_
    · have hmem : b.context ∈ a.context :: post := by
        rcases List.mem_cons.mp hb with rfl | hb
        · exact List.mem_cons_self
        · exact List.mem_cons_of_mem _ (hsub.subset (List.mem_map_of_mem hb))
      rw [context_compressed h.chained hmem]
      exact ⟨rfl, rfl⟩
    · unfold State.compressed
      split <;> rfl
  nested := h.nested

/-- Popping the innermost activation's context as well ends the activation. -/
theorem popped (h : Booked cfg s (.run a :: rest) (pre ++ a.context :: post)) :
    Booked cfg (s.popped (pre ++ [a.context]) (ptr post none)) rest post := by
  have happ : pre ++ a.context :: post = (pre ++ [a.context]) ++ post := by simp
  have hchained := h.chained
  rw [happ] at hchained
  have hsub := h.live.split rfl h.chained.nodup
  refine ⟨hchained.of_append, ?_, h.nested.2⟩
  have hlive : Live cfg s (pre ++ a.context :: post) ([a] ++ activations rest) := h.live
  refine hlive.of_append.congr hsub (fun b hb => ?_) rfl
  rw [hchained.threaded.context_popped _ (hsub.subset (List.mem_map_of_mem hb))]
  exact ⟨rfl, rfl⟩

/-- The activation's context returns `ret`, and is popped. -/
theorem finished {l : List CtxId} (ret : UINT64)
    (h : Booked cfg s (.run a :: rest) (a.context :: l)) :
    Booked cfg ((s.setRet a.context ret).popped [a.context] (ptr l none)) rest l := by
  have hret : Booked cfg (s.setRet a.context ret) (.run a :: rest) ([] ++ a.context :: l) := by
    refine ⟨h.chained.setRet _ _, h.live.congr h.live.sublist (fun b _ => ?_) rfl, h.nested⟩
    by_cases hb : b.context = a.context
    · simp [State.setRet, State.modifyContext, hb]
    · simp [State.setRet, State.modifyContext, hb]
  exact hret.popped

/-- A new activation on top of the stack. -/
theorem enter {k : CtxId} {fp : Nat} {image : Option RecordId} {sys : System} {s₀ : State}
    (h : Booked cfg sys.emu sys.stack chain) (hs : Allocated k chain sys.emu s₀)
    (hnative : ∃ id rest, sys.stack = .native id :: rest) (hfp : fpFits fp sys.stack = true)
    (himage : (s₀.context k).imageRecord = image)
    (hentered : Entered cfg k fp (kept cfg sys.emu fp chain) s₀ s)
    (ho : s.mOriginalStack =
      (if sys.switches cfg then some sys.nextId else none).or s₀.mOriginalStack) :
    Booked cfg s (.run (sys.activation cfg k image fp s) :: sys.stack)
      (k :: kept cfg sys.emu fp chain) := by
  have hlive := h.live
  have hkept := hlive.kept hfp
  have hctx : ∀ a ∈ activations sys.stack, s.context a.context = sys.emu.context a.context := by
    intro a ha
    rw [hentered.older _ (hkept.subset (List.mem_map_of_mem ha))]
    exact hs.older _ (hlive.context_mem ha)
  refine ⟨hentered.chained, ?_, hnative, h.nested⟩
  refine ⟨hkept.cons_cons k, fun hcfg a ha => ?_, fun a ha => ?_, fun hcfg as a hacts => ?_⟩
  · rcases List.mem_cons.mp ha with rfl | ha
    · exact hentered.leakCookie hcfg
    · rw [hctx a ha]
      exact hlive.cookies hcfg a ha
  · rcases List.mem_cons.mp ha with rfl | ha
    · exact hentered.imageRecord.trans himage
    · rw [hctx a ha]
      exact hlive.images a ha
  · rw [activations_run] at hacts
    cases as with
    | nil =>
        obtain ⟨rfl, hnone⟩ := List.cons.inj hacts
        have hswitch : sys.switches cfg = true := by simp [System.switches, hcfg, hnone]
        refine ⟨?_, hswitch, by simp⟩
        rw [ho, hswitch]
        rfl
    | cons b as =>
        have hb := (List.cons.inj hacts).1
        subst hb
        have htail : activations sys.stack = as ++ [a] := (List.cons.inj hacts).2
        have hswitch : sys.switches cfg = false := by simp [System.switches, htail]
        obtain ⟨hos, hsw, hrest⟩ := hlive.switched hcfg as a htail
        refine ⟨?_, hsw, fun c hc => ?_⟩
        · rw [ho, hswitch, hs.mOriginalStack]
          exact hos
        · rcases List.mem_cons.mp hc with rfl | hc
          · exact hswitch
          · exact hrest c hc

end Booked

/-! ## what the functions of the system do -/

variable {cfg : Config} {sys sys' : System} {chain pre post : List CtxId} {a : Activation}
  {rest : List Frame}

/-- A native call that returns frees what has been leaked above its caller. -/
theorem resume_eq (rest : List Frame) (value : UINT64)
    (h : Chained sys.emu (pre ++ a.context :: post)) :
    sys.resume a rest value = some
      (sys.resumed a rest value (sys.emu.compressed pre a.context)) := by
  rw [System.resume, nativeThunkCheckLeakedContexts_spec h.toLinked]
  rfl

/-- The flag is clear when `CpuRunCtxOnPrivateStack` looks at it. -/
theorem jumpsToOriginalStack_leave {s : State} {k : CtxId} {l : List CtxId}
    (cfg : Config) (ret : UINT64) (h : Threaded s (k :: l)) :
    System.jumpsToOriginalStack cfg k (cpuRunCtxOnPrivateStackLeave k ret s) =
      cfg.onPrivateStack := by
  obtain ⟨asserts, heq, -⟩ := cpuRunCtxOnPrivateStackLeave_eq ret h
  rw [heq]
  simp [System.jumpsToOriginalStack, clearFlags, CpuRunContext.haveSaved]

/-- A context that returns to its own caller, as it does without a private
stack and when it is the one that switched to it. -/
theorem finish_eq (sys : System) (rest : List Frame) {l : List CtxId} (ret : UINT64)
    (h : Chained sys.emu (a.context :: l))
    (hswitch : cfg.onPrivateStack = true → sys.emu.mOriginalStack = some a.id) :
    sys.finish cfg a rest ret = some { sys with
      emu := (sys.emu.setRet a.context ret).popped [a.context] (ptr l none)
      stack := rest
      trace := .returned a.id ret :: sys.trace } := by
  have ho : (cpuRunCtxOnPrivateStackLeave a.context ret sys.emu).mOriginalStack =
      sys.emu.mOriginalStack := by
    obtain ⟨asserts, heq, -⟩ := cpuRunCtxOnPrivateStackLeave_eq ret h.threaded
    rw [heq]
    rfl
  have hjumps := jumpsToOriginalStack_leave cfg ret h.threaded
  cases hcfg : cfg.onPrivateStack with
  | false =>
      rw [hcfg] at hjumps
      simp [System.finish, hjumps, cpuRunCtxReturn_leave h]
  | true =>
      rw [hcfg] at hjumps
      have hunwind : unwindToRun a.id (.run a :: rest) = some (a, rest) := by simp [unwindToRun]
      simp [System.finish, hjumps, ho, hswitch hcfg, hunwind, cpuRunCtxReturn_leave h]

/-- The image's context and what is above it are popped. -/
theorem cpuRunImageExit_eq (sys : System) {id : Nat} {record : RecordId}
    (hunwind : unwindToRun id sys.stack = some (a, rest)) (himage : a.image = some record)
    (h : Chained sys.emu (pre ++ a.context :: post)) :
    sys.cpuRunImageExit id = some (sys.exited a rest record
      (sys.emu.popped (pre ++ [a.context]) (ptr post none))) := by
  have happ : pre ++ a.context :: post = (pre ++ [a.context]) ++ post := by simp
  have hlinked := h.toLinked
  rw [happ] at hlinked
  have hnext : sys.emu.next a.context = ptr post none := h.seg.next_of_mem
  have hcompress := cpuCompressLeakedContexts_spec a.context true hlinked hnext
  simp [System.cpuRunImageExit, hunwind, himage, hcompress]

/-! ## what a step can do -/

/-- The books and the engines are the same. -/
structure Quiet (s s' : State) : Prop extends SameBooks s s' where
  ue : s'.ue = s.ue

theorem Quiet.refl (s : State) : Quiet s s := ⟨.refl s, rfl⟩

/-- The native thunks read registers and memory, and may write memory. -/
theorem nativeThunkEnter_regs (cfg : Config) (cpu : CpuId) (programCounter : UINT64) (e : Engine) :
    (nativeThunkEnter cfg cpu programCounter e).2.regs = e.regs := by
  cases cpu with
  | x64 =>
      simp only [nativeThunkEnter, nativeThunkX64Enter]
      split <;> rfl
  | aarch64 => rfl

/-- Where the call goes depends on the target alone. -/
theorem nativeThunkEnter_func (cfg : Config) (cpu : CpuId) (programCounter : UINT64) (e : Engine) :
    (nativeThunkEnter cfg cpu programCounter e).1.func =
      nativeValidateSupportedCall cfg programCounter := by
  cases cpu with
  | x64 =>
      simp only [nativeThunkEnter, nativeThunkX64Enter]
      split <;> rfl
  | aarch64 => rfl

/-- How a native call made by `a` in `sys` can go on, `sys'` being the system
at the next decision. -/
inductive AfterCall (sys : System) (a : Activation) (rest : List Frame) (sys' : System) : Prop where
  /-- A native function or wrapper has been called. -/
  | called (hemu : Quiet sys.emu sys'.emu)
      (hstack : sys'.stack = .native sys.nextId :: .run a :: rest)
      (hnext : sys'.nextId = sys.nextId + 1)
  /-- The driver's own wrappers have returned. -/
  | resumed (sys₁ : System) (value : UINT64) (hemu : Quiet sys.emu sys₁.emu)
      (hnext : sys₁.nextId = sys.nextId) (h : sys₁.resume a rest value = some sys')
  /-- `CpuExitImage` has jumped to a `CpuRunImage`. -/
  | exited (sys₁ : System) (id : Nat) (hemu : Quiet sys.emu sys₁.emu)
      (hstack : sys₁.stack = .run a :: rest) (hnext : sys₁.nextId = sys.nextId)
      (h : sys₁.cpuRunImageExit id = some sys')

/-- The emulated function of `a` has come to its end. -/
def EndsRun (cfg : Config) (a : Activation) (regs : RegFile) (ucErr : UcErr) : Prop :=
  cpuExitReason cfg ucErr (regs a.context.cpu.programCounterReg) = .returnToNative ∨
    cpuExitReason cfg ucErr (regs a.context.cpu.programCounterReg) = .failedEmu

/-- How the system goes on when `uc_emu_start` leaves `regs` to the activation `a`. -/
inductive AfterEmulation (cfg : Config) (sys : System) (a : Activation) (rest : List Frame)
    (regs : RegFile) (ucErr : UcErr) (sys' : System) : Prop where
  | runs (programCounter : UINT64) (hemu : SameBooks sys.emu sys'.emu)
      (hue : sys'.emu.ue = Function.update sys.emu.ue a.context.cpu regs)
      (hstack : sys'.stack = .run { a with programCounter := programCounter } :: rest)
      (hnext : sys'.nextId = sys.nextId)
  | ends (s : State) (ret : UINT64) (left : RegFile) (hends : EndsRun cfg a regs ucErr)
      (hemu : SameBooks sys.emu s) (hue : s.ue = Function.update sys.emu.ue a.context.cpu left)
      (h : System.finish cfg { sys with emu := s } a rest ret = some sys')
  | calls (sys₁ : System)
      (hreason : cpuExitReason cfg ucErr (regs a.context.cpu.programCounterReg) = .callToNative)
      (hemu : SameBooks sys.emu sys₁.emu)
      (hue : sys₁.emu.ue = Function.update sys.emu.ue a.context.cpu regs)
      (hnext : sys₁.nextId = sys.nextId) (h : AfterCall sys₁ { a with atCall := regs } rest sys')

/-- The critical section of `CpuExitImage`, in which it looks for a context. -/
def State.imageSection (context : Option CtxId) (s : State) : State :=
  (s.criticalBegin.assert .imageContext (context ≠ none)).criticalEnd

/-- The section of `CpuExitImage` changes no books and no registers. -/
theorem imageSection_quiet (context : Option CtxId) (s : State) :
    Quiet s (s.imageSection context) := by
  have hassert := SameBooks.assert s.criticalBegin (a := .imageContext) rfl (by decide)
    (context ≠ none)
  refine ⟨((SameBooks.criticalBegin s).trans hassert).trans (SameBooks.criticalEnd _), ?_⟩
  simp only [State.imageSection, State.criticalEnd, State.assert_eq]
  rfl

theorem imageSection_same (context : Option CtxId) (s : State) :
    (s.imageSection context).images = s.images ∧ (s.imageSection context).memory = s.memory := by
  simp only [State.imageSection, State.criticalEnd, State.assert_eq]
  exact ⟨rfl, rfl⟩

/-- `CpuExitImage` returns to its caller, or jumps to a `CpuRunImage`. -/
theorem cpuExitImage_cases (sys : System) {args : Args} (hstack : sys.stack = .run a :: rest)
    (h : sys.cpuExitImage a rest args = some sys') : AfterCall sys a rest sys' := by
  unfold System.cpuExitImage at h
  split at h
  · exact .resumed sys EFI_INVALID_PARAMETER (.refl _) rfl h
  · rename_i record _
    obtain ⟨context, -, h⟩ := Option.bind_eq_some_iff.mp h
    have hquiet := imageSection_quiet context sys.emu
    cases context with
    | none =>
        exact .resumed { sys with emu := sys.emu.imageSection none }
          EFI_INVALID_PARAMETER hquiet rfl h
    | some k =>
        simp only at h
        split at h
        · exact .resumed { sys with emu := sys.emu.imageSection (some k) }
            EFI_INVALID_PARAMETER hquiet rfl h
        · obtain ⟨id, -, h⟩ := Option.bind_eq_some_iff.mp h
          exact .exited { sys with emu := (sys.emu.imageSection (some k)).setImageExit record args }
            id
            ⟨hquiet.toSameBooks.trans (SameBooks.setImageExit _ record args), hquiet.ue⟩
              hstack rfl h

/-- The loop of `CpuExitImage` finds the innermost context of an image. -/
theorem findImageContext_eq {s : State} {n : Nat} {top : Option CtxId} {chain : List CtxId}
    (h : Seg s.next top chain none) (hn : chain.length < n) :
    System.findImageContext s n top = some
      (chain.find? fun k => (s.context k).imageRecord ≠ none) := by
  induction chain generalizing top n with
  | nil =>
      obtain rfl := seg_nil.mp h
      cases n with
      | zero => cases hn
      | succ n => rfl
  | cons k chain ih =>
      obtain ⟨rfl, hrest⟩ := h
      cases n with
      | zero => cases hn
      | succ n =>
          rw [System.findImageContext]
          by_cases hk : (s.context k).imageRecord = none
          · rw [if_pos hk, ih hrest (by simpa using hn), List.find?_cons_of_neg (by simp [hk])]
          · rw [if_neg hk, List.find?_cons_of_pos (by simp [hk])]

/-- The innermost context of an image, if it is of the image with this handle. -/
def imageToExit (s : State) (chain : List CtxId) (handle : UINT64) : Option RecordId :=
  (imageFindByHandle s.images handle).bind fun record =>
    (chain.find? fun k => (s.context k).imageRecord ≠ none).bind fun k =>
      if (s.context k).imageRecord = some record then some record else none

/-- `CpuExitImage` returns an error unless the innermost image is the one to exit. -/
theorem cpuExitImage_returns (a : Activation) (rest : List Frame) {args : Args}
    (h : Chained sys.emu chain)
    (hnone : imageToExit sys.emu chain (args 0) = none) :
    ∃ s, Quiet sys.emu s ∧ s.images = sys.emu.images ∧ s.memory = sys.emu.memory ∧
      sys.cpuExitImage a rest args = System.resume
        { sys with emu := s } a rest EFI_INVALID_PARAMETER := by
  unfold System.cpuExitImage
  unfold imageToExit at hnone
  cases hhandle : imageFindByHandle sys.emu.images (args 0) with
  | none => exact ⟨sys.emu, .refl _, rfl, rfl, rfl⟩
  | some record =>
      have hfind : System.findImageContext sys.emu.criticalBegin chainFuel sys.emu.mTopContext =
          some (chain.find? fun k => (sys.emu.context k).imageRecord ≠ none) :=
        findImageContext_eq (s := sys.emu.criticalBegin) h.seg h.toLinked.length_lt
      rw [hhandle, Option.bind_some] at hnone
      generalize (chain.find? fun k => (sys.emu.context k).imageRecord ≠ none) =
        context at hfind hnone
      obtain ⟨himages, hmemory⟩ := imageSection_same context sys.emu
      refine ⟨_, imageSection_quiet context sys.emu, himages, hmemory, ?_⟩
      show (System.findImageContext sys.emu.criticalBegin chainFuel sys.emu.mTopContext).bind _ = _
      rw [hfind]
      cases context with
      | none => rfl
      | some k =>
          rw [Option.bind_some] at hnone
          have hne : ((sys.emu.imageSection (some k)).context k).imageRecord ≠ some record :=
            fun heq => by
            rw [congrFun (imageSection_quiet (some k) sys.emu).context k] at heq
            rw [if_pos heq] at hnone
            cases hnone
          exact if_pos hne

/-- `CpuExitImage` accepts the handle of the innermost image that runs, and no other. -/
theorem imageToExit_eq_some {s : State} {handle : UINT64} {record : RecordId} :
    imageToExit s chain handle = some record ↔ imageFindByHandle s.images handle = some record ∧
      ∃ k, chain.find? (fun k => (s.context k).imageRecord ≠ none) = some k ∧
        (s.context k).imageRecord = some record := by
  simp only [imageToExit, Option.bind_eq_some_iff]
  constructor
  · rintro ⟨record', hhandle, k, hfind, hif⟩
    obtain ⟨hk, heq⟩ := Option.ite_none_right_eq_some.mp hif
    obtain rfl := Option.some.inj heq
    exact ⟨hhandle, k, hfind, hk⟩
  · rintro ⟨hhandle, k, hfind, hk⟩
    exact ⟨record, hhandle, k, hfind, if_pos hk⟩

/-- Then it jumps to the buffer that the image's record holds. -/
theorem cpuExitImage_jumps (a : Activation) (rest : List Frame) {args : Args} {record : RecordId}
    (h : Chained sys.emu chain)
    (hsome : imageToExit sys.emu chain (args 0) = some record) :
    ∃ s, Quiet sys.emu s ∧ s.images = (sys.emu.setImageExit record args).images ∧
      sys.cpuExitImage a rest args = (sys.emu.jumpBuffer record).bind fun id =>
        System.cpuRunImageExit { sys with emu := s } id := by
  obtain ⟨hhandle, k, hfirst, hrecord⟩ := imageToExit_eq_some.mp hsome
  have hfind : System.findImageContext sys.emu.criticalBegin chainFuel sys.emu.mTopContext =
      some (some k) :=
    (findImageContext_eq (s := sys.emu.criticalBegin) h.seg h.toLinked.length_lt).trans
      (congrArg some hfirst)
  have hquiet := imageSection_quiet (some k) sys.emu
  obtain ⟨himages, -⟩ := imageSection_same (some k) sys.emu
  have hset := SameBooks.setImageExit (sys.emu.imageSection (some k)) record args
  have hk : ¬ ((sys.emu.imageSection (some k)).context k).imageRecord ≠ some record := by
    rw [congrFun hquiet.context k]
    exact not_not.mpr hrecord
  refine ⟨(sys.emu.imageSection (some k)).setImageExit record args,
    ⟨hquiet.toSameBooks.trans hset, hquiet.ue⟩, ?_, ?_⟩
  · simp only [State.setImageExit, State.modifyRecord, himages]
  · have hbuffer : ((sys.emu.imageSection (some k)).setImageExit record args).jumpBuffer record =
        sys.emu.jumpBuffer record := congrFun (hset.jumpBuffer.trans hquiet.jumpBuffer) record
    rw [← hbuffer]
    unfold System.cpuExitImage
    rw [hhandle]
    change (System.findImageContext sys.emu.criticalBegin chainFuel sys.emu.mTopContext).bind _ = _
    rw [hfind, Option.bind_some]
    exact if_neg hk

theorem AfterCall.of_quiet {sys₁ : System} (hemu : Quiet sys.emu sys₁.emu)
    (hnext : sys₁.nextId = sys.nextId) (h : AfterCall sys₁ a rest sys') :
    AfterCall sys a rest sys' := by
  have htrans : ∀ {s : State}, Quiet sys₁.emu s → Quiet sys.emu s := fun hs =>
    ⟨hemu.toSameBooks.trans hs.toSameBooks, hs.ue.trans hemu.ue⟩
  cases h with
  | called h hstack hid => exact .called (htrans h) (hnext ▸ hstack) (by rw [hid, hnext])
  | resumed sys₂ value h hid hresume =>
      exact .resumed sys₂ value (htrans h) (hid.trans hnext) hresume
  | exited sys₂ id h hstack hid hexit =>
      exact .exited sys₂ id (htrans h) hstack (hid.trans hnext) hexit

/-- What may follow a native call. -/
theorem callNative_cases {programCounter : UINT64}
    (h : sys.callNative cfg a rest programCounter = some sys') :
    AfterCall sys { a with atCall := sys.emu.ue a.context.cpu } rest sys' := by
  unfold System.callNative at h
  simp only at h
  let r := nativeThunkEnter cfg a.context.cpu programCounter
    ⟨sys.emu.ue a.context.cpu, sys.emu.memory⟩
  let sys₁ := sys.called { a with atCall := sys.emu.ue a.context.cpu } rest r.1 r.2
  have hquiet : Quiet sys.emu sys₁.emu := by
    refine ⟨SameBooks.setEngines _ _ _, ?_⟩
    change Function.update sys.emu.ue a.context.cpu r.2.regs = sys.emu.ue
    rw [nativeThunkEnter_regs, Function.update_eq_self]
  split at h
  · exact .resumed sys₁ EFI_UNSUPPORTED hquiet rfl h
  · exact (cpuExitImage_cases sys₁ rfl h).of_quiet hquiet rfl
  · obtain rfl := Option.some.inj h
    exact .called hquiet rfl rfl

/-- Emulation changes its own engine and memory, and nothing else. -/
theorem emulated_spec (cpu : CpuId) (regs : RegFile) (memory : WordMemory.Memory) (ucErr : UcErr)
    (s : State) :
    SameBooks s (System.emulated cpu regs memory ucErr s) ∧
      (System.emulated cpu regs memory ucErr s).ue = Function.update s.ue cpu regs ∧
      (System.emulated cpu regs memory ucErr s).memory = memory ∧
      (System.emulated cpu regs memory ucErr s).images = s.images := by
  refine ⟨((((SameBooks.criticalBegin s).trans (.setEngines _ _ _)).trans
    (.assert _ rfl (by decide) _)).trans
    (.criticalEnd _)).trans (.assert _ rfl (by decide) _), ?_⟩
  simp only [System.emulated, State.criticalEnd, State.assert_eq]
  exact ⟨rfl, trivial, rfl⟩

/-- Emulated code stops at something that is to be called. -/
theorem cpuRunCtxInternal_calls {regs : RegFile} {memory : WordMemory.Memory} {ucErr : UcErr}
    (hreason : cpuExitReason cfg ucErr (regs a.context.cpu.programCounterReg) = .callToNative)
    (h : sys.cpuRunCtxInternal cfg a rest regs memory ucErr = some sys') :
    ∃ sys₁ : System, SameBooks sys.emu sys₁.emu ∧
      sys₁.emu.ue = Function.update sys.emu.ue a.context.cpu regs ∧ sys₁.nextId = sys.nextId ∧
      AfterCall sys₁ { a with atCall := regs } rest sys' := by
  obtain ⟨hbooks, hue, -, -⟩ := emulated_spec a.context.cpu regs memory ucErr sys.emu
  have hpc : (System.emulated a.context.cpu regs memory ucErr sys.emu).ue a.context.cpu = regs := by
    rw [hue, Function.update_self]
  unfold System.cpuRunCtxInternal at h
  simp only [hpc, hreason] at h
  have hcall := callNative_cases h
  simp only [hpc] at hcall
  exact ⟨{ sys with emu := System.emulated a.context.cpu regs memory ucErr sys.emu },
    hbooks, hue, rfl, hcall⟩

/-- What may follow a round of emulation. -/
theorem cpuRunCtxInternal_cases {regs : RegFile} {memory : WordMemory.Memory} {ucErr : UcErr}
    (h : sys.cpuRunCtxInternal cfg a rest regs memory ucErr = some sys') :
    AfterEmulation cfg sys a rest regs ucErr sys' := by
  obtain ⟨hbooks, hue, -, -⟩ := emulated_spec a.context.cpu regs memory ucErr sys.emu
  have hpc : (System.emulated a.context.cpu regs memory ucErr sys.emu).ue a.context.cpu = regs := by
    rw [hue, Function.update_self]
  have hinternal := h
  unfold System.cpuRunCtxInternal at h
  simp only [hpc] at h
  split at h
  · obtain rfl := Option.some.inj h
    exact .runs _ hbooks hue rfl rfl
  · rename_i hreason
    obtain ⟨sys₁, hemu, hue₁, hnext, hcall⟩ := cpuRunCtxInternal_calls hreason hinternal
    exact .calls sys₁ hreason hemu hue₁ hnext hcall
  · rename_i hreason
    let s := System.emulated a.context.cpu regs memory ucErr sys.emu
    refine .ends _ _ (emuThunkPost a.context.cpu ⟨s.ue a.context.cpu, s.memory⟩).regs (.inl hreason)
      (hbooks.trans (.withEngine s _ _)) ?_ h
    simp only [State.withEngine, s, hue, Function.update_idem]
  · rename_i hreason
    exact .ends _ _ regs (.inr hreason) hbooks hue h

/-- How a call of emulated code on the engine `cpu`, of the image `image` if it is one, can go
on. -/
inductive AfterRun (cfg : Config) (sys : System) (chain : List CtxId) (cpu : CpuId)
    (image : Option RecordId) (fp : Nat) (sys' : System) : Prop where
  /-- The engine's pool is empty, and an error is returned. -/
  | failed (s : State) (ret : UINT64) (hpool : sys.emu.runContextAlloc cpu = [])
      (hquiet : Quiet sys.emu s) (h : sys' = System.returned { sys with emu := s } ret)
  /-- A context has been allocated for it, and entered. -/
  | entered (k : CtxId) (s : State) (hs : Allocated k chain sys.emu s)
      (hcpu : k.cpu = cpu) (hpool : sys.emu.runContextAlloc cpu ≠ [])
      (himage : (s.context k).imageRecord = image)
      (hbuffer : ∀ r, s.jumpBuffer r = if image = some r then some sys.nextId
        else sys.emu.jumpBuffer r)
      (h : sys.cpuRunCtx cfg k image fp s = some sys')

/-- What `CpuRunFunc` does, for any chain that it finds. -/
theorem cpuRunFunc_cases {cpu : CpuId} {programCounter : UINT64} {args : Args} {fp : Nat}
    (hc : Chained sys.emu chain) (h : sys.cpuRunFunc cfg cpu programCounter args fp = some sys') :
    AfterRun cfg sys chain cpu none fp sys' := by
  unfold System.cpuRunFunc at h
  split at h
  · rename_i halloc
    exact .failed sys.emu _ (cpuAllocContext_eq_none halloc) (.refl _) (Option.some.inj h).symm
  · rename_i k s halloc
    obtain ⟨hcpu, hpool, hs, himages, himage⟩ := cpuAllocContext_spec hc halloc
    refine .entered k _ (hs.modifyContext (f := fun c =>
      { c with programCounter := programCounter, args := args }) fun _ => rfl) hcpu hpool ?_
        (fun r => ?_) h
    · simpa [State.modifyContext] using himage
    · simp [State.jumpBuffer, State.modifyContext, himages]

/-- What `CpuRunImage` does, for any chain that it finds. -/
theorem cpuRunImage_cases {imageHandle systemTable imageBase : UINT64} {fp : Nat}
    (hc : Chained sys.emu chain)
    (h : sys.cpuRunImage cfg imageHandle systemTable (.ok imageBase) fp = some sys') :
    ∃ record, imageFindByAddress sys.emu.images imageBase = some record ∧
      AfterRun cfg sys chain (sys.emu.images.record record).cpu (some record) fp sys' := by
  unfold System.cpuRunImage at h
  simp only at h
  split at h
  · cases h
  · rename_i record hrecord
    refine ⟨record, hrecord, ?_⟩
    split at h
    · rename_i halloc
      exact .failed _ _ (cpuAllocContext_eq_none halloc)
        ⟨.assert _ rfl (by decide) _, by rw [State.assert_eq]⟩
        (Option.some.inj h).symm
    · rename_i k s halloc
      obtain ⟨hcpu, hpool, hs, himages, -⟩ := cpuAllocContext_spec hc halloc
      refine .entered k _ (((hs.modifyRecord record fun r =>
        { r with imageHandle := imageHandle }).modifyContext (f := fun c =>
          { c with
            imageRecord := some record
            programCounter := ((s.modifyRecord record fun r =>
              { r with imageHandle := imageHandle }).images.record record).imageEntry
            args := System.imageArgs imageHandle systemTable }) fun _ => rfl).modifyRecord record
        fun r => { r with imageExitJumpBuffer := some sys.nextId }) hcpu hpool ?_ (fun r => ?_) h
      · simp [State.modifyContext, State.modifyRecord]
      · by_cases hr : r = record
        · simp [State.jumpBuffer, State.modifyContext, State.modifyRecord, hr]
        · simp [State.jumpBuffer, State.modifyContext, State.modifyRecord, himages,
            Function.update_of_ne hr, Ne.symm hr]

end MultiArchUefi
