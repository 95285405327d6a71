import MultiArchUefi.Accounting

/-!
# MultiArchUefi.ContextLifeCycle

A `CpuRunContext` is allocated, pushed on the chain, popped off it and freed.

`freeCalls` lists the calls of `CpuFreeContext` that a step makes, each with the
state it is made in.  Orphans are freed with whatever they have saved, which
`CpuFreeContext` asserts to be nothing.  The counters do not matter here, so
orphans may be of any engine.
-/

namespace MultiArchUefi

open Chain Nesting Transition

/-! ## the calls of `CpuFreeContext` -/

/-- The calls of a loop that frees contexts. -/
def loopFrees (stop context : Option CtxId) (s : State) : List (CtxId × State) :=
  visits freeNextContext stop chainFuel context s

/-- The calls of `CpuCompressLeakedContexts`, in its second loop. -/
def compressFrees (currentContext : CtxId) (onImageExit : Bool) (s : State) :
    List (CtxId × State) :=
  let s := s.criticalBegin
  let fromContext := s.mTopContext
  let toContext := if onImageExit then s.next currentContext else some currentContext
  match walk popLeakedContext toContext chainFuel fromContext
    { s with mTopContext := toContext } with
  | none => []
  | some s => loopFrees toContext fromContext s.criticalEnd

/-- The calls of `NativeThunkCheckLeakedContexts`. -/
def checkLeakedFrees (context : CtxId) (s : State) : List (CtxId × State) :=
  if s.mTopContext ≠ some context then compressFrees context false s else []

/-- The calls of `CpuFreeOrphanContexts`, for the context `k` on top of the chain. -/
def orphanFrees (cfg : Config) (k : CtxId) (fp : Nat) (s : State) : List (CtxId × State) :=
  if cfg.checkOrphanContexts then
    match cpuDetectOrphanContexts k fp s with
    | none => []
    | some (orphanContexts, s) => loopFrees none orphanContexts s.criticalEnd
  else []

namespace System

/-- The calls on the way into `CpuRunCtx`. -/
def runCtxFrees (cfg : Config) (sys : System) (k : CtxId) (fp : Nat) (s : State) :
    List (CtxId × State) :=
  let s := cpuEnterCritical k s
  let s := match (if sys.switches cfg then some sys.nextId else none) with
    | some id => { s with mOriginalStack := some id }
    | none => s
  orphanFrees cfg k fp s

/-- The calls at the start of `CpuRunFunc`. -/
def runFuncFrees (cfg : Config) (sys : System) (cpu : CpuId) (programCounter : UINT64) (args : Args)
    (fp : Nat) : List (CtxId × State) :=
  match cpuAllocContext cpu sys.emu with
  | none => []
  | some (k, s) =>
      sys.runCtxFrees cfg k fp
        (s.modifyContext k fun c => { c with programCounter := programCounter, args := args })

/-- The calls at the start of `CpuRunImage`. -/
def runImageFrees (cfg : Config) (sys : System) (imageHandle systemTable : UINT64)
    (loadedImage : Except UINT64 UINT64) (fp : Nat) : List (CtxId × State) :=
  match loadedImage with
  | .error _ => []
  | .ok imageBase =>
      match imageFindByAddress sys.emu.images imageBase with
      | none => []
      | some record =>
          match cpuAllocContext (sys.emu.images.record record).cpu sys.emu with
          | none => []
          | some (k, s) =>
              let s := s.modifyRecord record fun r => { r with imageHandle := imageHandle }
              let s := s.modifyContext k fun c =>
                { c with
                  imageRecord := some record
                  programCounter := (s.images.record record).imageEntry
                  args := imageArgs imageHandle systemTable }
              let s := s.modifyRecord record fun r =>
                { r with imageExitJumpBuffer := some sys.nextId }
              sys.runCtxFrees cfg k fp s

/-- The call at the end of `CpuRunFunc` or `CpuRunImage`. -/
def finishFrees (cfg : Config) (sys : System) (a : Activation) (rest : List Frame) (ret : UINT64) :
    List (CtxId × State) :=
  let s := cpuRunCtxOnPrivateStackLeave a.context ret sys.emu
  if jumpsToOriginalStack cfg a.context s then
    match s.mOriginalStack.bind fun id => unwindToRun id (.run a :: rest) with
    | none => []
    | some (caller, _) => [(caller.context, s.criticalEnd)]
  else [(a.context, s.criticalEnd)]

/-- The calls of `CpuRunImage` when its image has exited. -/
def imageExitFrees (sys : System) (id : Nat) : List (CtxId × State) :=
  match unwindToRun id sys.stack with
  | none => []
  | some (a, _) => if a.image = none then [] else compressFrees a.context true sys.emu

/-- The calls after `CpuExitImage` has been called by the activation `a`. -/
def exitImageFrees (sys : System) (a : Activation) (args : Args) : List (CtxId × State) :=
  match imageFindByHandle sys.emu.images (args 0) with
  | none => checkLeakedFrees a.context sys.emu
  | some currentImageRecord =>
      match findImageContext sys.emu.criticalBegin chainFuel sys.emu.criticalBegin.mTopContext with
      | none => []
      | some context =>
          let s := sys.emu.imageSection context
          match context with
          | none => checkLeakedFrees a.context s
          | some k =>
              if (s.context k).imageRecord ≠
                some currentImageRecord then checkLeakedFrees a.context s
              else
                let s := s.setImageExit currentImageRecord args
                match (s.images.record currentImageRecord).imageExitJumpBuffer with
                | none => []
                | some id => imageExitFrees { sys with emu := s } id

/-- The calls when the activation `a` calls `programCounter`, until native code runs. -/
def callNativeFrees (cfg : Config) (sys : System) (a : Activation) (rest : List Frame)
    (programCounter : UINT64) : List (CtxId × State) :=
  let regs := sys.emu.ue a.context.cpu
  let a := { a with atCall := regs }
  let (call, e) := nativeThunkEnter cfg a.context.cpu programCounter ⟨regs, sys.emu.memory⟩
  let sys := sys.called a rest call e
  match call.func with
  | .nativeUnsupported => checkLeakedFrees a.context sys.emu
  | .cpuExitImage => sys.exitImageFrees a call.args
  | _ => []

/-- The calls in one turn of the loop of `CpuRunCtxInternal`. -/
def internalFrees (cfg : Config) (sys : System) (a : Activation) (rest : List Frame)
    (regs : RegFile) (memory : WordMemory.Memory) (ucErr : UcErr) : List (CtxId × State) :=
  let cpu := a.context.cpu
  let s := emulated cpu regs memory ucErr sys.emu
  let programCounter := s.ue cpu cpu.programCounterReg
  let sys := { sys with emu := s }
  match cpuExitReason cfg ucErr programCounter with
  | .none => []
  | .callToNative => sys.callNativeFrees cfg a rest programCounter
  | .returnToNative =>
      let s := s.withEngine cpu (emuThunkPost cpu)
      finishFrees cfg { sys with emu := s } a rest (s.ue cpu cpu.returnValueReg)
  | .failedEmu => sys.finishFrees cfg a rest EFI_UNSUPPORTED

end System

/-- The calls of `CpuFreeContext` in a step, each with the state it is made in. -/
def freeCalls (cfg : Config) (sys : System) (action : Action) : List (CtxId × State) :=
  match action, sys.stack with
  | .runFunc cpu programCounter args fp, .native _ :: _ =>
      if fpFits fp sys.stack then sys.runFuncFrees cfg cpu programCounter args fp else []
  | .runImage imageHandle systemTable loadedImage fp, .native _ :: _ =>
      if fpFits fp sys.stack then sys.runImageFrees cfg imageHandle systemTable loadedImage fp else
        []
  | .emulate regs memory ucErr, .run a :: rest => sys.internalFrees cfg a rest regs memory ucErr
  | .ret _, .native _ :: .run a :: _ => checkLeakedFrees a.context sys.emu
  | _, _ => []

/-! ## the property -/

/-- The assertions about the life of a context. -/
def Assertion.isLifeCycle : Assertion → Bool
  | .topContext | .flagsClear | .objectUnlisted => true
  | _ => false

/-- In `s` the context `k` can be freed: it is allocated and has not been freed
since, is off the chain, and has nothing saved. -/
structure Freeable (k : CtxId) (s : State) : Prop where
  bounded : k.index < RUN_CONTEXTS_LIMIT
  allocated : k.index ∉ s.runContextAlloc k.cpu
  popped : k ∉ s.chain
  flags : (s.context k).flags = 0

/-- Between two steps every one of the `n` contexts of an engine is either free or
on the chain, once, and no assertion about the life of a context has failed. -/
structure LifeCycleKept (n : Nat) (s : State) : Prop where
  pool_nodup : ∀ cpu, (s.runContextAlloc cpu).Nodup
  chain_nodup : s.chain.Nodup
  bounded : ∀ k : CtxId, k.index ∈ s.runContextAlloc k.cpu ∨ k ∈ s.chain → k.index < n
  free_iff : ∀ k : CtxId, k.index < n → (k.index ∈ s.runContextAlloc k.cpu ↔ k ∉ s.chain)
  asserts : ∀ a ∈ s.failedAsserts, a.isLifeCycle = false

/-- What a new context that can be allocated finds to be orphans has saved nothing. -/
def OrphansClear (cfg : Config) (sys : System) (action : Action) : Prop :=
  ∀ c ∈ action.callee sys, sys.emu.runContextAlloc c.1 ≠ [] →
    ∀ j ∈ orphans cfg sys.emu c.2 sys.emu.chain, (sys.emu.context j).flags = 0

instance (cfg : Config) (sys : System) (action : Action) :
    Decidable (OrphansClear cfg sys action) :=
  inferInstanceAs (Decidable (∀ c ∈ action.callee sys, _))

/-- The pools when the action has taken the context that it needs. -/
def poolLeft (sys : System) (action : Action) (cpu : CpuId) : List Nat :=
  match action.callee sys with
  | some (callee, _) =>
      if callee = cpu then (sys.emu.runContextAlloc cpu).tail else sys.emu.runContextAlloc cpu
  | none => sys.emu.runContextAlloc cpu

/-! ## loops that free -/

/-- What is left of the contexts that a loop frees, `l`, while the chain is `post`. -/
structure Unlinked (stop : Option CtxId) (post l : List CtxId) (s : State) : Prop where
  seg : Seg s.next (ptr l stop) l stop
  nodup : l.Nodup
  freeable : ∀ k ∈ l, k.index < RUN_CONTEXTS_LIMIT ∧ k.index ∉ s.runContextAlloc k.cpu ∧ k ∉ post ∧
    (s.context k).flags = 0
  chain : Seg s.next s.mTopContext post none
  length : post.length < chainFuel

/-- Freeing the first context leaves the others. -/
theorem Unlinked.free {stop : Option CtxId} {post l : List CtxId} {k : CtxId} {s : State}
    (h : Unlinked stop post (k :: l) s) :
    (freeNextContext k s).1 = ptr l stop ∧ Unlinked stop post l (freeNextContext k s).2 := by
  obtain ⟨hkl, hl⟩ := List.nodup_cons.mp h.nodup
  have hnext := next_freeNextContext k s
  have hsame : ∀ j, (freeNextContext k s).2.context j = s.context j := fun j => by
    simp only [freeNextContext, cpuFreeContext, State.assert_eq]
  have hpool : (freeNextContext k s).2.runContextAlloc =
      Function.update s.runContextAlloc k.cpu (s.runContextAlloc k.cpu ++ [k.index]) := by
    simp only [freeNextContext, cpuFreeContext, State.assert_eq]
  have htop : (freeNextContext k s).2.mTopContext = s.mTopContext := by
    simp only [freeNextContext, cpuFreeContext, State.assert_eq]
  have hlink : s.next k = ptr l stop := h.seg.2.eq_ptr
  refine ⟨hlink, ⟨?_, hl, fun j hj => ?_, ?_, h.length⟩⟩
  · rw [hnext, ← hlink]
    exact h.seg.2
  · obtain ⟨hbounded, hfree, hpost, hflags⟩ := h.freeable j (List.mem_cons_of_mem k hj)
    refine ⟨hbounded, ?_, hpost, by rw [hsame, hflags]⟩
    rw [hpool]
    by_cases hcpu : j.cpu = k.cpu
    · have hindex : j.index ≠ k.index := fun heq => by
        have hjk : j = k := by cases j; cases k; simp_all
        exact hkl (hjk ▸ hj)
      rw [hcpu, Function.update_self]
      rw [hcpu] at hfree
      simp [hfree, hindex]
    · rwa [Function.update_of_ne hcpu]
  · rw [hnext, htop]
    exact h.chain

/-- A loop that frees contexts frees those of the segment it is given, once and in order. -/
theorem loopFrees_fst {stop : Option CtxId} {l : List CtxId} {s : State}
    (hseg : Seg s.next (ptr l stop) l stop) (hstop : ∀ k ∈ l, some k ≠ stop)
    (hlen : l.length < chainFuel) :
    (loopFrees stop (ptr l stop) s).map Prod.fst = l := by
  refine (visits_spec (I := fun l s => Seg s.next (ptr l stop) l stop)
    (fun k l s h => ?_) chainFuel l s hlen
    hstop hseg).1
  have hlink : (freeNextContext k s).1 = ptr l stop := h.2.eq_ptr
  refine ⟨hlink, ?_⟩
  rw [next_freeNextContext, ← hlink]
  exact h.2

/-- When the contexts are off the chain and have nothing saved, it may do so. -/
theorem loopFrees_freeable {stop : Option CtxId} (post : List CtxId) {l : List CtxId} {s : State}
    (h : Unlinked stop post l s) (hstop : ∀ k ∈ l, some k ≠ stop) (hlen : l.length < chainFuel) :
    ∀ c ∈ loopFrees stop (ptr l stop) s, Freeable c.1 c.2 := by
  obtain ⟨-, hvisits⟩ := visits_spec (fun _ _ _ h => h.free) chainFuel l s hlen hstop h
  intro c hc
  obtain ⟨rest, hunlinked⟩ := hvisits c hc
  obtain ⟨hbounded, hfree, hpost, hflags⟩ := hunlinked.freeable c.1 List.mem_cons_self
  refine ⟨hbounded, hfree, ?_, hflags⟩
  rwa [State.chain_of_seg hunlinked.chain hunlinked.length]

/-! ## popping and freeing -/

/-- From `s` to `s'` the contexts of `dead` have been popped off the chain and
freed, which leaves `post` on it. -/
structure Released (dead post : List CtxId) (s s' : State) : Prop where
  threaded : Threaded s' post
  older : ∀ j ∈ post, s'.context j = s.context j
  runContextAlloc : s'.runContextAlloc = fun cpu => s.runContextAlloc cpu ++ indicesOn dead cpu
  mOriginalStack : s'.mOriginalStack = s.mOriginalStack
  asserts : ∀ a ∈ s'.failedAsserts, a.isLifeCycle = true → a ∈ s.failedAsserts

/-- The calls `frees` free the contexts of `dead`, and may do so. -/
def FreesAll (dead : List CtxId) (frees : List (CtxId × State)) : Prop :=
  frees.map Prod.fst = dead ∧ ∀ c ∈ frees, Freeable c.1 c.2

theorem FreesAll.nil : FreesAll [] [] := ⟨rfl, fun _ hc => nomatch hc⟩

/-- Only a counter that goes negative may have failed. -/
theorem isLifeCycle_of_only {before after : List Assertion}
    (h : ∀ a ∈ after, a ≠ .contextsNonNegative → a ∈ before) :
    ∀ a ∈ after, a.isLifeCycle = true → a ∈ before := fun a ha hlife =>
  h a ha fun heq => by
    rw [heq] at hlife
    cases hlife

section

variable {s : State} {l pre post : List CtxId} {k : CtxId}

/-- `CpuCompressLeakedContexts` frees what is above, and clears its flags before. -/
theorem compress_released (onImageExit : Bool) (h : Threaded s (l ++ post))
    (hto : (if onImageExit then s.next k else some k) = ptr post none) :
    ∃ s', cpuCompressLeakedContexts k onImageExit s = some s' ∧ Released l post s s' ∧
      FreesAll l (compressFrees k onImageExit s) := by
  obtain ⟨asserts, heq, honly, -⟩ := cpuCompressLeakedContexts_eq k onImageExit h hto
  refine ⟨_, heq, ⟨?_, fun j hj => h.context_popped (ptr post none) hj, rfl, rfl,
    isLifeCycle_of_only honly⟩, ?_⟩
  · have hpost := h.of_append
    exact ⟨hpost.seg, hpost.pool_nodup, hpost.pool_free, hpost.bounded, hpost.flags⟩
  · obtain ⟨s₁, asserts₁, hfirst, hend, -⟩ := walk_popLeakedContext_eq h
    have hfrees : compressFrees k onImageExit s = loopFrees
        (ptr post none) s.mTopContext s₁.criticalEnd := by
      simp only [compressFrees]
      rw [show s.criticalBegin.next k = s.next k from rfl, hto,
        show s.criticalBegin.mTopContext = s.mTopContext from rfl, hfirst]
    obtain ⟨hfrom, hseg, hpost⟩ := h.seg_append
    have hlen := h.length_lt
    rw [List.length_append] at hlen
    rw [hfrees, hfrom]
    suffices hunlinked : Unlinked (ptr post none) post l s₁.criticalEnd from
      ⟨loopFrees_fst hunlinked.seg h.ne_ptr (by omega),
        loopFrees_freeable post hunlinked h.ne_ptr (by omega)⟩
    refine ⟨?_, h.nodup.of_append_left, fun j hj => ?_, ?_, by omega⟩
    · rw [hend]
      exact hseg.congr fun j _ => prevContext_clearFlags ..
    · have hmem : j ∈ l ++ post := List.mem_append_left post hj
      refine ⟨h.bounded j hmem, fun hpool => ?_, List.disjoint_of_nodup_append h.nodup hj, ?_⟩
      · rw [hend] at hpool
        exact (h.pool_free j hpool).2 hmem
      · rw [hend]
        simp [State.popped, clearFlags, hj]
    · rw [hend]
      exact hpost.congr fun j _ => prevContext_clearFlags ..

/-- The check at a native return frees what is above its caller, if anything is. -/
theorem checkLeaked_released (h : Threaded s (pre ++ k :: post)) :
    ∃ s', nativeThunkCheckLeakedContexts k s = some s' ∧ Released pre (k :: post) s s' ∧
      FreesAll pre (checkLeakedFrees k s) := by
  unfold nativeThunkCheckLeakedContexts checkLeakedFrees
  cases pre with
  | nil =>
      have htop : s.mTopContext = some k := h.seg.1
      rw [if_neg (not_not.mpr htop), if_neg (not_not.mpr htop)]
      exact ⟨s, rfl, ⟨h, fun _ _ => rfl, by simp [indicesOn], rfl, fun _ ha _ => ha⟩, .nil⟩
  | cons j pre =>
      have hjk : s.mTopContext ≠ some k := by
        rw [h.seg.1]
        exact h.ne_ptr j List.mem_cons_self
      rw [if_pos hjk, if_pos hjk]
      exact compress_released false h rfl

/-- The innermost context returns to its own caller. -/
theorem finish_released (ret : UINT64) (h : Threaded s (k :: l)) :
    ∃ s', cpuRunCtxReturn k (cpuRunCtxOnPrivateStackLeave k ret s) = (ret, s') ∧
      Released [k] l s s' ∧
      FreesAll [k] [(k, (cpuRunCtxOnPrivateStackLeave k ret s).criticalEnd)] := by
  have hk : k ∉ l := (List.nodup_cons.mp h.nodup).1
  have hret : Threaded (s.setRet k ret) ([k] ++ l) := h.setRet k ret
  have hother : ∀ j ∈ l, (s.setRet k ret).context j = s.context j := fun j hj =>
    Function.update_of_ne (ne_of_mem_of_not_mem hj hk) ..
  obtain ⟨asserts, heq, honly, -⟩ := cpuRunCtxReturn_eq ret h
  refine ⟨_, heq, ⟨?_, fun j hj => ?_, rfl, rfl, isLifeCycle_of_only honly⟩, rfl, fun c hc => ?_⟩
  · have hpost := hret.of_append
    exact ⟨hpost.seg, hpost.pool_nodup, hpost.pool_free, hpost.bounded, hpost.flags⟩
  · exact (hret.context_popped (ptr l none) hj).trans (hother j hj)
  · obtain rfl := List.mem_singleton.mp hc
    obtain ⟨asserts₁, hleave, -⟩ := cpuRunCtxOnPrivateStackLeave_eq ret h
    simp only
    rw [hleave, State.criticalEnd_eq]
    refine ⟨h.bounded k List.mem_cons_self,
      fun hpool => (h.pool_free k hpool).2 List.mem_cons_self, ?_, ?_⟩
    · have hlen := h.length_lt
      rw [List.length_cons] at hlen
      rw [State.chain_of_seg (l := l) ?_ (by omega)]
      · exact hk
      · rw [← h.seg.2.eq_ptr]
        refine h.seg.2.congr fun j hj => ?_
        exact (prevContext_clearFlags ..).trans (by rw [hother j hj]; rfl)
    · simp [clearFlags]

end

/-! ## allocating and pushing -/

/-- From `s` to `s'` the context `k` has been taken from the head of its pool and
prepared; the chain is still `l`. -/
structure Taken (k : CtxId) (l : List CtxId) (s s' : State) : Prop where
  threaded : Threaded s' l
  fresh : Fresh s' l k
  older : ∀ j ∈ l, s'.context j = s.context j
  pool : s.runContextAlloc k.cpu = k.index :: s'.runContextAlloc k.cpu
  otherPools : ∀ cpu, cpu ≠ k.cpu → s'.runContextAlloc cpu = s.runContextAlloc cpu
  mOriginalStack : s'.mOriginalStack = s.mOriginalStack
  failedAsserts : s'.failedAsserts = s.failedAsserts

namespace Taken

variable {k : CtxId} {l : List CtxId} {s s' : State}

theorem modifyContext (h : Taken k l s s') {f : CpuRunContext → CpuRunContext}
    (hf : ∀ c, (f c).flags = c.flags) : Taken k l s (s'.modifyContext k f) := by
  have hother : ∀ j ∈ l, (s'.modifyContext k f).context j = s'.context j := fun j hj =>
    Function.update_of_ne (ne_of_mem_of_not_mem hj h.fresh.not_mem) ..
  refine ⟨h.threaded.congr rfl (fun j hj => State.next_congr (hother j hj))
    (fun j hj => by rw [hother j hj]) rfl,
    ⟨h.fresh.not_mem, h.fresh.bounded, h.fresh.allocated, ?_⟩,
    fun j hj => (hother j hj).trans (h.older j hj), h.pool, h.otherPools, h.mOriginalStack,
      h.failedAsserts⟩
  simpa [State.modifyContext, hf] using h.fresh.flags

theorem modifyRecord (h : Taken k l s s') (r : RecordId) (f : ImageRecord → ImageRecord) :
    Taken k l s (s'.modifyRecord r f) :=
  ⟨h.threaded.congr rfl (fun _ _ => rfl) (fun _ _ => rfl) rfl,
    ⟨h.fresh.not_mem, h.fresh.bounded, h.fresh.allocated, h.fresh.flags⟩, h.older,
    h.pool, h.otherPools,
    h.mOriginalStack, h.failedAsserts⟩

/-- A context that is handed out was free and is nobody else's. -/
theorem of_alloc {cpu : CpuId} (h : Threaded s l) (halloc : cpuAllocContext cpu s = some (k, s')) :
    k.cpu = cpu ∧ Taken k l s s' := by
  obtain ⟨hthreaded, hfresh, hother⟩ := threaded_cpuAllocContext h halloc
  obtain ⟨rfl, rest, hpool, rfl⟩ := cpuAllocContext_eq_some halloc
  exact ⟨rfl, hthreaded, hfresh, hother, by simp [hpool],
    fun cpu hcpu => Function.update_of_ne hcpu .., rfl, rfl⟩

/-- What is left in the pools was there. -/
theorem mem_pool (h : Taken k l s s') {j : CtxId} (hj : j.index ∈ s'.runContextAlloc j.cpu) :
    j.index ∈ s.runContextAlloc j.cpu := by
  by_cases hcpu : j.cpu = k.cpu
  · rw [hcpu, h.pool]
    exact List.mem_cons_of_mem _ (hcpu ▸ hj)
  · rwa [← h.otherPools _ hcpu]

end Taken

/-- From `s` to `s'` the context `k` has been pushed and the orphans `dead` below
it have been freed, which leaves `rest` below `k`. -/
structure Pushed (cfg : Config) (k : CtxId) (fp : Nat) (dead rest : List CtxId) (s s' : State) :
    Prop where
  threaded : Threaded s' (k :: rest)
  older : ∀ j ∈ rest, s'.context j = s.context j
  leakCookie : cfg.checkOrphanContexts = true → (s'.context k).leakCookie = fp
  imageRecord : (s'.context k).imageRecord = (s.context k).imageRecord
  runContextAlloc : s'.runContextAlloc = fun cpu => s.runContextAlloc cpu ++ indicesOn dead cpu
  mOriginalStack : s'.mOriginalStack = s.mOriginalStack
  asserts : (∀ j ∈ dead, (s.context j).flags = 0) →
    ∀ a ∈ s'.failedAsserts, a.isLifeCycle = true → a ∈ s.failedAsserts

/-- Taking over the engine changes the context's own saved state. -/
theorem Pushed.started {cfg : Config} {k : CtxId} {fp : Nat} {dead rest : List CtxId} {s s' : State}
    (h : Pushed cfg k fp dead rest s s') (hflags : (s'.context k).flags = 0) :
    Pushed cfg k fp dead rest s (State.started cfg k s') := by
  obtain ⟨inUse, hc⟩ : ∃ inUse : Bool, s'.contexts k.cpu > 1 ↔ inUse = true :=
    ⟨decide (s'.contexts k.cpu > 1), by simp⟩
  have hstarted : ∃ ue memory, State.started cfg k s' = { s' with
      context := Function.update s'.context k { s'.context k with
        prevUcContext := if inUse then s'.ue k.cpu else (s'.context k).prevUcContext
        flags := if inUse then CRC_HAVE_SAVED_UC_CONTEXT else 0 }
      ue := ue
      memory := memory } := by
    simp only [State.started, State.withEngine, cpuRunCtxSaveOrInit_eq k s' hc hflags]
    exact ⟨_, _, rfl⟩
  obtain ⟨ue, memory, hstarted⟩ := hstarted
  have hk : k ∉ rest := (List.nodup_cons.mp h.threaded.nodup).1
  have hother : ∀ j ∈ rest, (State.started cfg k s').context j = s'.context j := fun j hj => by
    rw [hstarted]
    exact Function.update_of_ne (ne_of_mem_of_not_mem hj hk) ..
  have hself : (State.started cfg k s').context k = { s'.context k with
      prevUcContext := if inUse then s'.ue k.cpu else (s'.context k).prevUcContext
      flags := if inUse then CRC_HAVE_SAVED_UC_CONTEXT else 0 } := by
    rw [hstarted]
    exact Function.update_self ..
  have hnext : ∀ j ∈ k :: rest, (State.started cfg k s').next j = s'.next j := fun j hj => by
    rcases List.mem_cons.mp hj with rfl | hj
    · rw [State.next, hself]
      rfl
    · exact State.next_congr (hother j hj)
  have hpool : (State.started cfg k s').runContextAlloc = s'.runContextAlloc := by rw [hstarted]
  have htop : (State.started cfg k s').mTopContext = s'.mTopContext := by rw [hstarted]
  refine ⟨⟨htop ▸ h.threaded.seg.congr hnext, hpool ▸ h.threaded.pool_nodup,
    hpool ▸ h.threaded.pool_free, h.threaded.bounded, fun j hj => ?_⟩,
    fun j hj => (hother j hj).trans (h.older j hj), fun hcfg => ?_, ?_,
    hpool.trans h.runContextAlloc, ?_, ?_⟩
  · rcases List.mem_cons.mp hj with rfl | hj
    · rw [hself]
      cases inUse <;> simp
    · rw [hother j hj]
      exact h.threaded.flags j (List.mem_cons_of_mem k hj)
  · rw [hself]
    exact h.leakCookie hcfg
  · rw [hself]
    exact h.imageRecord
  · rw [hstarted]
    exact h.mOriginalStack
  · rw [hstarted]
    exact h.asserts

/-- The orphans that `CpuRunCtx` finds below the new context are freed, once and in
order; it may do so when they have nothing saved. -/
theorem orphanFrees_spec (cfg : Config) (fp : Nat) {s : State} {k : CtxId} {l : List CtxId}
    (h : Threaded s (k :: l)) :
    (orphanFrees cfg k fp s).map Prod.fst = orphans cfg s fp l ∧
      ((∀ j ∈ orphans cfg s fp l, (s.context j).flags = 0) →
        ∀ c ∈ orphanFrees cfg k fp s, Freeable c.1 c.2) := by
  cases hcfg : cfg.checkOrphanContexts with
  | false =>
      simp only [orphans, orphanFrees, hcfg]
      exact ⟨rfl, fun _ _ hc => absurd hc List.not_mem_nil⟩
  | true =>
      have happ := orphans_append_kept cfg s fp l
      have hlink : Threaded s (k :: (orphans cfg s fp l ++ kept cfg s fp l)) := by rwa [happ]
      have hlen := hlink.length_lt
      rw [List.length_cons, List.length_append] at hlen
      obtain ⟨asserts, hdetect, -⟩ := cpuDetectOrphanContexts_eq hlink.seg.2 (by omega)
        (fun j hj => leakCookie_of_mem_orphans hj) (fun j hj => leakCookie_of_mem_head_kept hcfg hj)
      generalize orphans cfg s fp l = dead at *
      generalize kept cfg s fp l = rest at *
      simp only [orphanFrees, hcfg, if_true, hdetect]
      rw [State.criticalEnd_eq]
      refine ⟨loopFrees_fst (seg_unlinked hlink.seg.2 rfl) (by simp) (by omega), fun hclear => ?_⟩
      obtain ⟨hknot, hnodup⟩ := List.nodup_cons.mp hlink.nodup
      have hctx := fun j => flags_unlinked k j fp dead rest s.context
      refine loopFrees_freeable (k :: rest) ⟨?_, hnodup.of_append_left, fun j hj => ?_, ?_, ?_⟩
        (by simp) (by omega)
      · exact seg_unlinked hlink.seg.2 rfl
      · have hmem : j ∈ k :: (dead ++ rest) := by simp [hj]
        refine ⟨hlink.bounded j hmem, fun hpool => (hlink.pool_free j hpool).2 hmem, ?_, ?_⟩
        · rintro hpost
          rcases List.mem_cons.mp hpost with rfl | hpost
          · exact hknot (List.mem_append_left rest hj)
          · exact List.disjoint_of_nodup_append hnodup hj hpost
        · exact (hctx j).trans (hclear j hj)
      · refine ⟨hlink.seg.1, ?_⟩
        obtain ⟨r, -, hr⟩ := Chain.seg_append.mp hlink.seg.2
        have hnext : (unlinked k fp dead rest s.context k).prevContext = r := by
          rw [unlinked_self, hr.eq_ptr]
        show Seg _ (unlinked k fp dead rest s.context k).prevContext rest none
        rw [hnext]
        refine hr.congr fun j hj => congrArg CpuRunContext.prevContext ?_
        exact unlinked_of_not_mem (ne_of_mem_of_not_mem (List.mem_append_right dead hj) hknot)
          (fun hmem => List.disjoint_of_nodup_append hnodup hmem hj) ..
      · rw [List.length_cons]
        omega

/-- A context that has been taken from its pool is pushed. -/
theorem Taken.pushed {cfg : Config} {k : CtxId} {l : List CtxId} {s : State}
    (sys : System) (fp : Nat) (image : Option RecordId) (honeStack : cfg.onPrivateStack = false)
    (h : Taken k l sys.emu s) :
    ∃ s', sys.cpuRunCtx cfg k image fp s = some (sys.entered cfg k image fp s') ∧
      Pushed cfg k fp (orphans cfg sys.emu fp l) (kept cfg sys.emu fp l) s s' ∧
      (sys.runCtxFrees cfg k fp s).map Prod.fst = orphans cfg sys.emu fp l ∧
      ((∀ j ∈ orphans cfg sys.emu fp l, (sys.emu.context j).flags = 0) →
        ∀ c ∈ sys.runCtxFrees cfg k fp s, Freeable c.1 c.2) := by
  have hswitch : sys.switches cfg = false := by simp [System.switches, honeStack]
  let s₁ := cpuEnterCritical k s
  have hthreaded : Threaded s₁ (k :: l) := threaded_cpuEnterCritical h.threaded h.fresh
  have hother : ∀ j ∈ l, s₁.context j = s.context j := fun j hj =>
    Function.update_of_ne (ne_of_mem_of_not_mem hj h.fresh.not_mem) ..
  have hsame := orphans_congr cfg fp fun j hj => (hother j hj).trans (h.older j hj)
  have hsub : ∀ j ∈ orphans cfg sys.emu fp l, j ∈ l := fun j hj => by
    rw [← orphans_append_kept cfg sys.emu fp l]
    exact List.mem_append_left _ hj
  obtain ⟨s₂, hcheck, hfreed⟩ := cpuRunCtxCheckOrphans_eq cfg fp hthreaded
  obtain ⟨hfst, hfreeable⟩ := orphanFrees_spec cfg fp hthreaded
  have hkept : ∀ j ∈ kept cfg s₁ fp l, j ∈ l := fun j hj => by
    rw [← orphans_append_kept cfg s₁ fp l]
    exact List.mem_append_right _ hj
  have hself : s₁.context k = { s.context k with prevContext := s.mTopContext } := by
    simp [s₁, cpuEnterCritical, State.modifyContext, State.criticalBegin]
  have hpushed : Pushed cfg k fp (orphans cfg s₁ fp l) (kept cfg s₁ fp l) s s₂ := by
    refine ⟨hfreed.threaded, fun j hj => (hfreed.older j hj).trans (hother j (hkept j hj)),
      fun hcfg => ?_, ?_, hfreed.runContextAlloc, hfreed.mOriginalStack,
        fun hclear a ha hlife => ?_⟩
    · rw [hfreed.self, if_pos hcfg]
    · rw [hfreed.self, hself]
    · rw [hsame.1] at hclear
      rcases hfreed.asserts a ha with rfl | ⟨rfl, -⟩ | ⟨-, hnot⟩ | hmem
      · cases hlife
      · cases hlife
      · refine absurd (fun j hj => ?_) hnot
        rw [hsame.1] at hj
        rw [hother j (hsub j hj)]
        exact hclear j hj
      · exact hmem
  have hflags : (s₂.context k).flags = 0 := by
    rw [hfreed.self, hself]
    exact h.fresh.flags
  have hrunFrees : sys.runCtxFrees cfg k fp s = orphanFrees cfg k fp s₁ := by
    rw [System.runCtxFrees, hswitch]
    rfl
  rw [hsame.1, hsame.2] at hpushed
  rw [hsame.1] at hfst hfreeable
  refine ⟨State.started cfg k s₂, ?_, hpushed.started hflags, ?_, fun hclear => ?_⟩
  · have henter : cpuRunCtxEnter cfg none k fp s = some (State.started cfg k s₂) :=
      cpuRunCtxEnter_eq hcheck
    rw [System.cpuRunCtx, hswitch]
    simp only [Bool.false_eq_true, if_false, henter, Option.map_some]
  · rw [hrunFrees]
    exact hfst
  · rw [hrunFrees]
    refine hfreeable fun j hj => ?_
    rw [hother j (hsub j hj), h.older j (hsub j hj)]
    exact hclear j hj

/-! ## what is kept -/

/-- The activations on the native stack have their contexts on the chain, every
other one of the `size` contexts of an engine is free, and emulated code runs in the
newest one.  Only the assertions rest on the condition `clear`, that no step has
found an orphan with something saved. -/
structure Tracked (cfg : Config) (size : Nat) (clear : Prop) (b : Books) : Prop where
  threaded : Threaded b.emu b.chain
  live : Live cfg b.emu b.chain (activations b.stack)
  nested : Nested b.stack
  top : ∀ a rest, b.stack = .run a :: rest → b.chain.head? = some a.context
  bounded : ∀ k : CtxId, k.index ∈ b.emu.runContextAlloc k.cpu ∨ k ∈ b.chain → k.index < size
  free : ∀ k : CtxId, k.index < size → k ∉ b.chain → k.index ∈ b.emu.runContextAlloc k.cpu
  asserts : clear → ∀ a ∈ b.emu.failedAsserts, a.isLifeCycle = false

namespace Tracked

variable {cfg : Config} {size : Nat} {clear : Prop} {s s' : State} {stack rest : List Frame}
  {chain dead post : List CtxId} {a : Activation}

/-- What is tracked keeps the life cycle. -/
theorem lifeCycleKept {b : Books} (h : Tracked cfg size clear b) (hclear : clear) :
    LifeCycleKept size b.emu := by
  have hchain := h.threaded.chain_eq
  refine ⟨h.threaded.pool_nodup, ?_, fun k hk => ?_, fun k hk => ⟨fun hpool => ?_, fun hnot => ?_⟩,
    h.asserts hclear⟩
  · rw [hchain]
    exact h.threaded.nodup
  · rw [hchain] at hk
    exact h.bounded k hk
  · rw [hchain]
    exact (h.threaded.pool_free k hpool).2
  · rw [hchain] at hnot
    exact h.free k hk hnot

/-- Code that leaves the books alone leaves the life cycle alone. -/
theorem sameBooks (h : Tracked cfg size clear ⟨s, stack, chain⟩) (hs : SameBooks s s') :
    Tracked cfg size clear ⟨s', stack, chain⟩ where
  threaded := h.threaded.congr hs.mTopContext (fun k _ => State.next_congr (congrFun hs.context k))
    (fun k _ => congrArg CpuRunContext.flags (congrFun hs.context k)) hs.runContextAlloc
  live := h.live.sameBooks hs
  nested := h.nested
  top := h.top
  bounded := fun k hk => h.bounded k (by rwa [hs.runContextAlloc] at hk)
  free := fun k hk hnot => by
    simp only [hs.runContextAlloc]
    exact h.free k hk hnot
  asserts := fun hclear a ha => by
    cases hlife : a.isLifeCycle with
    | false => rfl
    | true =>
        have hold := h.asserts hclear a (by
          cases a with
          | flagsClear => exact hs.flagsClear ha
          | topContext => exact hs.asserts _ ha rfl
          | objectUnlisted => exact hs.asserts _ ha rfl
          | _ => cases hlife)
        rw [hlife] at hold
        cases hold

/-- Frames can be left for others whose contexts are on the chain. -/
theorem restack (stack' : List Frame) (h : Tracked cfg size clear ⟨s, stack, chain⟩)
    (hlive : Live cfg s chain (activations stack')) (hnested : Nested stack')
    (htop : ∀ a rest, stack' = .run a :: rest → chain.head? = some a.context) :
    Tracked cfg size clear ⟨s, stack', chain⟩ :=
  ⟨h.threaded, hlive, hnested, htop, h.bounded, h.free, h.asserts⟩

/-- Contexts have been popped and freed; those of the activations that stay are left. -/
theorem released (stack' : List Frame) (h : Tracked cfg size clear ⟨s, stack, dead ++ post⟩)
    (hr : Released dead post s s') (hlive : Live cfg s (dead ++ post) (activations stack'))
    (hsub : ((activations stack').map (·.context)).Sublist post) (hnested : Nested stack')
    (htop : ∀ a rest, stack' = .run a :: rest → post.head? = some a.context) :
    Tracked cfg size clear ⟨s', stack', post⟩ where
  threaded := hr.threaded
  live := hlive.congr hsub (fun a ha => by
    rw [hr.older _ (hsub.subset (List.mem_map_of_mem ha))]
    exact ⟨rfl, rfl⟩) hr.mOriginalStack
  nested := hnested
  top := htop
  bounded := fun k hk => by
    simp only [hr.runContextAlloc, List.mem_append, mem_indicesOn] at hk
    exact h.bounded k (by simp only [List.mem_append]; tauto)
  free := fun k hk hnot => by
    simp only [hr.runContextAlloc]
    by_cases hdead : k ∈ dead
    · exact List.mem_append_right _ (mem_indicesOn.mpr hdead)
    · exact List.mem_append_left _
        (h.free k hk fun hmem => (List.mem_append.mp hmem).elim hdead hnot)
  asserts := fun hclear a ha => by
    cases hlife : a.isLifeCycle with
    | false => rfl
    | true =>
        rw [← hlife]
        exact h.asserts hclear a (hr.asserts a ha hlife)

/-- The innermost run is on top of the chain. -/
theorem chain_eq_cons (h : Tracked cfg size clear ⟨s, .run a :: rest, chain⟩) :
    ∃ l, chain = a.context :: l :=
  List.head?_eq_some_iff.mp (h.top a rest rfl)

/-- The running activation makes a native call. -/
theorem native (h : Tracked cfg size clear ⟨s, .run a :: rest, chain⟩) (id : Nat)
    (programCounter : UINT64) (atCall : RegFile) : Tracked cfg size clear
      ⟨s, .native id :: .run { a with programCounter := programCounter, atCall := atCall } :: rest,
        chain⟩ :=
  h.restack (.native id :: .run
    { a with programCounter := programCounter, atCall := atCall } :: rest)
    (Live.modify h.live programCounter atCall) h.nested (fun _ _ hrun => nomatch hrun)

end Tracked

/-- `r` is what a part of a step comes to, and `frees` are the calls of
`CpuFreeContext` in it; the pools are `pool` before the first of them. -/
structure Conducts (cfg : Config) (size : Nat) (clear : Prop) (pool : CpuId → List Nat)
    (r : Option System) (frees : List (CtxId × State)) : Prop where
  tracked : ∀ sys', r = some sys' → ∃ chain', Tracked cfg size clear (sys'.books chain')
  freeable : clear → ∀ c ∈ frees, Freeable c.1 c.2
  runContextAlloc : ∀ sys', r = some sys' → ∀ cpu,
    sys'.emu.runContextAlloc cpu = pool cpu ++ indicesOn (frees.map Prod.fst) cpu

variable {cfg : Config} {size : Nat} {clear : Prop} {chain : List CtxId} {a : Activation}
  {rest : List Frame}

theorem Conducts.none (cfg : Config) (size : Nat) (clear : Prop) (pool : CpuId → List Nat) :
    Conducts cfg size clear pool none [] :=
  ⟨fun _ h => (nomatch h), fun _ _ hc => (nomatch hc), fun _ h => nomatch h⟩

/-- Nothing is freed. -/
theorem Conducts.of_tracked {pool : CpuId → List Nat} (sys : System)
    (h : Tracked cfg size clear (sys.books chain)) (hpool : sys.emu.runContextAlloc = pool) :
    Conducts cfg size clear pool (some sys) [] := by
  refine ⟨fun sys' heq => ?_, fun _ _ hc => (nomatch hc), fun sys' heq cpu => ?_⟩
  · obtain rfl := Option.some.inj heq
    exact ⟨chain, h⟩
  · obtain rfl := Option.some.inj heq
    simp [hpool, indicesOn]

theorem Conducts.of_freesAll {sys sys' : System} {dead : List CtxId} {frees : List (CtxId × State)}
    (h : Tracked cfg size clear (sys'.books chain))
    (hpool : sys'.emu.runContextAlloc = fun cpu =>
      sys.emu.runContextAlloc cpu ++ indicesOn dead cpu)
    (hfrees : FreesAll dead frees) :
    Conducts cfg size clear sys.emu.runContextAlloc (some sys') frees := by
  refine ⟨fun sys'' heq => ?_, fun _ => hfrees.2, fun sys'' heq cpu => ?_⟩
  · obtain rfl := Option.some.inj heq
    exact ⟨chain, h⟩
  · obtain rfl := Option.some.inj heq
    rw [hpool, hfrees.1]

/-- A native return frees what was leaked above its caller. -/
theorem conducts_resume (sys : System) {n : Nat} (value : UINT64)
    (h : Tracked cfg size clear ⟨sys.emu, .native n :: .run a :: rest, chain⟩) :
    Conducts cfg size clear sys.emu.runContextAlloc (sys.resume a rest value)
      (checkLeakedFrees a.context sys.emu) := by
  obtain ⟨pre, post, rfl⟩ := List.append_of_mem (h.live.context_mem List.mem_cons_self)
  obtain ⟨s', hcheck, hreleased, hfrees⟩ := checkLeaked_released h.threaded
  rw [System.resume, hcheck, Option.map_some]
  have hsub : ((activations (.run a :: rest)).map (·.context)).Sublist (a.context :: post) :=
    (h.live.split rfl h.threaded.nodup).cons_cons _
  have hrun : Tracked cfg size clear ⟨s', .run a :: rest, a.context :: post⟩ :=
    h.released (.run a :: rest) hreleased h.live hsub h.nested fun b rest' heq => by
      rw [Frame.run.inj (List.cons.inj heq).1]
      rfl
  let e := nativeThunkLeave a.context.cpu value ⟨s'.ue a.context.cpu, s'.memory⟩
  have hresumed := (hrun.sameBooks (.setEngines s' (Function.update s'.ue a.context.cpu e.2.regs)
    e.2.memory)).restack (.run { a with programCounter := e.1 } :: rest)
      (Live.modify (hrun.live.sameBooks (.setEngines s' _ _)) e.1 a.atCall) hrun.nested
      fun b rest' heq => by
        rw [← Frame.run.inj (List.cons.inj heq).1]
        rfl
  exact .of_freesAll hresumed hreleased.runContextAlloc hfrees

/-- `CpuRunImage` frees what an exiting image leaves above and its own context. -/
theorem conducts_imageExit (sys : System) {n id : Nat}
    (h : Tracked cfg size clear ⟨sys.emu, .native n :: sys.stack, chain⟩) :
    Conducts cfg size clear sys.emu.runContextAlloc (sys.cpuRunImageExit id)
      (sys.imageExitFrees id) := by
  unfold System.cpuRunImageExit System.imageExitFrees
  cases hunwind : unwindToRun id sys.stack with
  | none => exact .none cfg size clear _
  | some br =>
      obtain ⟨b, rest'⟩ := br
      simp only [bind, Option.bind]
      cases himage : b.image with
      | none => exact .none cfg size clear _
      | some record =>
          obtain ⟨-, frames, hframes⟩ := unwindToRun_eq_some hunwind
          have hlive : Live cfg sys.emu chain (b :: activations rest') := by
            have hall := h.live
            rw [hframes, activations_native, activations_append] at hall
            exact hall.of_append
          obtain ⟨pre, post, rfl⟩ := List.append_of_mem (hlive.context_mem List.mem_cons_self)
          have happ : pre ++ b.context :: post = (pre ++ [b.context]) ++ post := by simp
          have hsub := hlive.split rfl h.threaded.nodup
          have hnext : sys.emu.next b.context = ptr post none := h.threaded.seg.next_of_mem
          have hnested : Nested (.run b :: rest') := by
            have hall : Nested (frames ++ .run b :: rest') := by
              rw [← hframes]
              exact h.nested
            exact hall.of_append
          have hlive' : Live cfg sys.emu (pre ++ b.context :: post) (activations rest') :=
            Live.of_append (show Live cfg sys.emu _ ([b] ++ activations rest') from hlive)
          rw [happ] at h hlive'
          obtain ⟨s', hcompress, hreleased, hfrees⟩ := compress_released true h.threaded hnext
          simp only [hcompress, reduceCtorEq, if_false]
          exact .of_freesAll (h.released (.native sys.nextId :: .exiting b.id :: rest') hreleased
            hlive' hsub hnested (fun _ _ hrun => nomatch hrun)) hreleased.runContextAlloc hfrees

/-- `CpuExitImage` frees nothing itself, but for a refusal that returns. -/
theorem conducts_exitImage (sys : System) {n : Nat} {args : Args}
    (hstack : sys.stack = .run a :: rest)
    (h : Tracked cfg size clear ⟨sys.emu, .native n :: .run a :: rest, chain⟩) :
    Conducts cfg size clear sys.emu.runContextAlloc (sys.cpuExitImage a rest args)
      (sys.exitImageFrees a args) := by
  unfold System.cpuExitImage System.exitImageFrees
  cases imageFindByHandle sys.emu.images (args 0) with
  | none => exact conducts_resume sys _ h
  | some currentImageRecord =>
      simp only [bind, Option.bind]
      cases System.findImageContext sys.emu.criticalBegin chainFuel
        sys.emu.criticalBegin.mTopContext with
      | none => exact .none cfg size clear _
      | some context =>
          have hquiet := imageSection_quiet context sys.emu
          have hpool : (sys.emu.imageSection context).runContextAlloc = sys.emu.runContextAlloc :=
            hquiet.runContextAlloc
          have hsection := h.sameBooks hquiet.toSameBooks
          rw [← hpool]
          cases context with
          | none => exact conducts_resume { sys with emu := sys.emu.imageSection none } _ hsection
          | some k =>
              change Conducts cfg size clear _
                (if ((sys.emu.imageSection (some k)).context k).imageRecord ≠
                some currentImageRecord then _ else _) _
              by_cases hrecord : ((sys.emu.imageSection (some k)).context k).imageRecord ≠
                some currentImageRecord
              · rw [if_pos hrecord]
                simp only [if_pos hrecord]
                exact conducts_resume { sys with emu := sys.emu.imageSection (some k) } _ hsection
              · rw [if_neg hrecord]
                simp only [if_neg hrecord]
                let s := (sys.emu.imageSection (some k)).setImageExit currentImageRecord args
                have hexit : Tracked cfg size clear ⟨s, .native n :: .run a :: rest, chain⟩ :=
                  hsection.sameBooks (SameBooks.setImageExit _ currentImageRecord args)
                change Conducts cfg size clear s.runContextAlloc
                  ((s.images.record currentImageRecord).imageExitJumpBuffer.bind _) _
                cases (s.images.record currentImageRecord).imageExitJumpBuffer with
                | none => exact .none cfg size clear _
                | some id =>
                    rw [← hstack] at hexit
                    exact conducts_imageExit { sys with emu := s } hexit

/-- A native call, with what may be freed before it is seen to return. -/
theorem conducts_callNative (sys : System) {programCounter : UINT64}
    (h : Tracked cfg size clear ⟨sys.emu, .run a :: rest, chain⟩) :
    Conducts cfg size clear sys.emu.runContextAlloc (sys.callNative cfg a rest programCounter)
      (sys.callNativeFrees cfg a rest programCounter) := by
  unfold System.callNative System.callNativeFrees
  simp only
  let regs := sys.emu.ue a.context.cpu
  let r := nativeThunkEnter cfg a.context.cpu programCounter ⟨regs, sys.emu.memory⟩
  let sys₁ := sys.called { a with atCall := regs } rest r.1 r.2
  have hcalled : Tracked cfg size clear ⟨sys₁.emu, .native sys.nextId :: sys₁.stack, chain⟩ :=
    (h.sameBooks (SameBooks.setEngines sys.emu (Function.update sys.emu.ue a.context.cpu r.2.regs)
      r.2.memory)).native sys.nextId a.programCounter regs
  change Conducts cfg size clear sys₁.emu.runContextAlloc (match r.1.func with
    | .nativeUnsupported => _ | .cpuExitImage => _ | _ => _) (match r.1.func with
    | .nativeUnsupported => _ | .cpuExitImage => _ | _ => _)
  cases r.1.func with
  | nativeUnsupported => exact conducts_resume sys₁ EFI_UNSUPPORTED hcalled
  | cpuExitImage => exact conducts_exitImage sys₁ rfl hcalled
  | _ =>
      exact .of_tracked { sys₁ with
        stack := .native sys₁.nextId :: sys₁.stack, nextId := sys₁.nextId + 1 } hcalled rfl

/-- A run that ends frees its own context. -/
theorem conducts_finish (sys : System) (ret : UINT64) (honeStack : cfg.onPrivateStack = false)
    (h : Tracked cfg size clear ⟨sys.emu, .run a :: rest, chain⟩) :
    Conducts cfg size clear sys.emu.runContextAlloc (sys.finish cfg a rest ret)
      (sys.finishFrees cfg a rest ret) := by
  obtain ⟨l, rfl⟩ := h.chain_eq_cons
  obtain ⟨s', hreturn, hreleased, hfrees⟩ := finish_released ret h.threaded
  have hjumps : System.jumpsToOriginalStack cfg a.context
    (cpuRunCtxOnPrivateStackLeave a.context ret sys.emu) =
      false := by simp [System.jumpsToOriginalStack, honeStack]
  obtain ⟨⟨id, rest', rfl⟩, hnested⟩ := h.nested
  simp only [System.finish, System.finishFrees, hjumps, Bool.false_eq_true, if_false, hreturn]
  have hsub : ((activations (.native id :: rest')).map (·.context)).Sublist l :=
    h.live.split (l := []) rfl h.threaded.nodup
  have hlive : Live cfg sys.emu ([a.context] ++ l) (activations (.native id :: rest')) :=
    Live.of_append (show Live cfg sys.emu _ ([a] ++ activations (.native id :: rest')) from h.live)
  have h' : Tracked cfg size clear ⟨sys.emu, .run a :: .native id :: rest', [a.context] ++ l⟩ := h
  exact .of_freesAll (h'.released (.native id :: rest') hreleased hlive hsub hnested
    (fun _ _ hrun => by cases hrun)) hreleased.runContextAlloc hfrees

/-- A round of emulation, whatever follows it. -/
theorem conducts_emulate (sys : System) {regs : RegFile} {memory : WordMemory.Memory}
    {ucErr : UcErr} (honeStack : cfg.onPrivateStack = false)
    (h : Tracked cfg size clear ⟨sys.emu, .run a :: rest, chain⟩) :
    Conducts cfg size clear sys.emu.runContextAlloc
      (sys.cpuRunCtxInternal cfg a rest regs memory ucErr)
      (sys.internalFrees cfg a rest regs memory ucErr) := by
  obtain ⟨hbooks, -⟩ := emulated_spec a.context.cpu regs memory ucErr sys.emu
  have hemulated := h.sameBooks hbooks
  unfold System.cpuRunCtxInternal System.internalFrees
  simp only
  rw [← hbooks.runContextAlloc]
  generalize System.emulated a.context.cpu regs memory ucErr sys.emu = s at *
  cases cpuExitReason cfg ucErr (s.ue a.context.cpu a.context.cpu.programCounterReg) with
  | none =>
      let programCounter := s.ue a.context.cpu a.context.cpu.programCounterReg
      have hrun : Tracked cfg size clear
          ⟨s, .run { a with programCounter := programCounter } :: rest, chain⟩ := by
        refine hemulated.restack _ (Live.modify hemulated.live _ a.atCall) hemulated.nested
          fun b rest' heq => ?_
        rw [← Frame.run.inj (List.cons.inj heq).1]
        exact hemulated.top a rest rfl
      exact .of_tracked { sys with
        emu := s, stack := .run { a with programCounter := programCounter } :: rest } hrun rfl
  | callToNative => exact conducts_callNative { sys with emu := s } hemulated
  | returnToNative =>
      exact conducts_finish
        { sys with emu := s.withEngine a.context.cpu (emuThunkPost a.context.cpu) } _
        honeStack (hemulated.sameBooks (.withEngine s _ _))
  | failedEmu => exact conducts_finish { sys with emu := s } _ honeStack hemulated

/-- A context that has been taken from its pool is entered. -/
theorem conducts_cpuRunCtx (sys : System) {k : CtxId} {fp id : Nat} {s : State}
    (image : Option RecordId) (honeStack : cfg.onPrivateStack = false)
    (h : Tracked cfg size clear (sys.books chain)) (hstack : sys.stack = .native id :: rest)
    (hfp : fpFits fp sys.stack = true) (ht : Taken k chain sys.emu s)
    (himage : (s.context k).imageRecord = image)
    (hclear : clear → ∀ j ∈ orphans cfg sys.emu fp chain, (sys.emu.context j).flags = 0) :
    Conducts cfg size clear s.runContextAlloc (sys.cpuRunCtx cfg k image fp s)
      (sys.runCtxFrees cfg k fp s) := by
  obtain ⟨s', hrun, hpushed, hfst, hfreeable⟩ := ht.pushed sys fp image honeStack
  have happ := orphans_append_kept cfg sys.emu fp chain
  have hlive : Live cfg sys.emu chain (activations sys.stack) := h.live
  have hkept := hlive.kept hfp
  have hsub : ∀ j ∈ kept cfg sys.emu fp chain, j ∈ chain := fun j hj =>
    happ ▸ List.mem_append_right _ hj
  have hctx : ∀ a ∈ activations sys.stack, s'.context a.context = sys.emu.context a.context :=
    fun a ha => by
    have hmem := hkept.subset (List.mem_map_of_mem ha)
    rw [hpushed.older _ hmem, ht.older _ (hsub _ hmem)]
  have hentered : Tracked cfg size clear
      ((sys.entered cfg k image fp s').books (k :: kept cfg sys.emu fp chain)) := by
    refine ⟨hpushed.threaded,
      ⟨hkept.cons_cons k, fun hcfg a ha => ?_, fun a ha => ?_, fun hcfg => ?_⟩,
      ⟨⟨id, rest, hstack⟩, h.nested⟩, fun a rest' heq => ?_, fun j hj => ?_, fun j hj hnot => ?_,
      fun hc a ha => ?_⟩
    · rcases List.mem_cons.mp ha with rfl | ha
      · exact hpushed.leakCookie hcfg
      · rw [← hlive.cookies hcfg a ha]
        exact congrArg CpuRunContext.leakCookie (hctx a ha)
    · rcases List.mem_cons.mp ha with rfl | ha
      · exact hpushed.imageRecord.trans himage
      · rw [← hlive.images a ha]
        exact congrArg CpuRunContext.imageRecord (hctx a ha)
    · rw [honeStack] at hcfg
      cases hcfg
    · rw [← Frame.run.inj (List.cons.inj heq).1]
      rfl
    · have hj' : j.index ∈ s.runContextAlloc j.cpu ∨ j ∈ k :: chain := by
        simp only [System.books, System.entered, hpushed.runContextAlloc, List.mem_append,
          mem_indicesOn] at hj
        rw [← happ]
        simp only [List.mem_cons, List.mem_append] at hj ⊢
        tauto
      rcases hj' with hpool | hmem
      · exact h.bounded j (.inl (ht.mem_pool hpool))
      · rcases List.mem_cons.mp hmem with rfl | hmem
        · exact h.bounded j (.inl (by rw [System.books, ht.pool]; exact List.mem_cons_self))
        · exact h.bounded j (.inr hmem)
    · -- what is neither free already nor `k` is an orphan
      obtain ⟨hjk, hjkept⟩ : j ≠ k ∧ j ∉ kept cfg sys.emu fp chain := by
        simpa [System.books] using hnot
      show j.index ∈ s'.runContextAlloc j.cpu
      rw [hpushed.runContextAlloc]
      by_cases hdead : j ∈ orphans cfg sys.emu fp chain
      · exact List.mem_append_right _ (mem_indicesOn.mpr hdead)
      · have hfree := h.free j hj fun hmem => by
          rw [show (sys.books chain).chain = chain from rfl, ← happ] at hmem
          exact (List.mem_append.mp hmem).elim hdead hjkept
        refine List.mem_append_left _ ?_
        by_cases hcpu : j.cpu = k.cpu
        · have hindex : j.index ≠ k.index := fun heq => hjk (by cases j; cases k; simp_all)
          rw [show (sys.books chain).emu = sys.emu from rfl, hcpu, ht.pool] at hfree
          rw [hcpu]
          exact (List.mem_cons.mp hfree).resolve_left hindex
        · rw [ht.otherPools _ hcpu]
          exact hfree
    · cases hlife : a.isLifeCycle with
      | false => rfl
      | true =>
          have hsaved : ∀ j ∈ orphans cfg sys.emu fp chain, (s.context j).flags = 0 :=
            fun j hj => by
            rw [ht.older j (happ ▸ List.mem_append_left _ hj)]
            exact hclear hc j hj
          have hold := hpushed.asserts hsaved a ha hlife
          rw [ht.failedAsserts] at hold
          rw [← hlife]
          exact h.asserts hc a hold
  rw [hrun]
  refine ⟨fun sys' heq => ?_, fun hc => hfreeable (hclear hc), fun sys' heq cpu => ?_⟩
  · obtain rfl := Option.some.inj heq
    exact ⟨_, hentered⟩
  · obtain rfl := Option.some.inj heq
    rw [hfst]
    exact congrFun hpushed.runContextAlloc cpu

/-! ## steps and runs -/

variable {sys : System} {action : Action}

/-- The pools after the context for the action has been taken. -/
theorem Taken.poolLeft_eq {k : CtxId} {s : State} (ht : Taken k chain sys.emu s) (fp : Nat)
    (hcallee : action.callee sys = some (k.cpu, fp)) : s.runContextAlloc = poolLeft sys action := by
  funext cpu
  simp only [poolLeft, hcallee]
  by_cases hcpu : k.cpu = cpu
  · subst hcpu
    rw [if_pos rfl, ht.pool]
    rfl
  · rw [if_neg hcpu, ht.otherPools cpu (Ne.symm hcpu)]

/-- With an empty pool nothing is taken. -/
theorem poolLeft_of_nil {cpu : CpuId} {fp : Nat} (hcallee : action.callee sys = some (cpu, fp))
    (hpool : sys.emu.runContextAlloc cpu = []) : sys.emu.runContextAlloc = poolLeft sys action := by
  funext cpu'
  simp only [poolLeft, hcallee]
  by_cases hcpu : cpu = cpu'
  · subst hcpu
    rw [if_pos rfl, hpool]
    rfl
  · rw [if_neg hcpu]

/-- What the new context finds to be orphans, on the chain that is tracked. -/
theorem OrphansClear.orphans {cpu : CpuId} {fp : Nat} (hclear : OrphansClear cfg sys action)
    (h : Tracked cfg size clear (sys.books chain)) (hcallee : action.callee sys = some (cpu, fp))
    (hpool : sys.emu.runContextAlloc cpu ≠ []) :
    ∀ j ∈ orphans cfg sys.emu fp chain, (sys.emu.context j).flags = 0 := by
  have hchain : sys.emu.chain = chain := h.threaded.chain_eq
  rw [← hchain]
  exact hclear (cpu, fp) hcallee hpool

/-- `CpuRunFunc` takes a context and frees the orphans that it detects. -/
theorem conducts_runFunc {cpu : CpuId} {programCounter : UINT64} {args : Args} {fp id : Nat}
    (honeStack : cfg.onPrivateStack = false) (h : Tracked cfg size clear (sys.books chain))
    (hstack : sys.stack = .native id :: rest) (hfp : fpFits fp sys.stack = true)
    (hclear : clear → OrphansClear cfg sys (.runFunc cpu programCounter args fp)) :
    Conducts cfg size clear (poolLeft sys (.runFunc cpu programCounter args fp))
      (sys.cpuRunFunc cfg cpu programCounter args fp)
      (sys.runFuncFrees cfg cpu programCounter args fp) := by
  unfold System.cpuRunFunc System.runFuncFrees
  cases halloc : cpuAllocContext cpu sys.emu with
  | none =>
      exact .of_tracked (sys.returned _) h (poolLeft_of_nil rfl (cpuAllocContext_eq_none halloc))
  | some ks =>
      obtain ⟨k, s⟩ := ks
      obtain ⟨rfl, ht⟩ := Taken.of_alloc h.threaded halloc
      have hpool : sys.emu.runContextAlloc k.cpu ≠ [] := fun hnil => by
        have htaken : sys.emu.runContextAlloc k.cpu = _ := ht.pool
        rw [hnil] at htaken
        cases htaken
      have himage : ((s.modifyContext k fun c =>
          { c with programCounter := programCounter, args := args }).context k).imageRecord =
            none := by
        obtain ⟨-, _, -, rfl⟩ := cpuAllocContext_eq_some halloc
        simp [State.modifyContext, cpuRunContextOnAlloc]
      have ht' : Taken k chain sys.emu (s.modifyContext k fun c =>
        { c with programCounter := programCounter, args := args }) := ht.modifyContext fun _ => rfl
      rw [← ht'.poolLeft_eq fp rfl]
      exact conducts_cpuRunCtx sys none honeStack h hstack hfp ht' himage
        fun hc => (hclear hc).orphans h rfl hpool

/-- So does `CpuRunImage`. -/
theorem conducts_runImage {imageHandle systemTable imageBase : UINT64} {fp id : Nat}
    (honeStack : cfg.onPrivateStack = false) (h : Tracked cfg size clear (sys.books chain))
    (hstack : sys.stack = .native id :: rest) (hfp : fpFits fp sys.stack = true)
    (hclear : clear → OrphansClear cfg sys (.runImage imageHandle systemTable (.ok imageBase) fp)) :
    Conducts cfg size clear (poolLeft sys (.runImage imageHandle systemTable (.ok imageBase) fp))
      (sys.cpuRunImage cfg imageHandle systemTable (.ok imageBase) fp)
      (sys.runImageFrees cfg imageHandle systemTable (.ok imageBase) fp) := by
  unfold System.cpuRunImage System.runImageFrees
  cases hrecord : imageFindByAddress sys.emu.images imageBase with
  | none =>
      simp only [hrecord]
      exact .none cfg size clear _
  | some record =>
      have hcallee : (Action.runImage imageHandle systemTable (.ok imageBase) fp).callee sys =
          some ((sys.emu.images.record record).cpu, fp) := by simp [Action.callee, hrecord]
      simp only [hrecord]
      cases halloc : cpuAllocContext (sys.emu.images.record record).cpu sys.emu with
      | none =>
          have hassert : SameBooks sys.emu (sys.emu.assert .contextNotNull False) :=
            .assert _ rfl (by decide) _
          refine .of_tracked (System.returned
            { sys with emu := sys.emu.assert .contextNotNull False } _) (h.sameBooks hassert) ?_
          exact hassert.runContextAlloc.trans
            (poolLeft_of_nil hcallee (cpuAllocContext_eq_none halloc))
      | some ks =>
          obtain ⟨k, s⟩ := ks
          obtain ⟨hcpu, ht⟩ := Taken.of_alloc h.threaded halloc
          rw [← hcpu] at hcallee
          have hpool : sys.emu.runContextAlloc k.cpu ≠ [] := fun hnil => by
            have htaken : sys.emu.runContextAlloc k.cpu = _ := ht.pool
            rw [hnil] at htaken
            cases htaken
          let s₁ := s.modifyRecord record fun r => { r with imageHandle := imageHandle }
          let s₂ := s₁.modifyContext k fun c =>
            { c with
              imageRecord := some record
              programCounter := (s₁.images.record record).imageEntry
              args := System.imageArgs imageHandle systemTable }
          let s₃ := s₂.modifyRecord record fun r =>
            { r with imageExitJumpBuffer := some sys.nextId }
          have ht₂ : Taken k chain sys.emu s₂ :=
            (ht.modifyRecord record _).modifyContext fun _ => rfl
          have ht' : Taken k chain sys.emu s₃ := ht₂.modifyRecord record _
          have himage : (s₃.context k).imageRecord = some record := by
            simp [s₃, s₂, State.modifyContext, State.modifyRecord]
          rw [← ht'.poolLeft_eq fp hcallee]
          exact conducts_cpuRunCtx sys (some record) honeStack h hstack hfp ht' himage
            fun hc => (hclear hc).orphans h hcallee hpool

/-- Every call of `CpuFreeContext` in a step can be made, and what follows is tracked. -/
theorem conducts_step (honeStack : cfg.onPrivateStack = false)
    (h : Tracked cfg size clear (sys.books chain)) (hclear : clear → OrphansClear cfg sys action) :
    Conducts cfg size clear (poolLeft sys action) (step cfg sys action)
      (freeCalls cfg sys action) := by
  unfold step freeCalls
  cases action with
  | runFunc cpu programCounter args fp =>
      cases hstack : sys.stack with
      | nil => exact .none cfg size clear _
      | cons frame rest =>
          cases frame with
          | native id =>
              simp only
              by_cases hfp : fpFits fp (.native id :: rest) = true
              · rw [if_pos hfp, if_pos hfp]
                exact conducts_runFunc honeStack h hstack (hstack ▸ hfp) hclear
              · rw [if_neg hfp, if_neg hfp]
                exact .none cfg size clear _
          | run a => exact .none cfg size clear _
          | exiting id => exact .none cfg size clear _
  | runImage imageHandle systemTable loadedImage fp =>
      cases hstack : sys.stack with
      | nil => exact .none cfg size clear _
      | cons frame rest =>
          cases frame with
          | native id =>
              simp only
              by_cases hfp : fpFits fp (.native id :: rest) = true
              · rw [if_pos hfp, if_pos hfp]
                cases loadedImage with
                | error status => exact .of_tracked (sys.returned status) h rfl
                | ok imageBase => exact conducts_runImage honeStack h hstack (hstack ▸ hfp) hclear
              · rw [if_neg hfp, if_neg hfp]
                exact .none cfg size clear _
          | run a => exact .none cfg size clear _
          | exiting id => exact .none cfg size clear _
  | emulate regs memory ucErr =>
      cases hstack : sys.stack with
      | nil => exact .none cfg size clear _
      | cons frame rest =>
          cases frame with
          | run a =>
              rw [System.books, hstack] at h
              exact conducts_emulate sys honeStack h
          | native id => exact .none cfg size clear _
          | exiting id => exact .none cfg size clear _
  | store memory =>
      cases hstack : sys.stack with
      | nil => exact .none cfg size clear _
      | cons frame rest =>
          cases frame with
          | native id =>
              rw [System.books, hstack] at h
              exact .of_tracked { sys with
                emu := { sys.emu with memory := memory }
                stack := .native id :: rest }
                  (h.sameBooks (.setEngines sys.emu sys.emu.ue memory)) rfl
          | run a => exact .none cfg size clear _
          | exiting id => exact .none cfg size clear _
  | ret value =>
      cases hstack : sys.stack with
      | nil => exact .none cfg size clear _
      | cons frame below =>
          cases frame with
          | run a => exact .none cfg size clear _
          | exiting id => exact .none cfg size clear _
          | native id =>
              cases below with
              | nil => exact .none cfg size clear _
              | cons caller rest =>
                  cases caller with
                  | native id' => exact .none cfg size clear _
                  | run a =>
                      rw [System.books, hstack] at h
                      exact conducts_resume sys value h
                  | exiting id' =>
                      rw [System.books, hstack] at h
                      obtain ⟨⟨id'', rest', rfl⟩, hnested⟩ := h.nested
                      have hassert : SameBooks sys.emu
                          (sys.emu.assert .exitStatus (efiError value = false)) :=
                        .assert _ rfl (by decide) _
                      have hleft := (h.sameBooks hassert).restack (.native id'' :: rest')
                        (h.live.sameBooks hassert) hnested fun _ _ hrun => by cases hrun
                      exact .of_tracked { sys with
                        emu := sys.emu.assert .exitStatus (efiError value = false)
                        stack := .native id'' :: rest'
                        trace := .returned id' value :: sys.trace } hleft hassert.runContextAlloc
  | longJump id =>
      cases hstack : sys.stack with
      | nil => exact .none cfg size clear _
      | cons frame rest =>
          cases frame with
          | run a => exact .none cfg size clear _
          | exiting id' => exact .none cfg size clear _
          | native id' =>
              simp only
              cases hunwind : unwindToNative id (.native id' :: rest) with
              | none => exact .none cfg size clear _
              | some stack =>
                  obtain ⟨frames, rest', heq, rfl⟩ := unwindToNative_eq_some hunwind
                  rw [System.books, hstack, heq] at h
                  have hlive := h.live
                  rw [activations_append] at hlive
                  have hleft := h.restack (.native id :: rest') hlive.of_append h.nested.of_append
                    fun _ _ hrun => by cases hrun
                  exact .of_tracked { sys with stack := .native id :: rest' } hleft rfl

theorem tracked_initial (cfg : Config) (p : Platform) (clear : Prop) :
    Tracked cfg p.runContexts clear ((initial p).books []) := by
  have h := accounted_initial cfg p
  refine ⟨h.chained.threaded, h.live, h.nested, h.top, fun k hk => ?_,
    fun k hk _ => List.mem_range.mpr hk, fun _ => by simp [System.books, initial, cpuInit]⟩
  exact hk.elim List.mem_range.mp fun hmem => absurd hmem List.not_mem_nil

/-- The run lemma: the life cycle is tracked in every state that is reached. -/
theorem tracked_of_run {p : Platform} {actions : List Action} (clear : Prop)
    (honeStack : cfg.onPrivateStack = false)
    (h : Run (step cfg) (fun sys action => clear → OrphansClear cfg sys action)
      (initial p) actions sys) :
    ∃ chain, Tracked cfg p.runContexts clear (sys.books chain) :=
  h.invariant (I := fun sys => ∃ chain, Tracked cfg p.runContexts clear (sys.books chain))
    (fun _ _ _ ⟨_, htracked⟩ hclear hstep =>
      (conducts_step honeStack htracked hclear).tracked _ hstep)
    ⟨[], tracked_initial cfg p clear⟩

/-- As long as orphans have saved nothing, every context is either free or on the
chain between two steps, and every call of `CpuFreeContext` frees a context that
is allocated, off the chain and has nothing saved.  These calls are what the
pools grow by. -/
theorem lifeCycle_of_run (cfg : Config) (p : Platform) (actions : List Action) (sys : System)
    (honeStack : cfg.onPrivateStack = false)
    (h : Run (step cfg) (OrphansClear cfg) (initial p) actions sys) :
    LifeCycleKept p.runContexts sys.emu ∧ ∀ action sys', OrphansClear cfg sys action →
      step cfg sys action = some sys' →
      (∀ c ∈ freeCalls cfg sys action, Freeable c.1 c.2) ∧
        ∀ cpu, sys'.emu.runContextAlloc cpu =
          poolLeft sys action cpu ++ indicesOn ((freeCalls cfg sys action).map Prod.fst) cpu := by
  obtain ⟨chain, htracked⟩ := tracked_of_run True honeStack (h.mono fun _ _ hclear _ => hclear)
  refine ⟨htracked.lifeCycleKept trivial, fun action sys' hclear hstep => ?_⟩
  have hstep' := conducts_step honeStack htracked fun _ => hclear
  exact ⟨hstep'.freeable trivial, hstep'.runContextAlloc sys' hstep⟩

/-- An orphan of the other engine, which is miscounted, is freed as it should be. -/
theorem lifeCycle_of_run_foreignOrphan :
    ∃ sys sys', exec (step orphanConfig) (OrphansClear orphanConfig) (initial examplePlatform)
        [.runFunc .aarch64 0x20400 (fun _ => 0) 100, callOut .aarch64, .longJump 0] = some sys ∧
      step orphanConfig sys (.runFunc .x64 0x10400 (fun _ => 0) 100) = some sys' ∧
      (freeCalls orphanConfig sys (.runFunc .x64 0x10400 (fun _ => 0) 100)).map Prod.fst =
      [⟨.aarch64, 0⟩] ∧
      LifeCycleKept examplePlatform.runContexts sys.emu ∧
      ∀ c ∈ freeCalls orphanConfig sys (.runFunc .x64 0x10400 (fun _ => 0) 100),
      Freeable c.1 c.2 := by
  have hvalues : (exec (step orphanConfig) (OrphansClear orphanConfig) (initial examplePlatform)
      [.runFunc .aarch64 0x20400 (fun _ => 0) 100, callOut .aarch64, .longJump 0]).map (fun sys =>
        (decide (OrphansClear orphanConfig sys (.runFunc .x64 0x10400 (fun _ => 0) 100)),
          (step orphanConfig sys (.runFunc .x64 0x10400 (fun _ => 0) 100)).isSome,
          (freeCalls orphanConfig sys (.runFunc .x64 0x10400 (fun _ => 0) 100)).map Prod.fst)) =
      some (true, true, [⟨.aarch64, 0⟩]) := by decide
  obtain ⟨sys, hsys, heq⟩ := Option.map_eq_some_iff.mp hvalues
  simp only [Prod.mk.injEq, decide_eq_true_eq] at heq
  obtain ⟨hclear, hsome, hfrees⟩ := heq
  obtain ⟨sys', hstep⟩ := Option.isSome_iff_exists.mp hsome
  obtain ⟨hkept, hsteps⟩ := lifeCycle_of_run orphanConfig examplePlatform _ sys rfl (.of_exec hsys)
  exact ⟨sys, sys', hsys, hstep, hfrees, hkept, (hsteps _ _ hclear hstep).1⟩

/-- Native code jumps out of two x64 functions, one called by the other; the
inner one has saved the engine for the outer one, and is freed like that. -/
theorem nestedOrphan_freed_saved :
    ∃ sys, Run (step orphanConfig) (fun _ _ => True) (initial examplePlatform)
        [.runFunc .x64 0x10400 (fun _ => 0) 100, callOut .x64,
          .runFunc .x64 0x10400 (fun _ => 0) 90, callOut .x64, .longJump 0,
          .runFunc .x64 0x10400 (fun _ => 0) 100] sys ∧
      .flagsClear ∈ sys.emu.failedAsserts ∧
      ¬ LifeCycleKept examplePlatform.runContexts sys.emu := by
  have hvalues : (exec (step orphanConfig) (fun _ _ => True) (initial examplePlatform)
      [.runFunc .x64 0x10400 (fun _ => 0) 100, callOut .x64, .runFunc .x64 0x10400 (fun _ => 0) 90,
        callOut .x64, .longJump 0, .runFunc .x64 0x10400 (fun _ => 0) 100]).map
      (fun sys => sys.emu.failedAsserts) = some [.flagsClear] := by decide
  obtain ⟨sys, hsys, heq⟩ := Option.map_eq_some_iff.mp hvalues
  have hfailed : .flagsClear ∈ sys.emu.failedAsserts := by
    rw [heq]
    exact List.mem_cons_self
  exact ⟨sys, .of_exec hsys, hfailed, fun h => absurd (h.asserts _ hfailed) (by decide)⟩

end MultiArchUefi
