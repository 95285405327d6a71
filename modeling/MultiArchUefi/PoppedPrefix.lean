import MultiArchUefi.LeakedContexts

/-!
# MultiArchUefi.PoppedPrefix

`CpuCompressLeakedContexts` pops exactly the contexts in front of its target.

The function is followed through its accesses to the contexts: what it reads of
them, and in which order it frees them.  `PopsPrefix` collects what it leaves.
-/

namespace MultiArchUefi

open Chain Nesting

/-! ## the accesses -/

/-- What the function does with a context of the chain. -/
inductive ContextAccess where
  /-- `Cpu`, `Flags` and `PrevUcContext` are read. -/
  | fields (k : CtxId)
  /-- `PrevContext` is read. -/
  | link (k : CtxId)
  /-- The context is given to `CpuFreeContext`, with these `Flags`. -/
  | free (k : CtxId) (flags : UINT64)
deriving DecidableEq, Repr

def ContextAccess.context : ContextAccess → CtxId
  | .fields k => k
  | .link k => k
  | .free k _ => k

/-- The context that is freed, with its `Flags`. -/
def ContextAccess.freed? : ContextAccess → Option (CtxId × UINT64)
  | .free k flags => some (k, flags)
  | _ => none

/-- The accesses of one turn of the first loop. -/
def popAccesses (k : CtxId) : List ContextAccess := [.fields k, .link k]

/-- The accesses of one turn of the second loop, to a context with these `Flags`. -/
def freeAccesses (k : CtxId) (flags : UINT64) : List ContextAccess := [.link k, .free k flags]

/-- `cpuCompressLeakedContexts`, with its accesses to the contexts. -/
def cpuCompressLeakedContextsAccesses (currentContext : CtxId) (onImageExit : Bool) (s : State) :
    Option (State × List ContextAccess) := do
  let s := s.criticalBegin
  let fromContext := s.mTopContext
  let toContext := if onImageExit then s.next currentContext else some currentContext
  let accesses := if onImageExit then [.link currentContext] else []
  let s := { s with mTopContext := toContext }
  let (s, accesses) ← walk
    (logged popLeakedContext fun k _ => popAccesses k) toContext chainFuel fromContext
    (s, accesses)
  let s := s.criticalEnd
  walk (logged freeNextContext fun k s => freeAccesses k (s.context k).flags) toContext
    chainFuel fromContext
    (s, accesses)

/-- The context has saved the engine's registers. -/
def State.saves (s : State) (cpu : CpuId) (k : CtxId) : Bool :=
  decide (k.cpu = cpu) && (s.context k).haveSaved

/-- The registers that the engine has after the contexts of `l` have been popped:
what the oldest of those that saved it has saved. -/
def savedRegisters (s : State) (l : List CtxId) (cpu : CpuId) : RegFile :=
  match l.findRev? (s.saves cpu) with
  | none => s.ue cpu
  | some k => (s.context k).prevUcContext

/-- From `s` the contexts of `dead` have been popped off the chain and freed,
which leaves `post` on it and the state `s'`. -/
structure PopsPrefix (dead post : List CtxId) (s s' : State) (accesses : List ContextAccess) :
    Prop where
  top : s'.mTopContext = ptr post none
  /-- Each context of `dead` is freed once, and no other. -/
  freed : accesses.filterMap ContextAccess.freed? = dead.map fun k => (k, 0)
  /-- Its link is read before it is freed, and the context is not touched any more. -/
  ordered : ∀ before k flags after, accesses = before ++ .free k flags :: after →
    .link k ∈ before ∧ ∀ x ∈ after, x.context ≠ k
  pools : ∀ cpu, s'.runContextAlloc cpu = s.runContextAlloc cpu ++ indicesOn dead cpu
  older : ∀ k ∈ post, s'.context k = s.context k
  counted : ∀ cpu, s'.contexts cpu = s.contexts cpu - countOn dead cpu
  registers : ∀ cpu, s'.ue cpu = savedRegisters s dead cpu
  asserts : s'.failedAsserts = s.failedAsserts

/-! ## the registers -/

/-- Popping a context that has saved the engine gives it what it has saved. -/
theorem restore_entry (s : State) (k : CtxId) (regs : CpuId → RegFile) (cpu : CpuId) :
    (s.entry k).restore regs cpu = if s.saves cpu k then (s.context k).prevUcContext
      else regs cpu := by
  cases hs : (s.context k).haveSaved with
  | false => simp [Entry.restore, State.entry, State.saves, hs]
  | true =>
      by_cases hcpu : k.cpu = cpu
      · subst hcpu
        simp [Entry.restore, State.entry, State.saves, hs]
      · simp [Entry.restore, State.entry, State.saves, hs, hcpu,
          Function.update_of_ne (Ne.symm hcpu)]

/-- Each engine ends with what its oldest popped context has saved. -/
theorem replay_eq_savedRegisters (s : State) (l : List CtxId) (cpu : CpuId) :
    replay (l.map s.entry) s.ue cpu = savedRegisters s l cpu := by
  suffices h : ∀ regs : CpuId → RegFile, replay (l.map s.entry) regs cpu =
      match l.findRev? (s.saves cpu) with
      | none => regs cpu
      | some k => (s.context k).prevUcContext from h s.ue
  induction l with
  | nil => exact fun _ => rfl
  | cons k l ih =>
      intro regs
      rw [List.map_cons, replay_cons, ih, List.findRev?]
      cases l.findRev? (s.saves cpu) with
      | some j => rfl
      | none =>
          simp only [restore_entry]
          cases s.saves cpu k <;> rfl

/-! ## the accesses of the loops -/

/-- The first loop visits what is above on the chain, in order. -/
theorem visits_popLeakedContext_fst {s : State} {l : List CtxId} {stop : Option CtxId}
    (hseg : Seg s.next (ptr l stop) l stop) (hstop : ∀ k ∈ l, some k ≠ stop)
    (hlen : l.length < chainFuel) :
    (visits popLeakedContext stop chainFuel (ptr l stop) s).map Prod.fst = l := by
  refine (visits_spec (I := fun l s => Seg s.next (ptr l stop) l stop)
    (fun k l s h => ?_) chainFuel l s hlen
    hstop hseg).1
  have hlink : (popLeakedContext k s).1 = ptr l stop := (popLeakedContext_fst k s).trans h.2.eq_ptr
  refine ⟨hlink, ?_⟩
  rw [next_popLeakedContext, ← hlink, popLeakedContext_fst]
  exact h.2

theorem context_freeNextContext (k : CtxId) (s : State) :
    (freeNextContext k s).2.context = s.context := by
  simp only [freeNextContext, cpuFreeContext, State.assert_eq]

/-- The second loop frees the contexts as they are. -/
theorem flatMap_visits_freeNextContext {s : State} {l : List CtxId} {stop : Option CtxId}
    (hseg : Seg s.next (ptr l stop) l stop) (hstop : ∀ k ∈ l, some k ≠ stop)
    (hlen : l.length < chainFuel) :
    (visits freeNextContext stop chainFuel (ptr l stop) s).flatMap
        (fun v => freeAccesses v.1 (v.2.context v.1).flags) =
      l.flatMap fun k => freeAccesses k (s.context k).flags := by
  let I : List CtxId → State → Prop := fun rest s' =>
    Seg s'.next (ptr rest stop) rest stop ∧ s'.context = s.context
  have step : ∀ k rest s', I (k :: rest) s' →
      (freeNextContext k s').1 = ptr rest stop ∧ I rest (freeNextContext k s').2 := by
    rintro k rest s' ⟨hseg, hcontext⟩
    have hlink : (freeNextContext k s').1 = ptr rest stop := hseg.2.eq_ptr
    refine ⟨hlink, ?_, (context_freeNextContext k s').trans hcontext⟩
    rw [next_freeNextContext, ← hlink]
    exact hseg.2
  obtain ⟨hfst, hvisits⟩ := visits_spec step chainFuel l s hlen hstop ⟨hseg, rfl⟩
  calc
    _ = (visits freeNextContext stop chainFuel (ptr l stop) s).flatMap
          (fun v => freeAccesses v.1 (s.context v.1).flags) := by
        refine List.flatMap_congr fun v hv => ?_
        obtain ⟨rest, -, hcontext⟩ := hvisits v hv
        rw [hcontext]
    _ = ((visits freeNextContext stop chainFuel (ptr l stop) s).map Prod.fst).flatMap
          fun k => freeAccesses k (s.context k).flags := by rw [List.flatMap_map]
    _ = _ := by rw [hfst]

/-- What `CpuCompressLeakedContexts` does with the contexts when it pops those of `dead`. -/
def compressAccesses (currentContext : CtxId) (onImageExit : Bool) (dead : List CtxId) :
    List ContextAccess :=
  (if onImageExit then [.link currentContext] else []) ++ dead.flatMap popAccesses ++
    dead.flatMap fun k => freeAccesses k 0

/-- What is popped is freed once each, with its flags clear. -/
theorem filterMap_freed_compressAccesses (k : CtxId) (onImageExit : Bool) (dead : List CtxId) :
    (compressAccesses k onImageExit dead).filterMap ContextAccess.freed? = dead.map
      fun k => (k, 0) := by
  have hfree : (dead.flatMap fun k => freeAccesses k 0).filterMap ContextAccess.freed? =
      dead.map fun k => (k, 0) := by
    induction dead with
    | nil => rfl
    | cons k dead ih =>
        rw [List.flatMap_cons, List.filterMap_append, ih]
        rfl
  have hpop : (dead.flatMap popAccesses).filterMap ContextAccess.freed? = [] := by
    simp [List.filterMap_flatMap, popAccesses, ContextAccess.freed?]
  rw [compressAccesses, List.filterMap_append, List.filterMap_append, hpop, hfree]
  cases onImageExit <;> rfl

/-- The links are read before the contexts are freed, and no context is touched afterwards. -/
theorem ordered_freeAccesses {dead : List CtxId} (hnodup : dead.Nodup) (before : List ContextAccess)
    {after : List ContextAccess} {k : CtxId} {flags : UINT64}
    (h : dead.flatMap (fun k => freeAccesses k 0) = before ++ .free k flags :: after) :
    .link k ∈ before ∧ ∀ x ∈ after, x.context ≠ k := by
  induction dead generalizing before with
  | nil => simp at h
  | cons j dead ih =>
      obtain ⟨hj, hdead⟩ := List.nodup_cons.mp hnodup
      rw [List.flatMap_cons] at h
      match before, h with
      | [], h => simp [freeAccesses] at h
      | [x], h =>
          obtain ⟨rfl, hfree, rfl⟩ : .link j = x ∧ .free j 0 = ContextAccess.free k flags ∧
              dead.flatMap (fun k => freeAccesses k 0) = after := by simpa [freeAccesses] using h
          obtain ⟨rfl, -⟩ := ContextAccess.free.inj hfree
          refine ⟨List.mem_singleton_self _, fun x hx hcontext => ?_⟩
          obtain ⟨i, hi, hx⟩ := List.mem_flatMap.mp hx
          have : x.context = i := by
            rcases List.mem_pair.mp hx with rfl | rfl <;> rfl
          exact hj (hcontext ▸ this ▸ hi)
      | x :: y :: before, h =>
          obtain ⟨-, -, h⟩ : .link j = x ∧ .free j 0 = y ∧
              dead.flatMap (fun k => freeAccesses k 0) = before ++ .free k flags :: after := by
            simpa [freeAccesses] using h
          obtain ⟨hlink, hafter⟩ := ih hdead _ h
          exact ⟨List.mem_cons_of_mem _ (List.mem_cons_of_mem _ hlink), hafter⟩

/-- The link of a context is read before it is freed, and the context is not touched again. -/
theorem ordered_compressAccesses {dead : List CtxId} (hnodup : dead.Nodup) {current k : CtxId}
    {onImageExit : Bool} {before after : List ContextAccess} {flags : UINT64}
    (h : compressAccesses current onImageExit dead = before ++ .free k flags :: after) :
    .link k ∈ before ∧ ∀ x ∈ after, x.context ≠ k := by
  have hreads : ∀ x ∈ (if onImageExit then [.link current] else []) ++ dead.flatMap popAccesses,
      x ≠ ContextAccess.free k flags := by
    rintro x hx rfl
    rcases List.mem_append.mp hx with hx | hx
    · split at hx <;> simp at hx
    · simp [popAccesses] at hx
  rw [compressAccesses] at h
  rcases List.append_eq_append_iff.mp h with ⟨mid, rfl, hfrees⟩ | ⟨mid, hfront, hmid⟩
  · obtain ⟨hlink, hafter⟩ := ordered_freeAccesses hnodup _ hfrees
    exact ⟨List.mem_append_right _ hlink, hafter⟩
  · -- the first accesses free nothing
    cases mid with
    | nil => exact (ordered_freeAccesses hnodup [] hmid.symm).imp nofun id
    | cons x mid =>
        obtain ⟨rfl, -⟩ := List.cons.inj hmid
        exact absurd rfl (hreads _ (by rw [hfront]; simp))

/-! ## what is popped -/

/-- The accesses do not change what the function does. -/
theorem cpuCompressLeakedContextsAccesses_fst (k : CtxId) (onImageExit : Bool) (s : State) :
    (cpuCompressLeakedContextsAccesses k onImageExit s).map Prod.fst =
      cpuCompressLeakedContexts k onImageExit s := by
  simp only [cpuCompressLeakedContextsAccesses, cpuCompressLeakedContexts, walk_logged]
  generalize (if onImageExit then s.criticalBegin.next k else some k) = toContext
  cases walk popLeakedContext toContext chainFuel s.criticalBegin.mTopContext
      { s.criticalBegin with mTopContext := toContext } with
  | none => rfl
  | some s₁ =>
      simp only [Option.map_some, bind, Option.bind, Option.map_map]
      exact Option.map_id'

/-- The accesses of the whole function, whatever the chain. -/
theorem cpuCompressLeakedContextsAccesses_eq {s : State} {l post : List CtxId} (k : CtxId)
    (onImageExit : Bool) (h : Threaded s (l ++ post))
    (hto : (if onImageExit then s.next k else some k) = ptr post none)
    (hcounted : ∀ cpu, (countOn l cpu : Int) ≤ s.contexts cpu) :
    cpuCompressLeakedContextsAccesses k onImageExit s =
      some (s.popped l (ptr post none), compressAccesses k onImageExit l) := by
  obtain ⟨hfrom, hseg, -⟩ := h.seg_append
  have hlen : l.length < chainFuel := by
    have := h.length_lt
    rw [List.length_append] at this
    omega
  let s₀ : State := { s.criticalBegin with mTopContext := ptr post none }
  obtain ⟨s₁, asserts, hfirst, hend, -, -⟩ := walk_popLeakedContext_eq h
  have hreads : (visits popLeakedContext (ptr post none) chainFuel s.mTopContext s₀).flatMap
      (fun v => popAccesses v.1) = l.flatMap popAccesses := by
    have hfst : (visits popLeakedContext (ptr post none) chainFuel (ptr l (ptr post none)) s₀).map
        Prod.fst = l :=
      visits_popLeakedContext_fst hseg h.ne_ptr hlen
    rw [hfrom, ← congrArg (List.flatMap popAccesses) hfst, List.flatMap_map]
  have hfrees : (visits freeNextContext
    (ptr post none) chainFuel s.mTopContext s₁.criticalEnd).flatMap
      (fun v => freeAccesses v.1 (v.2.context v.1).flags) = l.flatMap fun k =>
      freeAccesses k 0 := by
    have hseg₁ : Seg s₁.criticalEnd.next (ptr l (ptr post none)) l (ptr post none) := by
      refine hseg.congr fun j _ => ?_
      rw [hend]
      exact prevContext_clearFlags ..
    rw [hfrom, flatMap_visits_freeNextContext hseg₁ h.ne_ptr hlen]
    refine List.flatMap_congr fun j hj => ?_
    rw [hend]
    simp [State.popped, clearFlags, hj]
  obtain ⟨asserts', hcompress, -, hsame⟩ := cpuCompressLeakedContexts_eq k onImageExit h hto
  rw [hsame hcounted] at hcompress
  simp only [cpuCompressLeakedContexts, cpuCompressLeakedContextsAccesses,
    walk_logged] at hcompress ⊢
  rw [show s.criticalBegin.next k = s.next k from rfl, hto,
    show s.criticalBegin.mTopContext = s.mTopContext from rfl, hfirst] at hcompress ⊢
  simp only [bind, Option.bind, Option.map_some] at hcompress ⊢
  rw [hcompress, hreads, hfrees]
  rfl

/-- For every chain that the counters count, and every context on it,
`CpuCompressLeakedContexts` pops exactly what is in front of its target. -/
theorem cpuCompressLeakedContexts_popsPrefix {s : State} {chain : List CtxId} (h : Threaded s chain)
    (hcounted : ∀ cpu, s.contexts cpu = countOn chain cpu) {k : CtxId} (hk : k ∈ chain)
    (onImageExit : Bool) :
    ∃ dead post s' accesses, chain = dead ++ post ∧
      ptr post none = (if onImageExit then s.next k else some k) ∧
      cpuCompressLeakedContextsAccesses k onImageExit s = some (s', accesses) ∧
      cpuCompressLeakedContexts k onImageExit s = some s' ∧ PopsPrefix dead post s s' accesses := by
  have hsplit : ∃ dead post, chain = dead ++ post ∧
      (if onImageExit then s.next k else some k) = ptr post none := by
    obtain ⟨pre, post, rfl⟩ := List.append_of_mem hk
    cases onImageExit with
    | false => exact ⟨pre, k :: post, rfl, rfl⟩
    | true => exact ⟨pre ++ [k], post, by simp, h.seg.next_of_mem⟩
  obtain ⟨dead, post, rfl, hto⟩ := hsplit
  have hle : ∀ cpu, (countOn dead cpu : Int) ≤ s.contexts cpu := by
    intro cpu
    rw [hcounted, countOn_append]
    omega
  have heq := cpuCompressLeakedContextsAccesses_eq k onImageExit h hto hle
  refine ⟨dead, post, _, _, rfl, hto.symm, heq, ?_, ?_⟩
  · rw [← cpuCompressLeakedContextsAccesses_fst, heq]
    rfl
  · exact {
      top := rfl
      freed := filterMap_freed_compressAccesses k onImageExit dead
      ordered := fun _ _ _ _ => ordered_compressAccesses h.nodup.of_append_left
      pools := fun _ => rfl
      older := fun _ hj => h.context_popped _ hj
      counted := fun _ => rfl
      registers := replay_eq_savedRegisters s dead
      asserts := rfl }

/-- An x64 function has called an AArch64 one, and that another x64 one, which
has saved its engine. -/
def nestedCalls : State where
  mTopContext := some ⟨.x64, 1⟩
  context k :=
    { prevUcContext := fun _ => 7
      programCounter := 0
      leakCookie := 0
      args := fun _ => 0
      ret := 0
      flags := if k = ⟨.x64, 1⟩ then CRC_HAVE_SAVED_UC_CONTEXT else 0
      prevContext :=
        if k = ⟨.x64, 1⟩ then some ⟨.aarch64, 0⟩
        else if k = ⟨.aarch64, 0⟩ then some ⟨.x64, 0⟩
        else none
      imageRecord := none }
  contexts cpu :=
    match cpu with
    | .x64 => 2
    | .aarch64 => 1
  runContextAlloc := fun _ => [2]
  ue := fun _ _ => 0
  initialState := fun _ _ => 0
  images := ⟨[], fun _ => ⟨0, 0, 0, 0, .x64, none, 0, 0, 0⟩⟩
  memory := ⟨fun _ => 0, []⟩
  interrupts := ⟨0, true, true⟩
  mOriginalStack := none
  failedAsserts := []

/-- Three calls, nested in each other, on two engines. -/
theorem threaded_nestedCalls : Threaded nestedCalls [⟨.x64, 1⟩, ⟨.aarch64, 0⟩, ⟨.x64, 0⟩] where
  seg := by simp [nestedCalls, State.next]
  pool_nodup := fun _ => List.nodup_singleton 2
  pool_free := fun k hk => by
    obtain ⟨cpu, index⟩ := k
    obtain rfl := List.mem_singleton.mp hk
    cases cpu <;> decide
  bounded := by decide
  flags := by decide

/-- The AArch64 function exits its image: both engines' contexts are popped. -/
theorem cpuCompressLeakedContexts_popsPrefix_nestedCalls :
    ∃ dead post s' accesses, [⟨.x64, 1⟩, ⟨.aarch64, 0⟩, ⟨.x64, 0⟩] = dead ++ post ∧
      ptr post none = (if true then nestedCalls.next ⟨.aarch64, 0⟩ else some ⟨.aarch64, 0⟩) ∧
      cpuCompressLeakedContextsAccesses ⟨.aarch64, 0⟩ true nestedCalls = some (s', accesses) ∧
      cpuCompressLeakedContexts ⟨.aarch64, 0⟩ true nestedCalls = some s' ∧
      PopsPrefix dead post nestedCalls s' accesses :=
  cpuCompressLeakedContexts_popsPrefix threaded_nestedCalls (fun cpu => by cases cpu <;> rfl)
    (by decide) true

end MultiArchUefi
