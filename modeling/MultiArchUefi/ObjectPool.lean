import MultiArchUefi.ObjectAlloc
import MultiArchUefi.Context
import MultiArchUefi.Lib.Run

/-!
# MultiArchUefi.ObjectPool

What a pool keeps, from the call that makes it on: the free objects are linked
into a ring in the order in which they will be handed out, and the others are
linked to themselves.

`runContextAlloc` is such a list of free objects, and `cpuAllocContext` and
`cpuFreeContext` do to it what `objectAlloc` and `objectFree` do to the ring.
-/

namespace MultiArchUefi

open Ring Transition

variable {σ : Type} {context : ObjectAllocContext σ} {w : PoolWorld σ}
  {free held rest : List UINT64} {o : UINT64}

/-! ## a new pool -/

/-- A pool that has been made has all its objects on its list. -/
structure Made (context : ObjectAllocContext σ) (w : PoolWorld σ) : Prop where
  ring : IsRing w.links (.list context.address) (context.objects.map .link)
  nodup : context.objects.Nodup
  signature : ∀ o ∈ context.objects, w.signature o = context.config.signature

/-- What fits into the arena has different addresses. -/
theorem nodup_arena {objectSize : UINT64} (hsize : ¬ objectSize < sizeofObjectHeader)
    (arenaSize arena : UINT64) :
    (objectsFrom objectSize (arenaSize / objectSize).toNat arena).Nodup := by
  have hpos : 24 ≤ objectSize.toNat := by
    simpa [sizeofObjectHeader, BitVec.lt_def] using hsize
  refine nodup_objectsFrom (by omega) ?_ arena
  rw [BitVec.toNat_udiv]
  have hle := Nat.div_mul_le_self arenaSize.toNat objectSize.toNat
  omega

theorem objectAllocCreate_made {config : ObjectAllocConfig σ} {services : CreateServices σ}
    {slot : Option (ObjectAllocContext σ)}
    (hsuccess : (objectAllocCreate config services slot w).status = EFI_SUCCESS) :
    ∃ context, (objectAllocCreate config services slot w).context = some context ∧
      context.config = { config with objectCount := context.config.objectCount } ∧
      Made context (objectAllocCreate config services slot w).world := by
  obtain ⟨-, heq⟩ | ⟨objectContext, -, -, heq⟩ | ⟨objectContext, -, -, -, heq⟩ |
    ⟨objectContext, arena, -, hsize, -, heq⟩ := objectAllocCreate_cases config services slot w
  all_goals rw [heq] at hsuccess ⊢
  iterate 3 cases hsuccess
  simp only at hsuccess ⊢
  split at hsuccess
  · -- a status that is an error is not `EFI_SUCCESS`
    rename_i herror
    simp only at hsuccess
    rw [hsuccess] at herror
    cases herror
  · rename_i hok
    rw [if_neg hok]
    have hnodup : (config.context objectContext arena).objects.Nodup := nodup_arena hsize _ arena
    rw [Bool.not_eq_true] at hok
    refine ⟨_, rfl, rfl, ?_, hnodup, fun o ho => ?_⟩
    · exact createObjects_ring _ _ _ _ 0 arena _ _ [] (isRing_initialized ..) hnodup hok
    · exact (createObjects_signature _ _ _ _ 0 arena _ _ hok o).trans (if_pos ho)

/-! ## what is kept -/

/-- The objects `free` are on the list of the pool, in this order, and the objects
`held` are allocated. -/
structure PoolHolds (context : ObjectAllocContext σ) (free held : List UINT64) (w : PoolWorld σ) :
    Prop where
  ring : IsRing w.links (.list context.address) (free.map .link)
  objects : (free ++ held).Perm context.objects
  nodup : context.objects.Nodup
  alone : ∀ o ∈ held, isListEmpty w.links (.link o) = true
  signature : ∀ o ∈ context.objects, w.signature o = context.config.signature

theorem Made.holds (h : Made context w) : PoolHolds context context.objects [] w :=
  ⟨h.ring, by simp, h.nodup, fun _ ho => (nomatch ho), h.signature⟩

/-- The object and the state that `OnAlloc` leaves: without a callback, nothing happens. -/
def ObjectAllocContext.onAlloc (context : ObjectAllocContext σ) (object : UINT64)
    (w : PoolWorld σ) :
    UINT64 × PoolWorld σ :=
  match context.config.onAlloc with
  | none => (EFI_SUCCESS, w)
  | some onAlloc =>
      let (status, client) := onAlloc object context.config.cbContext w.client
      (status, w.called (.onAlloc object status) client)

/-- The state that `OnFree` leaves. -/
def ObjectAllocContext.onFree (context : ObjectAllocContext σ) (object : UINT64) (w : PoolWorld σ) :
    PoolWorld σ :=
  match context.config.onFree with
  | none => w
  | some onFree => w.called (.onFree object) (onFree object context.config.cbContext w.client)

section callbacks

variable (context : ObjectAllocContext σ) (object : UINT64) (w : PoolWorld σ)

/-- A callback keeps its hands off the links. -/
theorem onAlloc_frame : (context.onAlloc object w).2 =
    { w with
      client := (context.onAlloc object w).2.client
      calls := (context.onAlloc object w).2.calls } := by
  unfold ObjectAllocContext.onAlloc
  cases context.config.onAlloc <;> rfl

theorem onFree_frame : context.onFree object w =
    { w with
      client := (context.onFree object w).client
      calls := (context.onFree object w).calls } := by
  unfold ObjectAllocContext.onFree
  cases context.config.onFree <;> rfl

end callbacks

namespace PoolHolds

/-- The links, signatures and nothing else matter. -/
theorem congr {w' : PoolWorld σ} (h : PoolHolds context free held w) (hlinks : w'.links = w.links)
    (hsig : w'.signature = w.signature) : PoolHolds context free held w' :=
  ⟨hlinks ▸ h.ring, h.objects, h.nodup, hlinks ▸ h.alone, hsig ▸ h.signature⟩

theorem nodup_append (h : PoolHolds context free held w) : (free ++ held).Nodup :=
  h.objects.nodup_iff.mpr h.nodup

/-- An object that is on the list is not allocated. -/
theorem not_mem_held (h : PoolHolds context free held w) (ho : o ∈ free) : o ∉ held :=
  List.disjoint_of_nodup_append h.nodup_append ho

theorem not_mem_free (h : PoolHolds context free held w) (ho : o ∈ held) : o ∉ free := fun hfree =>
  h.not_mem_held hfree ho

theorem mem_objects (h : PoolHolds context free held w) :
    o ∈ context.objects ↔ o ∈ free ∨ o ∈ held := by
  rw [← h.objects.mem_iff, List.mem_append]

/-- The links tell which objects are allocated. -/
theorem isListEmpty_iff (h : PoolHolds context free held w) (ho : o ∈ context.objects) :
    isListEmpty w.links (.link o) = true ↔ o ∈ held := by
  constructor
  · intro halone
    refine (h.mem_objects.mp ho).resolve_left fun hfree => ?_
    rw [isListEmpty_of_mem h.ring (List.mem_map_of_mem hfree)] at halone
    cases halone
  · exact h.alone o

theorem list_eq (h : PoolHolds context free held w) :
    isListEmpty w.links (.list context.address) = free.isEmpty := by
  rw [Bool.eq_iff_iff, Ring.isListEmpty_iff h.ring]
  simp

/-! ## allocating -/

theorem objectAlloc_nil (h : PoolHolds context [] held w) :
    objectAlloc context w = ⟨EFI_OUT_OF_RESOURCES, none, w⟩ := by
  rw [objectAlloc, h.list_eq]
  rfl

/-- The first object of the list is handed out, unless `OnAlloc` fails. -/
theorem objectAlloc_cons (h : PoolHolds context (o :: rest) held w) :
    objectAlloc context w =
      if efiError (context.onAlloc o w).1 then
        ⟨(context.onAlloc o w).1, none, (context.onAlloc o w).2⟩
      else ⟨EFI_SUCCESS, some o, (context.onAlloc o w).2.modifyLinks (unlinkEntry (.link o))⟩ := by
  have hentry : w.links.fwd (.list context.address) = .link o := h.ring.path.1.1
  have hsig : w.signature o = context.config.signature :=
    h.signature o (h.mem_objects.mpr (.inl (by simp)))
  have hassert : w.assert (.signature o) (w.signature o = context.config.signature) = w :=
    if_pos (by simpa using hsig)
  rw [objectAlloc, h.list_eq]
  simp only [List.isEmpty_cons, Bool.false_eq_true, if_false, hentry, PoolEntry.object_link]
  rw [hassert]
  unfold ObjectAllocContext.onAlloc
  cases context.config.onAlloc with
  | none =>
      have hok : ¬ efiError EFI_SUCCESS = true := by decide
      rw [if_neg hok]
  | some onAlloc => rfl

/-- Unlinking the first object takes it off the list, and leaves it alone. -/
theorem unlink (h : PoolHolds context (o :: rest) held w) :
    PoolHolds context rest (o :: held) (w.modifyLinks (unlinkEntry (.link o))) := by
  have hnodup := h.nodup_append
  have hring : IsRing w.links (.list context.address) ([] ++ .link o :: rest.map .link) := h.ring
  have hremove : IsRing (removeEntryList (.link o) w.links) (.list context.address)
      (rest.map .link) :=
    hring.removeEntry
  have hrest : o ∉ rest := by grind
  refine ⟨hremove.congr fun z hz => initialize_of_ne _ ?_, ?_, h.nodup,
    fun o' ho' => ?_, h.signature⟩
  · rintro rfl
    simp [hrest] at hz
  · exact List.perm_middle.trans h.objects
  · by_cases heq : o' = o
    · rw [heq]
      exact isListEmpty_initialized ..
    · -- another allocated object is linked to itself still
      have hheld : o' ∈ held := (List.mem_cons.mp ho').resolve_left heq
      have hfree : o' ∉ o :: rest := h.not_mem_free hheld
      have hne : PoolEntry.link o' ≠ .link o := fun hlink => heq (PoolEntry.link.inj hlink)
      have hother := hring.removeEntry_of_not_mem (z := .link o') (by simp_all)
      have halone := h.alone o' hheld
      rw [isListEmpty, decide_eq_true_eq] at halone ⊢
      exact ((initialize_of_ne _ hne).1.trans hother.1).trans halone

/-! ## freeing -/

theorem objectFree_eq (h : PoolHolds context free held w) (ho : o ∈ context.objects) :
    objectFree context o w =
      (context.onFree o (if o ∈ held then w else
        { w with failedAsserts := .objectUnlisted o :: w.failedAsserts })).modifyLinks
          (insertTailList (.list context.address) (.link o)) := by
  have hassert : w.assert (.objectUnlisted o) (isListEmpty w.links (.link o)) =
      if o ∈ held then w else { w with failedAsserts := .objectUnlisted o :: w.failedAsserts } := by
    simp only [PoolWorld.assert, h.isListEmpty_iff ho]
  rw [← hassert]
  unfold objectFree ObjectAllocContext.onFree
  cases context.config.onFree <;> rfl

/-- Linking an allocated object puts it at the end of the list. -/
theorem link (h : PoolHolds context free held w) (ho : o ∈ held) :
    PoolHolds context (free ++ [o]) (held.erase o)
      (w.modifyLinks (insertTailList (.list context.address) (.link o))) := by
  have hnodup := h.nodup_append
  have hfree := h.not_mem_free ho
  have hnew : PoolEntry.link o ∉ PoolEntry.list context.address :: free.map PoolEntry.link := by
    simp [hfree]
  refine ⟨?_, ?_, h.nodup, fun o' ho' => ?_, h.signature⟩
  · rw [List.map_append]
    exact h.ring.insertTail hnew
  · refine List.Perm.trans ?_ h.objects
    rw [List.append_assoc]
    exact List.Perm.append_left free (List.perm_cons_erase ho).symm
  · -- another allocated object keeps its links
    have hheld : o' ∈ held := List.mem_of_mem_erase ho'
    have hne : o' ≠ o := fun heq => by
      rw [heq] at ho'
      exact (List.Nodup.not_mem_erase hnodup.of_append_right) ho'
    have hother := h.ring.insertTail_of_not_mem (z := .link o') hnew
      (by simp [h.not_mem_free hheld])
      fun hlink => hne (PoolEntry.link.inj hlink)
    have halone := h.alone o' hheld
    rw [isListEmpty, decide_eq_true_eq] at halone ⊢
    exact hother.1.trans halone

end PoolHolds

/-! ## a pool in use -/

/-- What the client does with a pool.  `use` is anything that keeps its hands off
the headers of the objects. -/
inductive PoolAction (σ : Type) where
  | alloc
  | free (object : UINT64)
  | use (client : σ)

/-- The world, and the objects that the client has been given and has not freed. -/
structure PoolUse (σ : Type) where
  world : PoolWorld σ
  held : List UINT64

/-- One action; only what has been allocated is freed. -/
def poolStep (context : ObjectAllocContext σ) (u : PoolUse σ) : PoolAction σ → Option (PoolUse σ)
  | .alloc =>
      let r := objectAlloc context u.world
      some ⟨r.world, r.object.toList ++ u.held⟩
  | .free object =>
      if object ∈ u.held then some ⟨objectFree context object u.world, u.held.erase object⟩
        else none
  | .use client => some { u with world := { u.world with client := client } }

theorem poolHolds_alloc {u : PoolUse σ} (h : PoolHolds context free u.held u.world) :
    ∃ free', PoolHolds context free' ((objectAlloc context u.world).object.toList ++ u.held)
      (objectAlloc context u.world).world := by
  cases free with
  | nil =>
      rw [h.objectAlloc_nil]
      exact ⟨[], h⟩
  | cons o rest =>
      have hcalled : PoolHolds context (o :: rest) u.held (context.onAlloc o u.world).2 :=
        h.congr (by rw [onAlloc_frame]) (by rw [onAlloc_frame])
      rw [h.objectAlloc_cons]
      split
      · exact ⟨o :: rest, hcalled⟩
      · exact ⟨rest, hcalled.unlink⟩

theorem poolHolds_free {u : PoolUse σ} (h : PoolHolds context free u.held u.world)
    (ho : o ∈ u.held) :
    PoolHolds context (free ++ [o]) (u.held.erase o) (objectFree context o u.world) := by
  have hcalled : PoolHolds context free u.held (context.onFree o u.world) :=
    h.congr (by rw [onFree_frame]) (by rw [onFree_frame])
  rw [h.objectFree_eq (h.mem_objects.mpr (.inr ho)), if_pos ho]
  exact hcalled.link ho

theorem poolHolds_step {u u' : PoolUse σ} {action : PoolAction σ}
    (h : ∃ free, PoolHolds context free u.held u.world)
    (hstep : poolStep context u action = some u') :
    ∃ free, PoolHolds context free u'.held u'.world := by
  obtain ⟨free, h⟩ := h
  cases action with
  | alloc =>
      obtain rfl := Option.some.inj hstep
      exact poolHolds_alloc h
  | free object =>
      rw [poolStep] at hstep
      split at hstep
      · rename_i ho
        obtain rfl := Option.some.inj hstep
        exact ⟨_, poolHolds_free h ho⟩
      · cases hstep
  | use client =>
      obtain rfl := Option.some.inj hstep
      exact ⟨free, h.congr rfl rfl⟩

/-! ## the property -/

/-- What `ObjectAlloc` may do when not all objects are allocated: `OnAlloc` is called
for a free object, and the object is handed out unless it fails. -/
def AllocatesOne (context : ObjectAllocContext σ) (u : PoolUse σ) : Prop :=
  ∃ o ∈ context.objects, o ∉ u.held ∧
    let status := (context.onAlloc o u.world).1
    let r := objectAlloc context u.world
    if efiError status then r.status = status ∧ r.object = none ∧ r.world.links = u.world.links
    else r.status = EFI_SUCCESS ∧ r.object = some o

/-- The free list and the allocated objects are all there is, and the code can tell
them apart. -/
structure PoolKept (context : ObjectAllocContext σ) (u : PoolUse σ) : Prop where
  /-- Every object is on the list or allocated, once. -/
  ring : ∃ free, IsRing u.world.links (.list context.address) (free.map .link) ∧
    (free ++ u.held).Perm context.objects
  nodup : context.objects.Nodup
  alone_iff : ∀ o ∈ context.objects, isListEmpty u.world.links (.link o) = true ↔ o ∈ u.held
  /-- `ObjectFree`'s assertion fails for what is not allocated. -/
  freed : ∀ o ∈ context.objects, (objectFree context o u.world).failedAsserts =
    if o ∈ u.held then u.world.failedAsserts else .objectUnlisted o :: u.world.failedAsserts
  /-- `ObjectAllocDestroy`'s assertion fails for what is allocated. -/
  destroyed : ∀ w, objectAllocDestroy context u.world = some w → w.failedAsserts =
    ((context.objects.filter (· ∈ u.held)).map .objectListed).reverse ++ u.world.failedAsserts
  exhausted : (∀ o ∈ context.objects, o ∈ u.held) →
    objectAlloc context u.world = ⟨EFI_OUT_OF_RESOURCES, none, u.world⟩
  available : (∃ o ∈ context.objects, o ∉ u.held) → AllocatesOne context u

/-- The assertions of `ObjectAllocDestroy` that fail. -/
theorem destroyObjects_failedAsserts {config : ObjectAllocConfig σ} {objectSize : UINT64}
    (held : List UINT64) (n : Nat) (object : UINT64) (w w' : PoolWorld σ)
    (halone : ∀ o ∈ objectsFrom objectSize n object, isListEmpty w.links (.link o) = true ↔
      o ∈ held)
    (h : destroyObjects config objectSize n object w = some w') :
    w'.failedAsserts = (((objectsFrom objectSize n object).filter (· ∈ held)).map
      .objectListed).reverse ++
      w.failedAsserts := by
  induction n generalizing object w with
  | zero =>
      obtain rfl := Option.some.inj h
      rfl
  | succ n ih =>
      rw [destroyObjects] at h
      cases honDestroy : config.onDestroy with
      | none =>
          rw [honDestroy] at h
          cases h
      | some onDestroy =>
          simp only [honDestroy] at h
          have hobject := halone object List.mem_cons_self
          have hlinks : (w.assert (.objectListed object)
              (!isListEmpty w.links (.link object))).links = w.links := by
            unfold PoolWorld.assert
            split <;> rfl
          rw [ih _ _ (fun o ho => ?_) h]
          · simp only [PoolWorld.called, PoolWorld.assert, objectsFrom]
            by_cases hheld : object ∈ held
            · rw [hobject.mpr hheld]
              simp [hheld]
            · have hlisted : isListEmpty w.links (.link object) = false := by
                rw [← Bool.not_eq_true, hobject]
                exact hheld
              rw [hlisted]
              simp [hheld]
          · rw [PoolWorld.called, hlinks]
            exact halone o (List.mem_cons_of_mem object ho)

theorem PoolHolds.poolKept {u : PoolUse σ} (h : PoolHolds context free u.held u.world) :
    PoolKept context u where
  ring := ⟨free, h.ring, h.objects⟩
  nodup := h.nodup
  alone_iff := fun o ho => h.isListEmpty_iff ho
  freed := fun o ho => by
    rw [h.objectFree_eq ho, onFree_frame]
    by_cases hheld : o ∈ u.held
    · simp only [if_pos hheld]
      rfl
    · simp only [if_neg hheld]
      rfl
  destroyed := fun w hdestroy => by
    obtain ⟨w', hloop, rfl⟩ := Option.map_eq_some_iff.mp hdestroy
    have hfailed := destroyObjects_failedAsserts u.held _ _ _ _
      (fun o ho => h.isListEmpty_iff ho) hloop
    exact hfailed
  exhausted := fun hall => by
    cases free with
    | nil => exact h.objectAlloc_nil
    | cons o rest =>
        have ho : o ∈ o :: rest := List.mem_cons_self
        exact absurd (hall o (h.mem_objects.mpr (.inl ho))) (h.not_mem_held ho)
  available := fun ⟨o', ho', hnot⟩ => by
    cases free with
    | nil => exact absurd ((h.mem_objects.mp ho').resolve_left fun hmem => nomatch hmem) hnot
    | cons o rest =>
        have ho : o ∈ o :: rest := List.mem_cons_self
        refine ⟨o, h.mem_objects.mpr (.inl ho), h.not_mem_held ho, ?_⟩
        simp only
        rw [h.objectAlloc_cons]
        split
        · exact ⟨rfl, rfl, by rw [onAlloc_frame]⟩
        · exact ⟨rfl, rfl⟩

/-! ## the pool of run contexts -/

/-- What the callbacks of `Cpu->RunContextAlloc` see: the contexts by their address,
`Context->PrevUcContext`, and the `uc_context`s that have not been freed. -/
structure ContextArena where
  context : UINT64 → CpuRunContext
  prevUcContext : UINT64 → Option UINT64
  ucContexts : List UINT64

/-- `CpuRunContextOnCreate`; `ucContextAlloc` is what `uc_context_alloc` comes up with. -/
def cpuRunContextOnCreate (ucContextAlloc : ContextArena → Option UINT64)
    (object _cbContext : UINT64) (arena : ContextArena) : UINT64 × ContextArena :=
  match ucContextAlloc arena with
  | none => (EFI_OUT_OF_RESOURCES, arena)
  | some ucContext =>
      (EFI_SUCCESS, { arena with
        prevUcContext := Function.update arena.prevUcContext object (some ucContext)
        ucContexts := ucContext :: arena.ucContexts })

/-- `CpuRunContextOnDestroy`. -/
def cpuRunContextOnDestroy (object _cbContext : UINT64) (arena : ContextArena) : ContextArena :=
  match arena.prevUcContext object with
  | none => arena
  | some ucContext => { arena with ucContexts := arena.ucContexts.erase ucContext }

/-- `CpuRunContextOnAlloc`. -/
def runContextOnAlloc (object _cbContext : UINT64) (arena : ContextArena) : UINT64 × ContextArena :=
  (EFI_SUCCESS,
    { arena with
      context := Function.update arena.context object
        (cpuRunContextOnAlloc (arena.context object)) })

/-- `sizeof (CpuRunContext)`: there is a `LeakCookie` in `MAU_CHECK_ORPHAN_CONTEXTS` builds only. -/
def sizeofCpuRunContext (checkOrphanContexts : Bool) : UINT64 :=
  if checkOrphanContexts then 96 else 88

/-- The `AllocConfig` of `CpuInitEx`. -/
def runContextConfig (checkOrphanContexts : Bool) (ucContextAlloc : ContextArena → Option UINT64)
    (cpu emuMachineType : UINT64) : ObjectAllocConfig ContextArena where
  objectSize := sizeofCpuRunContext checkOrphanContexts
  objectAlignment := 8
  objectCount := BitVec.ofNat 64 MAX_CPU_RUN_CONTEXTS
  cbContext := cpu
  signature := emuMachineType
  onCreate := some (cpuRunContextOnCreate ucContextAlloc)
  onAlloc := some runContextOnAlloc
  onFree := none
  onDestroy := some cpuRunContextOnDestroy

/-- A context is handed out as if it had never been used. -/
def CpuRunContext.Cleared (c : CpuRunContext) : Prop :=
  c.flags = 0 ∧ c.imageRecord = none ∧ c.prevContext = none

theorem cleared_of_objectAlloc {context : ObjectAllocContext ContextArena}
    {w : PoolWorld ContextArena} (h : PoolHolds context free held w)
    (honAlloc : context.config.onAlloc = some runContextOnAlloc)
    (ho : (objectAlloc context w).object = some o) :
    ((objectAlloc context w).world.client.context o).Cleared := by
  cases free with
  | nil =>
      rw [h.objectAlloc_nil] at ho
      cases ho
  | cons o' rest =>
      have hcalled : context.onAlloc o' w = (EFI_SUCCESS, w.called (.onAlloc o' EFI_SUCCESS)
          (runContextOnAlloc o' context.config.cbContext w.client).2) := by
        simp only [ObjectAllocContext.onAlloc, honAlloc]
        rfl
      have hok : ¬ efiError EFI_SUCCESS = true := by decide
      rw [h.objectAlloc_cons, hcalled, if_neg hok] at ho ⊢
      obtain rfl := Option.some.inj ho
      simp [PoolWorld.modifyLinks, PoolWorld.called, runContextOnAlloc, CpuRunContext.Cleared,
        cpuRunContextOnAlloc]

/-- A pool that has been made keeps its free list and its allocated objects apart, and
the contexts that are allocated from such a pool are clear. -/
theorem objectPool_of_run :
    (∀ (σ : Type) (config : ObjectAllocConfig σ) (services : CreateServices σ)
      (slot : Option (ObjectAllocContext σ)) (w : PoolWorld σ),
      (objectAllocCreate config services slot w).status = EFI_SUCCESS →
      ∃ context, (objectAllocCreate config services slot w).context = some context ∧
        ∀ actions u, Run (poolStep context) (fun _ _ => True)
            ⟨(objectAllocCreate config services slot w).world, []⟩ actions u →
          PoolKept context u) ∧
    ∀ checkOrphanContexts ucContextAlloc cpu emuMachineType services slot w,
      (objectAllocCreate (runContextConfig checkOrphanContexts ucContextAlloc cpu emuMachineType)
        services slot
        w).status = EFI_SUCCESS →
      ∃ context, (objectAllocCreate
        (runContextConfig checkOrphanContexts ucContextAlloc cpu emuMachineType)
          services slot w).context = some context ∧
        ∀ actions u, Run (poolStep context) (fun _ _ => True)
            ⟨(objectAllocCreate (runContextConfig checkOrphanContexts ucContextAlloc cpu
              emuMachineType) services
              slot w).world, []⟩ actions u →
          ∀ o, (objectAlloc context u.world).object = some o →
            ((objectAlloc context u.world).world.client.context o).Cleared := by
  have hholds : ∀ {σ : Type} {context : ObjectAllocContext σ} {w u} {actions : List (PoolAction σ)},
    Made context w →
      Run (poolStep context) (fun _ _ => True) ⟨w, []⟩ actions u →
      ∃ free, PoolHolds context free u.held u.world := fun hmade hrun =>
    hrun.invariant (I := fun u => ∃ free, PoolHolds _ free u.held u.world)
      (fun _ _ _ h _ hstep => poolHolds_step h hstep) ⟨_, hmade.holds⟩
  constructor
  · intro σ config services slot w hsuccess
    obtain ⟨context, hcontext, -, hmade⟩ := objectAllocCreate_made hsuccess
    refine ⟨context, hcontext, fun actions u hrun => ?_⟩
    obtain ⟨free, h⟩ := hholds hmade hrun
    exact h.poolKept
  · intro check ucContextAlloc cpu emuMachineType services slot w hsuccess
    obtain ⟨context, hcontext, hconfig, hmade⟩ := objectAllocCreate_made hsuccess
    refine ⟨context, hcontext, fun actions u hrun o ho => ?_⟩
    obtain ⟨free, h⟩ := hholds hmade hrun
    refine cleared_of_objectAlloc h ?_ ho
    rw [hconfig]
    rfl

/-- Two objects, and a client whose state is whether it agrees to allocations. -/
def pairConfig : ObjectAllocConfig Bool where
  objectSize := 2048
  objectAlignment := 8
  objectCount := 2
  cbContext := 0
  signature := 0x8664
  onCreate := some fun _ _ agrees => (EFI_SUCCESS, agrees)
  onAlloc := some fun _ _ agrees => (if agrees then EFI_SUCCESS else EFI_UNSUPPORTED, agrees)
  onFree := none
  onDestroy := some fun _ _ agrees => agrees

/-- Both allocations succeed. -/
def pairServices : CreateServices Bool where
  allocatePool := some 0x1000
  allocatePages := fun _ => some 0x10000
  zeroMem := fun _ _ agrees => agrees
  status := EFI_SUCCESS

/-- Nothing has been allocated. -/
def emptyWorld : PoolWorld Bool where
  client := true
  links := ⟨id, id⟩
  signature := fun _ => 0
  pools := []
  pages := []
  calls := []
  failedAsserts := []

/-- An object is allocated, another one is refused and then allocated, and the first is freed. -/
theorem objectPool_of_run_pair :
    ∃ context u, Run (poolStep context) (fun _ _ => True)
        ⟨(objectAllocCreate pairConfig pairServices none emptyWorld).world, []⟩
        [.alloc, .use false, .alloc, .use true, .alloc, .free 0x10000] u ∧
      u.held = [0x10800] ∧ PoolKept context u := by
  obtain ⟨context, hcontext, hkept⟩ :=
    objectPool_of_run.1 Bool pairConfig pairServices none emptyWorld
    (by decide)
  have hheld : ((objectAllocCreate pairConfig pairServices none emptyWorld).context.bind
    fun context =>
      (exec (poolStep context) (fun _ _ => True)
        ⟨(objectAllocCreate pairConfig pairServices none emptyWorld).world, []⟩
        [.alloc, .use false, .alloc, .use true, .alloc, .free 0x10000]).map (·.held)) = some
        [0x10800] := by
    decide
  rw [hcontext, Option.bind_some] at hheld
  obtain ⟨u, hu, hheld⟩ := Option.map_eq_some_iff.mp hheld
  exact ⟨context, u, .of_exec hu, hheld, hkept _ u (.of_exec hu)⟩

/-! ## the contexts of an engine -/

/-- The object at an index of the arena. -/
def ObjectAllocContext.object (context : ObjectAllocContext σ) (index : Nat) : UINT64 :=
  context.arena + BitVec.ofNat 64 index * context.objectSize

theorem objectsFrom_eq_map (objectSize : UINT64) (n : Nat) (object : UINT64) :
    objectsFrom objectSize n object =
      (List.range n).map fun i => object + BitVec.ofNat 64 i * objectSize := by
  induction n with
  | zero => rfl
  | succ n ih => rw [objectsFrom_succ, ih, List.range_succ, List.map_append, List.map_singleton]

theorem ObjectAllocContext.objects_eq (context : ObjectAllocContext σ) :
    context.objects = (List.range context.config.objectCount.toNat).map context.object :=
  objectsFrom_eq_map ..

/-- Two indices of a pool are not the index of one object. -/
theorem object_inj (hnodup : context.objects.Nodup) {i j : Nat}
    (hi : i < context.config.objectCount.toNat) (hj : j < context.config.objectCount.toNat)
    (h : context.object i = context.object j) : i = j := by
  rw [context.objects_eq] at hnodup
  exact List.inj_on_of_nodup_map hnodup (List.mem_range.mpr hi) (List.mem_range.mpr hj) h

/-- The pool of `cpu` is `context`, where the objects `held` are allocated. -/
structure PoolOf (cpu : CpuId) (context : ObjectAllocContext ContextArena) (held : List UINT64)
    (w : PoolWorld ContextArena) (s : State) : Prop where
  onAlloc : context.config.onAlloc = some runContextOnAlloc
  onFree : context.config.onFree = none
  holds : PoolHolds context ((s.runContextAlloc cpu).map context.object) held w
  bounded : ∀ i ∈ s.runContextAlloc cpu, i < context.config.objectCount.toNat
  contexts : ∀ i < context.config.objectCount.toNat, w.client.context (context.object i) =
    s.context ⟨cpu, i⟩

namespace PoolOf

variable {cpu : CpuId} {context : ObjectAllocContext ContextArena}
  {w : PoolWorld ContextArena} {s s' : State} {k : CtxId}

theorem alloc_none (h : PoolOf cpu context held w s) (halloc : cpuAllocContext cpu s = none) :
    objectAlloc context w = ⟨EFI_OUT_OF_RESOURCES, none, w⟩ := by
  have hfree : s.runContextAlloc cpu = [] := by
    unfold cpuAllocContext at halloc
    split at halloc
    · assumption
    · cases halloc
  have hholds := h.holds
  rw [hfree] at hholds
  exact hholds.objectAlloc_nil

/-- `cpuAllocContext` hands out the context that `objectAlloc` hands out. -/
theorem alloc_some (h : PoolOf cpu context held w s)
    (halloc : cpuAllocContext cpu s = some (k, s')) :
    (objectAlloc context w).object = some (context.object k.index) ∧
      PoolOf cpu context (context.object k.index :: held) (objectAlloc context w).world s' := by
  unfold cpuAllocContext at halloc
  split at halloc
  · cases halloc
  · rename_i index rest hfree
    obtain ⟨rfl, rfl⟩ := Prod.mk.inj (Option.some.inj halloc)
    have hholds := h.holds
    have hbounded := h.bounded
    rw [hfree] at hholds hbounded
    have hindex : index < context.config.objectCount.toNat := hbounded index List.mem_cons_self
    have hcalled : context.onAlloc (context.object index) w = (EFI_SUCCESS,
        w.called (.onAlloc (context.object index) EFI_SUCCESS)
          (runContextOnAlloc (context.object index) context.config.cbContext w.client).2) := by
      simp only [ObjectAllocContext.onAlloc, h.onAlloc]
      rfl
    have hok : ¬ efiError EFI_SUCCESS = true := by decide
    rw [hholds.objectAlloc_cons, hcalled, if_neg hok]
    refine ⟨rfl, h.onAlloc, h.onFree, ?_, ?_, fun i hi => ?_⟩
    · have hnext : PoolHolds context ((index :: rest).map context.object) _
        (w.called (.onAlloc (context.object index) EFI_SUCCESS)
          (runContextOnAlloc (context.object index) context.config.cbContext w.client).2) :=
          hholds.congr rfl rfl
      have hunlinked := hnext.unlink
      simpa [State.modifyContext] using hunlinked
    · intro i hi
      exact hbounded i (List.mem_cons_of_mem index (by simpa [State.modifyContext] using hi))
    · simp only [PoolWorld.modifyLinks, PoolWorld.called, runContextOnAlloc, State.modifyContext]
      by_cases heq : i = index
      · rw [heq, Function.update_self, Function.update_self, h.contexts index hindex]
      · have hobject : context.object i ≠ context.object index := fun hobject =>
          heq (object_inj hholds.nodup hi hindex hobject)
        have hctx : (⟨cpu, i⟩ : CtxId) ≠ ⟨cpu, index⟩ := fun hctx => heq (CtxId.mk.inj hctx).2
        rw [Function.update_of_ne hobject, Function.update_of_ne hctx, h.contexts i hi]

/-- `cpuFreeContext` puts the context where `objectFree` puts it. -/
theorem freed (h : PoolOf k.cpu context held w s) (hk : k.index < context.config.objectCount.toNat)
    (hheld : context.object k.index ∈ held) :
    PoolOf k.cpu context (held.erase (context.object k.index))
      (objectFree context (context.object k.index) w) (cpuFreeContext k s) := by
  have hpool : (cpuFreeContext k s).runContextAlloc k.cpu =
      s.runContextAlloc k.cpu ++ [k.index] := by
    simp [cpuFreeContext, State.assert_eq]
  have hctx : (cpuFreeContext k s).context = s.context := by
    simp [cpuFreeContext, State.assert_eq]
  have hfreed : objectFree context (context.object k.index) w =
      w.modifyLinks (insertTailList (.list context.address) (.link (context.object k.index))) := by
    rw [h.holds.objectFree_eq (h.holds.mem_objects.mpr (.inr hheld)), if_pos hheld]
    simp only [ObjectAllocContext.onFree, h.onFree]
  rw [hfreed]
  refine ⟨h.onAlloc, h.onFree, ?_, fun i hi => ?_, fun i hi => ?_⟩
  · rw [hpool, List.map_append]
    exact h.holds.link hheld
  · rw [hpool] at hi
    rcases List.mem_append.mp hi with hi | hi
    · exact h.bounded i hi
    · rwa [List.mem_singleton.mp hi]
  · rw [hctx]
    exact h.contexts i hi

/-- The assertion about the link of a freed context is one about the free list. -/
theorem unlisted_iff (h : PoolOf k.cpu context held w s)
    (hk : k.index < context.config.objectCount.toNat) :
    isListEmpty w.links (.link (context.object k.index)) = true ↔
      k.index ∉ s.runContextAlloc k.cpu := by
  have hobject : context.object k.index ∈ context.objects := by
    rw [context.objects_eq]
    exact List.mem_map_of_mem (List.mem_range.mpr hk)
  have hfree : context.object k.index ∈ (s.runContextAlloc k.cpu).map context.object ↔
      k.index ∈ s.runContextAlloc k.cpu := by
    refine ⟨fun hmem => ?_, List.mem_map_of_mem⟩
    obtain ⟨i, hi, heq⟩ := List.mem_map.mp hmem
    rwa [← object_inj h.holds.nodup (h.bounded i hi) hk heq]
  rw [h.holds.isListEmpty_iff hobject, ← hfree]
  refine ⟨h.holds.not_mem_free, fun hnot => ?_⟩
  exact (h.holds.mem_objects.mp hobject).resolve_left hnot

end PoolOf

/-- More contexts are made than were asked for, since the arena is made of whole pages. -/
theorem runContextConfig_objectCount (checkOrphanContexts : Bool)
    (ucContextAlloc : ContextArena → Option UINT64)
    (cpu emuMachineType objectContext arena : UINT64) :
    ((runContextConfig checkOrphanContexts ucContextAlloc cpu emuMachineType).context objectContext
      arena).config.objectCount = if checkOrphanContexts then 42 else 46 := by
  cases checkOrphanContexts with
  | false =>
      change EFI_PAGES_TO_SIZE (EFI_SIZE_TO_PAGES (ROUND_UP 88 8 * 32)) / ROUND_UP 88 8 = 46
      decide
  | true =>
      change EFI_PAGES_TO_SIZE (EFI_SIZE_TO_PAGES (ROUND_UP 96 8 * 32)) / ROUND_UP 96 8 = 42
      decide

/-- The chain and the loops over it are made for as many. -/
theorem runContextConfig_objectCount_le (checkOrphanContexts : Bool)
    (ucContextAlloc : ContextArena → Option UINT64)
    (cpu emuMachineType objectContext arena : UINT64) :
    ((runContextConfig checkOrphanContexts ucContextAlloc cpu emuMachineType).context objectContext
      arena).config.objectCount.toNat ≤ RUN_CONTEXTS_LIMIT := by
  rw [runContextConfig_objectCount]
  cases checkOrphanContexts with
  | false => exact le_rfl
  | true => decide

end MultiArchUefi
