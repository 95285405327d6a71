import MultiArchUefi.Basic
import MultiArchUefi.Lib.Ring

/-!
# MultiArchUefi.ObjectAlloc

Pools of objects of one size, made of one arena.

The free objects of a pool are linked into a ring with the pool's list head, and
an allocated object's link points to itself.  A pool's `Config` has four
callbacks, each of which may be `NULL`; what they do is up to the pool's client,
whose part of the state is `σ`.

The headers that `ZeroMem` clears are not cleared here: the loop over the objects
sets a header before anything reads it.
-/

namespace MultiArchUefi

open Ring

/-! ## sizes -/

/-- `ROUND_UP (x, n)`. -/
def ROUND_UP (x n : UINT64) : UINT64 := (x + n - 1) &&& ~~~(n - 1)

def EFI_SIZE_TO_PAGES (size : UINT64) : UINT64 :=
  (size >>> (12 : Nat)) + if size &&& 0xfff ≠ 0 then 1 else 0

def EFI_PAGES_TO_SIZE (pages : UINT64) : UINT64 := pages <<< (12 : Nat)

/-- `sizeof (ObjectHeader)`. -/
def sizeofObjectHeader : UINT64 := 24

/-! ## pools -/

/-- A `LIST_ENTRY`: `&ObjectContext->List` or `&Object->Link`. -/
inductive PoolEntry where
  | list (objectContext : UINT64)
  | link (object : UINT64)
deriving DecidableEq, Repr

/-- `CR (ObjectEntry, ObjectHeader, Link, …)`.  What it makes of a list head is
eight bytes before the head, which is the second word of the pool's context. -/
def PoolEntry.object : PoolEntry → UINT64
  | .list objectContext => objectContext + 8
  | .link object => object

@[simp] theorem PoolEntry.object_link (object : UINT64) :
    (PoolEntry.link object).object = object := rfl

/-- A callback is given the object and `CbContext`. -/
structure ObjectAllocConfig (σ : Type) where
  objectSize : UINT64
  objectAlignment : UINT64
  objectCount : UINT64
  cbContext : UINT64
  signature : UINT64
  onCreate : Option (UINT64 → UINT64 → σ → UINT64 × σ)
  onAlloc : Option (UINT64 → UINT64 → σ → UINT64 × σ)
  onFree : Option (UINT64 → UINT64 → σ → σ)
  onDestroy : Option (UINT64 → UINT64 → σ → σ)

/-- An `ObjectAllocContext` and where it is. -/
structure ObjectAllocContext (σ : Type) where
  address : UINT64
  arena : UINT64
  arenaSize : UINT64
  config : ObjectAllocConfig σ

/-- Calls of a pool's callbacks, and what they returned. -/
inductive PoolCall where
  | onCreate (object status : UINT64)
  | onAlloc (object status : UINT64)
  | onFree (object : UINT64)
  | onDestroy (object : UINT64)
deriving DecidableEq, Repr

/-- The assertions about objects. -/
inductive PoolAssertion where
  /-- `ASSERT (IsListEmpty (&Object->Link))` -/
  | objectUnlisted (object : UINT64)
  /-- `ASSERT (!IsListEmpty (&Object->Link))` -/
  | objectListed (object : UINT64)
  /-- The signature check of `CR`. -/
  | signature (object : UINT64)
deriving DecidableEq, Repr

/-- What the functions read and write.  `pools` and `pages` are the allocations
that have not been freed; `calls` and `failedAsserts` are histories, newest first. -/
structure PoolWorld (σ : Type) where
  client : σ
  links : Links PoolEntry
  signature : UINT64 → UINT64
  pools : List UINT64
  pages : List (UINT64 × UINT64)
  calls : List PoolCall
  failedAsserts : List PoolAssertion

variable {σ : Type}

namespace PoolWorld

/-- `ASSERT (p)`. -/
def assert (a : PoolAssertion) (p : Bool) (w : PoolWorld σ) : PoolWorld σ :=
  if p then w else { w with failedAsserts := a :: w.failedAsserts }

def modifyLinks (f : Links PoolEntry → Links PoolEntry) (w : PoolWorld σ) : PoolWorld σ :=
  { w with links := f w.links }

def setSignature (object signature : UINT64) (w : PoolWorld σ) : PoolWorld σ :=
  { w with signature := Function.update w.signature object signature }

/-- The client's state after a callback. -/
def called (call : PoolCall) (client : σ) (w : PoolWorld σ) : PoolWorld σ :=
  { w with client := client, calls := call :: w.calls }

def allocated (objectContext : UINT64) (w : PoolWorld σ) : PoolWorld σ :=
  { w with pools := objectContext :: w.pools }

/-- `FreePool`. -/
def freePool (objectContext : UINT64) (w : PoolWorld σ) : PoolWorld σ :=
  { w with pools := w.pools.erase objectContext }

def allocatedPages (arena pages : UINT64) (w : PoolWorld σ) : PoolWorld σ :=
  { w with pages := (arena, pages) :: w.pages }

/-- `FreePages`. -/
def freePages (arena pages : UINT64) (w : PoolWorld σ) : PoolWorld σ :=
  { w with pages := w.pages.erase (arena, pages) }

end PoolWorld

/-! ## making and destroying a pool -/

/-- The services that `ObjectAllocCreate` uses, and what its variable `Status`
holds while it has not been set. -/
structure CreateServices (σ : Type) where
  allocatePool : Option UINT64
  allocatePages : UINT64 → Option UINT64
  zeroMem : UINT64 → UINT64 → σ → σ
  status : UINT64

/-- The variables of `ObjectAllocCreate` when its first loop has ended. -/
structure CreateLoop (σ : Type) where
  index : Nat
  object : UINT64
  status : UINT64
  world : PoolWorld σ

/-- The first loop of `ObjectAllocCreate`, with `n` objects to go. -/
def createObjects (config : ObjectAllocConfig σ) (list : PoolEntry) (objectSize : UINT64) :
    Nat → Nat → UINT64 → UINT64 → PoolWorld σ → CreateLoop σ
  | 0, index, object, status, w => ⟨index, object, status, w⟩
  | n + 1, index, object, status, w =>
      let w := w.setSignature object config.signature
      match config.onCreate with
      | none =>
          createObjects config list objectSize n (index + 1) (object + objectSize) status
            (w.modifyLinks (insertTailList list (.link object)))
      | some onCreate =>
          let (status, client) := onCreate object config.cbContext w.client
          let w := w.called (.onCreate object status) client
          if efiError status then ⟨index, object, status, w⟩
          else
            createObjects config list objectSize n (index + 1) (object + objectSize) status
              (w.modifyLinks (insertTailList list (.link object)))

/-- The second loop of `ObjectAllocCreate`: the callback is not called when it is `NULL`. -/
def undoCreate (config : ObjectAllocConfig σ) (objectSize : UINT64) :
    Nat → UINT64 → PoolWorld σ → PoolWorld σ
  | 0, _, w => w
  | index + 1, object, w =>
      let object := object - objectSize
      let w :=
        match config.onDestroy with
        | none => w
        | some onDestroy =>
            w.called (.onDestroy object) (onDestroy object config.cbContext w.client)
      undoCreate config objectSize index object w

/-- The status, what `*Context` is then, and the world. -/
structure CreateResult (σ : Type) where
  status : UINT64
  context : Option (ObjectAllocContext σ)
  world : PoolWorld σ

/-- `context` is what `*Context` is before the call. -/
def objectAllocCreate (config : ObjectAllocConfig σ) (services : CreateServices σ)
    (context : Option (ObjectAllocContext σ)) (w : PoolWorld σ) : CreateResult σ :=
  match services.allocatePool with
  | none => ⟨EFI_OUT_OF_RESOURCES, context, w⟩
  | some objectContext =>
      let w := w.allocated objectContext
      let objectSize := ROUND_UP config.objectSize config.objectAlignment
      if objectSize < sizeofObjectHeader then ⟨EFI_INVALID_PARAMETER, context, w⟩
      else
        let pages := EFI_SIZE_TO_PAGES (objectSize * config.objectCount)
        let arenaSize := EFI_PAGES_TO_SIZE pages
        let config := { config with objectCount := arenaSize / objectSize }
        match services.allocatePages pages with
        | none => ⟨EFI_OUT_OF_RESOURCES, context, w.freePool objectContext⟩
        | some arena =>
            let w := w.allocatedPages arena pages
            let w := { w with client := services.zeroMem arena arenaSize w.client }
            let w := w.modifyLinks (initializeListHead (.list objectContext))
            let r := createObjects config
              (.list objectContext) objectSize config.objectCount.toNat 0 arena
              services.status w
            if efiError r.status then
              let w := undoCreate config objectSize r.index r.object r.world
              ⟨r.status, context, (w.freePages arena pages).freePool objectContext⟩
            else ⟨EFI_SUCCESS, some ⟨objectContext, arena, arenaSize, config⟩, r.world⟩

/-- The loop of `ObjectAllocDestroy`, with `n` objects to go; `none` when it calls
through a `NULL` callback. -/
def destroyObjects (config : ObjectAllocConfig σ) (objectSize : UINT64) :
    Nat → UINT64 → PoolWorld σ → Option (PoolWorld σ)
  | 0, _, w => some w
  | n + 1, object, w =>
      let w := w.assert (.objectListed object) (!isListEmpty w.links (.link object))
      match config.onDestroy with
      | none => none
      | some onDestroy =>
          destroyObjects config objectSize n (object + objectSize)
            (w.called (.onDestroy object) (onDestroy object config.cbContext w.client))

namespace ObjectAllocContext

def objectSize (context : ObjectAllocContext σ) : UINT64 :=
  ROUND_UP context.config.objectSize context.config.objectAlignment

end ObjectAllocContext

def objectAllocDestroy (context : ObjectAllocContext σ) (w : PoolWorld σ) : Option (PoolWorld σ) :=
  let pages := EFI_SIZE_TO_PAGES (context.objectSize * context.config.objectCount)
  (destroyObjects context.config context.objectSize context.config.objectCount.toNat
    context.arena w).map
    fun w => (w.freePages context.arena pages).freePool context.address

/-! ## allocating and freeing an object -/

/-- The status, what `*ObjectReturned` is set to if it is, and the world. -/
structure AllocResult (σ : Type) where
  status : UINT64
  object : Option UINT64
  world : PoolWorld σ

/-- `RemoveEntryList` and `InitializeListHead` of an entry. -/
def unlinkEntry (entry : PoolEntry) (m : Links PoolEntry) : Links PoolEntry :=
  initializeListHead entry (removeEntryList entry m)

def objectAlloc (context : ObjectAllocContext σ) (w : PoolWorld σ) : AllocResult σ :=
  if isListEmpty w.links (.list context.address) then ⟨EFI_OUT_OF_RESOURCES, none, w⟩
  else
    let objectEntry := w.links.fwd (.list context.address)
    let object := objectEntry.object
    let w := w.assert (.signature object) (w.signature object = context.config.signature)
    match context.config.onAlloc with
    | none => ⟨EFI_SUCCESS, some object, w.modifyLinks (unlinkEntry objectEntry)⟩
    | some onAlloc =>
        let (status, client) := onAlloc object context.config.cbContext w.client
        let w := w.called (.onAlloc object status) client
        if efiError status then ⟨status, none, w⟩
        else ⟨EFI_SUCCESS, some object, w.modifyLinks (unlinkEntry objectEntry)⟩

def objectFree (context : ObjectAllocContext σ) (object : UINT64) (w : PoolWorld σ) : PoolWorld σ :=
  let w := w.assert (.objectUnlisted object) (isListEmpty w.links (.link object))
  let w :=
    match context.config.onFree with
    | none => w
    | some onFree => w.called (.onFree object) (onFree object context.config.cbContext w.client)
  w.modifyLinks (insertTailList (.list context.address) (.link object))

/-! ## the objects of an arena -/

/-- The objects that a loop over `n` of them visits, from `object` on. -/
def objectsFrom (objectSize : UINT64) : Nat → UINT64 → List UINT64
  | 0, _ => []
  | n + 1, object => object :: objectsFrom objectSize n (object + objectSize)

/-- The arena is cut into as many objects as it is asked for. -/
@[simp] theorem length_objectsFrom (objectSize : UINT64) (n : Nat) (object : UINT64) :
    (objectsFrom objectSize n object).length = n := by
  induction n generalizing object with
  | zero => rfl
  | succ n ih => simp [objectsFrom, ih]

/-- An object lies one object size behind the one before. -/
theorem object_succ (object objectSize : UINT64) (i : Nat) :
    object + objectSize + BitVec.ofNat 64 i * objectSize = object + BitVec.ofNat 64
      (i + 1) * objectSize := by
  rw [BitVec.ofNat_add]
  grind

/-- The objects lie at multiples of the object size. -/
theorem mem_objectsFrom {objectSize object o : UINT64} {n : Nat} :
    o ∈ objectsFrom objectSize n object ↔ ∃ i < n, o = object + BitVec.ofNat 64 i * objectSize := by
  induction n generalizing object with
  | zero => simp [objectsFrom]
  | succ n ih =>
      have hnext := fun i => object_succ object objectSize i
      rw [objectsFrom, List.mem_cons, ih]
      constructor
      · rintro (rfl | ⟨i, hi, rfl⟩)
        · exact ⟨0, by omega, by simp⟩
        · exact ⟨i + 1, by omega, hnext i⟩
      · rintro ⟨i, hi, rfl⟩
        cases i with
        | zero => exact .inl (by simp)
        | succ i => exact .inr ⟨i, by omega, (hnext i).symm⟩

/-- The object after the others is visited last. -/
theorem objectsFrom_succ (objectSize : UINT64) (n : Nat) (object : UINT64) :
    objectsFrom objectSize (n + 1) object =
      objectsFrom objectSize n object ++ [object + BitVec.ofNat 64 n * objectSize] := by
  induction n generalizing object with
  | zero => simp [objectsFrom]
  | succ n ih =>
      rw [objectsFrom, ih, object_succ, objectsFrom, List.cons_append]

/-- Objects that fit into the address space are different. -/
theorem nodup_objectsFrom {objectSize : UINT64} {n : Nat} (hsize : 0 < objectSize.toNat)
    (hfits : n * objectSize.toNat < 2 ^ 64) (object : UINT64) :
    (objectsFrom objectSize n object).Nodup := by
  induction n generalizing object with
  | zero => exact List.nodup_nil
  | succ n ih =>
      rw [Nat.succ_mul] at hfits
      refine List.nodup_cons.mpr ⟨fun hmem => ?_, ih (by omega) _⟩
      obtain ⟨i, hi, heq⟩ := mem_objectsFrom.mp hmem
      -- the distance between two objects is not a multiple of the address space
      have hzero : BitVec.ofNat 64 (i + 1) * objectSize = 0 := by
        rw [BitVec.ofNat_add]
        grind
      have hle : (i + 1) * objectSize.toNat ≤ n * objectSize.toNat :=
        Nat.mul_le_mul_right _ (by omega)
      have hpos : 0 < (i + 1) * objectSize.toNat := Nat.mul_pos (by omega) hsize
      have hsmall : i + 1 < 2 ^ 64 := by
        have := Nat.le_mul_of_pos_right (i + 1) hsize
        omega
      have hnat := congrArg BitVec.toNat hzero
      rw [BitVec.toNat_mul, BitVec.toNat_ofNat, Nat.mod_eq_of_lt hsmall,
        Nat.mod_eq_of_lt (by omega)] at hnat
      rw [hnat] at hpos
      cases hpos

namespace ObjectAllocContext

/-- The objects of the pool. -/
def objects (context : ObjectAllocContext σ) : List UINT64 :=
  objectsFrom context.objectSize context.config.objectCount.toNat context.arena

end ObjectAllocContext

/-! ## what the loops do -/

section

variable (config : ObjectAllocConfig σ) (list : PoolEntry) (objectSize : UINT64)

/-- Creating objects leaves everything but the client's state, the objects and
the history of calls alone. -/
theorem createObjects_frame (n index : Nat) (object status : UINT64) (w : PoolWorld σ) :
    (createObjects config list objectSize n index object status w).world.pools = w.pools ∧
    (createObjects config list objectSize n index object status w).world.pages = w.pages := by
  induction n generalizing index object status w with
  | zero => exact ⟨rfl, rfl⟩
  | succ n ih =>
      simp only [createObjects]
      cases config.onCreate with
      | none => exact ih ..
      | some onCreate =>
          simp only
          split
          · exact ⟨rfl, rfl⟩
          · exact ih ..

/-- When no callback fails, all objects are put on the list. -/
theorem createObjects_ring (objectContext : UINT64) (n index : Nat) (object status : UINT64)
    (w : PoolWorld σ) (done : List UINT64)
    (hring : IsRing w.links (.list objectContext) (done.map .link))
    (hnodup : (done ++ objectsFrom objectSize n object).Nodup)
    (hok : efiError (createObjects config
      (.list objectContext) objectSize n index object status w).status =
      false) :
    IsRing (createObjects config
      (.list objectContext) objectSize n index object status w).world.links
      (.list objectContext) ((done ++ objectsFrom objectSize n object).map .link) := by
  induction n generalizing index object status w done with
  | zero => simpa [createObjects, objectsFrom] using hring
  | succ n ih =>
      have hnew : PoolEntry.link object ∉ PoolEntry.list objectContext ::
          done.map PoolEntry.link := by
        have hdone : object ∉ done := fun hmem =>
          List.disjoint_of_nodup_append hnodup hmem List.mem_cons_self
        simp [hdone]
      have hnext : (done ++ [object] ++ objectsFrom objectSize n (object + objectSize)).Nodup := by
        simpa [objectsFrom] using hnodup
      have hins : IsRing (insertTailList (.list objectContext) (.link object) w.links)
        (.list objectContext)
          ((done ++ [object]).map .link) := by
        rw [List.map_append]
        exact hring.insertTail hnew
      rw [objectsFrom, ← List.singleton_append, ← List.append_assoc]
      simp only [createObjects] at hok ⊢
      cases honCreate : config.onCreate with
      | none =>
          simp only [honCreate] at hok ⊢
          exact ih _ _ _ _ _ hins hnext hok
      | some onCreate =>
          simp only [honCreate] at hok ⊢
          split at hok
          · rename_i herror
            rw [herror] at hok
            cases hok
          · rename_i herror
            rw [if_neg herror]
            exact ih _ _ _ _ _ hins hnext hok

/-- When no callback fails, all objects are signed. -/
theorem createObjects_signature (n index : Nat) (object status : UINT64) (w : PoolWorld σ)
    (hok : efiError (createObjects config list objectSize n index object status w).status = false)
    (o : UINT64) :
    (createObjects config list objectSize n index object status w).world.signature o =
      if o ∈ objectsFrom objectSize n object then config.signature else w.signature o := by
  induction n generalizing index object status w with
  | zero => simp [createObjects, objectsFrom]
  | succ n ih =>
      have hset : (w.setSignature object config.signature).signature o =
          if o = object then config.signature else w.signature o := Function.update_apply ..
      simp only [createObjects] at hok ⊢
      cases honCreate : config.onCreate with
      | none =>
          simp only [honCreate] at hok ⊢
          rw [ih _ _ _ _ hok]
          simp only [PoolWorld.modifyLinks, hset, objectsFrom, List.mem_cons]
          grind
      | some onCreate =>
          simp only [honCreate] at hok ⊢
          split at hok
          · rename_i herror
            rw [herror] at hok
            cases hok
          · rename_i herror
            rw [if_neg herror, ih _ _ _ _ hok]
            simp only [PoolWorld.modifyLinks, PoolWorld.called, hset, objectsFrom, List.mem_cons]
            grind

end

/-! ## what `ObjectAllocCreate` comes to -/

/-- Pages for the objects of a pool. -/
def ObjectAllocConfig.pages (config : ObjectAllocConfig σ) : UINT64 :=
  EFI_SIZE_TO_PAGES (ROUND_UP config.objectSize config.objectAlignment * config.objectCount)

/-- The context of a pool: there are as many objects as fit into the pages. -/
def ObjectAllocConfig.context (config : ObjectAllocConfig σ) (objectContext arena : UINT64) :
    ObjectAllocContext σ :=
  let arenaSize := EFI_PAGES_TO_SIZE config.pages
  let objectSize := ROUND_UP config.objectSize config.objectAlignment
  ⟨objectContext, arena, arenaSize, { config with objectCount := arenaSize / objectSize }⟩

/-- Both allocations have been made, and the list is empty. -/
def PoolWorld.prepared (config : ObjectAllocConfig σ) (services : CreateServices σ)
    (objectContext arena : UINT64) (w : PoolWorld σ) : PoolWorld σ :=
  let w := (w.allocated objectContext).allocatedPages arena config.pages
  let w := { w with client := services.zeroMem arena (EFI_PAGES_TO_SIZE config.pages) w.client }
  w.modifyLinks (initializeListHead (.list objectContext))

/-- The first loop over all objects of the pool. -/
def ObjectAllocContext.create (context : ObjectAllocContext σ) (status : UINT64) (w : PoolWorld σ) :
    CreateLoop σ :=
  createObjects context.config
    (.list context.address) context.objectSize context.config.objectCount.toNat 0
    context.arena status w

/-- The second loop, and the freeing of both allocations. -/
def ObjectAllocContext.undo (context : ObjectAllocContext σ) (pages : UINT64) (r : CreateLoop σ) :
    PoolWorld σ :=
  ((undoCreate context.config context.objectSize r.index r.object r.world).freePages context.arena
    pages).freePool context.address

@[simp] theorem freePool_allocated (objectContext : UINT64) (w : PoolWorld σ) :
    (w.allocated objectContext).freePool objectContext = w := by
  simp [PoolWorld.allocated, PoolWorld.freePool]

section

variable (config : ObjectAllocConfig σ) (services : CreateServices σ)
  (slot : Option (ObjectAllocContext σ)) (w : PoolWorld σ) {objectContext arena : UINT64}

/-- Without memory for the pool's context, nothing is changed. -/
theorem objectAllocCreate_of_noPool (hpool : services.allocatePool = none) :
    objectAllocCreate config services slot w = ⟨EFI_OUT_OF_RESOURCES, slot, w⟩ := by
  simp only [objectAllocCreate, hpool]

/-- Objects too small for a link are refused, and the context stays allocated. -/
theorem objectAllocCreate_of_small (hpool : services.allocatePool = some objectContext)
    (hsize : ROUND_UP config.objectSize config.objectAlignment < sizeofObjectHeader) :
    objectAllocCreate config services slot w =
      ⟨EFI_INVALID_PARAMETER, slot, w.allocated objectContext⟩ := by
  simp only [objectAllocCreate, hpool, if_pos hsize]

/-- Without pages for the arena, the context is freed again. -/
theorem objectAllocCreate_of_noPages (hpool : services.allocatePool = some objectContext)
    (hsize : ¬ ROUND_UP config.objectSize config.objectAlignment < sizeofObjectHeader)
    (hpages : services.allocatePages config.pages = none) :
    objectAllocCreate config services slot w = ⟨EFI_OUT_OF_RESOURCES, slot, w⟩ := by
  rw [ObjectAllocConfig.pages] at hpages
  simp only [objectAllocCreate, hpool, if_neg hsize, hpages, freePool_allocated]

/-- With an arena, the constructors decide. -/
theorem objectAllocCreate_of_arena (hpool : services.allocatePool = some objectContext)
    (hsize : ¬ ROUND_UP config.objectSize config.objectAlignment < sizeofObjectHeader)
    (hpages : services.allocatePages config.pages = some arena) :
    objectAllocCreate config services slot w =
      let context := config.context objectContext arena
      let r := context.create services.status (w.prepared config services objectContext arena)
      if efiError r.status then ⟨r.status, slot, context.undo config.pages r⟩
      else ⟨EFI_SUCCESS, some context, r.world⟩ := by
  rw [ObjectAllocConfig.pages] at hpages
  simp only [objectAllocCreate, hpool, if_neg hsize, hpages]
  rfl

end

/-- The four ways through `ObjectAllocCreate`. -/
theorem objectAllocCreate_cases (config : ObjectAllocConfig σ) (services : CreateServices σ)
    (slot : Option (ObjectAllocContext σ)) (w : PoolWorld σ) :
    (services.allocatePool = none ∧
      objectAllocCreate config services slot w = ⟨EFI_OUT_OF_RESOURCES, slot, w⟩) ∨
    (∃ objectContext, services.allocatePool = some objectContext ∧
      ROUND_UP config.objectSize config.objectAlignment < sizeofObjectHeader ∧
      objectAllocCreate config services slot w =
        ⟨EFI_INVALID_PARAMETER, slot, w.allocated objectContext⟩) ∨
    (∃ objectContext, services.allocatePool = some objectContext ∧
      ¬ ROUND_UP config.objectSize config.objectAlignment < sizeofObjectHeader ∧
      services.allocatePages config.pages = none ∧
      objectAllocCreate config services slot w = ⟨EFI_OUT_OF_RESOURCES, slot, w⟩) ∨
    ∃ objectContext arena, services.allocatePool = some objectContext ∧
      ¬ ROUND_UP config.objectSize config.objectAlignment < sizeofObjectHeader ∧
      services.allocatePages config.pages = some arena ∧
      objectAllocCreate config services slot w =
        let context := config.context objectContext arena
        let r := context.create services.status (w.prepared config services objectContext arena)
        if efiError r.status then ⟨r.status, slot, context.undo config.pages r⟩
        else ⟨EFI_SUCCESS, some context, r.world⟩ := by
  cases hpool : services.allocatePool with
  | none => exact .inl ⟨rfl, objectAllocCreate_of_noPool config services slot w hpool⟩
  | some objectContext =>
      by_cases hsize : ROUND_UP config.objectSize config.objectAlignment < sizeofObjectHeader
      · exact .inr
          (.inl ⟨objectContext, rfl, hsize,
            objectAllocCreate_of_small config services slot w hpool hsize⟩)
      · cases hpages : services.allocatePages config.pages with
        | none =>
            have heq := objectAllocCreate_of_noPages config services slot w hpool hsize hpages
            exact .inr (.inr (.inl ⟨objectContext, rfl, hsize, rfl, heq⟩))
        | some arena =>
            have heq := objectAllocCreate_of_arena config services slot w hpool hsize hpages
            exact .inr (.inr (.inr ⟨objectContext, arena, rfl, hsize, rfl, heq⟩))

end MultiArchUefi
