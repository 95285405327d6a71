import MultiArchUefi.ObjectPool

/-!
# MultiArchUefi.PoolCallbacks

The callbacks of a pool: whether `ObjectAllocCreate` undoes what they did when it
fails, and what a callback that is `NULL` is to the four operations.

`Status` is a variable that only `OnCreate` sets, and `ObjectAllocDestroy` does not
ask whether there is an `OnDestroy`.
-/

namespace MultiArchUefi

open Ring Transition

variable {σ : Type} {config : ObjectAllocConfig σ} {services : CreateServices σ}
  {slot : Option (ObjectAllocContext σ)} {w w' : PoolWorld σ} {objectSize : UINT64}
  {list : PoolEntry} {n : Nat}

/-! ## undoing -/

/-- `OnCreate` has succeeded for the object in one of the calls. -/
def Created (object : UINT64) (calls : List PoolCall) : Prop :=
  ∃ status, .onCreate object status ∈ calls ∧ efiError status = false

/-- The calls that the loop of `ObjectAllocCreate` makes, for the first `k` objects and
perhaps one that fails. -/
theorem createObjects_calls (list : PoolEntry) (objectSize : UINT64)
    {onCreate : UINT64 → UINT64 → σ → UINT64 × σ} (honCreate : config.onCreate = some onCreate)
    (n index : Nat) (object status : UINT64) (w : PoolWorld σ) :
    ∃ k ≤ n, ∃ calls,
      (createObjects config list objectSize n index object status w).index = index + k ∧
      (createObjects config list objectSize n index object status w).object =
        object + BitVec.ofNat 64 k * objectSize ∧
      (createObjects config list objectSize n index object status w).world.calls =
      calls ++ w.calls ∧
      (∀ o, Created o calls ↔ o ∈ objectsFrom objectSize k object) ∧
      ∀ o, .onDestroy o ∉ calls := by
  induction n generalizing index object status w with
  | zero =>
      exact ⟨0, le_refl 0, [], rfl, by simp [createObjects], rfl, by simp [Created, objectsFrom], by
        simp⟩
  | succ n ih =>
      simp only [createObjects, honCreate]
      split
      · -- the first object fails
        rename_i herror
        refine ⟨0, Nat.zero_le _, [.onCreate object (onCreate object config.cbContext w.client).1],
          rfl, by simp, rfl, fun o => ?_, by simp⟩
        refine iff_of_false ?_ List.not_mem_nil
        rintro ⟨status, hmem, hok⟩
        have hstatus := (PoolCall.onCreate.inj (List.mem_singleton.mp hmem)).2
        simp only [PoolWorld.setSignature] at herror
        rw [hstatus, herror] at hok
        cases hok
      · rename_i herror
        obtain ⟨k, hk, calls, hindex, hobject, hcalls, hcreated, hdestroyed⟩ :=
          ih (index + 1) (object + objectSize)
          (onCreate object config.cbContext w.client).1
          (((w.setSignature object config.signature).called
            (.onCreate object (onCreate object config.cbContext w.client).1)
            (onCreate object config.cbContext w.client).2).modifyLinks
            (insertTailList list (.link object)))
        refine ⟨k + 1, by omega,
          calls ++ [.onCreate object (onCreate object config.cbContext w.client).1], ?_, ?_, ?_,
          fun o => ?_, fun o => ?_⟩
        · exact hindex.trans (by omega)
        · exact hobject.trans (object_succ ..)
        · refine hcalls.trans ?_
          simp [PoolWorld.modifyLinks, PoolWorld.called, PoolWorld.setSignature]
        · rw [objectsFrom, List.mem_cons, ← hcreated o]
          have hok : efiError (onCreate object config.cbContext w.client).1 = false := by
            simpa [PoolWorld.setSignature] using herror
          constructor
          · rintro ⟨status, hmem, hstatus⟩
            rcases List.mem_append.mp hmem with hmem | hmem
            · exact .inr ⟨status, hmem, hstatus⟩
            · exact .inl (PoolCall.onCreate.inj (List.mem_singleton.mp hmem)).1
          · rintro (rfl | ⟨status, hmem, hstatus⟩)
            · exact ⟨_, List.mem_append_right _ List.mem_cons_self, hok⟩
            · exact ⟨status, List.mem_append_left _ hmem, hstatus⟩
        · simp [hdestroyed o]

/-- The undo loop goes back from the object at which the first loop has ended. -/
theorem undoCreate_spec (objectSize : UINT64) {onDestroy : UINT64 → UINT64 → σ → σ}
    (honDestroy : config.onDestroy = some onDestroy) (k : Nat) (object : UINT64) (w : PoolWorld σ) :
    (undoCreate config objectSize k (object + BitVec.ofNat 64 k * objectSize) w).calls =
      (objectsFrom objectSize k object).map .onDestroy ++ w.calls ∧
    (undoCreate config objectSize k (object + BitVec.ofNat 64 k * objectSize) w).pools = w.pools ∧
    (undoCreate config objectSize k (object + BitVec.ofNat 64 k * objectSize) w).pages =
    w.pages := by
  induction k generalizing w with
  | zero => exact ⟨rfl, rfl, rfl⟩
  | succ k ih =>
      have hback : object + BitVec.ofNat 64 (k + 1) * objectSize - objectSize =
          object + BitVec.ofNat 64 k * objectSize := by
        rw [BitVec.ofNat_add]
        grind
      simp only [undoCreate, honDestroy, hback]
      obtain ⟨hcalls, hpools, hpages⟩ :=
        ih (w.called (.onDestroy (object + BitVec.ofNat 64 k * objectSize))
        (onDestroy (object + BitVec.ofNat 64 k * objectSize) config.cbContext w.client))
      refine ⟨?_, hpools, hpages⟩
      rw [hcalls, objectsFrom_succ]
      simp [PoolWorld.called]

/-- Nothing is left of what `ObjectAllocCreate` has done: both allocations are freed,
`OnDestroy` has been called for the objects that were created, and `*Context` is
what it was. -/
structure CleanedUp (slot : Option (ObjectAllocContext σ)) (w : PoolWorld σ) (r : CreateResult σ) :
    Prop where
  pools : r.world.pools = w.pools
  pages : r.world.pages = w.pages
  context : r.context = slot
  destroyed : ∃ calls, r.world.calls = calls ++ w.calls ∧ ∀ o,
    (Created o calls → calls.count (.onDestroy o) = 1) ∧
    (¬ Created o calls → calls.count (.onDestroy o) = 0)

/-- No callback has been called. -/
theorem CleanedUp.of_calls {r : CreateResult σ} (hpools : r.world.pools = w.pools)
    (hpages : r.world.pages = w.pages) (hcontext : r.context = slot)
    (hcalls : r.world.calls = w.calls) : CleanedUp slot w r :=
  ⟨hpools, hpages, hcontext, [], hcalls,
    fun _ => ⟨fun ⟨_, hmem, _⟩ => (nomatch hmem), fun _ => rfl⟩⟩

/-- Counting the calls of an undone creation. -/
theorem count_onDestroy {created : List UINT64} {calls : List PoolCall} (hnodup : created.Nodup)
    (hcreated : ∀ o, Created o calls ↔ o ∈ created)
    (hdestroyed : ∀ o, .onDestroy o ∉ calls) (o : UINT64) :
    (Created o (created.map PoolCall.onDestroy ++ calls) →
      (created.map PoolCall.onDestroy ++ calls).count (.onDestroy o) = 1) ∧
    (¬ Created o (created.map PoolCall.onDestroy ++ calls) →
      (created.map PoolCall.onDestroy ++ calls).count (.onDestroy o) = 0) := by
  have hinj : Function.Injective PoolCall.onDestroy := fun _ _ => PoolCall.onDestroy.inj
  have hsame : Created o (created.map PoolCall.onDestroy ++ calls) ↔ o ∈ created := by
    rw [← hcreated o]
    constructor
    · rintro ⟨status, hmem, hok⟩
      exact ⟨status, by simpa using hmem, hok⟩
    · rintro ⟨status, hmem, hok⟩
      exact ⟨status, List.mem_append_right _ hmem, hok⟩
  have hcount : (created.map PoolCall.onDestroy ++ calls).count
      (.onDestroy o) = created.count o := by
    rw [List.count_append, List.count_eq_zero.mpr (hdestroyed o), Nat.add_zero,
      List.count_map_of_injective _ _ hinj]
  rw [hsame, hcount]
  exact ⟨List.count_eq_one_of_mem hnodup, List.count_eq_zero.mpr⟩

/-- A first loop that is given up is undone. -/
theorem cleanedUp_undo {onCreate : UINT64 → UINT64 → σ → UINT64 × σ}
    {onDestroy : UINT64 → UINT64 → σ → σ} (honCreate : config.onCreate = some onCreate)
    (honDestroy : config.onDestroy = some onDestroy)
    (hsize : ¬ ROUND_UP config.objectSize config.objectAlignment < sizeofObjectHeader)
    (objectContext arena status : UINT64) :
    CleanedUp slot w
      ⟨((config.context objectContext arena).create status
        (w.prepared config services objectContext arena)).status, slot,
        (config.context objectContext arena).undo config.pages
          ((config.context objectContext arena).create status
            (w.prepared config services objectContext arena))⟩ := by
  let context := config.context objectContext arena
  obtain ⟨hpools, hpages⟩ := createObjects_frame context.config (.list context.address)
    context.objectSize context.config.objectCount.toNat 0 arena status
    (w.prepared config services objectContext arena)
  obtain ⟨k, hk, calls, hindex, hobject, hcalls, hcreated, hdestroyed⟩ :=
    createObjects_calls (.list context.address) context.objectSize
      (show context.config.onCreate = some onCreate from honCreate) context.config.objectCount.toNat
      0 arena status (w.prepared config services objectContext arena)
  rw [Nat.zero_add] at hindex
  have hundo := undoCreate_spec context.objectSize
    (show context.config.onDestroy = some onDestroy from honDestroy) k arena
    (context.create status (w.prepared config services objectContext arena)).world
  have hnodup : (objectsFrom context.objectSize k arena).Nodup := by
    have hall := nodup_arena hsize (EFI_PAGES_TO_SIZE config.pages) arena
    rw [objectsFrom_eq_map] at hall ⊢
    exact hall.sublist ((List.range_sublist.mpr hk).map _)
  have heq : context.undo config.pages
    (context.create status (w.prepared config services objectContext arena)) =
      ((undoCreate context.config context.objectSize k
        (arena + BitVec.ofNat 64 k * context.objectSize)
        (context.create status (w.prepared config services objectContext arena)).world).freePages
        arena
          config.pages).freePool objectContext := by
    rw [← hobject, ← hindex]
    rfl
  refine ⟨?_, ?_, rfl, (objectsFrom context.objectSize k arena).map PoolCall.onDestroy ++ calls, ?_,
    count_onDestroy hnodup hcreated hdestroyed⟩
  · change (context.undo config.pages _).pools = _
    rw [heq]
    simp only [PoolWorld.freePool, PoolWorld.freePages]
    rw [hundo.2.1, show (context.create status _).world.pools = _ from hpools]
    simp [PoolWorld.prepared, PoolWorld.modifyLinks, PoolWorld.allocatedPages, PoolWorld.allocated]
  · change (context.undo config.pages _).pages = _
    rw [heq]
    simp only [PoolWorld.freePool, PoolWorld.freePages]
    rw [hundo.2.2, show (context.create status _).world.pages = _ from hpages]
    simp [PoolWorld.prepared, PoolWorld.modifyLinks, PoolWorld.allocatedPages, PoolWorld.allocated]
  · change (context.undo config.pages _).calls = _
    rw [heq]
    simp only [PoolWorld.freePool, PoolWorld.freePages]
    rw [hundo.1, show (context.create status _).world.calls = _ from hcalls, List.append_assoc]
    simp [PoolWorld.prepared, PoolWorld.modifyLinks, PoolWorld.allocatedPages, PoolWorld.allocated]

/-- When `ObjectAllocCreate` fails, it cleans up after itself. -/
def CleansUp (config : ObjectAllocConfig σ) (services : CreateServices σ)
    (slot : Option (ObjectAllocContext σ)) (w : PoolWorld σ) : Prop :=
  efiError (objectAllocCreate config services slot w).status = true →
    CleanedUp slot w (objectAllocCreate config services slot w)

/-- The memory for the context is lost if and only if the objects are too small for a
header: the check returns without freeing it. -/
theorem cleansUp_iff (config : ObjectAllocConfig σ) (services : CreateServices σ)
    (slot : Option (ObjectAllocContext σ)) (w : PoolWorld σ)
    (honCreate : config.onCreate.isSome = true) (honDestroy : config.onDestroy.isSome = true) :
    CleansUp config services slot w ↔
      ¬ (services.allocatePool.isSome = true ∧
        ROUND_UP config.objectSize config.objectAlignment < sizeofObjectHeader) := by
  obtain ⟨onCreate, honCreate⟩ := Option.isSome_iff_exists.mp honCreate
  obtain ⟨onDestroy, honDestroy⟩ := Option.isSome_iff_exists.mp honDestroy
  unfold CleansUp
  obtain ⟨hpool, heq⟩ | ⟨objectContext, hpool, hsize, heq⟩ | ⟨objectContext, hpool, hsize, -, heq⟩ |
    ⟨objectContext, arena, hpool, hsize, -, heq⟩ := objectAllocCreate_cases config services slot w
  all_goals rw [heq, hpool]
  · exact iff_of_true (fun _ => .of_calls rfl rfl rfl rfl) (by simp)
  · refine iff_of_false (fun hclean => ?_) (by simp [hsize])
    -- one allocation more than before
    have herror : efiError EFI_INVALID_PARAMETER = true := by decide
    have hpools := (hclean herror).pools
    exact absurd hpools (by simp [PoolWorld.allocated])
  · exact iff_of_true (fun _ => .of_calls rfl rfl rfl rfl) (by simp [hsize])
  · refine iff_of_true ?_ (by simp [hsize])
    simp only
    split
    · exact fun _ => cleanedUp_undo honCreate honDestroy hsize objectContext arena services.status
    · have hok : ¬ efiError EFI_SUCCESS = true := by decide
      exact fun herror => absurd herror hok

/-- Objects of 16 bytes have no room for a header. -/
def smallConfig : ObjectAllocConfig Bool := { pairConfig with objectSize := 16 }

/-- The arena of a pool of two objects is not available. -/
def poorServices : CreateServices Bool := { pairServices with allocatePages := fun _ => none }

theorem cleansUp_pair : CleansUp pairConfig poorServices none emptyWorld :=
  (cleansUp_iff pairConfig poorServices none emptyWorld rfl rfl).mpr (by decide)

theorem smallObjects_leak : ¬ CleansUp smallConfig pairServices none emptyWorld := by
  intro hclean
  have hpools := (hclean (by decide)).pools
  exact absurd hpools (by decide)

/-! ## callbacks that do nothing -/

/-- Which of the callbacks are replaced if they are `NULL`. -/
structure Fill where
  create : Bool
  alloc : Bool
  free : Bool
  destroy : Bool

/-- `OnCreate` and `OnAlloc` that do nothing and report `EFI_SUCCESS`. -/
def succeedingCallback (_object _cbContext : UINT64) (client : σ) : UINT64 × σ :=
  (EFI_SUCCESS, client)

/-- `OnFree` and `OnDestroy` that do nothing. -/
def emptyCallback (_object _cbContext : UINT64) (client : σ) : σ := client

def ObjectAllocConfig.fill (f : Fill) (config : ObjectAllocConfig σ) : ObjectAllocConfig σ :=
  { config with
    onCreate := if f.create then some (config.onCreate.getD succeedingCallback) else config.onCreate
    onAlloc := if f.alloc then some (config.onAlloc.getD succeedingCallback) else config.onAlloc
    onFree := if f.free then some (config.onFree.getD emptyCallback) else config.onFree
    onDestroy := if f.destroy then some (config.onDestroy.getD emptyCallback)
      else config.onDestroy }

def ObjectAllocContext.fill (f : Fill) (context : ObjectAllocContext σ) : ObjectAllocContext σ :=
  { context with config := context.config.fill f }

/-- Two worlds that differ in the history of calls only, which is no state. -/
def PoolWorld.Same (w w' : PoolWorld σ) : Prop := w' = { w with calls := w'.calls }

/-- A callback is replaced by itself, if there is one. -/
theorem fill_some {α : Type} {b : Bool} {x : Option α} {y d : α} (h : x = some y) :
    (if b then some (x.getD d) else x) = some y := by
  subst h
  cases b <;> rfl

/-- A callback that is missing is missing still, or replaced. -/
theorem fill_none {α : Type} {b : Bool} {x : Option α} {d : α} (h : x = none) :
    (if b then some (x.getD d) else x) = if b then some d else none := by
  subst h
  rfl

section fields

variable (f : Fill) (config : ObjectAllocConfig σ)

@[simp] theorem fill_cbContext : (config.fill f).cbContext = config.cbContext := rfl

@[simp] theorem fill_signature : (config.fill f).signature = config.signature := rfl

@[simp] theorem client_setSignature (object signature : UINT64) (w : PoolWorld σ) :
    (w.setSignature object signature).client = w.client := rfl

@[simp] theorem client_assert (a : PoolAssertion) (p : Bool) (w : PoolWorld σ) :
    (w.assert a p).client = w.client := by
  cases p <;> rfl

end fields

namespace PoolWorld.Same

theorem refl (w : PoolWorld σ) : w.Same w := rfl

theorem called (h : w.Same w') (call call' : PoolCall) (client : σ) :
    (w.called call client).Same (w'.called call' client) := by
  rw [h]
  rfl

/-- A call that does nothing leaves no trace but in the history. -/
theorem call_right (h : w.Same w') (call : PoolCall) : w.Same (w'.called call w'.client) := by
  rw [h]
  rfl

theorem setSignature (h : w.Same w') (object signature : UINT64) :
    (w.setSignature object signature).Same (w'.setSignature object signature) := by
  rw [h]
  rfl

theorem modifyLinks (h : w.Same w') (f : Links PoolEntry → Links PoolEntry) :
    (w.modifyLinks f).Same (w'.modifyLinks f) := by
  rw [h]
  rfl

theorem assert (h : w.Same w') (a : PoolAssertion) (p : Bool) :
    (w.assert a p).Same (w'.assert a p) := by
  rw [h]
  cases p <;> rfl

theorem setClient (h : w.Same w') (client : σ) :
    PoolWorld.Same { w with client := client } { w' with client := client } := by
  rw [h]
  rfl

theorem freed (h : w.Same w') (arena pages objectContext : UINT64) :
    ((w.freePages arena pages).freePool objectContext).Same
      ((w'.freePages arena pages).freePool objectContext) := by
  rw [h]
  rfl

theorem prepared (h : w.Same w') (config : ObjectAllocConfig σ) (f : Fill)
    (services : CreateServices σ) (objectContext arena : UINT64) :
    (w.prepared config services objectContext arena).Same
      (w'.prepared (config.fill f) services objectContext arena) := by
  rw [h]
  rfl

end PoolWorld.Same

/-! ## the operations with callbacks filled in -/

section

variable (f : Fill)

/-- The first loop, where there is an `OnCreate`. -/
theorem createObjects_fill (list : PoolEntry) (objectSize : UINT64)
    {onCreate : UINT64 → UINT64 → σ → UINT64 × σ} (honCreate : config.onCreate = some onCreate)
    (n index : Nat) (object status : UINT64) (h : w.Same w') :
    (createObjects (config.fill f) list objectSize n index object status w').index =
      (createObjects config list objectSize n index object status w).index ∧
    (createObjects (config.fill f) list objectSize n index object status w').object =
      (createObjects config list objectSize n index object status w).object ∧
    (createObjects (config.fill f) list objectSize n index object status w').status =
      (createObjects config list objectSize n index object status w).status ∧
    (createObjects config list objectSize n index object status w).world.Same
      (createObjects (config.fill f) list objectSize n index object status w').world := by
  have hfill : (config.fill f).onCreate = some onCreate := fill_some honCreate
  induction n generalizing index object status w w' with
  | zero => exact ⟨rfl, rfl, rfl, h⟩
  | succ n ih =>
      have hclient : w'.client = w.client := by rw [h]
      have hcalled := (h.setSignature object config.signature).called
        (.onCreate object (onCreate object config.cbContext w.client).1)
        (.onCreate object (onCreate object config.cbContext w.client).1)
        (onCreate object config.cbContext w.client).2
      simp only [createObjects, honCreate, hfill, client_setSignature, hclient, fill_cbContext,
        fill_signature]
      by_cases herror : efiError (onCreate object config.cbContext w.client).1 = true
      · simp only [herror, ↓reduceIte]
        exact ⟨trivial, trivial, trivial, hcalled⟩
      · simp only [herror]
        exact ih _ _ _ (hcalled.modifyLinks _)

theorem undoCreate_fill (config : ObjectAllocConfig σ) (objectSize : UINT64) (k : Nat)
    (object : UINT64) (h : w.Same w') :
    (undoCreate config objectSize k object w).Same
      (undoCreate (config.fill f) objectSize k object w') := by
  induction k generalizing object w w' with
  | zero => exact h
  | succ k ih =>
      have hclient : w'.client = w.client := by rw [h]
      simp only [undoCreate]
      cases honDestroy : config.onDestroy with
      | none =>
          have hfill : (config.fill f).onDestroy = if f.destroy then some emptyCallback else none :=
            fill_none honDestroy
          rw [hfill]
          cases f.destroy with
          | false => exact ih _ h
          | true => exact ih _ (h.call_right _)
      | some onDestroy =>
          have hfill : (config.fill f).onDestroy = some onDestroy := fill_some honDestroy
          simp only [hfill, hclient, fill_cbContext]
          exact ih _ (h.called ..)

/-- `OnAlloc` may be filled in at will. -/
theorem objectAlloc_fill (context : ObjectAllocContext σ) (h : w.Same w') :
    (objectAlloc (context.fill f) w').status = (objectAlloc context w).status ∧
    (objectAlloc (context.fill f) w').object = (objectAlloc context w).object ∧
    (objectAlloc context w).world.Same (objectAlloc (context.fill f) w').world := by
  have hlinks : w'.links = w.links := by rw [h]
  have hsig : w'.signature = w.signature := by rw [h]
  have hclient : w'.client = w.client := by rw [h]
  unfold objectAlloc
  simp only [ObjectAllocContext.fill, hlinks, hsig]
  split
  · exact ⟨rfl, rfl, h⟩
  · have hassert := h.assert (.signature (w.links.fwd (.list context.address)).object)
      (w.signature (w.links.fwd (.list context.address)).object = context.config.signature)
    cases honAlloc : context.config.onAlloc with
    | none =>
        have hfill : (context.config.fill f).onAlloc =
            if f.alloc then some succeedingCallback else none :=
          fill_none honAlloc
        have hok : ¬ efiError EFI_SUCCESS = true := by decide
        simp only [hfill, fill_signature]
        cases f.alloc with
        | false => exact ⟨rfl, rfl, hassert.modifyLinks _⟩
        | true =>
            simp only [↓reduceIte, succeedingCallback, hok, Bool.false_eq_true]
            exact ⟨trivial, trivial, (hassert.call_right _).modifyLinks _⟩
    | some onAlloc =>
        have hfill : (context.config.fill f).onAlloc = some onAlloc := fill_some honAlloc
        simp only [hfill, fill_signature, fill_cbContext, client_assert, hclient]
        by_cases herror : efiError (onAlloc (w.links.fwd (.list context.address)).object
            context.config.cbContext w.client).1 = true
        · simp only [herror, ↓reduceIte]
          exact ⟨trivial, trivial, hassert.called ..⟩
        · simp only [herror, ↓reduceIte, Bool.false_eq_true]
          exact ⟨trivial, trivial, (hassert.called ..).modifyLinks _⟩

/-- And so may `OnFree`. -/
theorem objectFree_fill (context : ObjectAllocContext σ) (object : UINT64) (h : w.Same w') :
    (objectFree context object w).Same (objectFree (context.fill f) object w') := by
  have hlinks : w'.links = w.links := by rw [h]
  have hassert := h.assert (.objectUnlisted object) (isListEmpty w.links (.link object))
  have hclient : w'.client = w.client := by rw [h]
  unfold objectFree
  simp only [ObjectAllocContext.fill, hlinks]
  cases honFree : context.config.onFree with
  | none =>
      have hfill : (context.config.fill f).onFree = if f.free then some emptyCallback else none :=
        fill_none honFree
      rw [hfill]
      cases f.free with
      | false => exact hassert.modifyLinks _
      | true => exact (hassert.call_right _).modifyLinks _
  | some onFree =>
      have hfill : (context.config.fill f).onFree = some onFree := fill_some honFree
      simp only [hfill, fill_cbContext, client_assert, hclient]
      exact (hassert.called ..).modifyLinks _

/-- The loop of `ObjectAllocDestroy`, where there is an `OnDestroy`. -/
theorem destroyObjects_fill {onDestroy : UINT64 → UINT64 → σ → σ}
    (honDestroy : config.onDestroy = some onDestroy) (n : Nat) (object : UINT64) (h : w.Same w') :
    ∃ v v', destroyObjects config objectSize n object w = some v ∧
      destroyObjects (config.fill f) objectSize n object w' = some v' ∧ v.Same v' := by
  have hfill : (config.fill f).onDestroy = some onDestroy := fill_some honDestroy
  induction n generalizing object w w' with
  | zero => exact ⟨w, w', rfl, rfl, h⟩
  | succ n ih =>
      have hlinks : w'.links = w.links := by rw [h]
      have hassert := h.assert (.objectListed object) (!isListEmpty w.links (.link object))
      have hclient : w'.client = w.client := by rw [h]
      simp only [destroyObjects, honDestroy, hfill, hlinks, fill_cbContext, client_assert, hclient]
      exact ih _ (hassert.called ..)

/-- `ObjectAllocDestroy`, if there is an `OnDestroy` where it is needed. -/
theorem objectAllocDestroy_fill {context : ObjectAllocContext σ}
    (hset : context.config.onDestroy.isSome = true ∨ context.config.objectCount = 0)
    (h : w.Same w') :
    ∃ v v', objectAllocDestroy context w = some v ∧ objectAllocDestroy (context.fill f) w' =
      some v' ∧ v.Same v' := by
  have hloop : ∃ v v',
    destroyObjects context.config context.objectSize context.config.objectCount.toNat
        context.arena w = some v ∧
      destroyObjects (context.config.fill f) context.objectSize context.config.objectCount.toNat
        context.arena w' = some v' ∧ v.Same v' := by
    rcases hset with honDestroy | hcount
    · obtain ⟨onDestroy, honDestroy⟩ := Option.isSome_iff_exists.mp honDestroy
      exact destroyObjects_fill f honDestroy _ _ h
    · rw [hcount]
      exact ⟨w, w', rfl, rfl, h⟩
  obtain ⟨v, v', hv, hv', hsame⟩ := hloop
  refine ⟨_, _, Option.map_eq_some_iff.mpr ⟨v, hv, rfl⟩,
    Option.map_eq_some_iff.mpr ⟨v', hv', rfl⟩, ?_⟩
  exact hsame.freed ..

/-- Without an `OnDestroy` there must not be an object. -/
theorem objectAllocDestroy_null {context : ObjectAllocContext σ}
    (honDestroy : context.config.onDestroy = none) (hcount : context.config.objectCount ≠ 0)
    (w : PoolWorld σ) : objectAllocDestroy context w = none := by
  have hpos : context.config.objectCount.toNat ≠ 0 :=
    fun hzero => hcount (BitVec.eq_of_toNat_eq hzero)
  obtain ⟨n, hn⟩ := Nat.exists_eq_succ_of_ne_zero hpos
  simp only [objectAllocDestroy, hn, destroyObjects, honDestroy, Option.map_none]

end

/-- `Status` is not set when there is no `OnCreate`, or no object. -/
theorem createObjects_unset (h : config.onCreate = none ∨ n = 0) (index : Nat)
    (object status : UINT64) (w : PoolWorld σ) :
    (createObjects config list objectSize n index object status w).status = status := by
  induction n generalizing index object w with
  | zero => rfl
  | succ n ih =>
      have honCreate := h.resolve_right (Nat.succ_ne_zero n)
      simp only [createObjects, honCreate]
      exact ih (.inl honCreate) ..

/-- Otherwise the first call of `OnCreate` sets it. -/
theorem createObjects_set {onCreate : UINT64 → UINT64 → σ → UINT64 × σ}
    (honCreate : config.onCreate = some onCreate) (hn : n ≠ 0) (index : Nat)
    (object status status' : UINT64) (w : PoolWorld σ) :
    createObjects config list objectSize n index object status w =
      createObjects config list objectSize n index object status' w := by
  cases n with
  | zero => exact absurd rfl hn
  | succ n => simp only [createObjects, honCreate]

/-! ## a client of pools -/

/-- Calls of the four operations; pools are named by their place among the pools that
the client has, newest first. -/
inductive PoolOp (σ : Type) where
  | create (services : CreateServices σ)
  | alloc (i : Nat)
  | free (i : Nat) (object : UINT64)
  | destroy (i : Nat)
  | use (client : σ)

/-- The world, the pools, what the calls have returned, and whether one of them has
called through a `NULL` callback. -/
structure PoolClient (σ : Type) where
  world : PoolWorld σ
  contexts : List (ObjectAllocContext σ)
  results : List (UINT64 × Option UINT64)
  nullCall : Bool

def poolOpStep (config : ObjectAllocConfig σ) (s : PoolClient σ) (op : PoolOp σ) :
    Option (PoolClient σ) :=
  if s.nullCall then none
  else
    match op with
    | .create services =>
        let r := objectAllocCreate config services none s.world
        some { s with
          world := r.world
          contexts := r.context.toList ++ s.contexts
          results := (r.status, none) :: s.results }
    | .alloc i =>
        s.contexts[i]?.map fun context =>
          let r := objectAlloc context s.world
          { s with world := r.world, results := (r.status, r.object) :: s.results }
    | .free i object =>
        s.contexts[i]?.map fun context => { s with world := objectFree context object s.world }
    | .destroy i =>
        s.contexts[i]?.map fun context =>
          match objectAllocDestroy context s.world with
          | none => { s with nullCall := true }
          | some w => { s with world := w, contexts := s.contexts.eraseIdx i }
    | .use client => some { s with world := { s.world with client := client } }

/-- The same results and the same state, but for the callbacks that have been filled in. -/
structure SameClient (f : Fill) (s t : PoolClient σ) : Prop where
  world : s.world.Same t.world
  contexts : t.contexts = s.contexts.map (·.fill f)
  results : t.results = s.results
  nullCall : t.nullCall = s.nullCall

/-! ## when `NULL` means no callback -/

/-- `ObjectAllocCreate` comes to its loop. -/
def ReachesLoop (config : ObjectAllocConfig σ) (services : CreateServices σ) : Prop :=
  services.allocatePool.isSome = true ∧ ¬ ROUND_UP config.objectSize config.objectAlignment <
    sizeofObjectHeader ∧
    (services.allocatePages config.pages).isSome = true

instance (config : ObjectAllocConfig σ) (services : CreateServices σ) :
    Decidable (ReachesLoop config services) :=
  inferInstanceAs (Decidable (_ ∧ _))

/-- As many objects as fit into the arena. -/
def ObjectAllocConfig.created (config : ObjectAllocConfig σ) : UINT64 :=
  EFI_PAGES_TO_SIZE config.pages / ROUND_UP config.objectSize config.objectAlignment

/-- The loop of `ObjectAllocCreate` has an `OnCreate` to call and an object to call it
for, and `ObjectAllocDestroy` has an `OnDestroy` if it has an object. -/
def CallbacksSet (config : ObjectAllocConfig σ) (s : PoolClient σ) : PoolOp σ → Prop
  | .create services =>
      ReachesLoop config services → config.onCreate.isSome = true ∧ config.created ≠ 0
  | .destroy i =>
      ∀ context ∈ s.contexts[i]?, context.config.onDestroy.isSome = true ∨
        context.config.objectCount = 0
  | _ => True

instance (config : ObjectAllocConfig σ) (s : PoolClient σ) (op : PoolOp σ) :
    Decidable (CallbacksSet config s op) :=
  match op with
  | .create services => inferInstanceAs (Decidable (ReachesLoop config services → _))
  | .destroy i => inferInstanceAs (Decidable (∀ context ∈ s.contexts[i]?, _))
  | .alloc _ | .free _ _ | .use _ => isTrue trivial

/-- What the services return, while `Status` holds something else. -/
def CreateServices.withStatus (services : CreateServices σ) (status : UINT64) : CreateServices σ :=
  { services with status := status }

/-- The step calls through no `NULL` callback, comes to the same with callbacks filled
in, and does not depend on what `Status` holds before it is set. -/
structure NullMeansNothing (config : ObjectAllocConfig σ) (s : PoolClient σ) (op : PoolOp σ)
    (s' : PoolClient σ) :
    Prop where
  nullCall : s'.nullCall = false
  filled : ∀ f t, SameClient f s t → ∃ t', poolOpStep (config.fill f) t op = some t' ∧
    SameClient f s' t'
  status : ∀ services, op = .create services → ∀ status,
    objectAllocCreate config (services.withStatus status) none s.world =
      objectAllocCreate config services none s.world

/-- `ObjectAllocCreate`, if there is an `OnCreate` where it is needed. -/
theorem objectAllocCreate_fill (f : Fill)
    (hset : ReachesLoop config services → config.onCreate.isSome = true) (h : w.Same w') :
    (objectAllocCreate (config.fill f) services none w').status =
      (objectAllocCreate config services none w).status ∧
    (objectAllocCreate (config.fill f) services none w').context =
      (objectAllocCreate config services none w).context.map (·.fill f) ∧
    (objectAllocCreate config services none w).world.Same
      (objectAllocCreate (config.fill f) services none w').world := by
  obtain ⟨hpool, heq⟩ | ⟨objectContext, hpool, hsize, heq⟩ | ⟨objectContext, hpool,
    hsize, hpages, heq⟩ |
    ⟨objectContext, arena, hpool, hsize, hpages, heq⟩ :=
      objectAllocCreate_cases config services none w
  · rw [heq, objectAllocCreate_of_noPool (config.fill f) services _ _ hpool]
    exact ⟨rfl, rfl, h⟩
  · rw [heq, objectAllocCreate_of_small (config.fill f) services _ _ hpool hsize]
    refine ⟨rfl, rfl, ?_⟩
    rw [h]
    rfl
  · rw [heq, objectAllocCreate_of_noPages (config.fill f) services _ _ hpool hsize hpages]
    exact ⟨rfl, rfl, h⟩
  · obtain ⟨onCreate, honCreate⟩ := Option.isSome_iff_exists.mp
      (hset ⟨by rw [hpool]; rfl, hsize, by rw [hpages]; rfl⟩)
    rw [heq, objectAllocCreate_of_arena (config.fill f) services _ _ hpool hsize hpages]
    let context := config.context objectContext arena
    let r := context.create services.status (w.prepared config services objectContext arena)
    let r' := (context.fill f).create services.status
      (w'.prepared (config.fill f) services objectContext arena)
    have hr : r'.index = r.index ∧ r'.object = r.object ∧ r'.status = r.status ∧
        r.world.Same r'.world :=
      createObjects_fill f (.list objectContext) context.objectSize
        (show context.config.onCreate = some onCreate from honCreate)
        context.config.objectCount.toNat 0 arena services.status
        (h.prepared config f services objectContext arena)
    obtain ⟨hindex, hobject, hstatus, hworld⟩ := hr
    have hundo : (context.undo config.pages r).Same ((context.fill f).undo config.pages r') := by
      rw [ObjectAllocContext.undo, ObjectAllocContext.undo, hindex, hobject]
      exact (undoCreate_fill f context.config context.objectSize r.index r.object hworld).freed
        arena config.pages objectContext
    change CreateResult.status (if efiError r'.status = true then _ else _) =
        CreateResult.status (if efiError r.status = true then _ else _) ∧
      CreateResult.context (if efiError r'.status = true then _ else _) =
        (CreateResult.context (if efiError r.status = true then _ else _)).map _ ∧
      PoolWorld.Same (CreateResult.world (if efiError r.status = true then _ else _))
        (CreateResult.world (if efiError r'.status = true then _ else _))
    rw [hstatus]
    split
    · exact ⟨hstatus, rfl, hundo⟩
    · exact ⟨rfl, rfl, hworld⟩

/-! ## steps and runs -/

variable {s s' : PoolClient σ} {op : PoolOp σ}

/-- The result of `ObjectAllocCreate` if it does not depend on what `Status` holds. -/
theorem objectAllocCreate_status
    (hset : ReachesLoop config services → config.onCreate.isSome = true ∧ config.created ≠ 0)
    (status : UINT64) :
    objectAllocCreate config (services.withStatus status) slot w =
      objectAllocCreate config services slot w := by
  obtain ⟨hpool, heq⟩ | ⟨objectContext, hpool, hsize, heq⟩ | ⟨objectContext, hpool,
    hsize, hpages, heq⟩ |
    ⟨objectContext, arena, hpool, hsize, hpages, heq⟩ :=
      objectAllocCreate_cases config services slot w
  · rw [heq, objectAllocCreate_of_noPool config (services.withStatus status) _ _ hpool]
  · rw [heq, objectAllocCreate_of_small config (services.withStatus status) _ _ hpool hsize]
  · rw [heq, objectAllocCreate_of_noPages config
      (services.withStatus status) _ _ hpool hsize hpages]
  · obtain ⟨honCreate, hcreated⟩ := hset ⟨by rw [hpool]; rfl, hsize, by rw [hpages]; rfl⟩
    obtain ⟨onCreate, honCreate⟩ := Option.isSome_iff_exists.mp honCreate
    have hcount : (config.context objectContext arena).config.objectCount.toNat ≠ 0 := fun hzero =>
      hcreated (BitVec.eq_of_toNat_eq hzero)
    have hloop : (config.context objectContext arena).create status
      (w.prepared config services objectContext arena) =
        (config.context objectContext arena).create services.status
        (w.prepared config services objectContext arena) :=
      createObjects_set (show (config.context objectContext arena).config.onCreate =
        some onCreate from honCreate)
        hcount ..
    rw [heq, objectAllocCreate_of_arena config (services.withStatus status) _ _ hpool hsize hpages]
    simp only
    rw [← hloop]
    rfl

/-- Without an `OnCreate`, or without objects, it does. -/
theorem objectAllocCreate_unset (hloop : ReachesLoop config services)
    (hunset : config.onCreate = none ∨ config.created = 0) (w : PoolWorld σ) :
    (objectAllocCreate config (services.withStatus EFI_SUCCESS) slot w).status ≠
      (objectAllocCreate config (services.withStatus EFI_UNSUPPORTED) slot w).status := by
  obtain ⟨hpool, hsize, hpages⟩ := hloop
  obtain ⟨objectContext, hpool⟩ := Option.isSome_iff_exists.mp hpool
  obtain ⟨arena, hpages⟩ := Option.isSome_iff_exists.mp hpages
  have hstatus : ∀ status, (objectAllocCreate config (services.withStatus status) slot w).status =
      if efiError status then status else EFI_SUCCESS := fun status => by
    have hkept : ((config.context objectContext arena).create (services.withStatus status).status
        (w.prepared config (services.withStatus status) objectContext arena)).status = status :=
      createObjects_unset (show (config.context objectContext arena).config.onCreate = none ∨
        (config.context objectContext arena).config.objectCount.toNat = 0 from
          hunset.imp_right fun hzero => congrArg BitVec.toNat hzero) ..
    rw [objectAllocCreate_of_arena config (services.withStatus status) _ _ hpool hsize hpages]
    change CreateResult.status (if efiError (CreateLoop.status _) = true then _ else _) = _
    rw [hkept]
    split <;> rfl
  have hsuccess : ¬ efiError EFI_SUCCESS = true := by decide
  have hunsupported : efiError EFI_UNSUPPORTED = true := by decide
  rw [hstatus, hstatus, if_neg hsuccess, if_pos hunsupported]
  decide

/-- Nothing is called any more after a call through a `NULL` callback. -/
theorem nullCall_of_step (hstep : poolOpStep config s op = some s') : s.nullCall = false := by
  cases hnull : s.nullCall with
  | false => rfl
  | true =>
      unfold poolOpStep at hstep
      rw [hnull] at hstep
      cases hstep

/-- The step of a client whose callbacks are set where they are called. -/
theorem poolOpStep_fill {f : Fill} {t : PoolClient σ} (hset : CallbacksSet config s op)
    (hsame : SameClient f s t) (hstep : poolOpStep config s op = some s') :
    s'.nullCall = false ∧ ∃ t', poolOpStep (config.fill f) t op = some t' ∧ SameClient f s' t' := by
  have hnull := nullCall_of_step hstep
  unfold poolOpStep at hstep ⊢
  rw [if_neg (ne_true_of_eq_false hnull)] at hstep
  rw [if_neg (ne_true_of_eq_false (hsame.nullCall.trans hnull))]
  cases op with
  | create services =>
      obtain rfl := Option.some.inj hstep
      obtain ⟨hstatus, hcontext, hworld⟩ :=
        objectAllocCreate_fill f (fun hloop => (hset hloop).1) hsame.world
      refine ⟨hnull, _, rfl, hworld, ?_, ?_, ?_⟩
      · simp [hcontext, hsame.contexts, Option.toList_map]
      · simp [hstatus, hsame.results]
      · exact hsame.nullCall
  | alloc i =>
      obtain ⟨context, hcontext, rfl⟩ := Option.map_eq_some_iff.mp hstep
      obtain ⟨hstatus, hobject, hworld⟩ := objectAlloc_fill f context hsame.world
      simp only [hsame.contexts, List.getElem?_map, hcontext]
      refine ⟨hnull, _, rfl, hworld, rfl, ?_, hsame.nullCall⟩
      simp [hstatus, hobject, hsame.results]
  | free i object =>
      obtain ⟨context, hcontext, rfl⟩ := Option.map_eq_some_iff.mp hstep
      simp only [hsame.contexts, List.getElem?_map, hcontext]
      exact ⟨hnull, _, rfl, objectFree_fill f context object hsame.world, rfl, hsame.results,
        hsame.nullCall⟩
  | destroy i =>
      obtain ⟨context, hcontext, hs'⟩ := Option.map_eq_some_iff.mp hstep
      have hdestroy := objectAllocDestroy_fill f (hset context hcontext) hsame.world
      obtain ⟨v, v', hv, hv', hworld⟩ := hdestroy
      rw [hv] at hs'
      subst hs'
      simp only [hsame.contexts, List.getElem?_map, hcontext, Option.map_some, hv']
      refine ⟨hnull, _, rfl, hworld, ?_, hsame.results, hsame.nullCall⟩
      simp [List.eraseIdx_map]
  | use client =>
      obtain rfl := Option.some.inj hstep
      exact ⟨hnull, _, rfl, hsame.world.setClient client, hsame.contexts, hsame.results,
        hsame.nullCall⟩

/-- `NULL` means no callback exactly where the callbacks that are called are set. -/
theorem nullMeansNothing_iff (hstep : poolOpStep config s op = some s') :
    NullMeansNothing config s op s' ↔ CallbacksSet config s op := by
  constructor
  · intro h
    have hnull := nullCall_of_step hstep
    cases op with
    | create services =>
        intro hloop
        by_contra hunset
        have hunset' : config.onCreate = none ∨ config.created = 0 := by
          by_contra hset
          rw [not_or, ← ne_eq, Option.ne_none_iff_isSome] at hset
          exact hunset hset
        have hsame := (h.status services rfl EFI_SUCCESS).trans
          (h.status services rfl EFI_UNSUPPORTED).symm
        exact objectAllocCreate_unset hloop hunset' s.world (congrArg CreateResult.status hsame)
    | destroy i =>
        intro context hcontext
        by_contra hunset
        rw [not_or, Option.not_isSome_iff_eq_none] at hunset
        -- the step calls through a `NULL` callback
        have hcalled := h.nullCall
        unfold poolOpStep at hstep
        rw [if_neg (ne_true_of_eq_false hnull)] at hstep
        obtain ⟨context', hcontext', rfl⟩ := Option.map_eq_some_iff.mp hstep
        obtain rfl := Option.some.inj (hcontext'.symm.trans hcontext)
        rw [objectAllocDestroy_null hunset.1 hunset.2] at hcalled
        cases hcalled
    | alloc i => trivial
    | free i object => trivial
    | use client => trivial
  · intro hset
    have hself : SameClient ⟨false, false, false, false⟩ s s :=
      ⟨.refl _, (List.map_id s.contexts).symm, rfl, rfl⟩
    refine ⟨(poolOpStep_fill hset hself hstep).1,
      fun f t hsame => (poolOpStep_fill hset hsame hstep).2, ?_⟩
    rintro services rfl status
    exact objectAllocCreate_status hset status

/-- The client before its first call. -/
def freshClient (w : PoolWorld σ) : PoolClient σ := ⟨w, [], [], false⟩

/-- In a run in which the callbacks that are called are set, no call goes through
`NULL`, and the run is the same with callbacks that do nothing in place of any that
are `NULL`; and one more step that does not meet the condition breaks that. -/
theorem nullMeansNothing_of_run (config : ObjectAllocConfig σ) (w : PoolWorld σ)
    (ops : List (PoolOp σ)) (s : PoolClient σ)
    (h : Run (poolOpStep config) (CallbacksSet config) (freshClient w) ops s) :
    s.nullCall = false ∧
    (∀ f, ∃ t, Run (poolOpStep (config.fill f)) (fun _ _ => True) (freshClient w) ops t ∧
      SameClient f s t) ∧
    ∀ op s', poolOpStep config s op = some s' →
      (NullMeansNothing config s op s' ↔ CallbacksSet config s op) := by
  have hfilled : ∀ f, ∃ t, Run (poolOpStep (config.fill f)) (fun _ _ => True)
    (freshClient w) ops t ∧
      SameClient f s t := fun f =>
    h.simulate (R := SameClient f) (fun _ _ _ _ hsame hset hstep => by
      obtain ⟨t', ht', hsame'⟩ := (poolOpStep_fill hset hsame hstep).2
      exact ⟨t', trivial, ht', hsame'⟩) ⟨.refl w, rfl, rfl, rfl⟩
  refine ⟨?_, hfilled, fun op s' hstep => nullMeansNothing_iff hstep⟩
  refine h.invariant (I := fun s => s.nullCall = false) (fun t op t' hnull hset hstep => ?_) rfl
  exact ((nullMeansNothing_iff hstep).mpr hset).nullCall

/-- A pool is made, used and destroyed by a client that has set all but `OnFree`. -/
theorem nullMeansNothing_of_run_pair :
    ∃ s, Run (poolOpStep pairConfig) (CallbacksSet pairConfig) (freshClient emptyWorld)
        [.create pairServices, .alloc 0, .free 0 0x10000, .destroy 0] s ∧ s.nullCall = false := by
  have hexec : (exec (poolOpStep pairConfig) (CallbacksSet pairConfig) (freshClient emptyWorld)
      [.create pairServices, .alloc 0, .free 0 0x10000, .destroy 0]).isSome = true := by decide
  obtain ⟨s, hs⟩ := Option.isSome_iff_exists.mp hexec
  exact ⟨s, .of_exec hs, (nullMeansNothing_of_run pairConfig emptyWorld _ s (.of_exec hs)).1⟩

/-- `Status` holds an error that something else has left there. -/
def staleServices : CreateServices Bool := { pairServices with status := EFI_UNSUPPORTED }

/-- A client without callbacks. -/
def bareConfig : ObjectAllocConfig Bool :=
  { pairConfig with onCreate := none, onAlloc := none, onDestroy := none }

/-- Without an `OnCreate` the status comes from nowhere, and without an `OnDestroy` a pool
cannot be destroyed; with callbacks that do nothing, both calls succeed. -/
theorem bareConfig_runs :
    (∃ s, Run (poolOpStep bareConfig) (fun _ _ => True) (freshClient emptyWorld)
      [.create staleServices] s ∧
      s.results = [(EFI_UNSUPPORTED, none)]) ∧
    (∃ s, Run (poolOpStep (bareConfig.fill ⟨true, true, true, true⟩)) (fun _ _ => True)
      (freshClient emptyWorld)
        [.create staleServices] s ∧ s.results = [(EFI_SUCCESS, none)]) ∧
    (∃ s, Run (poolOpStep bareConfig) (fun _ _ => True) (freshClient emptyWorld)
        [.create pairServices, .destroy 0] s ∧ s.nullCall = true) ∧
    ∃ s, Run (poolOpStep (bareConfig.fill ⟨true, true, true, true⟩)) (fun _ _ => True)
      (freshClient emptyWorld)
        [.create pairServices, .destroy 0] s ∧ s.nullCall = false := by
  have hrun : ∀ {α : Type} (config : ObjectAllocConfig Bool) (ops : List (PoolOp Bool))
      (f : PoolClient Bool → α) (a : α),
      (exec (poolOpStep config) (fun _ _ => True) (freshClient emptyWorld) ops).map f = some a →
      ∃ s, Run (poolOpStep config) (fun _ _ => True) (freshClient emptyWorld) ops s ∧ f s = a := by
    intro α config ops f a h
    obtain ⟨s, hs, hfs⟩ := Option.map_eq_some_iff.mp h
    exact ⟨s, .of_exec hs, hfs⟩
  exact ⟨hrun _ _ (·.results) _ (by decide), hrun _ _ (·.results) _ (by decide),
    hrun _ _ (·.nullCall) _ (by decide), hrun _ _ (·.nullCall) _ (by decide)⟩

end MultiArchUefi
