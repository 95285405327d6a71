import MultiArchUefi.ObjectPool
import MultiArchUefi.Lib.Rounding

/-!
# MultiArchUefi.PoolArena

The arithmetic of a pool's arena.

`ObjectAllocCreate` rounds the size of an object up, asks for whole pages, and
raises the count to what fits into them; `ObjectAllocDestroy` computes the pages
again, from the raised count.  The functions work modulo 2^64, and agree as long
as the size asked for does not reach the last page.
-/

namespace MultiArchUefi

open Ring Rounding

variable {σ : Type}

/-! ## the objects of the creation loop -/

/-- The objects that the first loop of `ObjectAllocCreate` comes to; a failing
callback is called with the last of them. -/
def createVisits (config : ObjectAllocConfig σ) (objectSize : UINT64) :
    Nat → UINT64 → σ → List UINT64
  | 0, _, _ => []
  | n + 1, object, client =>
      match config.onCreate with
      | none => object :: createVisits config objectSize n (object + objectSize) client
      | some onCreate =>
          let (status, client) := onCreate object config.cbContext client
          if efiError status then [object]
          else object :: createVisits config objectSize n (object + objectSize) client

/-- The loop comes to the objects of the arena in order, until a callback fails. -/
theorem createVisits_prefix (config : ObjectAllocConfig σ) (objectSize : UINT64) (n : Nat)
    (object : UINT64) (client : σ) :
    createVisits config objectSize n object client <+: objectsFrom objectSize n object := by
  induction n generalizing object client with
  | zero => exact List.prefix_rfl
  | succ n ih =>
      simp only [createVisits, objectsFrom]
      cases config.onCreate with
      | none => exact List.cons_prefix_cons.mpr ⟨rfl, ih ..⟩
      | some onCreate =>
          simp only
          split
          · exact List.cons_prefix_cons.mpr ⟨rfl, List.nil_prefix⟩
          · exact List.cons_prefix_cons.mpr ⟨rfl, ih ..⟩

/-- What the loop comes to is signed, whether or not a callback fails, and nothing else. -/
theorem createObjects_signature_visits (config : ObjectAllocConfig σ) (list : PoolEntry)
    (objectSize : UINT64) (n index : Nat) (object status : UINT64) (w : PoolWorld σ) (o : UINT64) :
    let r := createObjects config list objectSize n index object status w
    let visits := createVisits config objectSize n object w.client
    (o ∈ visits → r.world.signature o = config.signature) ∧
    (o ∉ visits → r.world.signature o = w.signature o) := by
  induction n generalizing index object status w with
  | zero => simp [createObjects, createVisits]
  | succ n ih =>
      have hset : (w.setSignature object config.signature).signature o =
          if o = object then config.signature else w.signature o := Function.update_apply ..
      simp only [createObjects, createVisits]
      cases config.onCreate with
      | none =>
          have hrest := ih (index + 1) (object + objectSize) status
            ((w.setSignature object config.signature).modifyLinks
              (insertTailList list (.link object)))
          grind [PoolWorld.modifyLinks, PoolWorld.setSignature]
      | some onCreate =>
          simp only [show (w.setSignature object config.signature).client = w.client from rfl]
          obtain ⟨status, client⟩ := onCreate object config.cbContext w.client
          cases herror : efiError status with
          | true => grind [PoolWorld.called]
          | false =>
              have hrest := ih (index + 1) (object + objectSize) status
                (((w.setSignature object config.signature).called
                  (.onCreate object status) client).modifyLinks
                  (insertTailList list (.link object)))
              grind [PoolWorld.modifyLinks, PoolWorld.called]

/-! ## sizes and counts -/

/-- `EFI_PAGE_SIZE` is a power of two. -/
theorem toNat_EFI_PAGE_SIZE : EFI_PAGE_SIZE.toNat = 2 ^ 12 := rfl

theorem toNat_EFI_SIZE_TO_PAGES (size : UINT64) :
    (EFI_SIZE_TO_PAGES size).toNat = size.toNat ⌈/⌉ 2 ^ 12 :=
  toNat_pages toNat_EFI_PAGE_SIZE (by decide) size

theorem toNat_EFI_PAGES_TO_SIZE {pages : UINT64} (h : pages.toNat * 2 ^ 12 < 2 ^ 64) :
    (EFI_PAGES_TO_SIZE pages).toNat = pages.toNat * 2 ^ 12 := by
  rw [EFI_PAGES_TO_SIZE, BitVec.toNat_shiftLeft, Nat.shiftLeft_eq, Nat.mod_eq_of_lt h]

/-- The size of an object, rounded up. -/
def ObjectAllocConfig.roundedSize (config : ObjectAllocConfig σ) : UINT64 :=
  ROUND_UP config.objectSize config.objectAlignment

/-- What the arithmetic of a pool needs: an alignment that is a power of two, a
size that is not refused, and objects that do not reach the last page. -/
structure ObjectAllocConfig.Fits (config : ObjectAllocConfig σ) : Prop where
  alignment : ∃ k, config.objectAlignment.toNat = 2 ^ k
  count : 1 ≤ config.objectCount.toNat
  accepted : ¬ config.roundedSize < sizeofObjectHeader
  size : config.roundedSize.toNat * config.objectCount.toNat ≤ 2 ^ 64 - EFI_PAGE_SIZE.toNat

namespace ObjectAllocConfig.Fits

variable {config : ObjectAllocConfig σ} (h : config.Fits) (objectContext arena : UINT64)
include h

theorem roundedSize_pos : 0 < config.roundedSize.toNat := by
  have haccepted := h.accepted
  rw [BitVec.lt_def] at haccepted
  have : sizeofObjectHeader.toNat = 24 := rfl
  omega

/-- The rounded size is the least multiple of the alignment that an object fits into. -/
theorem toNat_roundedSize :
    config.roundedSize.toNat =
      config.objectSize.toNat ⌈/⌉ config.objectAlignment.toNat * config.objectAlignment.toNat := by
  obtain ⟨k, hk⟩ := h.alignment
  rw [hk]
  exact toNat_roundUp hk _ h.roundedSize_pos

theorem toNat_pages :
    config.pages.toNat = (config.roundedSize.toNat * config.objectCount.toNat) ⌈/⌉ 2 ^ 12 := by
  have hsize := h.size
  rw [toNat_EFI_PAGE_SIZE] at hsize
  rw [ObjectAllocConfig.pages, toNat_EFI_SIZE_TO_PAGES, BitVec.toNat_mul, Nat.mod_eq_of_lt (by
    show config.roundedSize.toNat * config.objectCount.toNat < 2 ^ 64
    omega)]
  rfl

theorem toNat_arenaSize :
    (config.context objectContext arena).arenaSize.toNat = config.pages.toNat * 2 ^ 12 := by
  refine toNat_EFI_PAGES_TO_SIZE ?_
  have hsize := h.size
  rw [toNat_EFI_PAGE_SIZE] at hsize
  have hlt := pages_lt (p := 2 ^ 12) (by decide)
    (config.roundedSize.toNat * config.objectCount.toNat)
  rw [h.toNat_pages]
  omega

theorem toNat_objectCount :
    (config.context objectContext arena).config.objectCount.toNat =
      fill config.roundedSize.toNat config.objectCount.toNat (2 ^ 12) := by
  show ((config.context objectContext arena).arenaSize / config.roundedSize).toNat = _
  rw [BitVec.toNat_udiv, h.toNat_arenaSize, h.toNat_pages, fill]

end ObjectAllocConfig.Fits

/-! ## the arena -/

/-- `address` is one of the `size` bytes from `start` on. -/
def InRange (start size address : UINT64) : Prop := address - start < size

/-- The arena of `context` holds its objects, of which the creation loop comes to
`visited`, and no more; it is made of the pages that were asked for, and they are freed. -/
structure ArenaExact (config : ObjectAllocConfig σ) (context : ObjectAllocContext σ)
    (visited : List UINT64) :
    Prop where
  enough : config.objectCount ≤ context.config.objectCount
  room : config.objectSize ≤ context.objectSize
  disjoint : visited.Pairwise fun o o' =>
    ∀ address, InRange o context.objectSize address → ¬ InRange o' context.objectSize address
  aligned : ∀ o ∈ visited, config.objectAlignment.toNat ∣ (o - context.arena).toNat
  inside : ∀ o ∈ visited, ∀ address, InRange o context.objectSize address →
    InRange context.arena context.arenaSize address
  full : context.arenaSize.toNat < (context.config.objectCount.toNat + 1) * context.objectSize.toNat
  arenaSize : context.arenaSize.toNat = config.pages.toNat * EFI_PAGE_SIZE.toNat
  /-- The page count of `ObjectAllocDestroy`. -/
  pages : EFI_SIZE_TO_PAGES (context.objectSize * context.config.objectCount) = config.pages
  freed : ∀ w w', objectAllocDestroy context w = some w' →
    w'.pages = w.pages.erase (context.arena, config.pages)

/-- Destroying the objects leaves the allocations alone. -/
theorem destroyObjects_pages {config : ObjectAllocConfig σ} {objectSize : UINT64} {n : Nat}
    {object : UINT64} {w w' : PoolWorld σ}
    (h : destroyObjects config objectSize n object w = some w') : w'.pages = w.pages := by
  induction n generalizing object w with
  | zero =>
      obtain rfl := Option.some.inj h
      rfl
  | succ n ih =>
      simp only [destroyObjects] at h
      split at h
      · cases h
      · refine (ih h).trans ?_
        simp only [PoolWorld.called, PoolWorld.assert]
        split <;> rfl

theorem toNat_offset {objectSize : UINT64} {i : Nat} (hfits : i * objectSize.toNat < 2 ^ 64) :
    (BitVec.ofNat 64 i * objectSize).toNat = i * objectSize.toNat := by
  rw [BitVec.toNat_mul, BitVec.toNat_ofNat, Nat.mod_mul_mod, Nat.mod_eq_of_lt hfits]

/-- Where the bytes of the `i`-th object are in an arena that they do not overflow. -/
theorem toNat_sub_of_inRange {arena objectSize address : UINT64} {i : Nat}
    (hfits : (i + 1) * objectSize.toNat < 2 ^ 64)
    (h : InRange (arena + BitVec.ofNat 64 i * objectSize) objectSize address) :
    i * objectSize.toNat ≤ (address - arena).toNat ∧
      (address - arena).toNat < (i + 1) * objectSize.toNat := by
  rw [InRange, BitVec.lt_def] at h
  rw [Nat.succ_mul] at hfits ⊢
  have hoffset : (BitVec.ofNat 64 i * objectSize).toNat = i * objectSize.toNat :=
    toNat_offset (by omega)
  generalize BitVec.ofNat 64 i * objectSize = offset at h hoffset
  rw [← hoffset] at hfits ⊢
  have hsplit : address - arena = address - (arena + offset) + offset := by grind
  generalize address - (arena + offset) = rest at h hsplit
  rw [hsplit, BitVec.toNat_add, Nat.mod_eq_of_lt (by omega)]
  omega

section

variable {config : ObjectAllocConfig σ} (h : config.Fits) (objectContext arena : UINT64)
include h

theorem arena_objects_fit :
    (config.context objectContext arena).config.objectCount.toNat * config.roundedSize.toNat ≤
      (config.context objectContext arena).arenaSize.toNat := by
  rw [h.toNat_objectCount, h.toNat_arenaSize, h.toNat_pages, Nat.mul_comm]
  exact mul_fill_le ..

/-- The pages that `ObjectAllocDestroy` computes are those that were asked for. -/
theorem destroy_pages :
    EFI_SIZE_TO_PAGES (config.roundedSize *
      (config.context objectContext arena).config.objectCount) =
      config.pages := by
  have hfit := arena_objects_fit h objectContext arena
  have hlt := (config.context objectContext arena).arenaSize.isLt
  apply BitVec.eq_of_toNat_eq
  rw [toNat_EFI_SIZE_TO_PAGES, BitVec.toNat_mul, Nat.mod_eq_of_lt (by rw [Nat.mul_comm]; omega),
    h.toNat_objectCount, h.toNat_pages, ceilDiv_mul_fill h.roundedSize_pos (by decide)]

/-- The arena is exact, whatever the callbacks do. -/
theorem arenaExact (client : σ) :
    ArenaExact config (config.context objectContext arena)
      (createVisits (config.context objectContext arena).config config.roundedSize
        (config.context objectContext arena).config.objectCount.toNat arena client) := by
  let context := config.context objectContext arena
  have hfit := arena_objects_fit h objectContext arena
  have hlt := context.arenaSize.isLt
  -- what holds of all objects of the arena holds of those that the loop comes to
  have hfront := createVisits_prefix context.config config.roundedSize
    context.config.objectCount.toNat arena
    client
  have hmem : ∀ o ∈ createVisits context.config config.roundedSize
    context.config.objectCount.toNat arena client,
      ∃ i < context.config.objectCount.toNat, o = arena + BitVec.ofNat 64 i * config.roundedSize :=
    fun o ho => mem_objectsFrom.mp (hfront.subset ho)
  have hle : ∀ i < context.config.objectCount.toNat,
      (i + 1) * config.roundedSize.toNat ≤ context.arenaSize.toNat :=
    fun i hi => (Nat.mul_le_mul_right _ hi).trans hfit
  exact {
    enough := by
      rw [BitVec.le_def, h.toNat_objectCount]
      exact le_fill h.roundedSize_pos (by decide)
    room := by
      show config.objectSize ≤ config.roundedSize
      obtain ⟨k, hk⟩ := h.alignment
      have hround := le_smul_ceilDiv (Nat.two_pow_pos k) (b := config.objectSize.toNat)
      rw [BitVec.le_def, h.toNat_roundedSize, hk, Nat.mul_comm]
      exact hround
    disjoint := by
      refine List.Pairwise.sublist hfront.sublist ?_
      rw [objectsFrom_eq_map, List.pairwise_map]
      refine List.pairwise_lt_range.imp_of_mem fun {i j} hi hj hij address hin hin' => ?_
      have hsucc : (i + 1) * config.roundedSize.toNat ≤ j * config.roundedSize.toNat :=
        Nat.mul_le_mul_right _ hij
      have hbefore := toNat_sub_of_inRange ((hle i (List.mem_range.mp hi)).trans_lt hlt) hin
      have hafter := toNat_sub_of_inRange ((hle j (List.mem_range.mp hj)).trans_lt hlt) hin'
      omega
    aligned := by
      intro o ho
      obtain ⟨i, hi, rfl⟩ := hmem o ho
      have hend := hle i hi
      rw [Nat.succ_mul] at hend
      have hoffset : arena + BitVec.ofNat 64 i * config.roundedSize - arena =
          BitVec.ofNat 64 i * config.roundedSize := by grind
      show _ ∣ (arena + BitVec.ofNat 64 i * config.roundedSize - arena).toNat
      rw [hoffset, toNat_offset (by omega), h.toNat_roundedSize]
      exact (Nat.dvd_mul_left ..).mul_left i
    inside := by
      intro o ho address hin
      obtain ⟨i, hi, rfl⟩ := hmem o ho
      have hend := (toNat_sub_of_inRange ((hle i hi).trans_lt hlt) hin).2
      exact BitVec.lt_def.mpr (hend.trans_le (hle i hi))
    full := by
      rw [h.toNat_objectCount, h.toNat_arenaSize, h.toNat_pages]
      exact lt_mul_fill_succ h.roundedSize_pos
    arenaSize := h.toNat_arenaSize objectContext arena
    pages := destroy_pages h objectContext arena
    freed := by
      intro w w' hdestroy
      obtain ⟨w₁, hw₁, rfl⟩ := Option.map_eq_some_iff.mp hdestroy
      show w₁.pages.erase (arena,
        EFI_SIZE_TO_PAGES (config.roundedSize * context.config.objectCount)) = _
      rw [destroy_pages h, destroyObjects_pages hw₁]
      rfl }

end

/-- For every object size, power-of-two alignment and count that the address space
has room for, `ObjectAllocCreate` makes a pool of an exact arena, and signs the
objects that it comes to. -/
theorem objectAllocCreate_arenaExact {config : ObjectAllocConfig σ} {services : CreateServices σ}
    {objectContext arena : UINT64} (hfits : config.Fits)
    (hpool : services.allocatePool = some objectContext)
    (hpages : services.allocatePages config.pages = some arena)
    (slot : Option (ObjectAllocContext σ)) (w : PoolWorld σ) :
    let context := config.context objectContext arena
    let prepared := w.prepared config services objectContext arena
    let r := context.create services.status prepared
    let visited := createVisits context.config context.objectSize
      context.config.objectCount.toNat arena
      prepared.client
    objectAllocCreate config services slot w =
        (if efiError r.status then ⟨r.status, slot, context.undo config.pages r⟩
          else ⟨EFI_SUCCESS, some context, r.world⟩) ∧
      (∀ o, (o ∈ visited → r.world.signature o = config.signature) ∧
        (o ∉ visited → r.world.signature o = w.signature o)) ∧
      ArenaExact config context visited :=
  ⟨objectAllocCreate_of_arena config services slot w hpool hfits.accepted hpages,
    fun o => createObjects_signature_visits _ _ _ _ _ _ _ _ o,
      arenaExact hfits objectContext arena _⟩

/-- Three objects of a size that does not divide a page. -/
def oddConfig : ObjectAllocConfig Bool :=
  { pairConfig with objectSize := 1000, objectAlignment := 16, objectCount := 3 }

/-- A fourth one fits into the page. -/
theorem objectAllocCreate_arenaExact_oddConfig :
    ∃ context w, objectAllocCreate oddConfig pairServices none emptyWorld =
      ⟨EFI_SUCCESS, some context, w⟩ ∧
      context.config.objectCount = 4 ∧ ArenaExact oddConfig context context.objects := by
  have hfits : oddConfig.Fits := ⟨⟨4, by decide⟩, by decide, by decide, by decide⟩
  have hpool : pairServices.allocatePool = some 0x1000 := rfl
  have hpages : pairServices.allocatePages oddConfig.pages = some 0x10000 := rfl
  obtain ⟨hcreate, -, harena⟩ := objectAllocCreate_arenaExact hfits hpool hpages none emptyWorld
  exact ⟨_, _, hcreate, by decide, harena⟩

end MultiArchUefi
