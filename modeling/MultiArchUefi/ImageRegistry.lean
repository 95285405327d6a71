import MultiArchUefi.Image
import MultiArchUefi.Lib.Lookup
import MultiArchUefi.Lib.Run

/-!
# MultiArchUefi.ImageRegistry

`ImageProtocolRegister` and `ImageProtocolUnregister`, called by an image loader
that keeps track of what it has loaded.  The list of records, the permissions of
the engines and the loader's own view agree as long as no registration fails
after its record has been listed.
-/

namespace MultiArchUefi

open Transition Lookup

/-! ## the protocol -/

/-- `mImageList` and what the engines may execute. -/
structure Registry where
  images : Images
  perms : CodePerms

/-- What the services called by `ImageProtocolRegister` return: the CPU of the
image or the error of `PeCoffLoaderGetImageInfo`, the memory that `AllocatePool`
finds, with its old contents, and the status of `SetMemoryAttributes`. -/
structure RegisterServices where
  imageInfo : Except ErrorStatus CpuId
  allocatePool : Option (RecordId × ImageRecord)
  setMemoryAttributes : UINT64

/-- The status, what is left in `*EntryPoint`, and the registry. -/
def imageProtocolRegister (cpuRunImage : UINT64) (imageBase imageSize entryPoint : UINT64)
    (services : RegisterServices) (g : Registry) : UINT64 × UINT64 × Registry :=
  match services.imageInfo with
  | .error status => (status.val, entryPoint, g)
  | .ok cpu =>
      match services.allocatePool with
      | none => (EFI_OUT_OF_RESOURCES, entryPoint, g)
      | some (r, contents) =>
          let record := { contents with
            cpu := cpu
            imageBase := imageBase
            imageEntry := entryPoint
            imageSize := imageSize }
          let perms := cpuRegisterCodeRange record.cpu imageBase imageSize g.perms
          let images : Images :=
            ⟨g.images.mImageList ++ [r], Function.update g.images.record r record⟩
          let status := services.setMemoryAttributes
          if efiError status then (status, entryPoint, ⟨images, perms⟩)
          else (EFI_SUCCESS, cpuRunImage, ⟨images, perms⟩)

/-- The status and the registry. -/
def imageProtocolUnregister (imageBase setMemoryAttributes : UINT64) (g : Registry) :
    UINT64 × Registry :=
  match imageFindByAddress g.images imageBase with
  | none => (EFI_NOT_FOUND, g)
  | some r =>
      let record := g.images.record r
      let perms := cpuUnregisterCodeRange record.cpu record.imageBase record.imageSize g.perms
      (setMemoryAttributes, ⟨{ g.images with mImageList := g.images.mImageList.erase r }, perms⟩)

/-! ## the loader -/

/-- An image the loader has registered. -/
structure LoadedImage where
  imageBase : UINT64
  imageSize : UINT64
  cpu : CpuId
deriving DecidableEq

/-- The address is one of the image's. -/
def LoadedImage.covers (i : LoadedImage) (a : UINT64) : Bool :=
  decide (i.imageBase.toNat ≤ a.toNat) && decide (a.toNat < i.imageBase.toNat + i.imageSize.toNat)

/-- No address is one of both images'. -/
def LoadedImage.Disjoint (i j : LoadedImage) : Prop :=
  i.imageBase.toNat + i.imageSize.toNat ≤ j.imageBase.toNat ∨
    j.imageBase.toNat + j.imageSize.toNat ≤ i.imageBase.toNat

instance (i j : LoadedImage) : Decidable (i.Disjoint j) := inferInstanceAs (Decidable (_ ∨ _))

instance : Std.Symm LoadedImage.Disjoint := ⟨fun _ _ h => h.symm⟩

/-- A range of memory, with addresses that `uc_mem_protect` accepts. -/
def LoadedImage.Valid (i : LoadedImage) : Prop :=
  0 < i.imageSize.toNat ∧ i.imageBase.toNat + i.imageSize.toNat < 2 ^ 64

instance (i : LoadedImage) : Decidable i.Valid := inferInstanceAs (Decidable (_ ∧ _))

def ImageRecord.loaded (r : ImageRecord) : LoadedImage := ⟨r.imageBase, r.imageSize, r.cpu⟩

/-- The driver and the loader: the images that have been registered successfully
and have not been unregistered, in this order. -/
structure Loader where
  registry : Registry
  loaded : List LoadedImage

/-- What the loader does. -/
inductive LoaderCall where
  | register (imageBase imageSize entryPoint : UINT64) (services : RegisterServices)
  | unregister (imageBase setMemoryAttributes : UINT64)

/-- The loader registers non-empty ranges that are disjoint from those loaded,
and `AllocatePool` finds memory that is not in use. -/
def LoaderCall.Allowed (l : Loader) : LoaderCall → Prop
  | register imageBase imageSize _ services =>
      (∀ cpu ∈ services.imageInfo.toOption, LoadedImage.Valid ⟨imageBase, imageSize, cpu⟩ ∧
        ∀ i ∈ l.loaded, i.Disjoint ⟨imageBase, imageSize, cpu⟩) ∧
      ∀ r ∈ services.allocatePool, r.1 ∉ l.registry.images.mImageList
  | unregister _ _ => True

instance (l : Loader) : (call : LoaderCall) → Decidable (call.Allowed l)
  | .register _ _ _ _ => inferInstanceAs (Decidable (_ ∧ _))
  | .unregister _ _ => inferInstanceAs (Decidable True)

/-- One call; `none` when the loader does not make it.  The image that contains
the address is no longer loaded after `ImageProtocolUnregister`. -/
def loaderStep (cpuRunImage : UINT64) (l : Loader) (call : LoaderCall) : Option Loader :=
  if call.Allowed l then
    match call with
    | .register imageBase imageSize entryPoint services =>
        let (status, _, g) :=
          imageProtocolRegister cpuRunImage imageBase imageSize entryPoint services l.registry
        match services.imageInfo with
        | .ok cpu =>
            some ⟨g, if efiError status then l.loaded
              else l.loaded ++ [⟨imageBase, imageSize, cpu⟩]⟩
        | .error _ => some ⟨g, l.loaded⟩
    | .unregister imageBase setMemoryAttributes =>
        let (_, g) := imageProtocolUnregister imageBase setMemoryAttributes l.registry
        some ⟨g, l.loaded.filter fun i => !i.covers imageBase⟩
  else none

/-- Nothing is registered; the memory of the records may hold anything. -/
def emptyLoader (contents : RecordId → ImageRecord) : Loader :=
  ⟨⟨⟨[], contents⟩, initialCodePerms⟩, []⟩

/-! ## exactness -/

/-- What `mImageList` lists, in order. -/
def Registry.listed (g : Registry) : List LoadedImage :=
  g.images.mImageList.map fun r => (g.images.record r).loaded

/-- The list, the permissions and the search are those of the loaded images. -/
structure RegistryExact (l : Loader) : Prop where
  listed : l.registry.listed = l.loaded
  nodup : l.registry.images.mImageList.Nodup
  perms : ∀ cpu a, l.registry.perms cpu a = true ↔ ∃ i ∈ l.loaded, i.cpu = cpu ∧ i.covers a = true
  find : ∀ a r, imageFindByAddress l.registry.images a = some r ↔
    r ∈ l.registry.images.mImageList ∧ (l.registry.images.record r).loaded.covers a = true

/-- If the call is a registration that returns an error, the list, the
permissions and `*EntryPoint` are as before. -/
def FailsUnchanged (cpuRunImage : UINT64) (l : Loader) : LoaderCall → Prop
  | .register imageBase imageSize entryPoint services =>
      ∀ status entryPoint' g,
        imageProtocolRegister cpuRunImage imageBase imageSize entryPoint services l.registry =
          (status, entryPoint', g) → efiError status = true →
        g.listed = l.registry.listed ∧ g.images.mImageList = l.registry.images.mImageList ∧
          g.perms = l.registry.perms ∧ entryPoint' = entryPoint
  | .unregister _ _ => True

/-- A registration that gets as far as `SetMemoryAttributes` does not fail there. -/
def SetsAttributes (_ : Loader) : LoaderCall → Prop
  | .register _ _ _ ⟨.ok _, some _, setMemoryAttributes⟩ => efiError setMemoryAttributes = false
  | _ => True

instance (l : Loader) : (call : LoaderCall) → Decidable (SetsAttributes l call)
  | .register _ _ _ ⟨.ok _, some _, _⟩ => inferInstanceAs (Decidable (_ = _))
  | .register _ _ _ ⟨.ok _, none, _⟩ => isTrue trivial
  | .register _ _ _ ⟨.error _, _, _⟩ => isTrue trivial
  | .unregister _ _ => isTrue trivial

/-! ## ranges -/

theorem LoadedImage.covers_eq_true {i : LoadedImage} {a : UINT64} :
    i.covers a = true ↔
      i.imageBase.toNat ≤ a.toNat ∧ a.toNat < i.imageBase.toNat + i.imageSize.toNat := by
  simp [covers]

/-- A range that does not reach the top of the address space is searched for what it is. -/
theorem contains_eq_covers {r : ImageRecord} (h : r.loaded.Valid) (a : UINT64) :
    r.contains a = r.loaded.covers a := by
  obtain ⟨-, hfit⟩ := h
  have hsum : (r.imageBase + r.imageSize).toNat = r.imageBase.toNat + r.imageSize.toNat := by
    rw [BitVec.toNat_add]
    exact Nat.mod_eq_of_lt hfit
  rw [Bool.eq_iff_iff, LoadedImage.covers_eq_true]
  simp [ImageRecord.contains, ImageRecord.loaded, BitVec.le_def, BitVec.lt_def, hsum]

theorem LoadedImage.Disjoint.not_covers {i j : LoadedImage} (h : i.Disjoint j) {a : UINT64}
    (hi : i.covers a = true) : j.covers a = false := by
  rw [covers_eq_true] at hi
  rw [← Bool.not_eq_true, covers_eq_true]
  rcases h with h | h <;> omega

/-- Loaded images are ranges without an address in common. -/
structure Separate (l : List LoadedImage) : Prop where
  valid : ∀ i ∈ l, i.Valid
  disjoint : l.Pairwise LoadedImage.Disjoint

/-- The driver and the loader agree. -/
structure Agree (l : Loader) : Prop where
  listed : l.registry.listed = l.loaded
  nodup : l.registry.images.mImageList.Nodup
  perms : ∀ cpu a, l.registry.perms cpu a = true ↔ ∃ i ∈ l.loaded, i.cpu = cpu ∧ i.covers a = true
  separate : Separate l.loaded

namespace Agree

variable {l : Loader}

theorem empty (contents : RecordId → ImageRecord) : Agree (emptyLoader contents) :=
  ⟨rfl, List.nodup_nil, by simp [emptyLoader, initialCodePerms], by simp [emptyLoader], .nil⟩

theorem valid (h : Agree l) {r : RecordId} (hr : r ∈ l.registry.images.mImageList) :
    (l.registry.images.record r).loaded.Valid :=
  h.separate.valid _ (h.listed ▸ List.mem_map_of_mem hr)

/-- An address is in one listed image at most. -/
theorem atMostOne (h : Agree l) (a : UINT64) :
    AtMostOne (fun r => (l.registry.images.record r).contains a) l.registry.images.mImageList := by
  intro r hr r' hr' hc hc'
  by_contra hne
  have hcovers := (contains_eq_covers (h.valid hr) a).symm.trans hc
  have hcovers' := (contains_eq_covers (h.valid hr') a).symm.trans hc'
  have hpair : l.registry.images.mImageList.Pairwise (Function.onFun LoadedImage.Disjoint fun r =>
      (l.registry.images.record r).loaded) := by
    have hlisted := h.separate.disjoint
    rw [← h.listed, Registry.listed, List.pairwise_map] at hlisted
    exact hlisted
  have hdisj : (l.registry.images.record r).loaded.Disjoint (l.registry.images.record r').loaded :=
    hpair.forall hr hr' hne
  rw [hdisj.not_covers hcovers] at hcovers'
  cases hcovers'

theorem exact (h : Agree l) : RegistryExact l := by
  refine ⟨h.listed, h.nodup, h.perms, fun a r => ?_⟩
  rw [imageFindByAddress, find?_eq_some_iff (h.atMostOne a)]
  exact and_congr_right fun hr => by rw [contains_eq_covers (h.valid hr)]

/-- A record that is listed for a new range, and the range that it registers. -/
theorem register (h : Agree l) {r : RecordId} (hr : r ∉ l.registry.images.mImageList)
    (record : ImageRecord) (hvalid : record.loaded.Valid)
    (hdisj : ∀ i ∈ l.loaded, i.Disjoint record.loaded) :
    Agree
      ⟨⟨⟨l.registry.images.mImageList ++ [r], Function.update l.registry.images.record r record⟩,
        cpuRegisterCodeRange record.cpu record.imageBase record.imageSize l.registry.perms⟩,
      l.loaded ++ [record.loaded]⟩ where
  listed := by
    have hold : l.registry.images.mImageList.map
        (fun r' => (Function.update l.registry.images.record r record r').loaded) =
        l.registry.listed :=
      List.map_congr_left fun r' hr' => by rw [Function.update_of_ne (ne_of_mem_of_not_mem hr' hr)]
    simp only [Registry.listed, List.map_append, List.map_cons, List.map_nil, Function.update_self]
    rw [hold, h.listed]
  nodup := List.nodup_append.mpr ⟨h.nodup, List.nodup_singleton r, fun r' hr' s hs heq => by
    rw [List.mem_singleton.mp hs] at heq
    exact hr (heq ▸ hr')⟩
  perms := fun cpu a => by
    rw [cpuRegisterCodeRange_eq_true, contains_eq_covers hvalid, h.perms]
    simp only [List.mem_append, List.mem_singleton]
    constructor
    · rintro (hnew | ⟨i, hi, hcovers⟩)
      · exact ⟨record.loaded, .inr rfl, hnew⟩
      · exact ⟨i, .inl hi, hcovers⟩
    · rintro ⟨i, hi | rfl, hcovers⟩
      · exact .inr ⟨i, hi, hcovers⟩
      · exact .inl hcovers
  separate := by
    refine ⟨fun i hi => ?_,
      List.pairwise_append.mpr
        ⟨h.separate.disjoint, List.pairwise_singleton _ _, fun i hi j hj => by
        rw [List.mem_singleton.mp hj]; exact hdisj i hi⟩⟩
    rcases List.mem_append.mp hi with hi | hi
    · exact h.separate.valid i hi
    · rw [List.mem_singleton.mp hi]
      exact hvalid

/-- The record of the image that contains the address goes, and its range with it. -/
theorem unregister (h : Agree l) {r : RecordId} {a : UINT64}
    (hfind : imageFindByAddress l.registry.images a = some r) :
    Agree ⟨⟨{ l.registry.images with mImageList := l.registry.images.mImageList.erase r },
      cpuUnregisterCodeRange (l.registry.images.record r).cpu (l.registry.images.record r).imageBase
        (l.registry.images.record r).imageSize l.registry.perms⟩,
      l.loaded.filter fun i => !i.covers a⟩ := by
  obtain ⟨hr, hcontains⟩ := imageFindByAddress_eq_some hfind
  have hcovers := (contains_eq_covers (h.valid hr) a).symm.trans hcontains
  have hloaded : (l.registry.images.record r).loaded ∈ l.loaded := h.listed ▸ List.mem_map_of_mem hr
  -- every other image is apart from the one that goes
  have hothers : ∀ i ∈ l.loaded, ∀ b, i.covers b = true →
      (l.registry.images.record r).loaded.covers b = true →
      i = (l.registry.images.record r).loaded := by
    intro i hi b hib hrb
    by_contra hne
    have hdisj := h.separate.disjoint.forall hi hloaded hne
    rw [hdisj.not_covers hib] at hrb
    cases hrb
  refine ⟨?_, h.nodup.erase r, fun cpu b => ?_,
    ⟨fun i hi => h.separate.valid i (List.mem_of_mem_filter hi), h.separate.disjoint.filter _⟩⟩
  · show (l.registry.images.mImageList.erase r).map _ = _
    rw [erase_eq_filter h.nodup (h.atMostOne a) hr hcontains, ← h.listed, Registry.listed,
      List.filter_map]
    refine congrArg _ (List.filter_congr fun r' hr' => ?_)
    rw [Function.comp_apply, ← contains_eq_covers (h.valid hr')]
  · simp only [List.mem_filter, Bool.not_eq_true']
    rw [cpuUnregisterCodeRange_eq_true, contains_eq_covers (h.valid hr), h.perms]
    constructor
    · rintro ⟨hnot, i, hi, hcpu, hib⟩
      refine ⟨i, ⟨hi, ?_⟩, hcpu, hib⟩
      by_contra hia
      have heq := hothers i hi a (by simpa using hia) hcovers
      rw [heq] at hcpu hib
      exact hnot ⟨hcpu, hib⟩
    · rintro ⟨i, ⟨hi, hia⟩, hcpu, hib⟩
      refine ⟨fun ⟨_, hrb⟩ => ?_, i, hi, hcpu, hib⟩
      rw [hothers i hi b hib hrb, hcovers] at hia
      cases hia

end Agree

/-! ## runs -/

variable {cpuRunImage : UINT64} {l l' : Loader} {call : LoaderCall}

/-- A registration that does not fail in `SetMemoryAttributes` succeeds or changes nothing. -/
theorem imageProtocolRegister_cases (cpuRunImage : UINT64) {imageBase imageSize entryPoint : UINT64}
    {services : RegisterServices}
    (hset : SetsAttributes l (.register imageBase imageSize entryPoint services)) (g : Registry) :
    (∃ status, efiError status = true ∧
        imageProtocolRegister cpuRunImage imageBase imageSize entryPoint services g =
          (status, entryPoint, g)) ∨
      ∃ cpu r contents, services.imageInfo = .ok cpu ∧ services.allocatePool = some (r, contents) ∧
        imageProtocolRegister cpuRunImage imageBase imageSize entryPoint services g =
          (EFI_SUCCESS, cpuRunImage,
            ⟨⟨g.images.mImageList ++ [r], Function.update g.images.record r
              { contents with
                cpu := cpu
                imageBase := imageBase
                imageEntry := entryPoint
                imageSize := imageSize }⟩,
            cpuRegisterCodeRange cpu imageBase imageSize g.perms⟩) := by
  obtain ⟨imageInfo, allocatePool, setMemoryAttributes⟩ := services
  cases imageInfo with
  | error status => exact .inl ⟨status.val, status.property, rfl⟩
  | ok cpu =>
      cases allocatePool with
      | none => exact .inl ⟨EFI_OUT_OF_RESOURCES, by decide, rfl⟩
      | some pool =>
          have hstatus : efiError setMemoryAttributes = false := hset
          refine .inr ⟨cpu, pool.1, pool.2, rfl, rfl, ?_⟩
          simp only [imageProtocolRegister, hstatus, Bool.false_eq_true, if_false]

theorem failsUnchanged_of_setsAttributes (hset : SetsAttributes l call) :
    FailsUnchanged cpuRunImage l call := by
  cases call with
  | unregister imageBase setMemoryAttributes => trivial
  | register imageBase imageSize entryPoint services =>
      intro status entryPoint' g heq herror
      rcases imageProtocolRegister_cases cpuRunImage hset l.registry with
        ⟨status', -, hfails⟩ | ⟨cpu, r, contents, -, -, hsucceeds⟩
      · obtain ⟨-, rfl, rfl⟩ : _ ∧ entryPoint = entryPoint' ∧ l.registry = g := by
          simpa using hfails.symm.trans heq
        exact ⟨rfl, rfl, rfl, rfl⟩
      · have hstatus : EFI_SUCCESS = status := congrArg Prod.fst (hsucceeds.symm.trans heq)
        rw [← hstatus] at herror
        exact absurd herror (by decide)

/-- Every call keeps the driver and the loader in agreement. -/
theorem Agree.step (h : Agree l) (hset : SetsAttributes l call)
    (hstep : loaderStep cpuRunImage l call = some l') : Agree l' := by
  unfold loaderStep at hstep
  split at hstep
  · rename_i hallowed
    cases call with
    | register imageBase imageSize entryPoint services =>
        obtain ⟨hranges, hfresh⟩ := hallowed
        rcases imageProtocolRegister_cases cpuRunImage hset l.registry with
          ⟨status, herror, hfails⟩ | ⟨cpu, r, contents, hinfo, hpool, hsucceeds⟩
        · simp only [hfails, herror, if_true] at hstep
          cases hinfo : services.imageInfo <;>
            simp only [hinfo, Option.some.injEq] at hstep <;> exact hstep ▸ h
        · have hok : efiError EFI_SUCCESS = false := by decide
          simp only [hsucceeds, hinfo, hok, Bool.false_eq_true, if_false,
            Option.some.injEq] at hstep
          obtain ⟨hvalid, hdisj⟩ := hranges cpu (by rw [hinfo]; rfl)
          rw [← hstep]
          exact h.register (hfresh (r, contents) hpool) { contents with
            cpu := cpu, imageBase := imageBase, imageEntry := entryPoint, imageSize := imageSize }
            hvalid hdisj
    | unregister imageBase setMemoryAttributes =>
        simp only [imageProtocolUnregister] at hstep
        cases hfind : imageFindByAddress l.registry.images imageBase with
        | some r =>
            simp only [hfind, Option.some.injEq] at hstep
            exact hstep ▸ h.unregister hfind
        | none =>
            simp only [hfind, Option.some.injEq] at hstep
            have hnone : l.loaded.filter (fun i => !i.covers imageBase) = l.loaded := by
              refine List.filter_eq_self.mpr fun i hi => ?_
              rw [← h.listed] at hi
              obtain ⟨r, hr, rfl⟩ := List.mem_map.mp hi
              rw [← contains_eq_covers (h.valid hr), imageFindByAddress_eq_none_iff.mp hfind r hr]
              rfl
            rw [← hstep, hnone]
            exact h
  · cases hstep

/-- In every run in which no registration fails in `SetMemoryAttributes`, the
registry is exact, and what fails changes nothing. -/
theorem registryExact_of_run (cpuRunImage : UINT64) (contents : RecordId → ImageRecord)
    (calls : List LoaderCall) (l : Loader)
    (h : Run (loaderStep cpuRunImage) SetsAttributes (emptyLoader contents) calls l) :
    RegistryExact l ∧ ∀ call, SetsAttributes l call → FailsUnchanged cpuRunImage l call := by
  have hagree : Agree l :=
    h.invariant (fun _ _ _ hl hset hstep => hl.step hset hstep) (.empty contents)
  exact ⟨hagree.exact, fun _ hset => failsUnchanged_of_setsAttributes hset⟩

/-! ## a registration that fails late -/

/-- Memory that has not held a record yet. -/
def freshRecord : ImageRecord := ⟨0, 0, 0, 0, .x64, none, 0, 0, 0⟩

/-- A loader registers an x64 image; `SetMemoryAttributes` returns `status`. -/
def registerX64 (status : UINT64) : LoaderCall :=
  .register 0x10000 0x2000 0x10400 ⟨.ok .x64, some (0, freshRecord), status⟩

/-- With all services successful, the image is registered until it is unregistered. -/
theorem registryExact_of_run_unregister :
    ∃ l, exec (loaderStep 0x80004000) SetsAttributes (emptyLoader fun _ => freshRecord)
        [registerX64 EFI_SUCCESS, .unregister 0x10000 EFI_SUCCESS] = some l ∧ RegistryExact l := by
  have hexec : (exec (loaderStep 0x80004000) SetsAttributes (emptyLoader fun _ => freshRecord)
      [registerX64 EFI_SUCCESS, .unregister 0x10000 EFI_SUCCESS]).isSome = true := by decide
  obtain ⟨l, hl⟩ := Option.isSome_iff_exists.mp hexec
  exact ⟨l, hl, (registryExact_of_run _ _ _ _ (.of_exec hl)).1⟩

/-- A registration that fails in `SetMemoryAttributes` leaves its record listed. -/
theorem registerX64_stale :
    ∃ l, Run (loaderStep 0x80004000) (fun _ _ => True) (emptyLoader fun _ => freshRecord)
        [registerX64 EFI_UNSUPPORTED] l ∧ ¬ RegistryExact l := by
  have hlengths : (exec (loaderStep 0x80004000) (fun _ _ => True) (emptyLoader fun _ => freshRecord)
      [registerX64 EFI_UNSUPPORTED]).map (fun l => (l.registry.listed.length, l.loaded.length)) =
      some (1, 0) := by decide
  obtain ⟨l, hl, heq⟩ := Option.map_eq_some_iff.mp hlengths
  obtain ⟨hlisted, hloaded⟩ := Prod.mk.inj heq
  refine ⟨l, .of_exec hl, fun h => ?_⟩
  rw [h.listed, hloaded] at hlisted
  cases hlisted

end MultiArchUefi
