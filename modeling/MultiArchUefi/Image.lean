import MultiArchUefi.Basic

/-!
# MultiArchUefi.Image

The registered images: the records of `mImageList`, the two searches over
them, and the execute permissions the engines are given for their ranges.
-/

namespace MultiArchUefi

/-- Address of an `ImageRecord`. -/
abbrev RecordId := Nat

/-- An `ImageRecord` without its list link.  `imageExitJumpBuffer` is the native
frame `SetJump` was called in. -/
structure ImageRecord where
  imageBase : UINT64
  imageEntry : UINT64
  imageSize : UINT64
  imageHandle : UINT64
  cpu : CpuId
  imageExitJumpBuffer : Option Nat
  imageExitStatus : UINT64
  imageExitDataSize : UINT64
  imageExitData : UINT64

/-- `mImageList` and the records it links. -/
structure Images where
  mImageList : List RecordId
  record : RecordId → ImageRecord

/-- The range test of `ImageFindByAddress`; the sum wraps around like the source's. -/
def ImageRecord.contains (r : ImageRecord) (address : UINT64) : Bool :=
  decide (address ≥ r.imageBase) && decide (address < r.imageBase + r.imageSize)

def imageFindByAddress (images : Images) (address : UINT64) : Option RecordId :=
  images.mImageList.find? fun r => (images.record r).contains address

def imageFindByHandle (images : Images) (handle : UINT64) : Option RecordId :=
  images.mImageList.find? fun r => handle == (images.record r).imageHandle

/-- `ImageFindByAddress` fails when no image contains the address. -/
theorem imageFindByAddress_eq_none_iff {images : Images} {address : UINT64} :
    imageFindByAddress images address = none ↔
      ∀ r ∈ images.mImageList, (images.record r).contains address = false := by
  simp [imageFindByAddress]

/-- What `ImageFindByAddress` finds contains the address. -/
theorem imageFindByAddress_eq_some {images : Images} {address : UINT64} {r : RecordId}
    (h : imageFindByAddress images address = some r) :
    r ∈ images.mImageList ∧ (images.record r).contains address = true :=
  ⟨List.mem_of_find?_eq_some h,
    List.find?_some (p := fun r => (images.record r).contains address) h⟩

/-- What `ImageFindByHandle` finds has the handle. -/
theorem imageFindByHandle_eq_some {images : Images} {handle : UINT64} {r : RecordId}
    (h : imageFindByHandle images handle = some r) :
    r ∈ images.mImageList ∧ (images.record r).imageHandle = handle := by
  refine ⟨List.mem_of_find?_eq_some h, ?_⟩
  have hp := List.find?_some (p := fun r => handle == (images.record r).imageHandle) h
  exact (beq_iff_eq.mp hp).symm

/-! ## execute permissions -/

/-- Which addresses each engine may execute (`UC_PROT_EXEC`). -/
abbrev CodePerms := CpuId → UINT64 → Bool

/-- `CpuInitEx` maps all memory without execute permission. -/
def initialCodePerms : CodePerms := fun _ _ => false

/-- Is `address` in the range of `imageSize` bytes from `imageBase`? -/
def inCodeRange (imageBase imageSize address : UINT64) : Bool :=
  decide (address ≥ imageBase) && decide (address < imageBase + imageSize)

def cpuRegisterCodeRange (cpu : CpuId) (imageBase imageSize : UINT64) (perms : CodePerms) :
    CodePerms :=
  Function.update perms cpu fun a => if inCodeRange imageBase imageSize a then true else perms cpu a

def cpuUnregisterCodeRange (cpu : CpuId) (imageBase imageSize : UINT64) (perms : CodePerms) :
    CodePerms :=
  Function.update perms cpu fun a => if inCodeRange imageBase imageSize a then false
    else perms cpu a

/-- The permissions after every listed image has registered its range. -/
def codePerms (images : Images) : CodePerms :=
  images.mImageList.foldl (fun perms r =>
    cpuRegisterCodeRange (images.record r).cpu (images.record r).imageBase
      (images.record r).imageSize perms) initialCodePerms

/-- Registering an image lets its engine, and no other, execute its pages. -/
theorem cpuRegisterCodeRange_eq_true {r : ImageRecord} {perms : CodePerms} {cpu : CpuId}
    {a : UINT64} :
    cpuRegisterCodeRange r.cpu r.imageBase r.imageSize perms cpu a = true ↔
      (r.cpu = cpu ∧ r.contains a = true) ∨ perms cpu a = true := by
  by_cases hcpu : cpu = r.cpu
  · subst hcpu
    cases h : inCodeRange r.imageBase r.imageSize a <;>
      simp_all [cpuRegisterCodeRange, ImageRecord.contains, inCodeRange]
  · simp [cpuRegisterCodeRange, Function.update_of_ne hcpu, Ne.symm hcpu]

/-- Unregistering an image takes that back. -/
theorem cpuUnregisterCodeRange_eq_true {r : ImageRecord} {perms : CodePerms} {cpu : CpuId}
    {a : UINT64} :
    cpuUnregisterCodeRange r.cpu r.imageBase r.imageSize perms cpu a = true ↔
      ¬ (r.cpu = cpu ∧ r.contains a = true) ∧ perms cpu a = true := by
  by_cases hcpu : cpu = r.cpu
  · subst hcpu
    have hrange : inCodeRange r.imageBase r.imageSize a = r.contains a := rfl
    cases h : r.contains a <;> simp [cpuUnregisterCodeRange, hrange, h]
  · simp [cpuUnregisterCodeRange, Function.update_of_ne hcpu, Ne.symm hcpu]

/-- An engine may execute exactly the ranges of its own listed images. -/
theorem codePerms_eq_true_iff {images : Images} {cpu : CpuId} {a : UINT64} :
    codePerms images cpu a = true ↔
      ∃ r ∈ images.mImageList, (images.record r).cpu = cpu ∧
      (images.record r).contains a = true := by
  suffices h : ∀ (l : List RecordId) (perms : CodePerms),
      l.foldl (fun perms r => cpuRegisterCodeRange (images.record r).cpu
        (images.record r).imageBase (images.record r).imageSize perms) perms cpu a = true ↔
      (∃ r ∈ l, (images.record r).cpu = cpu ∧ (images.record r).contains a = true) ∨
        perms cpu a = true by
    simpa [codePerms, initialCodePerms] using h images.mImageList initialCodePerms
  intro l
  induction l with
  | nil => simp
  | cons r l ih =>
      intro perms
      rw [List.foldl_cons, ih, cpuRegisterCodeRange_eq_true]
      simp only [List.mem_cons, exists_eq_or_imp]
      rw [or_assoc]
      exact or_left_comm

end MultiArchUefi
