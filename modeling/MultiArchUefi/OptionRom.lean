import MultiArchUefi.Lib.Traced
import MultiArchUefi.Lib.Rounding
import MultiArchUefi.Basic

/-!
# MultiArchUefi.OptionRom

The walk over the images of an option ROM.

A ROM is seen through its bytes, from `RomImage` on; what is read behind
`RomSize` is whatever is in memory there.  Pointers are offsets from `RomImage`:
a ROM does not lie at the end of the address space, where a step of at most
32 MiB could wrap around.  The layouts are those of the PCI firmware and UEFI
specifications.
-/

namespace MultiArchUefi

/-! ## the bytes of a ROM -/

/-- The byte at an offset from `RomImage`. -/
abbrev RomBytes := Nat → UINT8

def field8 (rom : RomBytes) (offset : Nat) : Traced Nat UINT8 := ⟨rom offset, [offset]⟩

def field16 (rom : RomBytes) (offset : Nat) : Traced Nat UINT16 :=
  ⟨rom (offset + 1) ++ rom offset, [offset, offset + 1]⟩

def field32 (rom : RomBytes) (offset : Nat) : Traced Nat UINT32 :=
  ⟨rom (offset + 3) ++ rom (offset + 2) ++ rom (offset + 1) ++ rom offset,
    [offset, offset + 1, offset + 2, offset + 3]⟩

/-! ## layouts -/

def PCI_EXPANSION_ROM_HEADER_SIGNATURE : UINT16 := 0xaa55

/-- `SIGNATURE_32 ('P', 'C', 'I', 'R')`. -/
def PCI_DATA_STRUCTURE_SIGNATURE : UINT32 := 0x52494350

def PCI_CODE_TYPE_PCAT_IMAGE : UINT8 := 0
def PCI_CODE_TYPE_EFI_IMAGE : UINT8 := 3

def EFI_IMAGE_MACHINE_AARCH64 : UINT16 := 0xaa64

/-- `sizeof (PCI_DATA_STRUCTURE)`. -/
def sizeofPciDataStructure : Nat := 24

namespace RomHeader

variable (rom : RomBytes) (romHeader : Nat)

/-! `PCI_EXPANSION_ROM_HEADER`, `EFI_LEGACY_EXPANSION_ROM_HEADER` and
`EFI_PCI_EXPANSION_ROM_HEADER`. -/

def signature : Traced Nat UINT16 := field16 rom romHeader
def size512 : Traced Nat UINT8 := field8 rom (romHeader + 0x2)
def initializationSize : Traced Nat UINT16 := field16 rom (romHeader + 0x2)
def efiSubsystem : Traced Nat UINT16 := field16 rom (romHeader + 0x8)
def efiMachineType : Traced Nat UINT16 := field16 rom (romHeader + 0xa)
def compressionType : Traced Nat UINT16 := field16 rom (romHeader + 0xc)
def efiImageHeaderOffset : Traced Nat UINT16 := field16 rom (romHeader + 0x16)
def pcirOffset : Traced Nat UINT16 := field16 rom (romHeader + 0x18)

end RomHeader

namespace Pcir

variable (rom : RomBytes) (pcir : Nat)

/-! `PCI_DATA_STRUCTURE`. -/

def signature : Traced Nat UINT32 := field32 rom pcir
def imageLength : Traced Nat UINT16 := field16 rom (pcir + 0x10)
def codeType : Traced Nat UINT8 := field8 rom (pcir + 0x14)
def indicator : Traced Nat UINT8 := field8 rom (pcir + 0x15)

end Pcir

/-! ## parsing -/

/-- A ROM as `ParseImages` gets it, the machine type of the host, and `mOnlyList`. -/
structure OptionRom where
  rom : RomBytes
  romSize : Nat
  hostMachineType : UINT16
  onlyList : Bool

namespace OptionRom

variable (r : OptionRom)

/-- Is the image supported, and not corrupt? -/
def parseImage (romHeader length pcir : Nat) : Traced Nat Bool := do
  let codeType ← Pcir.codeType r.rom pcir
  if codeType ≠ PCI_CODE_TYPE_EFI_IMAGE then pure false
  else
    let initializationSize ← RomHeader.initializationSize r.rom romHeader
    let efiMachineType ← RomHeader.efiMachineType r.rom romHeader
    if efiMachineType = r.hostMachineType then
      let _ ← RomHeader.efiSubsystem r.rom romHeader
      let efiImageHeaderOffset ← RomHeader.efiImageHeaderOffset r.rom romHeader
      let _ ← RomHeader.compressionType r.rom romHeader
      if length < initializationSize.toNat * 512 ∨
        efiImageHeaderOffset.toNat > initializationSize.toNat * 512 then
        pure false
      else pure true
    else pure false

/-- The image length of an image, in units of 512 bytes. -/
def imageLength (romHeader pcir : Nat) : Traced Nat Nat := do
  let imageLength ← Pcir.imageLength r.rom pcir
  let codeType ← Pcir.codeType r.rom pcir
  if codeType = PCI_CODE_TYPE_PCAT_IMAGE then
    let size512 ← RomHeader.size512 r.rom romHeader
    pure (max imageLength.toNat size512.toNat)
  else pure imageLength.toNat

/-- How an iteration of the loop ends. -/
inductive Iteration where
  /-- The loop is left. -/
  | leave
  /-- `LoadImage` is called, and the function returns. -/
  | load
  /-- The condition of the loop is tested. -/
  | test (romHeader : Nat) (indicator : UINT8)
deriving DecidableEq, Repr

/-- `PcirOffset` is refused. -/
def BadPcirOffset (romHeader : Nat) (pcirOffset : UINT16) : Prop :=
  pcirOffset = 0 ∨ pcirOffset &&& 3 ≠ 0 ∨
    romHeader + pcirOffset.toNat + sizeofPciDataStructure > r.romSize

instance (romHeader : Nat) (pcirOffset : UINT16) :
    Decidable (r.BadPcirOffset romHeader pcirOffset) :=
  inferInstanceAs (Decidable (_ ∨ _))

/-- The body of the loop of `ParseImages`. -/
def iteration (romHeader : Nat) (indicator : UINT8) : Traced Nat Iteration := do
  let signature ← RomHeader.signature r.rom romHeader
  if signature ≠ PCI_EXPANSION_ROM_HEADER_SIGNATURE then
    -- `continue` goes to the condition
    pure (.test (romHeader + 512) indicator)
  else
    let pcirOffset ← RomHeader.pcirOffset r.rom romHeader
    if r.BadPcirOffset romHeader pcirOffset then pure .leave
    else
      let pcir := romHeader + pcirOffset.toNat
      let signature ← Pcir.signature r.rom pcir
      if signature ≠ PCI_DATA_STRUCTURE_SIGNATURE then pure .leave
      else
        let imageLength ← r.imageLength romHeader pcir
        let supported ← r.parseImage romHeader (imageLength * 512) pcir
        if supported ∧ r.onlyList = false then pure .load
        else
          let indicator ← Pcir.indicator r.rom pcir
          pure (.test (romHeader + imageLength * 512) indicator)

/-- The condition of the loop. -/
def Continues (romHeader : Nat) (indicator : UINT8) : Prop :=
  romHeader < r.romSize ∧ indicator &&& 0x80 = 0

instance (romHeader : Nat) (indicator : UINT8) : Decidable (r.Continues romHeader indicator) :=
  inferInstanceAs (Decidable (_ ∧ _))

/-- The loop from a header on, and the header that `LoadImage` is called for;
`none` when it has not ended after `n` iterations. -/
def parseImagesLoop : Nat → Nat → UINT8 → Option (Traced Nat (Option Nat))
  | 0, _, _ => none
  | n + 1, romHeader, indicator =>
      let body := r.iteration romHeader indicator
      match body.value with
      | .leave => some (body >>= fun _ => pure none)
      | .load => some (body >>= fun _ => pure (some romHeader))
      | .test romHeader indicator =>
          if r.Continues romHeader indicator then
            (parseImagesLoop n romHeader indicator).map fun rest => body >>= fun _ => rest
          else some (body >>= fun _ => pure none)

/-- `ParseImages`, when `RomImage` is not `NULL`. -/
def parseImages (n : Nat) : Option (Traced Nat (Option Nat)) := r.parseImagesLoop n 0 0

/-! ## images -/

/-- There is an image at `romHeader`, with its PCI data structure at `pcir`. -/
structure HasImage (romHeader pcir : Nat) : Prop where
  signature : (RomHeader.signature r.rom romHeader).value = PCI_EXPANSION_ROM_HEADER_SIGNATURE
  good : ¬ r.BadPcirOffset romHeader (RomHeader.pcirOffset r.rom romHeader).value
  position : pcir = romHeader + (RomHeader.pcirOffset r.rom romHeader).value.toNat
  pcirSignature : (Pcir.signature r.rom pcir).value = PCI_DATA_STRUCTURE_SIGNATURE

/-- The image is loaded, and not only listed. -/
def Loads (romHeader pcir : Nat) : Prop :=
  (r.parseImage romHeader ((r.imageLength romHeader pcir).value * 512) pcir).value = true ∧
    r.onlyList = false

instance (romHeader pcir : Nat) : Decidable (r.Loads romHeader pcir) :=
  inferInstanceAs (Decidable (_ ∧ _))

variable {r} {romHeader pcir : Nat} {indicator : UINT8}

theorem iteration_of_signature
    (h : (RomHeader.signature r.rom romHeader).value ≠ PCI_EXPANSION_ROM_HEADER_SIGNATURE)
    (indicator : UINT8) :
    (r.iteration romHeader indicator).value = .test (romHeader + 512) indicator := by
  simp only [iteration, Traced.value_bind]
  rw [if_pos h]
  rfl

theorem iteration_of_hasImage (h : r.HasImage romHeader pcir) (indicator : UINT8) :
    (r.iteration romHeader indicator).value =
      if r.Loads romHeader pcir then .load
      else .test (romHeader + (r.imageLength romHeader pcir).value * 512)
        (Pcir.indicator r.rom pcir).value := by
  obtain ⟨hsignature, hgood, rfl, hpcir⟩ := h
  simp only [iteration, Traced.value_bind]
  rw [if_neg (not_not.mpr hsignature), Traced.value_bind, if_neg hgood, Traced.value_bind,
    if_neg (not_not.mpr hpcir)]
  exact apply_ite Traced.value _ _ _

/-- The three ways through the body of the loop. -/
theorem iteration_cases (r : OptionRom) (romHeader : Nat) (indicator : UINT8) :
    (r.iteration romHeader indicator).value = .test (romHeader + 512) indicator ∨
      (r.iteration romHeader indicator).value = .leave ∨ ∃ pcir, r.HasImage romHeader pcir := by
  by_cases hsignature :
    (RomHeader.signature r.rom romHeader).value = PCI_EXPANSION_ROM_HEADER_SIGNATURE
  · right
    by_cases hbad : r.BadPcirOffset romHeader (RomHeader.pcirOffset r.rom romHeader).value
    · left
      simp only [iteration, Traced.value_bind]
      rw [if_neg (not_not.mpr hsignature), Traced.value_bind, if_pos hbad]
      rfl
    · let pcir := romHeader + (RomHeader.pcirOffset r.rom romHeader).value.toNat
      by_cases hpcir : (Pcir.signature r.rom pcir).value = PCI_DATA_STRUCTURE_SIGNATURE
      · exact .inr ⟨pcir, hsignature, hbad, rfl, hpcir⟩
      · left
        simp only [iteration, Traced.value_bind]
        rw [if_neg (not_not.mpr hsignature), Traced.value_bind, if_neg hbad,
          Traced.value_bind, if_pos hpcir]
        rfl
  · exact .inl (iteration_of_signature hsignature indicator)

/-! ## the walk ends -/

/-- The headers that the loop comes to, with the last indicator. -/
inductive Reached (r : OptionRom) : Nat → UINT8 → Prop
  | start : Reached r 0 0
  | next {romHeader romHeader' : Nat} {indicator indicator' : UINT8}
      (h : Reached r romHeader indicator)
      (hbody : (r.iteration romHeader indicator).value = .test romHeader' indicator')
      (hcontinues : r.Continues romHeader' indicator') : Reached r romHeader' indicator'

/-- The iteration leaves the loop, or moves strictly forward. -/
def MovesOn (r : OptionRom) (romHeader : Nat) (indicator : UINT8) : Prop :=
  ∀ romHeader' indicator', (r.iteration romHeader indicator).value = .test romHeader' indicator' →
    r.Continues romHeader' indicator' → romHeader < romHeader'

/-- The walk ends, since every iteration moves on. -/
structure WalkEnds (r : OptionRom) : Prop where
  ends : ∃ n, (r.parseImages n).isSome = true
  movesOn : ∀ romHeader indicator, r.Reached romHeader indicator → r.MovesOn romHeader indicator

/-- The image at `romHeader` has no length, and is neither the last one nor loaded. -/
def Stalls (r : OptionRom) (romHeader : Nat) : Prop :=
  ∃ pcir, r.HasImage romHeader pcir ∧ (r.imageLength romHeader pcir).value = 0 ∧
    (Pcir.indicator r.rom pcir).value &&& 0x80 = 0 ∧ ¬ r.Loads romHeader pcir

theorem Reached.lt (h : r.Reached romHeader indicator) (hsize : 0 < r.romSize) :
    romHeader < r.romSize := by
  cases h with
  | start => exact hsize
  | next _ _ hcontinues => exact hcontinues.1

/-- An iteration moves on, unless it is at an image that stalls. -/
theorem movesOn_iff (hlt : romHeader < r.romSize) (indicator : UINT8) :
    r.MovesOn romHeader indicator ↔ ¬ r.Stalls romHeader := by
  constructor
  · rintro hmoves ⟨pcir, himage, hlength, hindicator, hloads⟩
    have hbody := iteration_of_hasImage himage indicator
    rw [if_neg hloads, hlength] at hbody
    have hforward := hmoves _ _ hbody ⟨by omega, hindicator⟩
    omega
  · intro hstalls romHeader' indicator' hbody hcontinues
    rcases iteration_cases r romHeader indicator with htest | hleave | ⟨pcir, himage⟩
    · obtain ⟨rfl, -⟩ := Iteration.test.inj (htest.symm.trans hbody)
      omega
    · rw [hleave] at hbody
      cases hbody
    · rw [iteration_of_hasImage himage] at hbody
      split at hbody
      · cases hbody
      · rename_i hloads
        obtain ⟨rfl, rfl⟩ := Iteration.test.inj hbody
        have hlength : (r.imageLength romHeader pcir).value ≠ 0 := fun hzero =>
          hstalls ⟨pcir, himage, hzero, hcontinues.2, hloads⟩
        omega

/-- As long as the iterations move on, the rest of the ROM bounds their number. -/
theorem parseImagesLoop_ends (hmoves : ∀ h i, r.Reached h i → r.MovesOn h i)
    (h : r.Reached romHeader indicator) :
    ∃ n, (r.parseImagesLoop n romHeader indicator).isSome = true := by
  induction hrest : r.romSize -
    romHeader using Nat.strong_induction_on generalizing romHeader indicator with
  | _ rest ih =>
      cases hbody : (r.iteration romHeader indicator).value with
      | leave => exact ⟨1, by simp [parseImagesLoop, hbody]⟩
      | load => exact ⟨1, by simp [parseImagesLoop, hbody]⟩
      | test romHeader' indicator' =>
          by_cases hcontinues : r.Continues romHeader' indicator'
          · have hforward := hmoves _ _ h _ _ hbody hcontinues
            have hlt := hcontinues.1
            obtain ⟨n, hn⟩ := ih (r.romSize - romHeader') (by omega) (.next h hbody hcontinues) rfl
            exact ⟨n + 1, by simp [parseImagesLoop, hbody, hcontinues, hn]⟩
          · exact ⟨1, by simp [parseImagesLoop, hbody, hcontinues]⟩

/-- At an image that stalls the loop stays for ever. -/
theorem parseImagesLoop_of_stalls (hlt : romHeader < r.romSize)
    (hstalls : r.Stalls romHeader) (n : Nat) (indicator : UINT8) :
    r.parseImagesLoop n romHeader indicator = none := by
  obtain ⟨pcir, himage, hlength, hindicator, hloads⟩ := hstalls
  induction n generalizing indicator with
  | zero => rfl
  | succ n ih =>
      have hbody := iteration_of_hasImage himage indicator
      rw [if_neg hloads, hlength, Nat.zero_mul, Nat.add_zero] at hbody
      have hcontinues : r.Continues romHeader (Pcir.indicator r.rom pcir).value := ⟨hlt, hindicator⟩
      simp only [parseImagesLoop, hbody, if_pos hcontinues, ih, Option.map_none]

/-- The walk over the images ends exactly when no image that it comes to stalls. -/
theorem walkEnds_iff (r : OptionRom) (hsize : 0 < r.romSize) :
    r.WalkEnds ↔ ∀ romHeader indicator, r.Reached romHeader indicator → ¬ r.Stalls romHeader := by
  constructor
  · intro h romHeader indicator hreached
    exact (movesOn_iff (hreached.lt hsize) indicator).mp (h.movesOn _ _ hreached)
  · intro h
    have hmoves : ∀ romHeader indicator, r.Reached romHeader indicator →
        r.MovesOn romHeader indicator :=
      fun _ _ hreached => (movesOn_iff (hreached.lt hsize) _).mpr (h _ _ hreached)
    exact ⟨parseImagesLoop_ends hmoves .start, hmoves⟩

/-- A ROM with two images of 512 bytes, for PC-AT, of which the second is the last one. -/
def legacyRom : OptionRom where
  rom offset :=
    if offset = 0x231 then 0x80
    else match offset % 512 with
      | 0x00 => 0x55 | 0x01 => 0xaa | 0x02 => 1 | 0x18 => 0x1c
      | 0x1c => 0x50 | 0x1d => 0x43 | 0x1e => 0x49 | 0x1f => 0x52
      | 0x2c => 1
      | _ => 0
  romSize := 1024
  hostMachineType := EFI_IMAGE_MACHINE_AARCH64
  onlyList := false

theorem walkEnds_iff_legacyRom :
    legacyRom.HasImage 0 0x1c ∧ legacyRom.HasImage 512 0x21c ∧ legacyRom.Reached 512 0 ∧
      legacyRom.WalkEnds := by
  have hfirst : (legacyRom.iteration 0 0).value = .test 512 0 := by decide
  have hlast (indicator : UINT8) :
      (legacyRom.iteration 512 indicator).value = .test 1024 0x80 := rfl
  have hreached : ∀ romHeader indicator, legacyRom.Reached romHeader indicator →
      romHeader = 0 ∧ indicator = 0 ∨ romHeader = 512 := by
    intro romHeader indicator h
    induction h with
    | start => exact .inl ⟨rfl, rfl⟩
    | next _ hbody hcontinues ih =>
        rcases ih with ⟨rfl, rfl⟩ | rfl
        · obtain ⟨rfl, -⟩ := Iteration.test.inj (hfirst.symm.trans hbody)
          exact .inr rfl
        · obtain ⟨rfl, -⟩ := Iteration.test.inj ((hlast _).symm.trans hbody)
          exact absurd hcontinues.1 (by decide)
  refine ⟨⟨by decide, by decide, by decide, by decide⟩,
    ⟨by decide, by decide, by decide, by decide⟩, .next .start hfirst (by decide),
    (walkEnds_iff legacyRom (by decide)).mpr fun romHeader indicator h => ?_⟩
  -- both images have a length
  have hlength : (legacyRom.imageLength 0 0x1c).value = 1 ∧
      (legacyRom.imageLength 512 0x21c).value = 1 := by decide
  rintro ⟨pcir, himage, hzero, -⟩
  rcases hreached romHeader indicator h with ⟨rfl, -⟩ | rfl
  · obtain rfl : pcir = 0x1c := himage.position
    rw [hlength.1] at hzero
    cases hzero
  · obtain rfl : pcir = 0x21c := himage.position
    rw [hlength.2] at hzero
    cases hzero

/-- A ROM with one image, of another code type and of length 0, which is not the last one. -/
def emptyImageRom : OptionRom where
  rom
    | 0x00 => 0x55 | 0x01 => 0xaa | 0x18 => 0x1c
    | 0x1c => 0x50 | 0x1d => 0x43 | 0x1e => 0x49 | 0x1f => 0x52
    | 0x30 => 1
    | _ => 0
  romSize := 512
  hostMachineType := EFI_IMAGE_MACHINE_AARCH64
  onlyList := false

/-- The walk over this ROM never ends. -/
theorem emptyImageRom_walk : 0 < emptyImageRom.romSize ∧ ¬ emptyImageRom.WalkEnds := by
  have hstalls : emptyImageRom.Stalls 0 :=
    ⟨0x1c, ⟨by decide, by decide, by decide, by decide⟩, by decide, by decide, by decide⟩
  refine ⟨by decide, fun h => ?_⟩
  obtain ⟨n, hn⟩ := h.ends
  rw [parseImages, parseImagesLoop_of_stalls (by decide) hstalls] at hn
  cases hn

/-! ## the image that is loaded -/

/-- What `LoadImage` makes of the header of an image. -/
structure ImageGeometry where
  image : Nat
  imageSize : UINT64
  startingOffset : UINT64
  endingOffset : UINT64
  compressed : Bool
deriving DecidableEq, Repr

/-- The first lines of `LoadImage`. -/
def imageGeometry (r : OptionRom) (romHeader : Nat) : Traced Nat ImageGeometry := do
  let efiImageHeaderOffset ← RomHeader.efiImageHeaderOffset r.rom romHeader
  let initializationSize ← RomHeader.initializationSize r.rom romHeader
  let compressionType ← RomHeader.compressionType r.rom romHeader
  let initializationSize : UINT64 := initializationSize.setWidth 64 * 512
  pure {
    image := romHeader + efiImageHeaderOffset.toNat
    imageSize := initializationSize - efiImageHeaderOffset.setWidth 64
    startingOffset := efiImageHeaderOffset.setWidth 64
    endingOffset := initializationSize - 1
    compressed := compressionType ≠ 0 }

/-- The image at `romHeader` is a range of the ROM that is not empty, its sizes
do not underflow, and what has been read lies in the ROM too. -/
structure ImageInside (r : OptionRom) (romHeader : Nat) (accesses : List Nat) : Prop where
  nonempty : 0 < (r.imageGeometry romHeader).value.imageSize
  inside : (r.imageGeometry romHeader).value.image +
    (r.imageGeometry romHeader).value.imageSize.toNat ≤ r.romSize
  imageSize : ((r.imageGeometry romHeader).value.imageSize.toNat : Int) =
    (RomHeader.initializationSize r.rom romHeader).value.toNat * 512 -
      (RomHeader.efiImageHeaderOffset r.rom romHeader).value.toNat
  endingOffset : ((r.imageGeometry romHeader).value.endingOffset.toNat : Int) =
    (RomHeader.initializationSize r.rom romHeader).value.toNat * 512 - 1
  ordered : (r.imageGeometry romHeader).value.startingOffset ≤
    (r.imageGeometry romHeader).value.endingOffset
  read : ∀ offset ∈ accesses ++ (r.imageGeometry romHeader).trace, offset < r.romSize

section

variable {offset size : Nat} (rom : RomBytes)

theorem within_field8 (h : offset < size) : (field8 rom offset).Within (· < size) := by
  simp [field8, Traced.Within, h]

theorem within_field16 (h : offset + 1 < size) : (field16 rom offset).Within (· < size) := by
  simp only [field16, Traced.Within, List.mem_cons, List.not_mem_nil, or_false]
  omega

theorem within_field32 (h : offset + 3 < size) : (field32 rom offset).Within (· < size) := by
  simp only [field32, Traced.Within, List.mem_cons, List.not_mem_nil, or_false]
  omega

end

/-- A PCI data structure that is not refused lies in the ROM, behind the first 28 bytes of the
header. -/
theorem room_of_not_badPcirOffset {pcirOffset : UINT16}
    (h : ¬ r.BadPcirOffset romHeader pcirOffset) :
    4 ≤ pcirOffset.toNat ∧ romHeader + pcirOffset.toNat + 24 ≤ r.romSize := by
  obtain ⟨hzero, halign, hroom⟩ : pcirOffset ≠ 0 ∧ pcirOffset &&& 3 = 0 ∧
      romHeader + pcirOffset.toNat + sizeofPciDataStructure ≤ r.romSize := by
    simpa only [BadPcirOffset, not_or, not_not, Nat.not_lt, gt_iff_lt, ne_eq] using h
  have hmod : (pcirOffset &&& (4 - 1)).toNat = pcirOffset.toNat % 2 ^ 2 :=
    Rounding.toNat_and_sub_one (show (4 : UINT16).toNat = 2 ^ 2 by decide) pcirOffset
  have hrem : pcirOffset.toNat % 4 = 0 := by
    rw [show (4 - 1 : UINT16) = 3 by decide, halign] at hmod
    exact hmod.symm
  have hne : pcirOffset.toNat ≠ 0 := fun h => hzero (BitVec.eq_of_toNat_eq h)
  exact ⟨by omega, hroom⟩

theorem HasImage.room (h : r.HasImage romHeader pcir) :
    romHeader + 28 ≤ r.romSize ∧ pcir + 24 ≤ r.romSize := by
  have hroom := room_of_not_badPcirOffset h.good
  rw [h.position]
  omega

/-- What is loaded is accepted by `ParseImage`. -/
theorem Loads.accepted (h : r.Loads romHeader pcir) :
    (RomHeader.efiImageHeaderOffset r.rom romHeader).value.toNat ≤
      (RomHeader.initializationSize r.rom romHeader).value.toNat * 512 := by
  obtain ⟨hparse, -⟩ := h
  simp only [parseImage, Traced.value_bind] at hparse
  split at hparse
  · cases hparse
  · simp only [Traced.value_bind] at hparse
    split at hparse
    · simp only [Traced.value_bind] at hparse
      split at hparse
      · cases hparse
      · omega
    · cases hparse

/-- The fields that `ParseImage` reads. -/
theorem within_parseImage {size : Nat} (hheader : romHeader + 24 ≤ size) (hpcir : pcir + 24 ≤ size)
    (length : Nat) :
    (r.parseImage romHeader length pcir).Within (· < size) := by
  refine .bind (within_field8 _ (by omega)) (.ite (fun _ => .pure _) fun _ => ?_)
  refine .bind (within_field16 _ (by omega))
    (.bind (within_field16 _ (by omega)) (.ite (fun _ => ?_) fun _ => .pure _))
  refine .bind (within_field16 _ (by omega)) (.bind (within_field16 _ (by omega)) ?_)
  exact .bind (within_field16 _ (by omega)) (.ite (fun _ => .pure _) fun _ => .pure _)

theorem within_imageLength {size : Nat} (hheader : romHeader + 24 ≤ size)
    (hpcir : pcir + 24 ≤ size) :
    (r.imageLength romHeader pcir).Within (· < size) := by
  refine .bind (within_field16 _ (by omega))
    (.bind (within_field8 _ (by omega)) (.ite (fun _ => ?_) fun _ => .pure _))
  exact .bind (within_field8 _ (by omega)) (.pure _)

/-- An iteration reads the ROM only, when the first 28 bytes of the header are in it. -/
theorem within_iteration (hroom : romHeader + 28 ≤ r.romSize) (indicator : UINT8) :
    (r.iteration romHeader indicator).Within (· < r.romSize) := by
  refine .bind (within_field16 _ (by omega)) (.ite (fun _ => .pure _) fun _ => ?_)
  refine .bind (within_field16 _ (by omega)) (.ite (fun _ => .pure _) fun hgood => ?_)
  have hpcir := (room_of_not_badPcirOffset hgood).2
  refine .bind (within_field32 _ (by omega)) (.ite (fun _ => .pure _) fun _ => ?_)
  refine .bind (within_imageLength (by omega) hpcir)
    (.bind (within_parseImage (by omega) hpcir _) ?_)
  exact .ite (fun _ => .pure _) fun _ => .bind (within_field8 _ (by omega)) (.pure _)

/-- The walk never goes back. -/
theorem le_of_test {romHeader' : Nat} {indicator' : UINT8}
    (h : (r.iteration romHeader indicator).value = .test romHeader' indicator') :
    romHeader ≤ romHeader' := by
  rcases iteration_cases r romHeader indicator with htest | hleave | ⟨pcir, himage⟩
  · obtain ⟨rfl, -⟩ := Iteration.test.inj (htest.symm.trans h)
    omega
  · rw [hleave] at h
    cases h
  · rw [iteration_of_hasImage himage] at h
    split at h
    · cases h
    · obtain ⟨rfl, -⟩ := Iteration.test.inj h
      omega

/-- `LoadImage` is called for an image that is to be loaded. -/
theorem loads_of_load (h : (r.iteration romHeader indicator).value = .load) :
    ∃ pcir, r.HasImage romHeader pcir ∧ r.Loads romHeader pcir := by
  rcases iteration_cases r romHeader indicator with htest | hleave | ⟨pcir, himage⟩
  · rw [htest] at h
    cases h
  · rw [hleave] at h
    cases h
  · refine ⟨pcir, himage, ?_⟩
    rw [iteration_of_hasImage himage] at h
    split at h
    · assumption
    · cases h

/-- What the loop has read when it comes to the image that is loaded. -/
theorem loaded_of_loop {n header : Nat} {x : Traced Nat (Option Nat)}
    (h : r.parseImagesLoop n romHeader indicator = some x) (hload : x.value = some header) :
    (∃ pcir, r.HasImage header pcir ∧ r.Loads header pcir) ∧ romHeader ≤ header ∧
      x.Within (· < r.romSize) := by
  induction n generalizing romHeader indicator x with
  | zero => cases h
  | succ n ih =>
      cases hbody : (r.iteration romHeader indicator).value with
      | leave =>
          simp only [parseImagesLoop, hbody, Option.some.injEq] at h
          subst h
          cases hload
      | load =>
          simp only [parseImagesLoop, hbody, Option.some.injEq] at h
          subst h
          obtain rfl : romHeader = header := Option.some.inj hload
          obtain ⟨pcir, himage, hloads⟩ := loads_of_load hbody
          exact ⟨⟨pcir, himage, hloads⟩, le_rfl, .bind (within_iteration himage.room.1 _) (.pure _)⟩
      | test romHeader' indicator' =>
          simp only [parseImagesLoop, hbody] at h
          split at h
          · obtain ⟨rest, hrest, rfl⟩ := Option.map_eq_some_iff.mp h
            obtain ⟨⟨pcir, himage, hloads⟩, hle, hwithin⟩ := ih hrest hload
            have hforward := le_of_test hbody
            have hroom := himage.room.1
            exact ⟨⟨pcir, himage, hloads⟩, hforward.trans hle,
              .bind (within_iteration (by omega) _) hwithin⟩
          · obtain rfl := Option.some.inj h
            cases hload

section

variable (r) (romHeader)

theorem toNat_initializationSize (size : UINT16) :
    (size.setWidth 64 * 512 : UINT64).toNat = size.toNat * 512 := by
  have hsize := size.isLt
  rw [BitVec.toNat_mul, BitVec.toNat_setWidth, show (512 : UINT64).toNat = 512 by decide]
  omega

theorem toNat_imageSize (h : (RomHeader.efiImageHeaderOffset r.rom romHeader).value.toNat ≤
      (RomHeader.initializationSize r.rom romHeader).value.toNat * 512) :
    (r.imageGeometry romHeader).value.imageSize.toNat =
      (RomHeader.initializationSize r.rom romHeader).value.toNat * 512 -
        (RomHeader.efiImageHeaderOffset r.rom romHeader).value.toNat := by
  have hoffset : ((RomHeader.efiImageHeaderOffset r.rom romHeader).value.setWidth 64 :
    UINT64).toNat =
      (RomHeader.efiImageHeaderOffset r.rom romHeader).value.toNat :=
    BitVec.toNat_setWidth_of_le (by decide)
  have hsize := toNat_initializationSize (RomHeader.initializationSize r.rom romHeader).value
  show (BitVec.setWidth 64 _ * 512 - BitVec.setWidth 64 _ : UINT64).toNat = _
  rw [BitVec.toNat_sub_of_le (by rw [BitVec.le_def, hsize, hoffset]; exact h), hsize, hoffset]

theorem toNat_endingOffset (h : 0 < (RomHeader.initializationSize r.rom romHeader).value.toNat) :
    (r.imageGeometry romHeader).value.endingOffset.toNat =
      (RomHeader.initializationSize r.rom romHeader).value.toNat * 512 - 1 := by
  have hsize := toNat_initializationSize (RomHeader.initializationSize r.rom romHeader).value
  show (BitVec.setWidth 64 _ * 512 - 1 : UINT64).toNat = _
  rw [BitVec.toNat_sub_of_le (by rw [BitVec.le_def, hsize]; show 1 ≤ _; omega), hsize]
  rfl

theorem toNat_startingOffset :
    (r.imageGeometry romHeader).value.startingOffset.toNat =
      (RomHeader.efiImageHeaderOffset r.rom romHeader).value.toNat :=
  BitVec.toNat_setWidth_of_le (by decide)

end

/-- The image that is loaded lies in the ROM exactly when its header offset is not its
initialization size, and when that many units of 512 bytes are left in the ROM. -/
theorem imageInside_iff (r : OptionRom) {n header : Nat} {accesses : List Nat}
    (h : r.parseImages n = some ⟨some header, accesses⟩) :
    r.ImageInside header accesses ↔
      (RomHeader.efiImageHeaderOffset r.rom header).value.toNat ≠
          (RomHeader.initializationSize r.rom header).value.toNat * 512 ∧
        header + (RomHeader.initializationSize r.rom header).value.toNat * 512 ≤ r.romSize := by
  obtain ⟨⟨pcir, himage, hloads⟩, -, hwithin⟩ := loaded_of_loop h rfl
  have haccepted := hloads.accepted
  have hsize := toNat_imageSize r header haccepted
  constructor
  · intro hinside
    have hnonempty := BitVec.lt_def.mp hinside.nonempty
    have hend : header + (RomHeader.efiImageHeaderOffset r.rom header).value.toNat + _ ≤
        r.romSize := hinside.inside
    rw [hsize] at hnonempty hend
    change 0 < _ at hnonempty
    omega
  · rintro ⟨hne, hend⟩
    have hending := toNat_endingOffset r header (by omega)
    refine ⟨?_, ?_, ?_, ?_, ?_, ?_⟩
    · rw [BitVec.lt_def, hsize]
      show 0 < _
      omega
    · show header + (RomHeader.efiImageHeaderOffset r.rom header).value.toNat + _ ≤ r.romSize
      rw [hsize]
      omega
    · rw [hsize]
      omega
    · rw [hending]
      omega
    · rw [BitVec.le_def, hending, toNat_startingOffset]
      omega
    · intro offset hoffset
      rcases List.mem_append.mp hoffset with hoffset | hoffset
      · exact hwithin offset hoffset
      · have hroom := himage.room.1
        have hgeometry : (r.imageGeometry header).Within (· < r.romSize) :=
          .bind (within_field16 _ (by omega)) (.bind (within_field16 _ (by omega))
            (.bind (within_field16 _ (by omega)) (.pure _)))
        exact hgeometry offset hoffset

/-- A ROM of this size with one image, of 16 times 512 bytes. -/
def efiRom (romSize : Nat) : OptionRom where
  rom
    | 0x00 =>
        0x55 | 0x01 => 0xaa | 0x02 => 0x10 | 0x0a => 0x64 | 0x0b => 0xaa | 0x16 =>
          0x40 | 0x18 => 0x1c
    | 0x1c => 0x50 | 0x1d => 0x43 | 0x1e => 0x49 | 0x1f => 0x52
    | 0x2c => 0x10 | 0x30 => 0x03 | 0x31 => 0x80
    | _ => 0
  romSize := romSize
  hostMachineType := EFI_IMAGE_MACHINE_AARCH64
  onlyList := false

theorem imageInside_iff_efiRom :
    ∃ accesses, (efiRom 0x2000).parseImages 1 = some ⟨some 0, accesses⟩ ∧
      (efiRom 0x2000).ImageInside 0 accesses :=
  ⟨_, rfl, (imageInside_iff (efiRom 0x2000) (show (efiRom 0x2000).parseImages 1 = _ from rfl)).mpr
    ⟨by decide, by decide⟩⟩

/-- Only the first 512 bytes of the image are in this ROM, and it is loaded all the same. -/
theorem truncatedRom_loaded :
    ∃ accesses, (efiRom 512).parseImages 1 = some ⟨some 0, accesses⟩ ∧
      ¬ (efiRom 512).ImageInside 0 accesses :=
  ⟨_, rfl, fun h => absurd h.inside (by decide)⟩

end OptionRom

end MultiArchUefi
