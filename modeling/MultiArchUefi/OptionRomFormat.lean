import MultiArchUefi.OptionRom
import MultiArchUefi.Lib.Layout

/-!
# MultiArchUefi.OptionRomFormat

Option ROMs as they are made: images one after the other, each a header, a PCI data
structure and the rest, with filler blocks between them.

A `RomLayout` is well formed by construction.  `parseImages_bytes` walks over the
bytes of one: `ParseImages` finds the first image that is for the host, and `LoadImage`
hands out exactly the bytes that were put there.
-/

namespace MultiArchUefi

namespace OptionRom

open Layout

/-! ## images -/

/-- An image of any code type.  `gap` lies between the header and the PCI data
structure, `ids` are the fields `VendorId` to `ClassCode`, and `indicator` is without
the bit that marks the last image. -/
structure RomImage where
  initializationSize : UINT16
  efiSignature : UINT32
  efiSubsystem : UINT16
  efiMachineType : UINT16
  compressionType : UINT16
  reserved : List UINT8
  efiImageHeaderOffset : UINT16
  gap : List UINT8
  ids : List UINT8
  imageLength : UINT16
  codeRevision : UINT16
  codeType : UINT8
  indicator : UINT8
  reserved1 : UINT16
  body : List UINT8
  length_reserved : reserved.length = 8
  length_ids : ids.length = 12
  aligned : (26 + gap.length) % 4 = 0
  pcir_lt : 26 + gap.length < 2 ^ 16
  size : 50 + gap.length + body.length = imageLength.toNat * 512
  notLast : indicator &&& 0x80 = 0
  size512 : codeType = PCI_CODE_TYPE_PCAT_IMAGE →
    (initializationSize.extractLsb' 0 8).toNat ≤ imageLength.toNat

namespace RomImage

/-- `PcirOffset` -/
def pcirOffset (i : RomImage) : Nat := 26 + i.gap.length

def header (i : RomImage) : List UINT8 :=
  bytes16 PCI_EXPANSION_ROM_HEADER_SIGNATURE ++ bytes16 i.initializationSize ++
    bytes32 i.efiSignature ++
    bytes16 i.efiSubsystem ++ bytes16 i.efiMachineType ++ bytes16 i.compressionType ++ i.reserved ++
    bytes16 i.efiImageHeaderOffset ++ bytes16 (BitVec.ofNat 16 i.pcirOffset)

/-- The indicator with the bit for the last image. -/
def fullIndicator (i : RomImage) (last : Bool) : UINT8 :=
  if last then i.indicator ||| 0x80 else i.indicator

def pciDataStructure (i : RomImage) (last : Bool) : List UINT8 :=
  bytes32 PCI_DATA_STRUCTURE_SIGNATURE ++ i.ids ++ bytes16 i.imageLength ++
    bytes16 i.codeRevision ++
    [i.codeType, i.fullIndicator last] ++ bytes16 i.reserved1

def bytes (i : RomImage) (last : Bool) : List UINT8 :=
  i.header ++ i.gap ++ i.pciDataStructure last ++ i.body

/-- The image is an EFI image for the host, and its sizes fit. -/
def accepted (i : RomImage) (hostMachineType : UINT16) : Bool :=
  decide (i.codeType = PCI_CODE_TYPE_EFI_IMAGE) && decide (i.efiMachineType = hostMachineType) &&
    decide (i.initializationSize.toNat ≤ i.imageLength.toNat) &&
    decide (i.efiImageHeaderOffset.toNat ≤ i.initializationSize.toNat * 512)

/-- The EFI image in the image. -/
def payload (i : RomImage) (last : Bool) : List UINT8 :=
  ((i.bytes last).take (i.initializationSize.toNat * 512)).drop i.efiImageHeaderOffset.toNat

/-- The header of a PCI option ROM, with its reserved bytes. -/
@[simp] theorem length_header (i : RomImage) :
    i.header.length = 26 := by simp [header, i.length_reserved]

/-- The PCI data structure that the header points to. -/
@[simp] theorem length_pciDataStructure (i : RomImage) (last : Bool) :
    (i.pciDataStructure last).length = 24 := by
  simp [pciDataStructure, i.length_ids]

/-- An image fills the blocks that its length says. -/
theorem length_bytes (i : RomImage) (last : Bool) :
    (i.bytes last).length = i.imageLength.toNat * 512 := by
  have hsize := i.size
  simp [bytes]
  omega

end RomImage

/-! ## reading an image back -/

section

variable {r : OptionRom} {romHeader : Nat} {i : RomImage} {last : Bool}

/-- Two bytes that a ROM spells are read back as their number. -/
theorem field16_of_bytes16 {rom : RomBytes} {offset : Nat} {v : UINT16}
    (h : Spells rom offset (bytes16 v)) :
    (field16 rom offset).value = v := append_of_bytes16 h

/-- So are four. -/
theorem field32_of_bytes32 {rom : RomBytes} {offset : Nat} {v : UINT32}
    (h : Spells rom offset (bytes32 v)) :
    (field32 rom offset).value = v := append_of_bytes32 h

/-- The fields of the header and of the PCI data structure that are read. -/
structure ReadsBack (r : OptionRom) (romHeader : Nat) (i : RomImage) (last : Bool) : Prop where
  signature : (RomHeader.signature r.rom romHeader).value = PCI_EXPANSION_ROM_HEADER_SIGNATURE
  size512 : (RomHeader.size512 r.rom romHeader).value = i.initializationSize.extractLsb' 0 8
  initializationSize : (RomHeader.initializationSize r.rom romHeader).value = i.initializationSize
  efiMachineType : (RomHeader.efiMachineType r.rom romHeader).value = i.efiMachineType
  compressionType : (RomHeader.compressionType r.rom romHeader).value = i.compressionType
  efiImageHeaderOffset :
    (RomHeader.efiImageHeaderOffset r.rom romHeader).value = i.efiImageHeaderOffset
  pcirOffset : (RomHeader.pcirOffset r.rom romHeader).value = BitVec.ofNat 16 i.pcirOffset
  pcirSignature : (Pcir.signature r.rom (romHeader + i.pcirOffset)).value =
    PCI_DATA_STRUCTURE_SIGNATURE
  imageLength : (Pcir.imageLength r.rom (romHeader + i.pcirOffset)).value = i.imageLength
  codeType : (Pcir.codeType r.rom (romHeader + i.pcirOffset)).value = i.codeType
  indicator : (Pcir.indicator r.rom (romHeader + i.pcirOffset)).value = i.fullIndicator last

/-- All fields of an image that is laid out are read back. -/
theorem readsBack (h : Spells r.rom romHeader (i.bytes last)) : ReadsBack r romHeader i last := by
  simp only [RomImage.bytes, spells_append, List.length_append, RomImage.length_header] at h
  obtain ⟨⟨⟨hheader, -⟩, hpcir⟩, -⟩ := h
  simp only [RomImage.header, spells_append, List.length_append, length_bytes16, length_bytes32,
    i.length_reserved, Nat.reduceAdd] at hheader
  simp only [RomImage.pciDataStructure, spells_append, List.length_append, length_bytes16,
    length_bytes32, i.length_ids, Nat.reduceAdd, spells_cons] at hpcir
  obtain ⟨⟨⟨⟨⟨⟨⟨⟨hsignature, hinit⟩, -⟩, -⟩, hmachine⟩, hcompression⟩, -⟩, hoffset⟩, hpcirOffset⟩ :=
    hheader
  obtain ⟨⟨⟨⟨⟨hpcirSignature, -⟩, hlength⟩, -⟩, hcode, hindicator, -⟩, -⟩ := hpcir
  have hsize512 := hinit
  simp only [bytes16, spells_cons] at hsize512
  exact ⟨field16_of_bytes16 hsignature, hsize512.1, field16_of_bytes16 hinit,
    field16_of_bytes16 hmachine, field16_of_bytes16 hcompression, field16_of_bytes16 hoffset,
    field16_of_bytes16 hpcirOffset,
    field32_of_bytes32 hpcirSignature, field16_of_bytes16 hlength, hcode, hindicator⟩

theorem RomImage.toNat_pcirOffset (i : RomImage) :
    (BitVec.ofNat 16 i.pcirOffset).toNat = i.pcirOffset :=
  Nat.mod_eq_of_lt i.pcir_lt

/-- The offset of the PCI data structure is accepted. -/
theorem goodPcirOffset (hfits : romHeader + (i.bytes last).length ≤ r.romSize) :
    ¬ r.BadPcirOffset romHeader (BitVec.ofNat 16 i.pcirOffset) := by
  have htoNat := i.toNat_pcirOffset
  have hpcir : i.pcirOffset = 26 + i.gap.length := rfl
  have hsize := i.size
  have haligned := i.aligned
  rw [i.length_bytes] at hfits
  rintro (hzero | halign | hroom)
  · rw [hzero] at htoNat
    have : (0 : UINT16).toNat = 0 := rfl
    omega
  · have hmod : (BitVec.ofNat 16 i.pcirOffset &&& (4 - 1)).toNat =
        (BitVec.ofNat 16 i.pcirOffset).toNat % 2 ^ 2 :=
      Rounding.toNat_and_sub_one (show (4 : UINT16).toNat = 2 ^ 2 by decide) _
    refine halign (BitVec.eq_of_toNat_eq ?_)
    rw [show (3 : UINT16) = 4 - 1 by decide, hmod, htoNat]
    show i.pcirOffset % 4 = 0
    omega
  · rw [htoNat, sizeofPciDataStructure] at hroom
    omega

/-- The walk finds the image. -/
theorem ReadsBack.hasImage (h : ReadsBack r romHeader i last)
    (hfits : romHeader + (i.bytes last).length ≤ r.romSize) :
    r.HasImage romHeader (romHeader + i.pcirOffset) where
  signature := h.signature
  good := by
    rw [h.pcirOffset]
    exact goodPcirOffset hfits
  position := by rw [h.pcirOffset, i.toNat_pcirOffset]
  pcirSignature := h.pcirSignature

/-- The walk steps over the image by its length. -/
theorem ReadsBack.length (h : ReadsBack r romHeader i last) :
    (r.imageLength romHeader (romHeader + i.pcirOffset)).value = i.imageLength.toNat := by
  simp only [OptionRom.imageLength, Traced.value_bind, h.imageLength, h.codeType]
  split
  · rename_i hcode
    have hsize512 := i.size512 hcode
    simp only [Traced.value_bind, Traced.value_pure, h.size512]
    omega
  · rfl

/-- `ParseImage` accepts the image exactly when it is one for this machine. -/
theorem ReadsBack.parseImage (h : ReadsBack r romHeader i last) :
    (r.parseImage romHeader (i.imageLength.toNat * 512) (romHeader + i.pcirOffset)).value =
      i.accepted r.hostMachineType := by
  simp only [OptionRom.parseImage, Traced.value_bind, h.codeType]
  unfold RomImage.accepted
  by_cases hcode : i.codeType = PCI_CODE_TYPE_EFI_IMAGE
  · simp only [hcode, ne_eq, not_true_eq_false, if_false, Traced.value_bind, h.initializationSize,
      h.efiMachineType]
    by_cases hmachine : i.efiMachineType = r.hostMachineType
    · simp only [hmachine, if_true, Traced.value_bind, h.efiImageHeaderOffset]
      split
      · simp only [Traced.value_pure]
        grind
      · simp only [Traced.value_pure]
        grind
    · simp [hmachine]
  · simp [hcode]

/-- Is the image loaded? -/
def RomImage.loads (r : OptionRom) (i : RomImage) : Bool :=
  i.accepted r.hostMachineType && !r.onlyList

/-- What the loop does at an image. -/
theorem ReadsBack.iteration (h : ReadsBack r romHeader i last)
    (hfits : romHeader + (i.bytes last).length ≤ r.romSize) (indicator : UINT8) :
    (r.iteration romHeader indicator).value = if i.loads r then .load
      else .test (romHeader + (i.bytes last).length) (i.fullIndicator last) := by
  rw [iteration_of_hasImage (h.hasImage hfits), h.length, i.length_bytes, h.indicator]
  refine if_congr ?_ rfl rfl
  rw [Loads, h.length, h.parseImage, RomImage.loads]
  simp

end

/-! ## whole ROMs -/

/-- A block that does not start like an image. -/
structure Filler where
  low : UINT8
  high : UINT8
  rest : List UINT8
  length_rest : rest.length = 510
  notSignature : high ++ low ≠ PCI_EXPANSION_ROM_HEADER_SIGNATURE

inductive Block where
  | image (i : RomImage)
  | filler (f : Filler)

def Block.bytes : Block → List UINT8
  | image i => i.bytes false
  | filler f => f.low :: f.high :: f.rest

/-- Any number of images and fillers, and the last image. -/
structure RomLayout where
  blocks : List Block
  last : RomImage

namespace RomLayout

def bytes (l : RomLayout) : List UINT8 := l.blocks.flatMap Block.bytes ++ l.last.bytes true

/-- The images of `blocks`, which start at `offset`, and the last one. -/
def imagesFrom (last : RomImage) : List Block → Nat → List (Nat × RomImage)
  | [], offset => [(offset, last)]
  | .image i :: blocks, offset =>
      (offset, i) :: imagesFrom last blocks (offset + (i.bytes false).length)
  | .filler _ :: blocks, offset => imagesFrom last blocks (offset + 512)

/-- The images with their offsets. -/
def images (l : RomLayout) : List (Nat × RomImage) := imagesFrom l.last l.blocks 0

end RomLayout

section

variable {r : OptionRom} {romHeader : Nat} {indicator : UINT8} {last : RomImage}
  {blocks : List Block}

/-- No image is shorter than a block. -/
theorem RomImage.length_pos (i : RomImage) (isLast : Bool) : 512 ≤ (i.bytes isLast).length := by
  have hsize := i.size
  rw [i.length_bytes]
  omega

/-- Once a loop has come to `LoadImage` or the end, it has read the ROM only. -/
theorem parseImagesLoop_test {n : Nat} {romHeader' : Nat} {indicator' : UINT8} {value : Option Nat}
    (hroom : romHeader + 28 ≤ r.romSize)
    (hbody : (r.iteration romHeader indicator).value = .test romHeader' indicator')
    (hcontinues : r.Continues romHeader' indicator')
    (hrest : ∃ x, r.parseImagesLoop n romHeader' indicator' = some x ∧ x.value = value ∧
      x.Within (· < r.romSize)) :
    ∃ x, r.parseImagesLoop (n + 1) romHeader indicator = some x ∧ x.value = value ∧
      x.Within (· < r.romSize) := by
  obtain ⟨x, hloop, hvalue, hwithin⟩ := hrest
  refine ⟨r.iteration romHeader indicator >>= fun _ => x, ?_, hvalue,
    .bind (within_iteration hroom _) hwithin⟩
  simp only [parseImagesLoop, hbody, if_pos hcontinues, hloop, Option.map_some]

/-- The last image says that it is the last one. -/
theorem last_indicator (indicator : UINT8) : (indicator ||| 0x80) &&& 0x80 ≠ 0 := by
  intro h
  have hbit := congrArg (fun v : UINT8 => v.getLsbD 7) h
  simp at hbit

/-- The walk over what is left of a ROM. -/
theorem parseImagesLoop_bytes (hspells : Spells r.rom romHeader (RomLayout.mk blocks last).bytes)
    (hfits : romHeader + (RomLayout.mk blocks last).bytes.length ≤ r.romSize)
    (hindicator : indicator &&& 0x80 = 0) :
    ∃ x, r.parseImagesLoop (blocks.length + 1) romHeader indicator = some x ∧
      x.value = ((RomLayout.imagesFrom last blocks romHeader).find? fun p => p.2.loads r).map
        Prod.fst ∧
      x.Within (· < r.romSize) := by
  have hlast := last.length_pos true
  induction blocks generalizing romHeader indicator with
  | nil =>
      have hreads : ReadsBack r romHeader last true :=
        readsBack (by simpa [RomLayout.bytes] using hspells)
      have hfits' : romHeader + (last.bytes true).length ≤ r.romSize := by
        simpa [RomLayout.bytes] using hfits
      have hbody := hreads.iteration hfits' indicator
      refine ⟨r.iteration romHeader indicator >>= fun _ => pure _, ?_, rfl,
        .bind (within_iteration (by omega) _) (.pure _)⟩
      cases hloads : last.loads r with
      | true =>
          rw [hloads, if_pos rfl] at hbody
          simp [parseImagesLoop, hbody, RomLayout.imagesFrom, hloads]
      | false =>
          rw [hloads] at hbody
          have hends : ¬ r.Continues (romHeader + (last.bytes true).length)
              (last.fullIndicator true) :=
            fun h => last_indicator _ h.2
          simp [parseImagesLoop, hbody, hends, RomLayout.imagesFrom, hloads]
  | cons block blocks ih =>
      have hsplit : (RomLayout.mk (block :: blocks) last).bytes =
          block.bytes ++ (RomLayout.mk blocks last).bytes := by
        simp [RomLayout.bytes]
      have hrest : 512 ≤ (RomLayout.mk blocks last).bytes.length := by
        simp [RomLayout.bytes] at hlast ⊢; omega
      rw [hsplit, spells_append] at hspells
      rw [hsplit, List.length_append] at hfits
      obtain ⟨hblock, hspells⟩ := hspells
      cases block with
      | image i =>
          have hlength := i.length_pos false
          change romHeader + ((i.bytes false).length + _) ≤ r.romSize at hfits
          have hbody := (readsBack hblock).iteration (by omega) indicator
          cases hloads : i.loads r with
          | true =>
              rw [hloads, if_pos rfl] at hbody
              refine ⟨r.iteration romHeader indicator >>= fun _ => pure (some romHeader), ?_, ?_,
                .bind (within_iteration (by omega) _) (.pure _)⟩
              · simp [parseImagesLoop, hbody]
              · simp [RomLayout.imagesFrom, hloads]
          | false =>
              rw [hloads] at hbody
              simp only [Bool.false_eq_true, if_false, RomImage.fullIndicator] at hbody
              simp only [RomLayout.imagesFrom, List.find?_cons, hloads]
              exact parseImagesLoop_test (by omega) hbody ⟨by omega, i.notLast⟩
                (ih hspells (by omega) i.notLast)
      | filler f =>
          have hlength : (Block.filler f).bytes.length = 512 := by simp [Block.bytes, f.length_rest]
          rw [hlength] at hspells hfits
          have hsignature : (RomHeader.signature r.rom romHeader).value ≠
              PCI_EXPANSION_ROM_HEADER_SIGNATURE := by
            simp only [Block.bytes, spells_cons] at hblock
            have hvalue : (RomHeader.signature r.rom romHeader).value = f.high ++ f.low := by
              rw [← hblock.1, ← hblock.2.1]
              rfl
            rw [hvalue]
            exact f.notSignature
          exact parseImagesLoop_test (by omega) (iteration_of_signature hsignature indicator)
            ⟨by omega, hindicator⟩ (ih hspells (by omega) hindicator)

/-- Every image lies where it is said to. -/
theorem spells_imagesFrom (hspells : Spells r.rom romHeader (RomLayout.mk blocks last).bytes)
    {p : Nat × RomImage} (hp : p ∈ RomLayout.imagesFrom last blocks romHeader) :
    ∃ isLast, Spells r.rom p.1 (p.2.bytes isLast) := by
  induction blocks generalizing romHeader with
  | nil =>
      obtain rfl := List.mem_singleton.mp hp
      exact ⟨true, by simpa [RomLayout.bytes] using hspells⟩
  | cons block blocks ih =>
      have hsplit : (RomLayout.mk (block :: blocks) last).bytes =
          block.bytes ++ (RomLayout.mk blocks last).bytes := by
        simp [RomLayout.bytes]
      rw [hsplit, spells_append] at hspells
      cases block with
      | image i =>
          rcases List.mem_cons.mp hp with rfl | hp
          · exact ⟨false, hspells.1⟩
          · exact ih hspells.2 hp
      | filler f =>
          have hlength : (Block.filler f).bytes.length = 512 := by simp [Block.bytes, f.length_rest]
          rw [hlength] at hspells
          exact ih hspells.2 hp

/-- The part of what is spelled that `LoadImage` hands out. -/
theorem spells_payload (i : RomImage) (isLast : Bool) {rom : RomBytes} {host : UINT16}
    (hspells : Spells rom romHeader (i.bytes isLast)) (haccepted : i.accepted host = true) :
    Spells rom (romHeader + i.efiImageHeaderOffset.toNat) (i.payload isLast) ∧
      (i.payload isLast).length =
      i.initializationSize.toNat * 512 - i.efiImageHeaderOffset.toNat := by
  simp only [RomImage.accepted, Bool.and_eq_true, decide_eq_true_eq] at haccepted
  obtain ⟨⟨-, hinit⟩, hoffset⟩ := haccepted
  have hlength := i.length_bytes isLast
  constructor
  · intro k a hk
    rw [Nat.add_assoc]
    refine hspells _ a ?_
    simp only [RomImage.payload, List.getElem?_drop, List.getElem?_take] at hk
    split at hk
    · exact hk
    · cases hk
  · simp only [RomImage.payload, List.length_drop, List.length_take, hlength]
    rw [Nat.min_eq_left (by omega)]

end

/-- A ROM that has been laid out is read back.  `ParseImages` comes to its end, has read
nothing outside of the ROM, and calls `LoadImage` for the first image for the host, if
there is one; the bytes between `Image` and `Image + ImageSize` are the EFI image that
has been put there. -/
theorem parseImages_bytes (r : OptionRom) (l : RomLayout) (hspells : Spells r.rom 0 l.bytes)
    (hfits : l.bytes.length ≤ r.romSize) :
    ∃ x, r.parseImages (l.blocks.length + 1) = some x ∧ x.Within (· < r.romSize) ∧
      x.value = (l.images.find? fun p => p.2.loads r).map Prod.fst ∧
      ∀ p, (l.images.find? fun p => p.2.loads r) = some p →
        let geometry := (r.imageGeometry p.1).value
        ∃ isLast, Spells r.rom geometry.image (p.2.payload isLast) ∧
          geometry.imageSize.toNat = (p.2.payload isLast).length ∧
          (geometry.compressed = true ↔ p.2.compressionType ≠ 0) := by
  obtain ⟨x, hloop, hvalue, hwithin⟩ :=
    parseImagesLoop_bytes hspells (by rwa [Nat.zero_add]) (rfl : (0 : UINT8) &&& 0x80 = 0)
  refine ⟨x, hloop, hwithin, hvalue, fun p hp => ?_⟩
  obtain ⟨isLast, hp'⟩ := spells_imagesFrom hspells (List.mem_of_find?_eq_some hp)
  have hloads := List.find?_some hp
  simp only [RomImage.loads, Bool.and_eq_true] at hloads
  have hreads := readsBack hp'
  obtain ⟨hpayload, hlength⟩ := spells_payload p.2 isLast hp' hloads.1
  have himage : (r.imageGeometry p.1).value.image = p.1 + p.2.efiImageHeaderOffset.toNat := by
    simp only [imageGeometry, Traced.value_bind, Traced.value_pure, hreads.efiImageHeaderOffset]
  refine ⟨isLast, by rwa [himage], ?_, ?_⟩
  · have haccepted := hloads.1
    simp only [RomImage.accepted, Bool.and_eq_true, decide_eq_true_eq] at haccepted
    rw [toNat_imageSize, hreads.efiImageHeaderOffset, hreads.initializationSize, hlength]
    rw [hreads.efiImageHeaderOffset, hreads.initializationSize]
    exact haccepted.2
  · simp [imageGeometry, Traced.value_bind, hreads.compressionType]

/-- An image of 512 bytes, without anything in it. -/
def smallImage (codeType : UINT8) : RomImage where
  initializationSize := 1
  efiSignature := 0xef1
  efiSubsystem := 11
  efiMachineType := EFI_IMAGE_MACHINE_AARCH64
  compressionType := 0
  reserved := List.replicate 8 0
  efiImageHeaderOffset := 0x40
  gap := [0, 0]
  ids := List.replicate 12 0
  imageLength := 1
  codeRevision := 0
  codeType := codeType
  indicator := 0
  reserved1 := 0
  body := List.replicate 460 0
  length_reserved := List.length_replicate
  length_ids := List.length_replicate
  aligned := rfl
  pcir_lt := by decide
  size := by rw [List.length_replicate]; rfl
  notLast := rfl
  size512 := fun _ => by decide

/-- A ROM with an image for a PC, an empty block, and an EFI image. -/
def smallRom : RomLayout where
  blocks := [.image (smallImage PCI_CODE_TYPE_PCAT_IMAGE),
    .filler ⟨0, 0, List.replicate 510 0, List.length_replicate, by decide⟩]
  last := smallImage PCI_CODE_TYPE_EFI_IMAGE

/-- The EFI image is found. -/
theorem parseImages_bytes_smallRom :
    ∃ x, (OptionRom.mk (fun offset => smallRom.bytes.getD offset 0) smallRom.bytes.length
      EFI_IMAGE_MACHINE_AARCH64
      false).parseImages 3 = some x ∧ x.value = some 1024 := by
  obtain ⟨x, hloop, -, hvalue, -⟩ := parseImages_bytes
    ⟨fun offset => smallRom.bytes.getD offset 0, smallRom.bytes.length, EFI_IMAGE_MACHINE_AARCH64,
      false⟩ smallRom
    (spells_getD _ _) le_rfl
  refine ⟨x, hloop, hvalue.trans ?_⟩
  simp only [RomLayout.images, smallRom, RomLayout.imagesFrom, RomImage.length_bytes]
  rfl

end OptionRom

end MultiArchUefi
