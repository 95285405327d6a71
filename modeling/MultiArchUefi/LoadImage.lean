import MultiArchUefi.Lib.Ownership
import MultiArchUefi.OptionRom

/-!
# MultiArchUefi.LoadImage

`LoadImage` of the option ROM loader, with the pool buffers that it allocates.

What the services come to is given; every outcome is possible.  The scratch buffer
may be at the address of a buffer that was freed before, so a buffer is named by
the call that allocates it, and not by its address.
-/

namespace MultiArchUefi

open Ownership

def EFI_SECURITY_VIOLATION : UINT64 := 0x800000000000001a

/-! ## calls -/

/-- The pool buffers that `LoadImage` allocates. -/
inductive PoolBuffer where
  | destination
  | scratch
  | devicePath
deriving DecidableEq, Repr

/-- A pointer to a pool buffer, or to an offset in the ROM. -/
abbrev ImagePointer := Pointer PoolBuffer Nat

/-- The calls of services. -/
inductive ImageCall where
  | getInfo (image : ImagePointer) (imageSize : UINT64)
  | decompress (image : ImagePointer) (imageSize : UINT64) (destination : ImagePointer)
      (destinationSize : UINT32) (scratch : ImagePointer) (scratchSize : UINT32)
  | loadImage (devicePath image : ImagePointer) (imageSize : UINT64)
  | startImage
  | unloadImage
  | connectController
deriving DecidableEq, Repr

/-- A computation that allocates pool buffers and calls services. -/
abbrev ImageLoad := Traced (Event PoolBuffer Nat ImageCall)

/-- What the calls of `LoadImage` come to: the status of a service, and whether an allocation
succeeds. -/
structure LoadOutcomes where
  locateProtocol : UINT64
  getInfo : UINT64
  destinationSize : UINT32
  scratchSize : UINT32
  allocateDestination : Bool
  allocateScratch : Bool
  decompress : UINT64
  appendDevicePathNode : Bool
  loadImage : UINT64
  startImage : UINT64
  connectController : UINT64

namespace LoadOutcomes

variable (o : LoadOutcomes)

/-- The block for compressed images: the decompressed image and its size, unless the function
returns. -/
def decompressed (image : ImagePointer) (imageSize : UINT64) :
    ImageLoad (Option (ImagePointer × UINT64)) :=
  if efiError o.locateProtocol then pure none
  else do
    let status ← call (.getInfo image imageSize) o.getInfo
    if efiError status then pure none
    else do
      let destination ← allocate o.allocateDestination .destination
      if destination = .null then pure none
      else do
        let scratch ← allocate o.allocateScratch .scratch
        if scratch = .null then do
          free scratch
          pure none
        else do
          let status ← call (.decompress image imageSize destination o.destinationSize
            scratch o.scratchSize)
            o.decompress
          free scratch
          if efiError status then do
            free destination
            pure none
          else pure (some (destination, o.destinationSize.setWidth 64))

/-- From `gBS->LoadImage` to the label; `mNoConnect` is given. -/
def started (noConnect : Bool) (devicePath image : ImagePointer) (imageSize : UINT64) :
    ImageLoad Unit := do
  let status ← call (.loadImage devicePath image imageSize) o.loadImage
  if efiError status then
    if status = EFI_SECURITY_VIOLATION then call .unloadImage () else pure ()
  else do
    let status ← call .startImage o.startImage
    if efiError status then call .unloadImage ()
    else if noConnect then pure ()
    else do
      let _ ← call .connectController o.connectController
      pure ()

/-- From the label on. -/
def done (compressed : Bool) (image devicePath : ImagePointer) : ImageLoad Unit := do
  let _ ← (if compressed then free image else pure ())
  if devicePath ≠ .null then free devicePath else pure ()

/-- From `AppendDevicePathNode` on. -/
def finished (noConnect compressed : Bool) (image : ImagePointer) (imageSize : UINT64) :
    ImageLoad Unit := do
  let devicePath ← allocate o.appendDevicePathNode .devicePath
  let _ ← (if devicePath = .null then pure () else o.started noConnect devicePath image imageSize)
  done compressed image devicePath

/-- `LoadImage`, for an image that the header of a ROM describes. -/
def load (noConnect : Bool) (geometry : OptionRom.ImageGeometry) : ImageLoad Unit := do
  let image := .foreign geometry.image
  if geometry.compressed then
    match ← o.decompressed image geometry.imageSize with
    | none => pure ()
    | some (image, imageSize) => o.finished noConnect true image imageSize
  else o.finished noConnect false image geometry.imageSize

/-! ## what is owed -/

/-- The destination buffer has been allocated, and the scratch buffer cannot be. -/
def ScratchFails : Prop :=
  efiError o.locateProtocol = false ∧ efiError o.getInfo = false ∧ o.allocateDestination = true ∧
    o.allocateScratch = false

variable {o}

/-- Starting the image allocates and frees nothing. -/
theorem owes_started (noConnect : Bool) (devicePath image : ImagePointer) (imageSize : UINT64)
    (live : List PoolBuffer) : Owes live (o.started noConnect devicePath image imageSize) live := by
  refine .bind (.call ..) (.ite (fun _ => .ite (fun _ => .call ..) fun _ => .pure ..) fun _ => ?_)
  refine .bind (.call ..) (.ite (fun _ => .call ..) fun _ => .ite (fun _ => .pure ..) fun _ => ?_)
  exact .bind (.call ..) (.pure ..)

/-- From the label on, the image is freed when it is a pool buffer, and the device path when there
is one. -/
theorem owes_done {compressed : Bool} {image devicePath : ImagePointer}
    (himage : if compressed then image = .block .destination else True)
    (hpath : devicePath = .null ∨ devicePath = .block .devicePath) :
    Owes ((if devicePath = .null then [] else [.devicePath]) ++ if compressed then
      [.destination] else []) (done compressed image devicePath) [] := by
  rcases hpath with rfl | rfl <;> cases compressed
  · exact rfl
  · obtain rfl := himage
    exact rfl
  · exact rfl
  · obtain rfl := himage
    exact rfl

/-- With a decompressed image or with one in the ROM, what has been allocated is freed in the
end. -/
theorem owes_finished (noConnect compressed : Bool) {image : ImagePointer} (imageSize : UINT64)
    (himage : if compressed then image = .block .destination else True) :
    Owes (if compressed then [.destination] else [])
      (o.finished noConnect compressed image imageSize) [] := by
  cases hpath : o.appendDevicePathNode with
  | false =>
      rw [finished, hpath]
      exact .bind (.allocate_fails ..) (.bind (.pure ..) (owes_done himage (.inl rfl)))
  | true =>
      rw [finished, hpath]
      exact .bind (.allocate ..) (.bind (owes_started ..) (owes_done himage (.inr rfl)))

/-- What is decompressed is owed by the caller, and nothing else is, unless the scratch buffer
fails. -/
theorem owes_decompressed (image : ImagePointer) (imageSize : UINT64) (h : ¬ o.ScratchFails) :
    ((o.decompressed image imageSize).value = none ∧ Owes [] (o.decompressed image imageSize) []) ∨
      ((o.decompressed image imageSize).value = some
        (.block .destination, o.destinationSize.setWidth 64) ∧
        Owes [] (o.decompressed image imageSize) [.destination]) := by
  cases hlocate : efiError o.locateProtocol with
  | true => exact .inl (by simp [decompressed, hlocate])
  | false =>
      cases hinfo : efiError o.getInfo with
      | true => exact .inl (by simp [decompressed, hlocate, hinfo])
      | false =>
          cases hdestination : o.allocateDestination with
          | false => exact .inl (by simp [decompressed, hlocate, hinfo, hdestination])
          | true =>
              cases hscratch : o.allocateScratch with
              | false => exact absurd ⟨hlocate, hinfo, hdestination, hscratch⟩ h
              | true =>
                  cases hstatus : efiError o.decompress with
                  | true =>
                      exact .inl (by
                        simp [decompressed, hlocate, hinfo, hdestination, hscratch, hstatus])
                  | false =>
                      exact .inr (by
                        simp [decompressed, hlocate, hinfo, hdestination, hscratch, hstatus])

/-- When the scratch buffer fails, the null pointer is freed. -/
theorem not_owes_decompressed {image : ImagePointer} {imageSize : UINT64} {after : List PoolBuffer}
    (h : o.ScratchFails) : ¬ Owes [] (o.decompressed image imageSize) after := by
  obtain ⟨hlocate, hinfo, hdestination, hscratch⟩ := h
  simp [decompressed, hlocate, hinfo, hdestination, hscratch]

/-- For every image and every pattern of failures, `LoadImage` frees each buffer that it has
allocated once, and nothing else, exactly when it does not fail to get a scratch buffer for
a compressed image. -/
theorem load_balanced_iff (o : LoadOutcomes) (noConnect : Bool)
    (geometry : OptionRom.ImageGeometry) :
    Balanced (o.load noConnect geometry) ↔ ¬ (geometry.compressed = true ∧ o.ScratchFails) := by
  cases hcompressed : geometry.compressed with
  | false =>
      have howes : Owes []
          (o.finished noConnect false (.foreign geometry.image) geometry.imageSize) [] :=
        owes_finished noConnect false geometry.imageSize trivial
      simpa [load, hcompressed] using howes
  | true =>
      simp only [load, hcompressed, if_true, true_and]
      constructor
      · intro h hfails
        obtain ⟨mid, hmid⟩ := h.of_bind
        exact not_owes_decompressed hfails hmid
      · intro h
        rcases owes_decompressed
          (.foreign geometry.image) geometry.imageSize h with ⟨hnone, howes⟩ | ⟨hsome, howes⟩
        · refine howes.bind ?_
          rw [hnone]
          exact .pure ..
        · refine howes.bind ?_
          rw [hsome]
          exact owes_finished noConnect true _ rfl

/-- Outcomes in which everything succeeds, but for the scratch buffer. -/
def noScratch : LoadOutcomes where
  locateProtocol := EFI_SUCCESS
  getInfo := EFI_SUCCESS
  destinationSize := 0x2000
  scratchSize := 0x1000
  allocateDestination := true
  allocateScratch := false
  decompress := EFI_SUCCESS
  appendDevicePathNode := true
  loadImage := EFI_SUCCESS
  startImage := EFI_SUCCESS
  connectController := EFI_SUCCESS

/-- A compressed image in the ROM. -/
def compressedImage : OptionRom.ImageGeometry := ⟨0x40, 0x1fc0, 0x40, 0x1fff, true⟩

/-- The destination buffer is never freed, and `FreePool` gets the null pointer. -/
theorem load_noScratch :
    (noScratch.load false compressedImage).trace =
        [.other (.getInfo (.foreign 0x40) 0x1fc0), .allocated .destination, .freed .null] ∧
      ¬ Balanced (noScratch.load false compressedImage) :=
  ⟨rfl, nofun⟩

end LoadOutcomes

end MultiArchUefi
