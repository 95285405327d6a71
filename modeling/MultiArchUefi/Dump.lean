import MultiArchUefi.Context
import MultiArchUefi.ImageRegistry
import MultiArchUefi.WrappedEvents

/-!
# MultiArchUefi.Dump

`EmulatorDump`, which joins the registered images, the wrapped events and the
topmost context.

`EfiWrappersDumpEvents` looks the creator of an event up by the return address
that the event was created from, and takes it for granted that there is an image
there, and that the list ends.  `KeepsCreators` says which calls leave every listed
event with its record and its creator.
-/

namespace MultiArchUefi

open Transition Ring

/-! ## what is dereferenced -/

/-- A pointer that the dump dereferences. -/
inductive Deref where
  /-- an `ImageRecord` -/
  | image (record : Option RecordId)
  /-- a `WRAPPED_EVENT_RECORD` -/
  | event (record : UINT64)
  /-- a `CpuRunContext` -/
  | context (k : Option CtxId)
deriving DecidableEq, Repr

def imageDump (images : Images) : List Deref := images.mImageList.map fun r => .image (some r)

/-- `none` when the loop does not end. -/
def efiWrappersDumpEvents (images : Images) (w : WrappedEvents) : Option (List Deref) :=
  w.mEventList.map (List.flatMap fun r =>
    [.event r, .image (imageFindByAddress images (w.record r).callerProgramCounter)])

def efiWrappersDump (cfg : Config) (images : Images) (w : WrappedEvents) : Option (List Deref) :=
  if cfg.wrappedEntryPoints then efiWrappersDumpEvents images w else some []

def cpuDump (mTopContext : Option CtxId) : List Deref :=
  if mTopContext = none then [] else [.context mTopContext]

/-- `none` when the dump does not end. -/
def emulatorDump (cfg : Config) (images : Images) (w : WrappedEvents) (mTopContext : Option CtxId) :
    Option (List Deref) :=
  (efiWrappersDump cfg images w).map fun events => imageDump images ++ events ++ cpuDump mTopContext

/-- The pointer is neither `NULL` nor a record that has been freed. -/
def Deref.Valid (w : WrappedEvents) : Deref → Prop
  | .image record => record ≠ none
  | .event record => record ∈ w.pool
  | .context k => k ≠ none

/-- The dump ends, and dereferences no `NULL` and no freed record. -/
def DumpSafe (cfg : Config) (images : Images) (w : WrappedEvents)
    (mTopContext : Option CtxId) : Prop :=
  ∃ derefs, emulatorDump cfg images w mTopContext = some derefs ∧ ∀ d ∈ derefs, d.Valid w

/-- The record is allocated, and there is an image at its return address. -/
def HasCreator (images : Images) (w : WrappedEvents) (r : UINT64) : Prop :=
  r ∈ w.pool ∧ ∃ i ∈ images.mImageList, (images.record i).contains
    (w.record r).callerProgramCounter = true

theorem imageFindByAddress_ne_none_iff {images : Images} {address : UINT64} :
    imageFindByAddress images address ≠ none ↔
      ∃ i ∈ images.mImageList, (images.record i).contains address = true := by
  simp [imageFindByAddress_eq_none_iff]

/-- The dump is safe when the list ends and every event on it has its record and its creator. -/
theorem dumpSafe_iff {cfg : Config} {images : Images} {w : WrappedEvents}
    {mTopContext : Option CtxId} :
    DumpSafe cfg images w mTopContext ↔
      (cfg.wrappedEntryPoints = true →
        ∃ l, w.mEventList = some l ∧ ∀ r ∈ l, HasCreator images w r) := by
  constructor
  · rintro ⟨derefs, hdump, hvalid⟩ hwrapped
    obtain ⟨events, hevents, rfl⟩ := Option.map_eq_some_iff.mp hdump
    rw [efiWrappersDump, if_pos hwrapped] at hevents
    obtain ⟨l, hl, rfl⟩ := Option.map_eq_some_iff.mp hevents
    refine ⟨l, hl, fun r hr => ?_⟩
    have hmem (d : Deref) (hd : d ∈ [Deref.event r,
        .image (imageFindByAddress images (w.record r).callerProgramCounter)]) : d.Valid w :=
      hvalid d (List.mem_append_left _ (List.mem_append_right _ (List.mem_flatMap.mpr ⟨r, hr, hd⟩)))
    exact ⟨hmem (.event r) (by simp), imageFindByAddress_ne_none_iff.mp (hmem (.image _) (by simp))⟩
  · intro h
    have hevents : ∃ events, efiWrappersDump cfg images w = some events ∧
        ∀ d ∈ events, d.Valid w := by
      by_cases hwrapped : cfg.wrappedEntryPoints = true
      · obtain ⟨l, hl, hcreators⟩ := h hwrapped
        refine ⟨_, by
          rw [efiWrappersDump, if_pos hwrapped, efiWrappersDumpEvents, hl, Option.map_some], ?_⟩
        intro d hd
        obtain ⟨r, hr, hd⟩ := List.mem_flatMap.mp hd
        obtain ⟨hpool, himage⟩ := hcreators r hr
        rcases List.mem_pair.mp hd with rfl | rfl
        · exact hpool
        · exact imageFindByAddress_ne_none_iff.mpr himage
      · exact ⟨[], by rw [efiWrappersDump, if_neg hwrapped], by simp⟩
    obtain ⟨events, hevents, hvalid⟩ := hevents
    refine ⟨_, by rw [emulatorDump, hevents, Option.map_some], fun d hd => ?_⟩
    rcases List.mem_append.mp hd with hd | hd
    · rcases List.mem_append.mp hd with hd | hd
      · obtain ⟨r, -, rfl⟩ := List.mem_map.mp hd
        exact Option.some_ne_none r
      · exact hvalid d hd
    · rw [cpuDump] at hd
      split at hd
      · cases hd
      · obtain rfl := List.mem_singleton.mp hd
        assumption

/-! ## the driver -/

/-- What the dump joins: the images with their loader, the events with the
firmware, and the topmost context. -/
structure Inventory where
  loader : Loader
  events : EventSystem
  mTopContext : Option CtxId

def Inventory.images (s : Inventory) : Images := s.loader.registry.images

inductive InventoryCall where
  | loader (call : LoaderCall)
  | event (call : EventCall)
  /-- A run is entered or left, or contexts are compressed. -/
  | context (mTopContext : Option CtxId)

/-- The context that a wrapper finds with `CpuGetTopContext ()` is one of its caller's engine. -/
def EventCall.calledFrom (mTopContext : Option CtxId) : EventCall → Prop
  | create topCpu _ _ _ _ _ => mTopContext.map (·.cpu) = some topCpu
  | close _ _ => True
  | others _ _ => True

instance (mTopContext : Option CtxId) : (call : EventCall) → Decidable (call.calledFrom mTopContext)
  | .create _ _ _ _ _ _ => inferInstanceAs (Decidable (_ = _))
  | .close _ _ => inferInstanceAs (Decidable True)
  | .others _ _ => inferInstanceAs (Decidable True)

/-- One call; `none` when it is not made. -/
def inventoryStep (cfg : Config) (cpuRunImage eventNotify : UINT64) (s : Inventory) :
    InventoryCall → Option Inventory
  | .loader call => (loaderStep cpuRunImage s.loader call).map fun l => { s with loader := l }
  | .event call =>
      if call.calledFrom s.mTopContext then
        (eventStep cfg eventNotify s.events call).map fun e => { s with events := e }
      else none
  | .context mTopContext => some { s with mTopContext := mTopContext }

/-- Nothing is registered, created or run; the memory may hold anything. -/
def noInventory (images : RecordId → ImageRecord) (events : EventSystem) : Inventory :=
  ⟨emptyLoader images, events, none⟩

def Inventory.dumpSafe (cfg : Config) (s : Inventory) : Prop :=
  DumpSafe cfg s.images s.events.driver s.mTopContext

/-- An event is created from an image, by a service that does not fail, and no
image is unregistered that is the only one at the return address of a listed event. -/
def KeepsCreators (s : Inventory) : InventoryCall → Prop
  | .event (.create _ _ returnAddress _ (some _) (.ok _)) =>
      imageFindByAddress s.images returnAddress ≠ none
  | .event (.create _ _ _ _ (some _) (.error _)) => False
  | .loader (.unregister imageBase _) =>
      ∀ i ∈ imageFindByAddress s.images imageBase, ∀ r ∈ s.events.driver.mEventList.getD [],
        ∃ j ∈ s.images.mImageList.erase i,
          (s.images.record j).contains (s.events.driver.record r).callerProgramCounter = true
  | _ => True

/-! ## single calls -/

section

variable {cfg : Config} {cpuRunImage eventNotify : UINT64} {s s' : Inventory} {l : List UINT64}

/-- The list is well formed, and every event on it has its record and its creator. -/
structure Traceable (s : Inventory) (l : List UINT64) : Prop where
  listed : RecordsListed s.events.driver l
  creators : ∀ r ∈ l, HasCreator s.images s.events.driver r

theorem Traceable.dumpSafe (h : Traceable s l) : s.dumpSafe cfg :=
  dumpSafe_iff.mpr fun _ => ⟨l, mEventList_eq h.listed.ring, h.creators⟩

/-- A well-formed list is what the dump goes through. -/
theorem dumpSafe_iff_of_ring (h : IsRing s.events.driver.links .list (l.map EventEntry.link))
    (hwrapped : cfg.wrappedEntryPoints = true) :
    s.dumpSafe cfg ↔ ∀ r ∈ l, HasCreator s.images s.events.driver r := by
  rw [Inventory.dumpSafe, dumpSafe_iff, forall_prop_of_true hwrapped, mEventList_eq h]
  simp

/-- Registering an image leaves those that are listed where they are. -/
theorem register_images {g : Registry} {imageBase imageSize entryPoint : UINT64}
    {services : RegisterServices} (hfresh : ∀ r ∈ services.allocatePool, r.1 ∉ g.images.mImageList)
    {address : UINT64} (h : ∃ i ∈ g.images.mImageList,
      (g.images.record i).contains address = true) :
    let images :=
      (imageProtocolRegister cpuRunImage imageBase imageSize entryPoint services g).2.2.images
    ∃ i ∈ images.mImageList, (images.record i).contains address = true := by
  obtain ⟨i, hi, hcontains⟩ := h
  simp only [imageProtocolRegister]
  split
  · exact ⟨i, hi, hcontains⟩
  · split
    · exact ⟨i, hi, hcontains⟩
    · rename_i r contents hpool
      have hne : i ≠ r := ne_of_mem_of_not_mem hi (hfresh _ hpool)
      split <;>
        exact ⟨i, List.mem_append_left _ hi, by simpa [Function.update_of_ne hne] using hcontains⟩

theorem unregister_images (g : Registry) (imageBase setMemoryAttributes : UINT64) :
    (imageProtocolUnregister imageBase setMemoryAttributes g).2.images =
      match imageFindByAddress g.images imageBase with
      | none => g.images
      | some r => { g.images with mImageList := g.images.mImageList.erase r } := by
  unfold imageProtocolUnregister
  cases imageFindByAddress g.images imageBase <;> rfl

/-- The images that a call of the loader leaves. -/
def imagesAfter (cpuRunImage : UINT64) (g : Registry) : LoaderCall → Images
  | .register imageBase imageSize entryPoint services =>
      (imageProtocolRegister cpuRunImage imageBase imageSize entryPoint services g).2.2.images
  | .unregister imageBase setMemoryAttributes =>
      (imageProtocolUnregister imageBase setMemoryAttributes g).2.images

theorem loaderStep_images {l l' : Loader} {call : LoaderCall}
    (h : loaderStep cpuRunImage l call = some l') :
    call.Allowed l ∧ l'.registry.images = imagesAfter cpuRunImage l.registry call := by
  unfold loaderStep at h
  split at h
  · rename_i hallowed
    refine ⟨hallowed, ?_⟩
    cases call with
    | register imageBase imageSize entryPoint services =>
        simp only at h
        split at h <;> (obtain rfl := Option.some.inj h; rfl)
    | unregister imageBase setMemoryAttributes =>
        obtain rfl := Option.some.inj h
        rfl
  · cases h

/-- A call of the loader leaves every listed event its creator exactly when it keeps them. -/
theorem Traceable.loader (h : Traceable s l) {call : LoaderCall} {loader : Loader}
    (hstep : loaderStep cpuRunImage s.loader call = some loader) :
    (∀ r ∈ l, HasCreator loader.registry.images s.events.driver r) ↔
      KeepsCreators s (.loader call) := by
  obtain ⟨hallowed, himages⟩ := loaderStep_images hstep
  cases call with
  | register imageBase imageSize entryPoint services =>
      refine iff_of_true (fun r hr => ⟨(h.creators r hr).1, ?_⟩) trivial
      rw [himages]
      exact register_images hallowed.2 (h.creators r hr).2
  | unregister imageBase setMemoryAttributes =>
      rw [himages, imagesAfter, unregister_images]
      simp only [KeepsCreators, Inventory.images, mEventList_eq h.listed.ring, Option.getD_some]
      cases hfind : imageFindByAddress s.loader.registry.images imageBase with
      | none => exact iff_of_true h.creators (by simp)
      | some i =>
          constructor
          · rintro hall i' hi' r hr
            obtain rfl := Option.some.inj hi'
            exact (hall r hr).2
          · exact fun hkeeps r hr => ⟨(h.creators r hr).1, hkeeps i rfl r hr⟩

/-- A creation that the service accepts leaves every listed event its creator exactly
when the new one has an image at its return address. -/
theorem Traceable.created (h : Traceable s l) {r : UINT64} {asked : WrappedEventRecord}
    (hr : s.events.driver.Allocates r) :
    (∀ r' ∈ l ++ [r], HasCreator s.images (s.events.driver.inserted r asked) r') ↔
      imageFindByAddress s.images asked.callerProgramCounter ≠ none := by
  have hnew : HasCreator s.images (s.events.driver.inserted r asked) r ↔
      imageFindByAddress s.images asked.callerProgramCounter ≠ none := by
    rw [imageFindByAddress_ne_none_iff]
    simp [HasCreator, WrappedEvents.inserted]
  have hold : ∀ r' ∈ l, HasCreator s.images (s.events.driver.inserted r asked) r' := by
    intro r' hr'
    obtain ⟨hpool, hcreator⟩ := h.creators r' hr'
    have hne : r' ≠ r := ne_of_mem_of_not_mem hpool hr.1
    exact ⟨List.mem_cons_of_mem r hpool, by
      simpa [WrappedEvents.inserted, Function.update_of_ne hne] using hcreator⟩
  rw [← hnew]
  constructor
  · exact fun hall => hall r (List.mem_append_right _ (List.mem_singleton_self r))
  · intro hcreator r' hr'
    rcases List.mem_append.mp hr' with hr' | hr'
    · exact hold r' hr'
    · rwa [List.mem_singleton.mp hr']

/-- What a call of a wrapper leaves: a list that the dump goes through safely exactly
when the call keeps the creators, and is well formed then. -/
theorem Traceable.event (h : Traceable s l) {call : EventCall} {e : EventSystem}
    (hmove : EventMove eventNotify s.events call e) :
    ∃ l' : List UINT64, IsRing e.driver.links .list (l'.map EventEntry.link) ∧
      ((∀ r ∈ l', HasCreator s.images e.driver r) ↔ KeepsCreators s (.event call)) := by
  cases hmove with
  | notAllocated => exact ⟨l, h.listed.ring, iff_of_true h.creators trivial⟩
  | @failed _ _ _ r _ _ _ record hr =>
      refine ⟨l ++ [r], h.listed.insert_ring hr.1, iff_of_false (fun hall => ?_) id⟩
      have hpool := (hall r (List.mem_append_right _ (List.mem_singleton_self r))).1
      rw [WrappedEvents.freePool, WrappedEvents.inserted, List.erase_cons_head] at hpool
      exact hr.1 hpool
  | @created _ _ _ r _ _ _ asked hr hcaller _ =>
      refine ⟨l ++ [r], h.listed.insert_ring hr.1, ?_⟩
      rw [h.created hr, hcaller]
      exact Iff.rfl
  | closed r hfind =>
      rw [h.listed.findEvent_eq] at hfind
      have hmem := List.mem_of_find?_eq_some (Option.some.inj hfind)
      refine ⟨l.erase r, h.listed.remove_ring hmem, iff_of_true (fun r' hr' => ?_) trivial⟩
      exact ⟨(h.listed.remove hmem).allocated r' hr', (h.creators r' (List.mem_of_mem_erase hr')).2⟩
  | others hspared =>
      refine ⟨l, (h.listed.spared hspared).ring, iff_of_true (fun r hr => ?_) trivial⟩
      obtain ⟨hpool, hcreator⟩ := h.creators r hr
      refine ⟨hpool, ?_⟩
      show ∃ i ∈ s.images.mImageList, _
      rw [(hspared.2.1 r hpool).2]
      exact hcreator

/-- A call leaves the dump safe exactly when it keeps the creators, and if it does the
events stay traceable. -/
theorem Traceable.step (h : Traceable s l) (hwrapped : cfg.wrappedEntryPoints = true)
    {call : InventoryCall} (hstep : inventoryStep cfg cpuRunImage eventNotify s call = some s') :
    (s'.dumpSafe cfg ↔ KeepsCreators s call) ∧ (KeepsCreators s call → ∃ l', Traceable s' l') := by
  obtain ⟨l', hring, hiff⟩ : ∃ l' :
    List UINT64, IsRing s'.events.driver.links .list (l'.map EventEntry.link) ∧
      ((∀ r ∈ l', HasCreator s'.images s'.events.driver r) ↔ KeepsCreators s call) := by
    cases call with
    | loader call =>
        obtain ⟨loader, hloader, rfl⟩ := Option.map_eq_some_iff.mp hstep
        exact ⟨l, h.listed.ring, h.loader hloader⟩
    | event call =>
        simp only [inventoryStep] at hstep
        split at hstep
        · obtain ⟨e, he, rfl⟩ := Option.map_eq_some_iff.mp hstep
          exact h.event (eventMove_of_step he)
        · cases hstep
    | context mTopContext =>
        obtain rfl := Option.some.inj hstep
        exact ⟨l, h.listed.ring, iff_of_true h.creators trivial⟩
  refine ⟨(dumpSafe_iff_of_ring hring hwrapped).trans hiff, fun hkeeps => ?_⟩
  have hcreators := hiff.mpr hkeeps
  exact ⟨l', ⟨hring, fun r hr => (hcreators r hr).1⟩, hcreators⟩

end

/-! ## runs -/

/-- In every run of calls that keep the creators, of images, events and contexts
in any order, the dump is safe in every state reached, and any next call leaves it
safe exactly when it keeps the creators, too. -/
theorem dumpSafe_of_run (cfg : Config) (hwrapped : cfg.wrappedEntryPoints = true)
    (cpuRunImage eventNotify : UINT64) (images : RecordId → ImageRecord) (links : Links EventEntry)
    (records : UINT64 → WrappedEventRecord) (calls : List InventoryCall) (s : Inventory)
    (h : Run (inventoryStep cfg cpuRunImage eventNotify) KeepsCreators
      (noInventory images (noEvents links records)) calls s) :
    s.dumpSafe cfg ∧ ∀ call s', inventoryStep cfg cpuRunImage eventNotify s call = some s' →
      (s'.dumpSafe cfg ↔ KeepsCreators s call) := by
  have hinit : ∃ l, Traceable (noInventory images (noEvents links records)) l :=
    ⟨[], ⟨isRing_initialized links .list, by simp⟩, by simp⟩
  obtain ⟨l, htraceable⟩ := h.invariant (I := fun s => ∃ l, Traceable s l)
    (fun _ _ _ ⟨_, ht⟩ hkeeps hstep => (ht.step hwrapped hstep).2 hkeeps) hinit
  exact ⟨htraceable.dumpSafe, fun _ _ hstep => (htraceable.step hwrapped hstep).1⟩

instance (s : Inventory) : (call : InventoryCall) → Decidable (KeepsCreators s call)
  | .event (.create _ _ _ _ (some _) (.ok _)) => inferInstanceAs (Decidable (_ ≠ _))
  | .event (.create _ _ _ _ (some _) (.error _)) => isFalse id
  | .event (.create _ _ _ _ none _) => isTrue trivial
  | .event (.close _ _) => isTrue trivial
  | .event (.others _ _) => isTrue trivial
  | .loader (.unregister _ _) => inferInstanceAs (Decidable (∀ i ∈ _, ∀ r ∈ _, ∃ j ∈ _, _ = _))
  | .loader (.register _ _ _ _) => isTrue trivial
  | .context _ => isTrue trivial

/-- An x64 image is registered at 0x10000, and creates a timer event. -/
def imageWithTimer : List InventoryCall :=
  [.loader (registerX64 EFI_SUCCESS), .context (some ⟨.x64, 0⟩), .event (createTimer (.ok 1))]

/-- Nothing has been registered yet, and the memory of the records is zero. -/
def emptyInventory : Inventory :=
  noInventory (fun _ => freshRecord) noWrappedEvents

theorem dumpSafe_of_run_imageWithTimer :
    ∃ s, exec (inventoryStep wrappedConfig 0x80006000 0x80005000) KeepsCreators emptyInventory
      imageWithTimer =
        some s ∧
      s.events.driver.mEventList = some [0x70000000] ∧ s.dumpSafe wrappedConfig := by
  have hvalues : (exec
    (inventoryStep wrappedConfig 0x80006000 0x80005000) KeepsCreators emptyInventory
      imageWithTimer).map (fun s => s.events.driver.mEventList) = some (some [0x70000000]) := by
      decide
  obtain ⟨s, hs, hlist⟩ := Option.map_eq_some_iff.mp hvalues
  exact ⟨s, hs, hlist, (dumpSafe_of_run wrappedConfig rfl _ _ _ _ _ _ _ (.of_exec hs)).1⟩

/-- The image is unregistered, and has left its event open: the dump looks for
the name of its engine in a `NULL` record. -/
theorem imageWithTimer_dump_fails :
    ∃ s, Run (inventoryStep wrappedConfig 0x80006000 0x80005000) (fun _ _ => True) emptyInventory
        (imageWithTimer ++ [.loader (.unregister 0x10000 EFI_SUCCESS)]) s ∧
        ¬ s.dumpSafe wrappedConfig := by
  have hvalues : (exec (inventoryStep wrappedConfig 0x80006000 0x80005000)
    (fun _ _ => True) emptyInventory
      (imageWithTimer ++ [.loader (.unregister 0x10000 EFI_SUCCESS)])).map
        (fun s => emulatorDump wrappedConfig s.images s.events.driver s.mTopContext) =
      some (some [.event 0x70000000, .image none, .context (some ⟨.x64, 0⟩)]) := by decide
  obtain ⟨s, hs, hdump⟩ := Option.map_eq_some_iff.mp hvalues
  refine ⟨s, .of_exec hs, fun ⟨derefs, hderefs, hvalid⟩ => ?_⟩
  obtain rfl := Option.some.inj (hdump.symm.trans hderefs)
  exact hvalid (.image none) (by decide) rfl

end MultiArchUefi
