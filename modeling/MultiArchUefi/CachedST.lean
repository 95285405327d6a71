import MultiArchUefi.Basic
import MultiArchUefi.Lib.Ownership
import MultiArchUefi.Lib.Run

/-!
# MultiArchUefi.CachedST

The entry point library of the driver, which makes copies of the system table and
of the services that it points to, "so that any future changes made to the table do
not affect the driver".

The copies are pool memory of the driver.  The services that make and free them are
called through the table of the firmware, as it is at that time.
`cachedTables_of_run` follows the copies through all starts and unloads, whatever
fails and whatever other code does in between, as long as the table of the firmware
is there and its `FreePool` frees.
-/

namespace MultiArchUefi.CachedST

open Ownership Transition

/-! ## tables -/

/-- `EFI_SYSTEM_TABLE`: `Hdr.Revision`, the pointers to the services, and the rest. -/
structure SystemTable (δ : Type) where
  revision : Nat
  bootServices : UINT64
  runtimeServices : UINT64
  other : δ

/-- `EFI_BOOT_SERVICES`: whether `FreePool`, that of the firmware or what replaces it,
gives memory back, and the rest. -/
structure BootServices (β : Type) where
  freesPool : Bool
  other : β

/-- What lies at an address. -/
inductive Table (β γ δ : Type) where
  | system (t : SystemTable δ)
  | boot (services : BootServices β)
  | runtime (services : γ)
  | uninitialized

section

variable {β γ δ : Type}

def Table.system? : Table β γ δ → Option (SystemTable δ)
  | system t => some t
  | _ => none

def Table.boot? : Table β γ δ → Option (BootServices β)
  | boot services => some services
  | _ => none

def Table.runtime? : Table β γ δ → Option γ
  | runtime services => some services
  | _ => none

end

/-- The memory: `none` where nothing has been allocated. -/
abbrev Heap (β γ δ : Type) := UINT64 → Option (Table β γ δ)

/-- What code sees that is given a system table. -/
structure View (β γ δ : Type) where
  revision : Nat
  other : δ
  boot : BootServices β
  runtime : γ

variable {β γ δ : Type}

/-- The system table at `a`; its services have to be where it points to. -/
def view (heap : Heap β γ δ) (a : UINT64) : Option (View β γ δ) := do
  let t ← (heap a).bind Table.system?
  let boot ← (heap t.bootServices).bind Table.boot?
  let runtime ← (heap t.runtimeServices).bind Table.runtime?
  some ⟨t.revision, t.other, boot, runtime⟩

/-! ## the driver -/

/-- The variables of the library, the memory, the pool memory that the driver has
not freed yet, whether `LoadedImage->Unload` is set, and whether the driver is
started.  `gST` is what the constructors have been given. -/
structure State (β γ δ : Type) where
  heap : Heap β γ δ
  owned : List UINT64
  mRealST : UINT64
  mCachedST : UINT64
  gST : UINT64
  hasUnload : Bool
  started : Bool

/-- Code outside of the library.  It may do anything but touch the pool memory of
the library. -/
structure Outside (β γ δ : Type) where
  run : List UINT64 → Heap β γ δ → Heap β γ δ
  keeps : ∀ owned heap, ∀ a ∈ owned, run owned heap a = heap a

/-- `AllocatePool`: it fails, or finds memory that is not in use. -/
abbrev AllocatePool (β γ δ : Type) :=
  (heap : Heap β γ δ) → Except ErrorStatus { a : UINT64 // heap a = none }

/-- `_gUefiDriverRevision`, `_gDriverUnloadImageCount`, and what the calls of
`_ModuleEntryPoint` do and return. -/
structure StartCalls (β γ δ : Type) where
  gUefiDriverRevision : Nat
  gDriverUnloadImageCount : Nat
  allocateCachedST : AllocatePool β γ δ
  allocateBootServices : AllocatePool β γ δ
  allocateRuntimeServices : AllocatePool β γ δ
  processLibraryConstructorList : Outside β γ δ
  processModuleEntryPointList : Outside β γ δ
  entryStatus : UINT64
  processLibraryDestructorList : Outside β γ δ

/-- The same for `_DriverUnloadHandler`. -/
structure UnloadCalls (β γ δ : Type) where
  processModuleUnloadList : Outside β γ δ
  unloadStatus : UINT64
  processLibraryDestructorList : Outside β γ δ

namespace State

def outside (f : Outside β γ δ) (s : State β γ δ) : State β γ δ :=
  { s with heap := f.run s.owned s.heap }

/-- `*a`, for a system table. -/
def systemTable (a : UINT64) (s : State β γ δ) : Option (SystemTable δ) :=
  (s.heap a).bind Table.system?

/-- `*mRealST->BootServices`, which every call of a boot service reads. -/
def realBootServices (s : State β γ δ) : Option (BootServices β) := do
  let t ← s.systemTable s.mRealST
  (s.heap t.bootServices).bind Table.boot?

def allocatePool (alloc : AllocatePool β γ δ) (s : State β γ δ) :
    Option (Except ErrorStatus (UINT64 × State β γ δ)) := do
  let _ ← s.realBootServices
  some ((alloc s.heap).map fun a =>
    (a.val, { s with
      heap := Function.update s.heap a.val (some .uninitialized)
      owned := a.val :: s.owned }))

/-- `none` when the memory is not the driver's. -/
def freePool (a : UINT64) (s : State β γ δ) : Option (State β γ δ) := do
  let services ← s.realBootServices
  if services.freesPool then
    (owedAfter s.owned (.freed (.block a) : Ownership.Event UINT64 Empty Empty)).map fun owned =>
      { s with owned := owned, heap := Function.update s.heap a none }
  else some s

/-- `CopyMem`; `none` when there is no memory. -/
def copyMem (dst src : UINT64) (s : State β γ δ) : Option (State β γ δ) := do
  let _ ← s.realBootServices
  let t ← s.heap src
  let _ ← s.heap dst
  some { s with heap := Function.update s.heap dst (some t) }

def writeSystemTable (a : UINT64) (t : SystemTable δ) (s : State β γ δ) : State β γ δ :=
  { s with heap := Function.update s.heap a (some (.system t)) }

/-- The three calls of `FreePool` that give back the copies. -/
def freeTables (s : State β γ δ) : Option (State β γ δ) := do
  let s ← s.freePool (← s.systemTable s.mCachedST).runtimeServices
  let s ← s.freePool (← s.systemTable s.mCachedST).bootServices
  s.freePool s.mCachedST

/-- `_ModuleEntryPoint` from the first `AllocatePool` to the last `CopyMem`, the last
of the three copies first. -/
def cacheRuntimeServices (calls : StartCalls β γ δ) (s : State β γ δ) :
    Option (UINT64 × State β γ δ) := do
  match ← s.allocatePool calls.allocateRuntimeServices with
  | .error status =>
      let s ← s.freePool (← s.systemTable s.mCachedST).bootServices
      let s ← s.freePool s.mCachedST
      some (status.val, s)
  | .ok (runtimeServices, s) =>
      let s := s.writeSystemTable s.mCachedST
        { ← s.systemTable s.mCachedST with runtimeServices := runtimeServices }
      let s ← s.copyMem (← s.systemTable s.mCachedST).runtimeServices
        (← s.systemTable s.mRealST).runtimeServices
      some (EFI_SUCCESS, s)

def cacheBootServices (calls : StartCalls β γ δ) (s : State β γ δ) :
    Option (UINT64 × State β γ δ) := do
  match ← s.allocatePool calls.allocateBootServices with
  | .error status =>
      let s ← s.freePool s.mCachedST
      some (status.val, s)
  | .ok (bootServices, s) =>
      let s := s.writeSystemTable s.mCachedST
        { ← s.systemTable s.mCachedST with bootServices := bootServices }
      let s ← s.copyMem (← s.systemTable s.mCachedST).bootServices
        (← s.systemTable s.mRealST).bootServices
      s.cacheRuntimeServices calls

def cacheTables (calls : StartCalls β γ δ) (s : State β γ δ) : Option (UINT64 × State β γ δ) := do
  match ← s.allocatePool calls.allocateCachedST with
  | .error status => some (status.val, s)
  | .ok (cachedST, s) =>
      let s := { s with mCachedST := cachedST }
      let s ← s.copyMem s.mCachedST s.mRealST
      s.cacheBootServices calls

end State

def EFI_INCOMPATIBLE_VERSION : UINT64 := 0x8000000000000019

/-- `_ModuleEntryPoint`; `none` when it uses memory that is not there. -/
def moduleEntryPoint (calls : StartCalls β γ δ) (systemTable : UINT64) (s : State β γ δ) :
    Option (UINT64 × State β γ δ) := do
  let t ← s.systemTable systemTable
  if calls.gUefiDriverRevision ≠ 0 ∧ t.revision < calls.gUefiDriverRevision then
    some (EFI_INCOMPATIBLE_VERSION, s)
  else
    let (status, s) ← { s with mRealST := systemTable }.cacheTables calls
    if efiError status then some (status, s)
    else
      let s := { s.outside calls.processLibraryConstructorList with gST := s.mCachedST }
      let s := if calls.gDriverUnloadImageCount ≠ 0 then { s with hasUnload := true } else s
      let s := s.outside calls.processModuleEntryPointList
      if efiError calls.entryStatus then
        let s ← (s.outside calls.processLibraryDestructorList).freeTables
        some (calls.entryStatus, s)
      else some (calls.entryStatus, s)

/-- `_DriverUnloadHandler` -/
def driverUnloadHandler (calls : UnloadCalls β γ δ) (s : State β γ δ) :
    Option (UINT64 × State β γ δ) :=
  let s := s.outside calls.processModuleUnloadList
  if efiError calls.unloadStatus then some (calls.unloadStatus, s)
  else do
    let s ← (s.outside calls.processLibraryDestructorList).freeTables
    some (calls.unloadStatus, s)

/-! ## starting and unloading -/

/-- The firmware starts or unloads the driver, or other code runs. -/
inductive Action (β γ δ : Type) where
  | start (calls : StartCalls β γ δ) (systemTable : UINT64)
  | unload (calls : UnloadCalls β γ δ)
  | others (f : Outside β γ δ)

/-- An image that returns an error, or that has been unloaded, is gone. -/
def step (s : State β γ δ) : Action β γ δ → Option (State β γ δ)
  | .start calls systemTable =>
      (moduleEntryPoint calls systemTable { s with hasUnload := false }).map fun (status, s) =>
        { s with started := !efiError status }
  | .unload calls =>
      (driverUnloadHandler calls s).map fun (status, s) => { s with started := efiError status }
  | .others f => some (s.outside f)

/-- The system table at `a` is not the driver's, and neither are its boot services, whose
`FreePool` gives memory back. -/
def HasServices (owned : List UINT64) (heap : Heap β γ δ) (a : UINT64) : Prop :=
  ∃ t services, heap a = some (.system t) ∧ heap t.bootServices = some (.boot services) ∧
    services.freesPool = true ∧ a ∉ owned ∧ t.bootServices ∉ owned

/-- Boot services stay where a system table has them.  They may be replaced by others. -/
def Outside.LeavesServices (f : Outside β γ δ) : Prop :=
  ∀ owned heap a, HasServices owned heap a → HasServices owned (f.run owned heap) a

/-- What the firmware may do: it starts an image once, with a table that has its
services, and unloads it while it is started, through its handler.  No other code takes
the boot services away. -/
def Enabled (s : State β γ δ) : Action β γ δ → Prop
  | .start calls systemTable =>
      s.started = false ∧ (∃ v, view s.heap systemTable = some v ∧ v.boot.freesPool = true) ∧
        calls.processLibraryConstructorList.LeavesServices ∧
        calls.processModuleEntryPointList.LeavesServices ∧
        calls.processLibraryDestructorList.LeavesServices
  | .unload calls =>
      s.started = true ∧ s.hasUnload = true ∧ calls.processModuleUnloadList.LeavesServices ∧
        calls.processLibraryDestructorList.LeavesServices
  | .others f => f.LeavesServices

/-! ## what the calls leave -/

/-- The copies of the tables are at `boot`, `runtime` and `mCachedST`, and are all that
the driver owns; together they look like `v`. -/
structure Cached (s : State β γ δ) (v : View β γ δ) (boot runtime : UINT64) : Prop where
  owned : s.owned = [runtime, boot, s.mCachedST]
  apart : [runtime, boot, s.mCachedST].Nodup
  cachedST : s.heap s.mCachedST = some (.system ⟨v.revision, boot, runtime, v.other⟩)
  boot : s.heap boot = some (.boot v.boot)
  runtime : s.heap runtime = some (.runtime v.runtime)

section

variable {s s' : State β γ δ} {v : View β γ δ} {boot runtime : UINT64}
  {heap : Heap β γ δ} {a : UINT64}

theorem view_eq_some (h : view heap a = some v) :
    ∃ t, heap a = some (.system t) ∧ heap t.bootServices = some (.boot v.boot) ∧
      heap t.runtimeServices = some (.runtime v.runtime) ∧ t.revision = v.revision ∧
      t.other = v.other := by
  obtain ⟨t, ht, h⟩ := Option.bind_eq_some_iff.mp h
  obtain ⟨b, hb, h⟩ := Option.bind_eq_some_iff.mp h
  obtain ⟨r, hr, h⟩ := Option.bind_eq_some_iff.mp h
  obtain rfl := Option.some.inj h
  obtain ⟨table, heq, ht⟩ := Option.bind_eq_some_iff.mp ht
  obtain ⟨tableBoot, heqBoot, hb⟩ := Option.bind_eq_some_iff.mp hb
  obtain ⟨tableRuntime, heqRuntime, hr⟩ := Option.bind_eq_some_iff.mp hr
  cases table <;> cases ht
  cases tableBoot <;> cases hb
  cases tableRuntime <;> cases hr
  exact ⟨t, heq, heqBoot, heqRuntime, rfl, rfl⟩

/-- What looks like `v` is in the copies. -/
theorem Cached.view (h : Cached s v boot runtime) : CachedST.view s.heap s.mCachedST = some v := by
  simp [CachedST.view, h.cachedST, h.boot, h.runtime, Table.system?, Table.boot?, Table.runtime?]

/-- Code outside of the library leaves the copies alone. -/
theorem Cached.outside (h : Cached s v boot runtime) (f : Outside β γ δ) :
    Cached (s.outside f) v boot runtime := by
  have hkeeps : ∀ a ∈ s.owned, (s.outside f).heap a = s.heap a := f.keeps s.owned s.heap
  rw [h.owned] at hkeeps
  refine ⟨h.owned, h.apart, ?_, ?_, ?_⟩
  · exact (hkeeps s.mCachedST (by simp)).trans h.cachedST
  · exact (hkeeps boot (by simp)).trans h.boot
  · exact (hkeeps runtime (by simp)).trans h.runtime

theorem systemTable_eq {t : SystemTable δ} (h : s.heap a = some (.system t)) :
    s.systemTable a = some t := by
  simp [State.systemTable, h, Table.system?]

/-- The services of the firmware are there for a call. -/
theorem HasServices.read (h : HasServices s.owned s.heap s.mRealST) :
    ∃ services, s.realBootServices = some services ∧ services.freesPool = true := by
  obtain ⟨t, services, ht, hservices, hfrees, -⟩ := h
  refine ⟨services, ?_, hfrees⟩
  simp [State.realBootServices, systemTable_eq ht, hservices, Table.boot?]

/-- What is not in use is not where the services are. -/
theorem HasServices.allocated {owned : List UINT64} {real : UINT64}
    (h : HasServices owned heap real) (hfresh : heap a = none) (table : Option (Table β γ δ)) :
    HasServices (a :: owned) (Function.update heap a table) real := by
  obtain ⟨t, services, ht, hservices, hfrees, hreal, hboot⟩ := h
  have hne : real ≠ a := by
    rintro rfl
    rw [hfresh] at ht
    cases ht
  have hne' : t.bootServices ≠ a := by
    intro heq
    rw [heq, hfresh] at hservices
    cases hservices
  refine ⟨t, services, ?_, ?_, hfrees, by simp [hne, hreal], by simp [hne', hboot]⟩
  · rwa [Function.update_of_ne hne]
  · rwa [Function.update_of_ne hne']

/-- The memory of the driver is not where the services are. -/
theorem HasServices.written {owned : List UINT64} {real : UINT64} (h : HasServices owned heap real)
    (hmem : a ∈ owned) (table : Option (Table β γ δ)) :
    HasServices owned (Function.update heap a table) real := by
  obtain ⟨t, services, ht, hservices, hfrees, hreal, hboot⟩ := h
  refine ⟨t, services, ?_, ?_, hfrees, hreal, hboot⟩
  · rwa [Function.update_of_ne (ne_of_mem_of_not_mem hmem hreal).symm]
  · rwa [Function.update_of_ne (ne_of_mem_of_not_mem hmem hboot).symm]

theorem HasServices.mono {owned owned' : List UINT64} {real : UINT64}
    (h : HasServices owned heap real) (hsub : owned' ⊆ owned) : HasServices owned' heap real := by
  obtain ⟨t, services, ht, hservices, hfrees, hreal, hboot⟩ := h
  exact ⟨t, services, ht, hservices, hfrees, fun hmem => hreal (hsub hmem),
    fun hmem => hboot (hsub hmem)⟩

/-- Memory that is owned can be freed, whatever has been freed before. -/
theorem freePool_head {rest : List UINT64} (hservices : HasServices s.owned s.heap s.mRealST)
    (h : s.owned = a :: rest) :
    ∃ s', s' = { s with owned := rest, heap := Function.update s.heap a none } ∧
      s.freePool a = some s' ∧
      HasServices s'.owned s'.heap s'.mRealST := by
  obtain ⟨services, hread, hfrees⟩ := hservices.read
  refine ⟨_, rfl, by simp [State.freePool, hread, hfrees, h, owedAfter], ?_⟩
  rw [h] at hservices
  exact (hservices.written (List.mem_cons_self ..) none).mono (List.subset_cons_self ..)

/-- The copies can be given back, in the order in which the library does it. -/
theorem Cached.freeTables (h : Cached s v boot runtime)
    (hservices : HasServices s.owned s.heap s.mRealST) :
    ∃ s', s.freeTables = some s' ∧ s'.owned = [] := by
  obtain ⟨howned, happart, hcached, -, -⟩ := h
  simp only [List.nodup_cons, List.mem_cons, List.not_mem_nil, or_false, not_or] at happart
  obtain ⟨⟨-, hruntime⟩, -, -⟩ := happart
  have htable : s.systemTable s.mCachedST = some ⟨v.revision, boot, runtime, v.other⟩ :=
    systemTable_eq hcached
  obtain ⟨s₁, hs₁, hfree, hservices₁⟩ := freePool_head hservices howned
  have htable₁ : s₁.systemTable s₁.mCachedST = some ⟨v.revision, boot, runtime, v.other⟩ := by
    rw [hs₁]
    exact systemTable_eq ((Function.update_of_ne (Ne.symm hruntime) ..).trans hcached)
  have howned₁ : s₁.owned = [boot, s.mCachedST] := by rw [hs₁]
  have hst₁ : s₁.mCachedST = s.mCachedST := by rw [hs₁]
  obtain ⟨s₂, hs₂, hfree₁, hservices₂⟩ := freePool_head hservices₁ howned₁
  have howned₂ : s₂.owned = [s₂.mCachedST] := by rw [hs₂, hst₁]
  obtain ⟨s₃, hs₃, hfree₂, -⟩ := freePool_head hservices₂ howned₂
  refine ⟨s₃, ?_, by rw [hs₃]⟩
  simp only [State.freeTables, htable, hfree, htable₁, hfree₁, hfree₂, Option.bind_eq_bind,
    Option.bind_some]

/-- When what replaces `FreePool` keeps the memory, nothing is given back. -/
theorem Cached.freeTables_of_keeps (h : Cached s v boot runtime) {services : BootServices β}
    (hread : s.realBootServices = some services) (hkeeps : services.freesPool = false) :
    s.freeTables = some s := by
  have htable : s.systemTable s.mCachedST = some ⟨v.revision, boot, runtime, v.other⟩ :=
    systemTable_eq h.cachedST
  have hfree : ∀ a, s.freePool a = some s := fun a => by simp [State.freePool, hread, hkeeps]
  simp only [State.freeTables, htable, hfree, Option.bind_eq_bind, Option.bind_some]

theorem allocatePool_ok {alloc : AllocatePool β γ δ} {a : { a : UINT64 // s.heap a = none }}
    (hservices : HasServices s.owned s.heap s.mRealST) (h : alloc s.heap = .ok a) :
    s.allocatePool alloc = some (.ok (a.val, { s with
      heap := Function.update s.heap a.val (some .uninitialized)
      owned := a.val :: s.owned })) := by
  obtain ⟨services, hread, -⟩ := hservices.read
  simp [State.allocatePool, hread, h, Except.map]

theorem allocatePool_error {alloc : AllocatePool β γ δ} {status : ErrorStatus}
    (hservices : HasServices s.owned s.heap s.mRealST) (h : alloc s.heap = .error status) :
    s.allocatePool alloc = some (.error status) := by
  obtain ⟨services, hread, -⟩ := hservices.read
  simp [State.allocatePool, hread, h, Except.map]

theorem copyMem_eq {dst src : UINT64} {table old : Table β γ δ}
    (hservices : HasServices s.owned s.heap s.mRealST) (hsrc : s.heap src = some table)
    (hdst : s.heap dst = some old) :
    s.copyMem dst src = some { s with heap := Function.update s.heap dst (some table) } := by
  obtain ⟨services, hread, -⟩ := hservices.read
  simp [State.copyMem, hread, hsrc, hdst]

/-- Memory that is in use is not handed out. -/
theorem ne_of_fresh {table : Table β γ δ} (hused : heap a = some table) {b : UINT64}
    (hfresh : heap b = none) :
    a ≠ b := by
  rintro rfl
  rw [hfresh] at hused
  cases hused

/-- Nothing is left of the copies, or all of them are there. -/
def CachedOrGone (v : View β γ δ) (r : UINT64 × State β γ δ) : Prop :=
  (efiError r.1 = true → r.2.owned = []) ∧
    (efiError r.1 = false → (∃ boot runtime, Cached r.2 v boot runtime) ∧
      HasServices r.2.owned r.2.heap r.2.mRealST)

theorem cachedOrGone_error (v : View β γ δ) (status : ErrorStatus) (howned : s.owned = []) :
    CachedOrGone v (status.val, s) := by
  refine ⟨fun _ => howned, fun h => ?_⟩
  rw [status.property] at h
  cases h

theorem efiError_statuses :
    efiError EFI_SUCCESS = false ∧ efiError EFI_INCOMPATIBLE_VERSION = true := by decide

/-- The copy of the runtime services is the last one. -/
theorem cacheRuntimeServices_spec (calls : StartCalls β γ δ) {t : SystemTable δ}
    (hreal : s.heap s.mRealST = some (.system t))
    (hruntime : s.heap t.runtimeServices = some (.runtime v.runtime))
    (hcached : s.heap s.mCachedST = some (.system { t with bootServices := boot }))
    (hboot : s.heap boot = some (.boot v.boot)) (howned : s.owned = [boot, s.mCachedST])
    (hservices : HasServices s.owned s.heap s.mRealST) (hrevision : t.revision = v.revision)
    (hother : t.other = v.other) (hne : s.mRealST ≠ s.mCachedST) :
    ∃ r, s.cacheRuntimeServices calls = some r ∧ CachedOrGone v r := by
  cases halloc : calls.allocateRuntimeServices s.heap with
  | error status =>
      obtain ⟨s₁, hs₁, hfree, hservices₁⟩ := freePool_head hservices howned
      have howned₁ : s₁.owned = [s₁.mCachedST] := by rw [hs₁]
      obtain ⟨s₂, hs₂, hfree₁, -⟩ := freePool_head hservices₁ howned₁
      refine ⟨(status.val, s₂), ?_, cachedOrGone_error v status (by rw [hs₂])⟩
      simp only [State.cacheRuntimeServices, allocatePool_error hservices halloc,
        systemTable_eq hcached, hfree, hfree₁, Option.bind_eq_bind, Option.bind_some]
  | ok runtime =>
      obtain ⟨runtime, hfresh⟩ := runtime
      have hne₁ := ne_of_fresh hruntime hfresh
      have hne₂ := ne_of_fresh hcached hfresh
      have hne₃ := ne_of_fresh hboot hfresh
      have happart : boot ≠ s.mCachedST := by
        rintro rfl
        rw [hcached] at hboot
        cases hboot
      have happart' : t.runtimeServices ≠ s.mCachedST := by
        intro heq
        rw [heq, hcached] at hruntime
        cases hruntime
      -- the memory is allocated, noted in the copy of the system table, and filled
      let table : SystemTable δ := { t with bootServices := boot, runtimeServices := runtime }
      let s₁ : State β γ δ := { s with
        heap := Function.update s.heap runtime (some .uninitialized)
        owned := runtime :: s.owned }
      let s₂ := s₁.writeSystemTable s.mCachedST table
      let s₃ : State β γ δ :=
        { s₂ with heap := Function.update s₂.heap runtime (some (.runtime v.runtime)) }
      have hservices₁ : HasServices s₁.owned s₁.heap s₁.mRealST := hservices.allocated hfresh _
      have hservices₂ : HasServices s₂.owned s₂.heap s₂.mRealST :=
        hservices₁.written (by simp [s₁, howned]) _
      have hservices₃ : HasServices s₃.owned s₃.heap s₃.mRealST :=
        hservices₂.written (List.mem_cons_self ..) _
      have hreal₂ : s₂.systemTable s₂.mRealST = some t := systemTable_eq (by
        simp [s₂, s₁, State.writeSystemTable, Function.update_of_ne, hne,
          ne_of_fresh hreal hfresh, hreal])
      have hcached₁ : s₁.systemTable s₁.mCachedST = some { t with bootServices := boot } :=
        systemTable_eq (by
        simp [s₁, Function.update_of_ne hne₂, hcached])
      have hcached₂ : s₂.systemTable s₂.mCachedST = some table :=
        systemTable_eq (Function.update_self ..)
      have hsrc : s₂.heap t.runtimeServices = some (.runtime v.runtime) := by
        simp [s₂, s₁, State.writeSystemTable, Function.update_of_ne, happart', hne₁, hruntime]
      have hdst : s₂.heap runtime = some .uninitialized := by
        simp [s₂, s₁, State.writeSystemTable, Function.update_of_ne hne₂.symm]
      have hcopy : s₂.copyMem runtime t.runtimeServices = some s₃ := copyMem_eq hservices₂ hsrc hdst
      refine ⟨(EFI_SUCCESS, s₃), ?_, fun h => by simp [efiError_statuses] at h, fun _ =>
        ⟨⟨boot, runtime, ?_, ?_, ?_, ?_, ?_⟩, hservices₃⟩⟩
      · simp only [State.cacheRuntimeServices, allocatePool_ok hservices halloc,
          Option.bind_eq_bind, Option.bind_some]
        change ((s₁.systemTable s₁.mCachedST).bind fun copy => _) = _
        rw [hcached₁]
        change ((s₂.systemTable s₂.mCachedST).bind fun copy =>
          (s₂.systemTable s₂.mRealST).bind fun t =>
          (s₂.copyMem copy.runtimeServices t.runtimeServices).bind fun s => some (EFI_SUCCESS, s)) =
            _
        simp only [hcached₂, hreal₂, table, hcopy, Option.bind_some]
      · exact congrArg (runtime :: ·) howned
      · simp [s₃, s₂, s₁, State.writeSystemTable, happart, hne₂.symm, hne₃.symm]
      · simp [s₃, s₂, s₁, State.writeSystemTable, Function.update_of_ne hne₂, table,
          hrevision, hother]
      · simp [s₃, s₂, s₁, State.writeSystemTable, Function.update_of_ne, hne₃, happart, hboot]
      · exact Function.update_self ..

/-- The copy of the boot services comes before the one of the runtime services. -/
theorem cacheBootServices_spec (calls : StartCalls β γ δ) {t : SystemTable δ}
    (hreal : s.heap s.mRealST = some (.system t))
    (hboot : s.heap t.bootServices = some (.boot v.boot))
    (hruntime : s.heap t.runtimeServices = some (.runtime v.runtime))
    (hcached : s.heap s.mCachedST = some (.system t)) (howned : s.owned = [s.mCachedST])
    (hservices : HasServices s.owned s.heap s.mRealST) (hrevision : t.revision = v.revision)
    (hother : t.other = v.other) (hne : s.mRealST ≠ s.mCachedST) :
    ∃ r, s.cacheBootServices calls = some r ∧ CachedOrGone v r := by
  cases halloc : calls.allocateBootServices s.heap with
  | error status =>
      obtain ⟨s₁, hs₁, hfree, -⟩ := freePool_head hservices howned
      refine ⟨(status.val, s₁), ?_, cachedOrGone_error v status (by rw [hs₁])⟩
      simp only [State.cacheBootServices, allocatePool_error hservices halloc, hfree,
        Option.bind_eq_bind, Option.bind_some]
  | ok copy =>
      obtain ⟨copy, hfresh⟩ := copy
      have hne₀ := ne_of_fresh hreal hfresh
      have hne₁ := ne_of_fresh hboot hfresh
      have hne₂ := ne_of_fresh hruntime hfresh
      have hne₃ := ne_of_fresh hcached hfresh
      have happart : t.bootServices ≠ s.mCachedST := by
        intro heq
        rw [heq, hcached] at hboot
        cases hboot
      have happart' : t.runtimeServices ≠ s.mCachedST := by
        intro heq
        rw [heq, hcached] at hruntime
        cases hruntime
      let s₁ : State β γ δ := { s with
        heap := Function.update s.heap copy (some .uninitialized)
        owned := copy :: s.owned }
      let s₂ := s₁.writeSystemTable s.mCachedST { t with bootServices := copy }
      let s₃ : State β γ δ := { s₂ with heap := Function.update s₂.heap copy (some (.boot v.boot)) }
      have hservices₁ : HasServices s₁.owned s₁.heap s₁.mRealST := hservices.allocated hfresh _
      have hservices₂ : HasServices s₂.owned s₂.heap s₂.mRealST :=
        hservices₁.written (by simp [s₁, howned]) _
      have hservices₃ : HasServices s₃.owned s₃.heap s₃.mRealST :=
        hservices₂.written (List.mem_cons_self ..) _
      have hreal₂ : s₂.systemTable s₂.mRealST = some t := systemTable_eq (by
        simp [s₂, s₁, State.writeSystemTable, Function.update_of_ne, hne, hne₀, hreal])
      have hcached₁ : s₁.systemTable s₁.mCachedST = some t := systemTable_eq (by
        simp [s₁, Function.update_of_ne hne₃, hcached])
      have hcached₂ : s₂.systemTable s₂.mCachedST = some { t with bootServices := copy } :=
        systemTable_eq (Function.update_self ..)
      have hsrc : s₂.heap t.bootServices = some (.boot v.boot) := by
        simp [s₂, s₁, State.writeSystemTable, Function.update_of_ne, happart, hne₁, hboot]
      have hdst : s₂.heap copy = some .uninitialized := by
        simp [s₂, s₁, State.writeSystemTable, Function.update_of_ne hne₃.symm]
      have hcopy : s₂.copyMem copy t.bootServices = some s₃ := copyMem_eq hservices₂ hsrc hdst
      have hrest : s.cacheBootServices calls = s₃.cacheRuntimeServices calls := by
        simp only [State.cacheBootServices, allocatePool_ok hservices halloc, Option.bind_eq_bind,
          Option.bind_some]
        change ((s₁.systemTable s₁.mCachedST).bind fun copy => _) = _
        rw [hcached₁]
        change ((s₂.systemTable s₂.mCachedST).bind fun copy =>
          (s₂.systemTable s₂.mRealST).bind fun t =>
          (s₂.copyMem copy.bootServices t.bootServices).bind fun s =>
            s.cacheRuntimeServices calls) = _
        simp only [hcached₂, hreal₂, hcopy, Option.bind_some]
      rw [hrest]
      have hboot₃ : s₃.heap copy = some (.boot v.boot) := Function.update_self ..
      refine cacheRuntimeServices_spec calls (t := t) ?_ ?_ ?_ hboot₃
        (congrArg (copy :: ·) howned) hservices₃
        hrevision hother hne
      · simp [s₃, s₂, s₁, State.writeSystemTable, Function.update_of_ne, hne, hne₀, hreal]
      · simp [s₃, s₂, s₁, State.writeSystemTable, Function.update_of_ne, hne₂, happart', hruntime]
      · simp [s₃, s₂, s₁, State.writeSystemTable, Function.update_of_ne hne₃]

/-- Either all tables have been copied, or nothing is left of them. -/
theorem cacheTables_spec (calls : StartCalls β γ δ) (hview : view s.heap s.mRealST = some v)
    (hfrees : v.boot.freesPool = true) (howned : s.owned = []) :
    ∃ r, s.cacheTables calls = some r ∧ CachedOrGone v r := by
  obtain ⟨t, hreal, hboot, hruntime, hrevision, hother⟩ := view_eq_some hview
  have hservices : HasServices s.owned s.heap s.mRealST :=
    ⟨t, v.boot, hreal, hboot, hfrees, by simp [howned], by simp [howned]⟩
  cases halloc : calls.allocateCachedST s.heap with
  | error status =>
      refine ⟨(status.val, s), ?_, cachedOrGone_error v status howned⟩
      simp only [State.cacheTables, allocatePool_error hservices halloc, Option.bind_eq_bind,
        Option.bind_some]
  | ok copy =>
      obtain ⟨copy, hfresh⟩ := copy
      have hne₀ := ne_of_fresh hreal hfresh
      have hne₁ := ne_of_fresh hboot hfresh
      have hne₂ := ne_of_fresh hruntime hfresh
      let s₁ : State β γ δ := { s with
        heap := Function.update s.heap copy (some .uninitialized)
        owned := copy :: s.owned
        mCachedST := copy }
      let s₂ : State β γ δ := { s₁ with heap := Function.update s₁.heap copy (some (.system t)) }
      have hservices₁ : HasServices s₁.owned s₁.heap s₁.mRealST := hservices.allocated hfresh _
      have hservices₂ : HasServices s₂.owned s₂.heap s₂.mRealST :=
        hservices₁.written (List.mem_cons_self ..) _
      have hsrc : s₁.heap s₁.mRealST = some (.system t) := by
        simp [s₁, Function.update_of_ne hne₀, hreal]
      have hcopy : s₁.copyMem copy s₁.mRealST = some s₂ :=
        copyMem_eq hservices₁ hsrc (Function.update_self ..)
      have hrest : s.cacheTables calls = s₂.cacheBootServices calls := by
        simp only [State.cacheTables, allocatePool_ok hservices halloc, Option.bind_eq_bind,
          Option.bind_some]
        change (s₁.copyMem copy s₁.mRealST).bind _ = _
        rw [hcopy, Option.bind_some]
      rw [hrest]
      refine cacheBootServices_spec calls (t := t) ?_ ?_ ?_ (Function.update_self ..)
        (congrArg (copy :: ·) howned)
        hservices₂ hrevision hother hne₀
      · simp [s₂, s₁, Function.update_of_ne, hne₀, hreal]
      · simp [s₂, s₁, Function.update_of_ne, hne₁, hboot]
      · simp [s₂, s₁, Function.update_of_ne, hne₂, hruntime]

end

/-! ## starts and unloads -/

section

variable {s s' : State β γ δ} {v : View β γ δ} {boot runtime : UINT64}

/-- The driver sees `v`, and can call the services of the firmware. -/
structure Sees (v : View β γ δ) (s : State β γ δ) : Prop where
  gST : s.gST = s.mCachedST
  cached : ∃ boot runtime, Cached s v boot runtime
  services : HasServices s.owned s.heap s.mRealST

theorem Sees.view (h : Sees v s) : CachedST.view s.heap s.gST = some v := by
  obtain ⟨hgST, ⟨boot, runtime, hcached⟩, -⟩ := h
  rw [hgST]
  exact hcached.view

/-- The driver sees the same, whatever the variables are that only the firmware uses. -/
theorem Sees.congr (h : Sees v s) (hasUnload started : Bool) :
    Sees v { s with hasUnload := hasUnload, started := started } := by
  obtain ⟨hgST, ⟨boot, runtime, howned, happart, hst, hboot, hruntime⟩, hservices⟩ := h
  exact ⟨hgST, ⟨boot, runtime, howned, happart, hst, hboot, hruntime⟩, hservices⟩

theorem Sees.outside (h : Sees v s) {f : Outside β γ δ} (hleaves : f.LeavesServices) :
    Sees v (s.outside f) := by
  obtain ⟨hgST, ⟨boot, runtime, hcached⟩, hservices⟩ := h
  exact ⟨hgST, ⟨boot, runtime, hcached.outside f⟩, hleaves _ _ _ hservices⟩

/-- A start leaves nothing behind when it fails, and the copies when it succeeds. -/
theorem moduleEntryPoint_spec (calls : StartCalls β γ δ) {systemTable : UINT64}
    (hconstructors : calls.processLibraryConstructorList.LeavesServices)
    (hentries : calls.processModuleEntryPointList.LeavesServices)
    (hdestructors : calls.processLibraryDestructorList.LeavesServices)
    (hview : view s.heap systemTable = some v) (hfrees : v.boot.freesPool = true)
    (howned : s.owned = []) :
    ∃ r, moduleEntryPoint calls systemTable s = some r ∧ (efiError r.1 = true → r.2.owned = []) ∧
      (efiError r.1 = false → Sees v r.2) := by
  obtain ⟨t, hreal, -⟩ := view_eq_some hview
  obtain ⟨⟨status, s₁⟩, hcache, herror, hcached⟩ :=
    cacheTables_spec (s := { s with mRealST := systemTable })
    calls hview hfrees howned
  simp only [moduleEntryPoint, systemTable_eq hreal, hcache, Option.bind_eq_bind, Option.bind_some]
  by_cases hold : calls.gUefiDriverRevision ≠ 0 ∧ t.revision < calls.gUefiDriverRevision
  · rw [if_pos hold]
    exact ⟨_, rfl, fun _ => howned, fun h => by simp [efiError_statuses] at h⟩
  · rw [if_neg hold]
    cases hstatus : efiError status with
    | true =>
        exact ⟨_, rfl, fun _ => herror hstatus, fun h => absurd (hstatus.symm.trans h) (by decide)⟩
    | false =>
        obtain ⟨⟨boot, runtime, hcached⟩, hservices⟩ := hcached hstatus
        let s₂ := { s₁.outside calls.processLibraryConstructorList with gST := s₁.mCachedST }
        let s₃ := if calls.gDriverUnloadImageCount ≠ 0 then { s₂ with hasUnload := true } else s₂
        have hsees₂ : Sees v s₂ := by
          obtain ⟨howned, happart, hst, hboot, hruntime⟩ :=
            hcached.outside calls.processLibraryConstructorList
          exact ⟨rfl, ⟨boot, runtime, howned, happart, hst, hboot, hruntime⟩,
            hconstructors _ _ _ hservices⟩
        have hsees₃ : Sees v s₃ := by
          simp only [s₃]
          split
          · exact hsees₂.congr true s₂.started
          · exact hsees₂
        have hsees := hsees₃.outside hentries
        simp only [Bool.false_eq_true, if_false]
        cases hentry : efiError calls.entryStatus with
        | true =>
            obtain ⟨-, ⟨boot, runtime, hcached⟩, hservices⟩ := hsees.outside hdestructors
            obtain ⟨s₄, hfree, howned₄⟩ := hcached.freeTables hservices
            refine ⟨(calls.entryStatus, s₄), ?_, fun _ => howned₄, fun h => ?_⟩
            · simp only [if_true]
              exact congrArg (fun x => x.bind fun s => some (calls.entryStatus, s)) hfree
            · rw [hentry] at h
              cases h
        | false =>
            refine ⟨(calls.entryStatus, s₃.outside calls.processModuleEntryPointList), ?_,
              fun h => ?_, fun _ => hsees⟩
            · simp only [Bool.false_eq_true, if_false]
              rfl
            · rw [hentry] at h
              cases h

/-- Unloading gives the copies back, unless the driver does not want to be unloaded. -/
theorem driverUnloadHandler_spec (calls : UnloadCalls β γ δ)
    (hunloads : calls.processModuleUnloadList.LeavesServices)
    (hdestructors : calls.processLibraryDestructorList.LeavesServices) (hsees : Sees v s) :
    ∃ r, driverUnloadHandler calls s = some r ∧ (efiError r.1 = false → r.2.owned = []) ∧
      (efiError r.1 = true → Sees v r.2) := by
  have hunload := hsees.outside hunloads
  unfold driverUnloadHandler
  cases herror : efiError calls.unloadStatus with
  | true =>
      refine ⟨_, if_pos rfl, fun h => ?_, fun _ => hunload⟩
      rw [herror] at h
      cases h
  | false =>
      obtain ⟨-, ⟨boot, runtime, hcached⟩, hservices⟩ := hunload.outside hdestructors
      obtain ⟨s₁, hfree, howned⟩ := hcached.freeTables hservices
      refine ⟨(calls.unloadStatus, s₁), ?_, fun _ => howned, fun h => ?_⟩
      · simp only [Bool.false_eq_true, if_false, hfree, Option.bind_eq_bind, Option.bind_some]
      · rw [herror] at h
        cases h

/-- While the driver is started it has its copies, and otherwise it has nothing. -/
structure KeepsBooks (s : State β γ δ) : Prop where
  gone : s.started = false → s.owned = []
  cached : s.started = true → ∃ v, Sees v s

/-- A start that succeeds makes the driver see what is there. -/
theorem step_start (calls : StartCalls β γ δ) {systemTable : UINT64} (hbooks : KeepsBooks s)
    (henabled : Enabled s (.start calls systemTable)) (hview : view s.heap systemTable = some v) :
    ∃ s', step s (.start calls systemTable) = some s' ∧ KeepsBooks s' ∧
      (s'.started = true → Sees v s') := by
  obtain ⟨hstopped, ⟨v', hview', hfrees⟩, hconstructors, hentries, hdestructors⟩ := henabled
  obtain rfl := Option.some.inj (hview'.symm.trans hview)
  obtain ⟨⟨status, s₁⟩, hentry, herror, hsees⟩ :=
    moduleEntryPoint_spec
      (s := { s with hasUnload := false }) calls hconstructors hentries hdestructors hview
      hfrees (hbooks.gone hstopped)
  let s' := { s₁ with started := !efiError status }
  have hsees' : s'.started = true → Sees v' s' := fun h =>
    (hsees (by simpa [s'] using h)).congr s₁.hasUnload (!efiError status)
  refine ⟨s', ?_, ⟨fun h => herror (by simpa [s'] using h), fun h => ⟨v', hsees' h⟩⟩, hsees'⟩
  simp only [step, hentry, Option.map_some, s']

/-- An unload that fails changes nothing for the driver. -/
theorem step_unload {calls : UnloadCalls β γ δ} (hsees : Sees v s)
    (henabled : Enabled s (.unload calls)) :
    ∃ s', step s (.unload calls) = some s' ∧ KeepsBooks s' ∧ (s'.started = true → Sees v s') := by
  obtain ⟨-, -, hunloads, hdestructors⟩ := henabled
  obtain ⟨⟨status, s₁⟩, hunload, hgone, hsees₁⟩ :=
    driverUnloadHandler_spec calls hunloads hdestructors hsees
  let s' := { s₁ with started := efiError status }
  have hsees' : s'.started = true → Sees v s' :=
    fun h => (hsees₁ h).congr s₁.hasUnload (efiError status)
  refine ⟨s', ?_, ⟨hgone, fun h => ⟨v, hsees' h⟩⟩, hsees'⟩
  simp only [step, hunload, Option.map_some, s']

/-- When what replaces `FreePool` keeps the memory, the driver goes and its copies stay. -/
theorem step_unload_of_keeps {calls : UnloadCalls β γ δ} {services : BootServices β}
    (hsees : Sees v s) (hstatus : efiError calls.unloadStatus = false)
    (hread : ((s.outside calls.processModuleUnloadList).outside
      calls.processLibraryDestructorList).realBootServices = some services)
    (hkeeps : services.freesPool = false) :
    ∃ s', step s (.unload calls) = some s' ∧ s'.started = false ∧ s'.owned = s.owned := by
  obtain ⟨-, ⟨boot, runtime, hcached⟩, -⟩ := hsees
  have hfree := ((hcached.outside calls.processModuleUnloadList).outside
    calls.processLibraryDestructorList).freeTables_of_keeps hread hkeeps
  refine ⟨{ (s.outside calls.processModuleUnloadList).outside
    calls.processLibraryDestructorList with
    started := false }, ?_, rfl, rfl⟩
  simp only [step, driverUnloadHandler, hstatus, Bool.false_eq_true, if_false, hfree,
    Option.bind_eq_bind, Option.bind_some, Option.map_some]

/-- Other code leaves the books as they are. -/
theorem keepsBooks_outside (hbooks : KeepsBooks s) {f : Outside β γ δ}
    (hleaves : f.LeavesServices) :
    KeepsBooks (s.outside f) := by
  refine ⟨hbooks.gone, fun h => ?_⟩
  obtain ⟨v, hsees⟩ := hbooks.cached h
  exact ⟨v, hsees.outside hleaves⟩

/-- Whatever the firmware may do can be done. -/
theorem keepsBooks_step {action : Action β γ δ} (hbooks : KeepsBooks s)
    (henabled : Enabled s action) :
    ∃ s', step s action = some s' ∧ KeepsBooks s' := by
  cases action with
  | start calls systemTable =>
      obtain ⟨v, hview, -⟩ := henabled.2.1
      obtain ⟨s', hstep, hbooks', -⟩ := step_start calls hbooks henabled hview
      exact ⟨s', hstep, hbooks'⟩
  | unload calls =>
      obtain ⟨v, hsees⟩ := hbooks.cached henabled.1
      obtain ⟨s', hstep, hbooks', -⟩ := step_unload hsees henabled
      exact ⟨s', hstep, hbooks'⟩
  | others f => exact ⟨s.outside f, rfl, keepsBooks_outside hbooks henabled⟩

/-- The step is possible, and the driver is started after it. -/
def StaysStarted (s : State β γ δ) (action : Action β γ δ) : Prop :=
  Enabled s action ∧ ∀ s', step s action = some s' → s'.started = true

/-- What the driver sees stays as long as the driver is started. -/
theorem sees_step {action : Action β γ δ} (hstarted : s.started = true) (hsees : Sees v s)
    (hstays : StaysStarted s action) (hstep : step s action = some s') :
    s'.started = true ∧ Sees v s' := by
  have hstarted' := hstays.2 s' hstep
  refine ⟨hstarted', ?_⟩
  cases action with
  | start calls systemTable =>
      have hstopped := hstays.1.1
      rw [hstarted] at hstopped
      cases hstopped
  | unload calls =>
      obtain ⟨s'', hstep', -, hsees'⟩ := step_unload hsees hstays.1
      obtain rfl := Option.some.inj (hstep'.symm.trans hstep)
      exact hsees' hstarted'
  | others f =>
      obtain rfl := Option.some.inj hstep
      exact hsees.outside hstays.1

end

/-- Over all starts and unloads in which the table of the firmware stays where it is, the
library frees its copies once and at the right time: nothing is left of them when a start
fails or the driver is unloaded, whatever may fail, and memory that has been freed, or that
is not the driver's and not in that table, is not used.  From a start that succeeds on, the
driver sees the tables as they were then, however they change; an unload calls the
`FreePool` that the table of the firmware has at that time. -/
theorem cachedTables_of_run (s₀ s : State β γ δ) (before : List (Action β γ δ))
    (hstopped : s₀.started = false) (howned : s₀.owned = []) (hrun : Run step Enabled s₀ before s) :
    (s.started = false → s.owned = []) ∧
    (∀ action, Enabled s action → ∃ s', step s action = some s') ∧
    (∀ calls systemTable v s₁ after s₂, view s.heap systemTable = some v →
      Enabled s (.start calls systemTable) → step s (.start calls systemTable) = some s₁ →
      s₁.started = true →
      Run step StaysStarted s₁ after s₂ →
        view s₂.heap s₂.gST = some v ∧ s₂.owned.length = 3 ∧ s₂.owned.Nodup) ∧
    ∀ (calls : UnloadCalls β γ δ) (services : BootServices β), s.started = true →
      efiError calls.unloadStatus = false →
      ((s.outside calls.processModuleUnloadList).outside
        calls.processLibraryDestructorList).realBootServices = some services →
      services.freesPool = false →
        ∃ s', step s (.unload calls) = some s' ∧ s'.started = false ∧ s'.owned = s.owned := by
  have hbooks : KeepsBooks s := by
    refine hrun.invariant (fun _ _ _ hbooks henabled hstep => ?_) ⟨fun _ => howned, fun h => ?_⟩
    · obtain ⟨s', hstep', hbooks'⟩ := keepsBooks_step hbooks henabled
      obtain rfl := Option.some.inj (hstep'.symm.trans hstep)
      exact hbooks'
    · rw [hstopped] at h
      cases h
  refine ⟨hbooks.gone, fun action henabled => ?_, ?_, ?_⟩
  · obtain ⟨s', hstep, -⟩ := keepsBooks_step hbooks henabled
    exact ⟨s', hstep⟩
  · intro calls systemTable v s₁ after s₂ hview henabled hstart hstarted hafter
    obtain ⟨s', hstep, -, hsees⟩ := step_start calls hbooks henabled hview
    obtain rfl := Option.some.inj (hstep.symm.trans hstart)
    obtain ⟨-, hsees₂⟩ := hafter.invariant (I := fun s => s.started = true ∧ Sees v s)
      (fun _ _ _ ⟨hstarted, hsees⟩ hstays hstep => sees_step hstarted hsees hstays hstep)
      ⟨hstarted, hsees hstarted⟩
    refine ⟨hsees₂.view, ?_, ?_⟩
    · obtain ⟨-, ⟨boot, runtime, hcached⟩, -⟩ := hsees₂
      simp [hcached.owned]
    · obtain ⟨-, ⟨boot, runtime, hcached⟩, -⟩ := hsees₂
      rw [hcached.owned]
      exact hcached.apart
  · intro calls services hstarted hstatus hread hkeeps
    obtain ⟨v, hsees⟩ := hbooks.cached hstarted
    exact step_unload_of_keeps hsees hstatus hread hkeeps

/-! ## a hooked table -/

theorem efiError_outOfResources : efiError EFI_OUT_OF_RESOURCES = true := by decide

/-- The allocator that has `a` left. -/
def allocateAt (a : UINT64) : AllocatePool Nat Nat Nat := fun heap =>
  if h : heap a = none then .ok ⟨a, h⟩ else .error ⟨EFI_OUT_OF_RESOURCES, efiError_outOfResources⟩

def doesNothing : Outside Nat Nat Nat := ⟨fun _ heap => heap, fun _ _ _ _ => rfl⟩

theorem doesNothing_leavesServices : doesNothing.LeavesServices := fun _ _ _ h => h

/-- The boot services of the firmware after they have been replaced. -/
def hookedBootServices : BootServices Nat := ⟨true, 99⟩

/-- Somebody replaces the boot services of the firmware. -/
def hookBootServices : Outside Nat Nat Nat where
  run owned heap a :=
    if owned.contains a then heap a
    else match heap a with
      | some (.boot _) => some (.boot hookedBootServices)
      | table => table
  keeps _ _ _ h := if_pos (List.contains_iff_mem.mpr h)

theorem hookBootServices_leavesServices : hookBootServices.LeavesServices := by
  rintro owned heap a ⟨t, services, ht, hservices, -, hreal, hboot⟩
  refine ⟨t, hookedBootServices, ?_, ?_, rfl, hreal, hboot⟩
  · simp [hookBootServices, hreal, ht]
  · simp [hookBootServices, hboot, hservices]

def startCalls : StartCalls Nat Nat Nat where
  gUefiDriverRevision := 0
  gDriverUnloadImageCount := 1
  allocateCachedST := allocateAt 0x4000
  allocateBootServices := allocateAt 0x5000
  allocateRuntimeServices := allocateAt 0x6000
  processLibraryConstructorList := doesNothing
  processModuleEntryPointList := doesNothing
  entryStatus := EFI_SUCCESS
  processLibraryDestructorList := doesNothing

/-- The tables of the firmware. -/
def firmwareTables : State Nat Nat Nat where
  heap := fun a =>
    if a = 0x1000 then some (.system ⟨2, 0x2000, 0x3000, 7⟩)
    else if a = 0x2000 then some (.boot ⟨true, 1⟩) else if a = 0x3000 then some
      (.runtime 2) else none
  owned := []
  mRealST := 0
  mCachedST := 0
  gST := 0
  hasUnload := false
  started := false

/-- The hook is for everybody but the driver. -/
theorem cachedTables_of_run_hooked :
    ∃ s₁ s₂, step firmwareTables (.start startCalls 0x1000) = some s₁ ∧
    step s₁ (.others hookBootServices) = some s₂ ∧
      (view s₂.heap 0x1000).map View.boot = some hookedBootServices ∧
      view s₂.heap s₂.gST = some ⟨2, 7, ⟨true, 1⟩, 2⟩ := by
  obtain ⟨s₁, hstart, hstarted, hhooked⟩ :
    ∃ s₁, step firmwareTables (.start startCalls 0x1000) = some s₁ ∧
      s₁.started = true ∧
        (view (s₁.outside hookBootServices).heap 0x1000).map View.boot = some hookedBootServices :=
    ⟨_, rfl, rfl, rfl⟩
  have henabled : Enabled firmwareTables (.start startCalls 0x1000) :=
    ⟨rfl, ⟨⟨2, 7, ⟨true, 1⟩, 2⟩, rfl, rfl⟩, doesNothing_leavesServices, doesNothing_leavesServices,
      doesNothing_leavesServices⟩
  have hstays : StaysStarted s₁ (.others hookBootServices) :=
    ⟨hookBootServices_leavesServices, fun s' hstep => by
    obtain rfl := Option.some.inj hstep
    exact hstarted⟩
  have hsees := (cachedTables_of_run firmwareTables firmwareTables [] rfl rfl .nil).2.2.1
    startCalls 0x1000
    ⟨2, 7, ⟨true, 1⟩, 2⟩ s₁ _ (s₁.outside hookBootServices) rfl henabled hstart hstarted
      (.snoc .nil hstays rfl)
  exact ⟨s₁, s₁.outside hookBootServices, hstart, rfl, hhooked, hsees.1⟩

end MultiArchUefi.CachedST
