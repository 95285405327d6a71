import MultiArchUefi.Setup

/-!
# MultiArchUefi.DriverBinding

The driver in the UEFI driver model.  `DriverEntry` makes a device for the emulator
and installs the driver binding; from then on the firmware asks whether the driver
supports a controller, starts it and stops it, in any order and for any handle.

The emulator can be started once and not be stopped.  Nothing but the protocol that
`DriverStart` keeps open says so: `startsOnce_of_run`.
-/

namespace MultiArchUefi.DriverBinding

open Transition

/-! ## handles -/

/-- The handle that has the protocol `gEfiCallerIdGuid`, if any; who has that open
`EFI_OPEN_PROTOCOL_BY_DRIVER`; `This->DriverBindingHandle` once the driver binding is
installed; what the emulator has set up, and how often it has been started. -/
structure Binding where
  mDevice : Option UINT64
  byDriver : Option UINT64
  driverBindingHandle : Option UINT64
  setup : Setup
  starts : Nat

def EFI_ACCESS_DENIED : UINT64 := 0x800000000000000f

/-- `gBS->OpenProtocol` for `gEfiCallerIdGuid`, `EFI_OPEN_PROTOCOL_BY_DRIVER`: it may fail
for reasons of its own, and a protocol is open for one driver at a time. -/
def openProtocol (fails : Option ErrorStatus) (agent controllerHandle : UINT64) (s : Binding) :
    UINT64 × Binding :=
  match fails with
  | some status => (status.val, s)
  | none =>
      if s.mDevice = some controllerHandle then
        match s.byDriver with
        | none => (EFI_SUCCESS, { s with byDriver := some agent })
        | some other => (if other = agent then EFI_ALREADY_STARTED else EFI_ACCESS_DENIED, s)
      else (EFI_UNSUPPORTED, s)

/-- `gBS->CloseProtocol` -/
def closeProtocol (agent controllerHandle : UINT64) (s : Binding) : Binding :=
  if s.mDevice = some controllerHandle ∧ s.byDriver = some agent then
    { s with byDriver := none } else s

/-! ## the driver -/

/-- What the calls of `DriverEntry` return. -/
structure EntryServices where
  handleProtocol : UINT64
  locateCpuArch : UINT64
  installMultiple : Except ErrorStatus UINT64
  installDriverBinding : Option ErrorStatus

/-- `DriverEntry` -/
def driverEntry (v : EntryServices) (imageHandle : UINT64) (s : Binding) : UINT64 × Binding :=
  if efiError v.handleProtocol then (v.handleProtocol, s)
  else if v.locateCpuArch ≠ EFI_SUCCESS then (v.locateCpuArch, s)
  else
    match v.installMultiple with
    | .error status => (status.val, s)
    | .ok device =>
        let s := { s with mDevice := some device }
        match v.installDriverBinding with
        | some status => (status.val, { s with mDevice := none })
        | none => (EFI_SUCCESS, { s with driverBindingHandle := some imageHandle })

/-- `DriverSupported` -/
def driverSupported (fails : Option ErrorStatus) (agent controllerHandle : UINT64) (s : Binding) :
    UINT64 × Binding :=
  let (status, s) := openProtocol fails agent controllerHandle s
  if efiError status then (status, s) else (EFI_SUCCESS, closeProtocol agent controllerHandle s)

/-- `DriverStart`; `none` when it does not return. -/
def driverStart (b : Build) (fails : Option ErrorStatus) (v : StartServices)
    (agent controllerHandle : UINT64) (s : Binding) : Option (UINT64 × Binding) :=
  let (status, s) := openProtocol fails agent controllerHandle s
  if efiError status then some (status, s)
  else
    (emulatorStart b controllerHandle v s.setup).map fun (status, setup) =>
      if efiError status then
        (status, closeProtocol agent controllerHandle { s with setup := setup })
      else (status, { s with setup := setup, starts := s.starts + 1 })

/-- `EmulatorStop` -/
def emulatorStop : UINT64 := EFI_UNSUPPORTED

/-- `DriverStop`, for a controller without children. -/
def driverStop (agent controllerHandle : UINT64) (s : Binding) : UINT64 × Binding :=
  if efiError emulatorStop then (emulatorStop, s) else
    (EFI_SUCCESS, closeProtocol agent controllerHandle s)

/-! ## runs -/

/-- What the firmware calls, and what other code does: another driver opens or closes
the protocol, or the interrupts, the handlers or the protocols change. -/
inductive Action where
  | driverEntry (v : EntryServices) (imageHandle : UINT64)
  | driverSupported (fails : Option ErrorStatus) (controllerHandle : UINT64)
  | driverStart (fails : Option ErrorStatus) (v : StartServices) (controllerHandle : UINT64)
  | driverStop (controllerHandle : UINT64)
  | otherOpens (fails : Option ErrorStatus) (agent controllerHandle : UINT64)
  | otherCloses (agent controllerHandle : UINT64)
  | others (interrupts : Interrupts) (handlers : Nat → UINT64)
      (protocols : List (UINT64 × EmulatorInterface))

/-- The driver is entered once, and its binding is called once it is installed. -/
def step (b : Build) (s : Binding) : Action → Option Binding
  | .driverEntry v imageHandle =>
      if s.mDevice = none ∧ s.driverBindingHandle = none then some
        (driverEntry v imageHandle s).2 else none
  | .driverSupported fails controllerHandle =>
      s.driverBindingHandle.map fun agent => (driverSupported fails agent controllerHandle s).2
  | .driverStart fails v controllerHandle =>
      s.driverBindingHandle.bind fun agent =>
        (driverStart b fails v agent controllerHandle s).map Prod.snd
  | .driverStop controllerHandle =>
      s.driverBindingHandle.map fun agent => (driverStop agent controllerHandle s).2
  | .otherOpens fails agent controllerHandle => some (openProtocol fails agent controllerHandle s).2
  | .otherCloses agent controllerHandle => some (closeProtocol agent controllerHandle s)
  | .others interrupts handlers protocols =>
      some { s with setup :=
        { s.setup with interrupts := interrupts, handlers := handlers, protocols := protocols } }

/-- No other driver uses the handle of this one as its own. -/
def OwnAgents (s : Binding) : Action → Prop
  | .otherOpens _ agent _ => s.driverBindingHandle ≠ some agent
  | .otherCloses agent _ => s.driverBindingHandle ≠ some agent
  | _ => True

/-- Other code changes neither the interrupts nor the handlers nor the protocols. -/
def Action.LeavesSetup : Action → Prop
  | .others .. => False
  | _ => True

/-- The driver keeps the protocol of its device open. -/
def Binding.Opened (s : Binding) : Prop :=
  ∃ agent, s.driverBindingHandle = some agent ∧ s.byDriver = some agent

/-- The driver has a device while its binding is installed, and has started the
emulator once or not at all. -/
structure Consistent (s : Binding) : Prop where
  device : s.mDevice = none → s.byDriver = none ∧ s.driverBindingHandle = none
  opened : s.Opened → s.starts = 1
  closed : ¬ s.Opened → s.starts = 0

/-! ## opening and closing -/

section

variable {b : Build} {s s' : Binding} {fails : Option ErrorStatus} {agent controllerHandle : UINT64}

/-- The protocol can be opened when it is there and nobody has it open. -/
theorem openProtocol_cases (fails : Option ErrorStatus) (agent controllerHandle : UINT64)
    (s : Binding) :
    (efiError (openProtocol fails agent controllerHandle s).1 = true ∧
        (openProtocol fails agent controllerHandle s).2 = s) ∨
      (s.mDevice = some controllerHandle ∧ s.byDriver = none ∧
        openProtocol fails agent controllerHandle s =
          (EFI_SUCCESS, { s with byDriver := some agent })) := by
  unfold openProtocol
  cases fails with
  | some status => exact .inl ⟨status.property, rfl⟩
  | none =>
      by_cases hdevice : s.mDevice = some controllerHandle
      · cases hopen : s.byDriver with
        | none => exact .inr ⟨hdevice, rfl, by simp [hdevice]⟩
        | some other =>
            have herror : efiError
                (if other = agent then EFI_ALREADY_STARTED else EFI_ACCESS_DENIED) = true := by
              split <;> decide
            exact .inl (by simpa [hdevice] using herror)
      · have hunsupported : efiError EFI_UNSUPPORTED = true := by decide
        exact .inl (by simpa [hdevice] using hunsupported)

/-- Closing what has just been opened. -/
theorem closeProtocol_opened (hdevice : s.mDevice = some controllerHandle) :
    closeProtocol agent controllerHandle { s with byDriver := some agent } =
      { s with byDriver := none } :=
  if_pos ⟨hdevice, rfl⟩

/-- `DriverSupported` opens the protocol and closes it again. -/
theorem driverSupported_eq (fails : Option ErrorStatus) (agent controllerHandle : UINT64)
    (s : Binding) :
    (driverSupported fails agent controllerHandle s).2 = s ∧
      (efiError (driverSupported fails agent controllerHandle s).1 = false →
        s.mDevice = some controllerHandle ∧ s.byDriver = none) := by
  rcases openProtocol_cases fails agent controllerHandle s
    with ⟨herror, hsame⟩ | ⟨hdevice, hfree, hopen⟩
  · simp [driverSupported, herror, hsame]
  · have hsuccess : efiError EFI_SUCCESS = false := by decide
    simp only [driverSupported, hopen, hsuccess, Bool.false_eq_true, if_false,
      closeProtocol_opened hdevice]
    exact ⟨by rw [← hfree], fun _ => ⟨hdevice, hfree⟩⟩

/-- `DriverStop` does nothing. -/
theorem driverStop_eq (agent controllerHandle : UINT64) (s : Binding) :
    driverStop agent controllerHandle s = (EFI_UNSUPPORTED, s) := if_pos rfl

/-- What `DriverStart` comes to: it is refused, or starts the emulator, and then the
protocol stays open if that succeeds. -/
theorem driverStart_cases {v : StartServices} {r : UINT64 × Binding}
    (h : driverStart b fails v agent controllerHandle s = some r) :
    (efiError r.1 = true ∧ r.2 = s) ∨
      (s.mDevice = some controllerHandle ∧ s.byDriver = none ∧ ∃ setup,
        emulatorStart b controllerHandle v s.setup = some (r.1, setup) ∧
        r.2 = if efiError r.1 then { s with setup := setup }
          else { s with byDriver := some agent, setup := setup, starts := s.starts + 1 }) := by
  unfold driverStart at h
  rcases openProtocol_cases fails agent controllerHandle s
    with ⟨herror, hsame⟩ | ⟨hdevice, hfree, hopen⟩
  · simp only [herror, if_true, Option.some.injEq] at h
    obtain rfl := h
    exact .inl ⟨herror, hsame⟩
  · have hsuccess : efiError EFI_SUCCESS = false := by decide
    simp only [hopen, hsuccess, Bool.false_eq_true, if_false] at h
    obtain ⟨⟨status, setup⟩, hstart, rfl⟩ := Option.map_eq_some_iff.mp h
    refine .inr ⟨hdevice, hfree, setup, ?_, ?_⟩
    · cases herror : efiError status <;> simpa [herror] using hstart
    · cases herror : efiError status with
      | true =>
          have hdevice' : ({ s with setup := setup } : Binding).mDevice = some controllerHandle :=
            hdevice
          simp only [herror, if_true]
          exact (closeProtocol_opened hdevice').trans (by rw [← hfree])
      | false => simp [herror]

theorem ne_success_of_efiError {status : UINT64} (h : efiError status = true) :
    status ≠ EFI_SUCCESS := by
  rintro rfl
  exact efiError_success h

/-- `DriverEntry` is all or nothing. -/
theorem driverEntry_cases (v : EntryServices) (imageHandle : UINT64)
    (hfresh : s.mDevice = none ∧ s.driverBindingHandle = none) :
    ((driverEntry v imageHandle s).1 ≠ EFI_SUCCESS ∧ (driverEntry v imageHandle s).2 = s) ∨
      ∃ device, v.installMultiple = .ok device ∧ driverEntry v imageHandle s =
        (EFI_SUCCESS, { s with
          mDevice := some device
          driverBindingHandle := some imageHandle }) := by
  unfold driverEntry
  split
  · exact .inl ⟨ne_success_of_efiError ‹_›, rfl⟩
  split
  · exact .inl ⟨‹_›, rfl⟩
  cases v.installMultiple with
  | error status => exact .inl ⟨ne_success_of_efiError status.property, rfl⟩
  | ok device =>
      cases v.installDriverBinding with
      | some status => exact .inl ⟨ne_success_of_efiError status.property, by simp [← hfresh.1]⟩
      | none => exact .inr ⟨device, rfl, rfl⟩

/-- Nobody opens the protocol for the driver but `DriverStart`. -/
theorem opened_otherOpens (hagent : s.driverBindingHandle ≠ some agent) :
    ¬ { s with byDriver := some agent }.Opened := by
  rintro ⟨agent', hbinding, hopen⟩
  obtain rfl := Option.some.inj hopen
  exact hagent hbinding

theorem not_opened_of_byDriver (h : s.byDriver = none) : ¬ s.Opened := by
  rintro ⟨agent, -, hopen⟩
  rw [h] at hopen
  cases hopen

/-- Closing a protocol that another driver has opened changes nothing for this one. -/
theorem closeProtocol_other (hagent : s.driverBindingHandle ≠ some agent) :
    (closeProtocol agent controllerHandle s).Opened ↔ s.Opened := by
  unfold closeProtocol
  split
  · rename_i hclose
    refine iff_of_false (not_opened_of_byDriver rfl) ?_
    rintro ⟨agent', hbinding, hopen⟩
    obtain rfl := Option.some.inj (hclose.2.symm.trans hopen)
    exact hagent hbinding
  · exact Iff.rfl

theorem consistent_step {action : Action} (hs : Consistent s) (hown : OwnAgents s action)
    (hstep : step b s action = some s') : Consistent s' := by
  cases action with
  | driverEntry v imageHandle =>
      simp only [step] at hstep
      split at hstep
      · rename_i hfresh
        obtain rfl := Option.some.inj hstep
        obtain ⟨hdriver, -⟩ := hs.device hfresh.1
        have hstarts := hs.closed (not_opened_of_byDriver hdriver)
        rcases driverEntry_cases v imageHandle hfresh with ⟨-, hsame⟩ | ⟨device, -, hentry⟩
        · rwa [hsame]
        · rw [hentry]
          exact ⟨fun h => (by cases h), fun h => absurd h (not_opened_of_byDriver hdriver),
            fun _ => hstarts⟩
      · cases hstep
  | driverSupported fails controllerHandle =>
      obtain ⟨agent, -, rfl⟩ := Option.map_eq_some_iff.mp hstep
      rwa [(driverSupported_eq fails agent controllerHandle s).1]
  | driverStart fails v controllerHandle =>
      obtain ⟨agent, hbinding, hstep⟩ := Option.bind_eq_some_iff.mp hstep
      obtain ⟨r, hstart, rfl⟩ := Option.map_eq_some_iff.mp hstep
      rcases driverStart_cases hstart with ⟨-, hsame⟩ | ⟨hdevice, hfree, setup, -, hr⟩
      · rwa [hsame]
      · have hstarts := hs.closed (not_opened_of_byDriver hfree)
        rw [hr]
        cases herror : efiError r.1 with
        | true =>
            have hclosed : ¬ { s with setup := setup }.Opened := not_opened_of_byDriver hfree
            exact ⟨hs.device, fun h => absurd h hclosed, fun _ => hstarts⟩
        | false =>
            have hopened : { s with
                byDriver := some agent
                setup := setup
                starts := s.starts + 1 }.Opened := ⟨agent, hbinding, rfl⟩
            refine ⟨fun h => ?_, fun _ => by simp [hstarts], fun h => absurd hopened h⟩
            rw [hdevice] at h
            cases h
  | driverStop controllerHandle =>
      obtain ⟨agent, -, rfl⟩ := Option.map_eq_some_iff.mp hstep
      rwa [driverStop_eq]
  | otherOpens fails agent controllerHandle =>
      obtain rfl := Option.some.inj hstep
      rcases openProtocol_cases fails agent controllerHandle s
        with ⟨-, hsame⟩ | ⟨hdevice, hfree, hopen⟩
      · rwa [hsame]
      · have hstarts := hs.closed (not_opened_of_byDriver hfree)
        rw [hopen]
        refine ⟨fun h => ?_, fun h => absurd h (opened_otherOpens hown), fun _ => hstarts⟩
        rw [hdevice] at h
        cases h
  | otherCloses agent controllerHandle =>
      obtain rfl := Option.some.inj hstep
      have hopened : (closeProtocol agent controllerHandle s).Opened ↔ s.Opened :=
        closeProtocol_other hown
      have hstarts : (closeProtocol agent controllerHandle s).starts = s.starts := by
        unfold closeProtocol
        split <;> rfl
      refine ⟨fun h => ?_, fun h => ?_, fun h => ?_⟩
      · unfold closeProtocol at h ⊢
        split at h <;> simp_all [hs.device]
      · rw [hstarts, hs.opened (hopened.mp h)]
      · rw [hstarts, hs.closed fun h' => h (hopened.mpr h')]
  | others interrupts handlers protocols =>
      obtain rfl := Option.some.inj hstep
      exact ⟨hs.device, hs.opened, hs.closed⟩

/-- Nothing that is called afterwards starts the emulator again, or stops it, and only other
code changes what has been set up. -/
theorem opened_step {action : Action} (hs : s.Opened) (hown : OwnAgents s action)
    (hstep : step b s action = some s') :
    s'.Opened ∧ s'.setup.gCpu = s.setup.gCpu ∧ s'.setup.mReal = s.setup.mReal ∧
      (action.LeavesSetup → s'.setup = s.setup) := by
  obtain ⟨agent, hbinding, hopen⟩ := hs
  have hbusy : s.byDriver ≠ none := by simp [hopen]
  suffices hsame : s' = s ∨ ∃ interrupts handlers protocols,
      action = .others interrupts handlers protocols ∧
        s' = { s with
          setup := { s.setup with
            interrupts := interrupts
            handlers := handlers
            protocols := protocols } } by
    rcases hsame with rfl | ⟨interrupts, handlers, protocols, rfl, rfl⟩
    · exact ⟨⟨agent, hbinding, hopen⟩, rfl, rfl, fun _ => rfl⟩
    · exact ⟨⟨agent, hbinding, hopen⟩, rfl, rfl, False.elim⟩
  cases action with
  | driverEntry v imageHandle => simp [step, hbinding] at hstep
  | driverSupported fails controllerHandle =>
      obtain ⟨agent', -, rfl⟩ := Option.map_eq_some_iff.mp hstep
      exact .inl (driverSupported_eq fails agent' controllerHandle s).1
  | driverStart fails v controllerHandle =>
      obtain ⟨agent', -, hstep⟩ := Option.bind_eq_some_iff.mp hstep
      obtain ⟨r, hstart, rfl⟩ := Option.map_eq_some_iff.mp hstep
      rcases driverStart_cases hstart with ⟨-, hsame⟩ | ⟨-, hfree, -⟩
      · exact .inl hsame
      · exact absurd hfree hbusy
  | driverStop controllerHandle =>
      obtain ⟨agent', -, rfl⟩ := Option.map_eq_some_iff.mp hstep
      exact .inl (by rw [driverStop_eq])
  | otherOpens fails agent' controllerHandle =>
      obtain rfl := Option.some.inj hstep
      rcases openProtocol_cases fails agent' controllerHandle s with ⟨-, hsame⟩ | ⟨-, hfree, -⟩
      · exact .inl hsame
      · exact absurd hfree hbusy
  | otherCloses agent' controllerHandle =>
      obtain rfl := Option.some.inj hstep
      refine .inl (if_neg fun hclose => hown ?_)
      rw [hbinding, ← hopen, hclose.2]
  | others interrupts handlers protocols =>
      obtain rfl := Option.some.inj hstep
      exact .inr ⟨interrupts, handlers, protocols, rfl, rfl⟩

/-! ## the firmware's functions -/

/-- The binding as `Setup` has it. -/
def Binding.toDriver (s : Binding) : Driver := ⟨s.setup, decide (s.starts = 1)⟩

/-- A start that gets to the emulator rolls back when it fails. -/
def StartsRollBack (b : Build) (s : Binding) : Action → Prop
  | .driverStart _ v controllerHandle => s.byDriver = none → RollsBack b controllerHandle v s.setup
  | _ => True

/-- A start of the emulator is one in `Setup`. -/
theorem driverStep_toDriver {v : StartServices} {status : UINT64} {setup : Setup}
    (hstarts : s.starts = 0)
    (hstart : emulatorStart b controllerHandle v s.setup = some (status, setup)) :
    driverStep b controllerHandle s.toDriver (.driverStart none v) = some
      ⟨setup, !efiError status⟩ := by
  have hsuccess : efiError EFI_SUCCESS = false := by decide
  simp [driverStep, MultiArchUefi.driverStart, openProtocolStatus, Binding.toDriver, hstarts,
    hsuccess, hstart]

theorem firmwareKept_binding {action : Action} {firmware : InterruptServices} (hs : Consistent s)
    (hkept : FirmwareKept b firmware s.toDriver) (hback : StartsRollBack b s action)
    (hstep : step b s action = some s') : FirmwareKept b firmware s'.toDriver := by
  have hsame : ∀ s'' : Binding, s''.setup = s.setup → s''.starts = s.starts →
      FirmwareKept b firmware s''.toDriver := by
    intro s'' hsetup hstarts
    rwa [Binding.toDriver, hsetup, hstarts]
  cases action with
  | driverEntry v imageHandle =>
      simp only [step] at hstep
      split at hstep
      · rename_i hfresh
        obtain rfl := Option.some.inj hstep
        rcases driverEntry_cases v imageHandle hfresh with ⟨-, hentry⟩ | ⟨device, -, hentry⟩
        · rwa [hentry]
        · rw [hentry]
          exact hsame _ rfl rfl
      · cases hstep
  | driverSupported fails controllerHandle =>
      obtain ⟨agent, -, rfl⟩ := Option.map_eq_some_iff.mp hstep
      rwa [(driverSupported_eq fails agent controllerHandle s).1]
  | driverStart fails v controllerHandle =>
      obtain ⟨agent, hbinding, hstep⟩ := Option.bind_eq_some_iff.mp hstep
      obtain ⟨r, hstart, rfl⟩ := Option.map_eq_some_iff.mp hstep
      rcases driverStart_cases hstart with ⟨-, hr⟩ | ⟨hdevice, hfree, setup, hemulator, hr⟩
      · rwa [hr]
      · have hstarts := hs.closed (not_opened_of_byDriver hfree)
        have hstarts' : StartRollsBack b controllerHandle s.toDriver (.driverStart none v) :=
          fun _ => hback hfree
        have hkept' := firmwareKept_step hkept hstarts' (driverStep_toDriver hstarts hemulator)
        have hdriver : r.2.toDriver = ⟨setup, !efiError r.1⟩ := by
          cases herror : efiError r.1 <;> simp [hr, herror, Binding.toDriver, hstarts]
        rwa [hdriver]
  | driverStop controllerHandle =>
      obtain ⟨agent, -, rfl⟩ := Option.map_eq_some_iff.mp hstep
      rwa [driverStop_eq]
  | otherOpens fails agent controllerHandle =>
      obtain rfl := Option.some.inj hstep
      rcases openProtocol_cases fails agent controllerHandle s with ⟨-, hr⟩ | ⟨-, -, hr⟩
      · rwa [hr]
      · rw [hr]
        exact hsame _ rfl rfl
  | otherCloses agent controllerHandle =>
      obtain rfl := Option.some.inj hstep
      unfold closeProtocol
      split
      · exact hsame _ rfl rfl
      · exact hkept
  | others interrupts handlers protocols =>
      obtain rfl := Option.some.inj hstep
      have hbetween : StartRollsBack b 0 s.toDriver (.others interrupts handlers protocols) :=
        trivial
      exact firmwareKept_step hkept hbetween rfl

end

/-- The driver before `DriverEntry`. -/
structure Fresh (s : Binding) : Prop where
  mDevice : s.mDevice = none
  byDriver : s.byDriver = none
  driverBindingHandle : s.driverBindingHandle = none
  starts : s.starts = 0

theorem Fresh.consistent {s : Binding} (h : Fresh s) : Consistent s :=
  ⟨fun _ => ⟨h.byDriver, h.driverBindingHandle⟩,
    fun hs => absurd hs (not_opened_of_byDriver h.byDriver), fun _ => h.starts⟩

/-- Whatever the firmware and other drivers call, and whatever fails, the emulator is
started once at most.  It has been started exactly while the driver keeps its protocol
open; it stays started then, every later start is refused without a change, the firmware's
interrupt services are hooked for good, and what has been set up stays as it is, the handlers
and the protocols too, unless other code changes it.  Asking for support changes nothing, and
the driver supports a controller only as long as the emulator can be started. -/
theorem startsOnce_of_run (b : Build) (s₀ s : Binding) (actions : List Action) (hfresh : Fresh s₀)
    (hrun : Run (step b) OwnAgents s₀ actions s) :
    s.starts ≤ 1 ∧ (s.starts = 1 ↔ s.Opened) ∧
    (∀ fails agent controllerHandle, (driverSupported fails agent controllerHandle s).2 = s ∧
      (efiError (driverSupported fails agent controllerHandle s).1 = false → s.starts = 0)) ∧
    (s.starts = 1 → ∀ after s', Run (step b) OwnAgents s after s' →
      s'.starts = 1 ∧ s'.setup.gCpu = s.setup.gCpu ∧ s'.setup.mReal = s.setup.mReal ∧
        (Run (step b) (fun s action => OwnAgents s action ∧ action.LeavesSetup) s after s' →
          s'.setup = s.setup) ∧
        ∀ fails v agent controllerHandle, ∃ status, efiError status = true ∧
          driverStart b fails v agent controllerHandle s' = some (status, s')) ∧
    (Run (step b) (fun s action => OwnAgents s action ∧ StartsRollBack b s action) s₀ actions s →
      s.setup.gCpu = if s.starts = 1 then b.efiHooks else s₀.setup.gCpu) := by
  have hs : Consistent s := hrun.invariant (fun _ _ _ => consistent_step) hfresh.consistent
  have hiff : s.starts = 1 ↔ s.Opened := by
    refine ⟨fun h => ?_, hs.opened⟩
    by_contra hclosed
    rw [hs.closed hclosed] at h
    cases h
  refine ⟨?_, hiff, fun fails agent controllerHandle => ?_, fun hstarted after s' hafter => ?_,
    fun hback => ?_⟩
  · by_cases hopened : s.Opened
    · rw [hs.opened hopened]
    · rw [hs.closed hopened]
      exact Nat.zero_le _
  · obtain ⟨hsame, hfree⟩ := driverSupported_eq fails agent controllerHandle s
    exact ⟨hsame, fun hsupported => hs.closed (not_opened_of_byDriver (hfree hsupported).2)⟩
  · obtain ⟨hs', hopened, hcpu, hreal⟩ := hafter.invariant
      (I := fun t => Consistent t ∧ t.Opened ∧ t.setup.gCpu = s.setup.gCpu ∧
        t.setup.mReal = s.setup.mReal)
      (fun _ _ _ ⟨ht, hopened, hcpu, hreal⟩ hown hstep => by
        obtain ⟨hopened', hcpu', hreal', -⟩ := opened_step hopened hown hstep
        exact ⟨consistent_step ht hown hstep, hopened', hcpu'.trans hcpu, hreal'.trans hreal⟩)
      ⟨hs, hiff.mp hstarted, rfl, rfl⟩
    refine ⟨hs'.opened hopened, hcpu, hreal, fun hleaves => ?_,
      fun fails v agent controllerHandle => ?_⟩
    · exact (hleaves.invariant (I := fun t => t.Opened ∧ t.setup = s.setup)
        (fun _ _ _ ⟨hopened, hsame⟩ ⟨hown, hleaves⟩ hstep => by
          obtain ⟨hopened', -, -, hsame'⟩ := opened_step hopened hown hstep
          exact ⟨hopened', (hsame' hleaves).trans hsame⟩) ⟨hiff.mp hstarted, rfl⟩).2
    obtain ⟨owner, -, hopen⟩ := hopened
    rcases openProtocol_cases fails agent controllerHandle s' with ⟨herror, hsame⟩ | ⟨-, hfree, -⟩
    · refine ⟨_, herror, ?_⟩
      simp only [driverStart, herror, if_true, hsame]
    · rw [hopen] at hfree
      cases hfree
  · have hkept : Consistent s ∧ FirmwareKept b s₀.setup.gCpu s.toDriver := by
      refine hback.invariant (I := fun t => Consistent t ∧ FirmwareKept b s₀.setup.gCpu t.toDriver)
        (fun _ _ _ ⟨ht, hkept⟩ ⟨hown, hback⟩ hstep =>
          ⟨consistent_step ht hown hstep, firmwareKept_binding ht hkept hback hstep⟩)
            ⟨hfresh.consistent, ?_⟩
      have hstarts := hfresh.starts
      exact ⟨fun _ => rfl, fun h => by simp [Binding.toDriver, hstarts] at h⟩
    split
    · rename_i hstarted
      exact (hkept.2.opened (decide_eq_true hstarted)).1
    · rename_i hstarted
      exact hkept.2.closed (decide_eq_false hstarted)

def freshBinding : Binding := ⟨none, none, none, hostSetup 0, 0⟩

def entryServices : EntryServices := ⟨EFI_SUCCESS, EFI_SUCCESS, .ok 0x40001000, none⟩

/-- The driver is entered and started, and a second start does nothing. -/
theorem startsOnce_of_run_started : ∃ s, Run (step hostBuild) OwnAgents freshBinding
      [.driverEntry entryServices 0x60001000, .driverStart none (startServices .ok) 0x40001000] s ∧
    s.starts = 1 ∧ ∃ status, efiError status = true ∧
      driverStart hostBuild none (startServices .ok) 0x60001000 0x40001000 s = some
        (status, s) := by
  obtain ⟨s₁, hentry⟩ :
    ∃ s₁, step hostBuild freshBinding (.driverEntry entryServices 0x60001000) = some s₁ := ⟨_, rfl⟩
  obtain ⟨s, hstart, hstarts⟩ :
    ∃ s, step hostBuild s₁ (.driverStart none (startServices .ok) 0x40001000) = some s ∧
      s.starts = 1 := by
    obtain rfl := Option.some.inj hentry
    exact ⟨_, rfl, rfl⟩
  have hentered : OwnAgents freshBinding (.driverEntry entryServices 0x60001000) := trivial
  have hstarted : OwnAgents s₁ (.driverStart none (startServices .ok) 0x40001000) := trivial
  have hrun := (Run.nil.snoc hentered hentry).snoc hstarted hstart
  have hfresh : Fresh freshBinding := ⟨rfl, rfl, rfl, rfl⟩
  obtain ⟨-, -, -, hlater, -⟩ := startsOnce_of_run hostBuild freshBinding s _ hfresh hrun
  exact ⟨s, hrun, hstarts, (hlater hstarts [] s .nil).2.2.2.2 none _ _ _⟩

end MultiArchUefi.DriverBinding
