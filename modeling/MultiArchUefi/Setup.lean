import MultiArchUefi.Interrupt
import MultiArchUefi.Transfer
import MultiArchUefi.ExceptionCallback
import MultiArchUefi.Lib.Run

/-!
# MultiArchUefi.Setup

`EmulatorStart`: the hooks, the engines, the exception handlers and the
protocols are set up one after the other, and a stage that fails rolls back what
has been set up before it.  Each stage has its own way out; `allOrNothing_iff`
says when all of them lead back to the start.

`CpuCleanup` gives memory back and is left out, like everything else that
neither `gCpu` nor the handlers nor the installed protocols show.
-/

namespace MultiArchUefi

open Transition

/-! ## what is set up -/

/-- The interrupt services of `EFI_CPU_ARCH_PROTOCOL`, by the addresses of their functions. -/
structure InterruptServices where
  enableInterrupt : UINT64
  disableInterrupt : UINT64
  getInterruptState : UINT64
deriving DecidableEq, Repr

/-- The interfaces that the driver installs. -/
inductive EmulatorInterface where
  | mEmulatorProtocolX64
  | mEmulatorProtocolAArch64
  | mEmuTestProtocol
deriving DecidableEq, Repr

/-- A build of the driver: `NDEBUG`, `MAU_SUPPORTS_X64_BINS`,
`MAU_SUPPORTS_AARCH64_BINS`, `MAU_ON_PRIVATE_STACK`, `MAU_EMU_TIMEOUT_NONE`, and
where its own functions are. -/
structure Build where
  host : Host
  ndebug : Bool
  supportsX64Bins : Bool
  supportsAArch64Bins : Bool
  onPrivateStack : Bool
  emuTimeoutNone : Bool
  efiHooks : InterruptServices
  emulatorSyncExceptionCallback : { address : UINT64 // address ≠ 0 }

/-- `gCpu`, the `mReal` pointers, the interrupts, the handlers by exception type
(`0` for none), and the installed protocols. -/
structure Setup where
  gCpu : InterruptServices
  mReal : InterruptServices
  interrupts : Interrupts
  handlers : Nat → UINT64
  protocols : List (UINT64 × EmulatorInterface)

def EFI_ALREADY_STARTED : UINT64 := 0x8000000000000014

/-! ## the engines -/

/-- What the services called for one engine return.  `ucContextAllocs` is for the
objects of the pool, in order. -/
structure EngineServices where
  allocatePagesBelow4GB : UINT64
  allocatePages : UINT64
  ucOpen : UcErr
  allocatePool : Bool
  allocateArena : Bool
  ucContextAllocs : List UcErr
  timeoutHook : UcErr
  isNativeHook : UcErr
  ioReadHook : UcErr
  ioWriteHook : UcErr
  ucMmioMap : UcErr
  ucMemMapPtr : UcErr
  ucGetCodeGenBuf : UcErr
  ucContextAlloc : UcErr

/-- What the services called by `CpuInit` return. -/
structure CpuServices where
  allocateNativeStack : UINT64
  protectNativeStack : UINT64
  protectNativeStackTop : UINT64
  protectNativeStackStart : UINT64
  engine : CpuId → EngineServices

/-- `if (EFI_ERROR (Status)) return Status;` -/
def checkStatus (status : UINT64) : Except ErrorStatus Unit :=
  if h : efiError status = true then .error ⟨status, h⟩ else .ok ()

/-- `if (UcErr != UC_ERR_OK) return EFI_UNSUPPORTED;` -/
def checkUcErr (ucErr : UcErr) : Except ErrorStatus Unit :=
  if ucErr ≠ .ok then .error ⟨EFI_UNSUPPORTED, rfl⟩ else .ok ()

/-- What only some builds, engines or runs do. -/
def onlyIf (p : Prop) [Decidable p] (x : Except ErrorStatus Unit) : Except ErrorStatus Unit :=
  if p then x else .ok ()

/-- `CpuPrivateStackInit`. -/
def cpuPrivateStackInit (b : Build) (v : CpuServices) : Except ErrorStatus Unit :=
  onlyIf (b.onPrivateStack = true) do
    checkStatus v.allocateNativeStack
    checkStatus v.protectNativeStack
    checkStatus v.protectNativeStackTop
    checkStatus v.protectNativeStackStart

/-- `if (Pointer == NULL) return EFI_OUT_OF_RESOURCES;` -/
def checkAllocated (allocated : Bool) : Except ErrorStatus Unit :=
  if allocated then .ok () else .error ⟨EFI_OUT_OF_RESOURCES, rfl⟩

/-- `ObjectAllocCreate` for `Cpu->RunContextAlloc`, with `CpuRunContextOnCreate` for each object. -/
def runContextAllocCreate (v : EngineServices) : Except ErrorStatus Unit := do
  checkAllocated v.allocatePool
  checkAllocated v.allocateArena
  checkAllocated (v.ucContextAllocs.all (· = .ok))

/-- `CpuInitEx`, for an engine that the build supports. -/
def cpuInitEx (b : Build) (arch : CpuId) (v : EngineServices) : Except ErrorStatus Unit := do
  onlyIf (efiError v.allocatePagesBelow4GB = true) (checkStatus v.allocatePages)
  checkUcErr v.ucOpen
  runContextAllocCreate v
  onlyIf (b.emuTimeoutNone = false) (checkUcErr v.timeoutHook)
  checkUcErr v.isNativeHook
  onlyIf (arch = .x64) do
    checkUcErr v.ioReadHook
    checkUcErr v.ioWriteHook
  checkUcErr v.ucMmioMap
  checkUcErr v.ucMemMapPtr
  checkUcErr v.ucGetCodeGenBuf
  checkUcErr v.ucContextAlloc

/-- `CpuInit`. -/
def cpuInitServices (b : Build) (v : CpuServices) : Except ErrorStatus Unit := do
  cpuPrivateStackInit b v
  onlyIf (b.supportsX64Bins = true) (cpuInitEx b .x64 (v.engine .x64))
  onlyIf (b.supportsAArch64Bins = true) (cpuInitEx b .aarch64 (v.engine .aarch64))

/-! ## the hooks -/

/-- What the services called by `EmulatorStart` return: a status, or an error if
they fail for reasons of their own.  No exception type is registered or
unregistered twice in one start. -/
structure StartServices where
  getInterruptState : UINT64
  cpu : CpuServices
  registerInterruptHandler : Nat → Option ErrorStatus
  unregisterInterruptHandler : Nat → Option ErrorStatus
  installX64 : Except ErrorStatus { handle : UINT64 // handle ≠ 0 }
  installAArch64 : Except ErrorStatus { handle : UINT64 // handle ≠ 0 }
  installTest : Option ErrorStatus

/-- `gCpu->GetInterruptState`; `none` when the hook calls itself. -/
def getInterruptStateStatus (b : Build) (v : StartServices) (s : Setup) : Option UINT64 :=
  if s.gCpu.getInterruptState = b.efiHooks.getInterruptState then
    if s.interrupts.gIgnoreInterruptManipulation = 0 then
      if s.mReal.getInterruptState = b.efiHooks.getInterruptState then none
        else some v.getInterruptState
    else some EFI_SUCCESS
  else some v.getInterruptState

def efiHooksInit (b : Build) (v : StartServices) (s : Setup) : Option (UINT64 × Setup) :=
  (getInterruptStateStatus b v s).map fun status =>
    if efiError status then (status, s)
    else
      let i := criticalBegin
        { s.interrupts with gApparentInterruptState := s.interrupts.interruptState }
      (EFI_SUCCESS, { s with mReal := s.gCpu, gCpu := b.efiHooks, interrupts := criticalEnd i })

def efiHooksCleanup (s : Setup) : Setup :=
  { s with gCpu := s.mReal, interrupts := criticalEnd (criticalBegin s.interrupts) }

/-! ## the exception handlers -/

def EXCEPT_AARCH64_SYNCHRONOUS_EXCEPTIONS : Nat := 0
def EXCEPT_RISCV_LOAD_ACCESS_FAULT : Nat := 5
def EXCEPT_RISCV_LOAD_ACCESS_PAGE_FAULT : Nat := 13
def EXCEPT_RISCV_STORE_ACCESS_PAGE_FAULT : Nat := 15
def EXCEPT_LOONGARCH_PNX : Nat := 6
def EXCEPT_LOONGARCH_ADE : Nat := 8
def CSR_ESTAT_EXC_SHIFT : Nat := 16

/-- `gCpu->RegisterInterruptHandler`: no handler replaces another one, and only a
registered one can be removed. -/
def registerInterruptHandler (fails : Option ErrorStatus) (exceptionType : Nat) (handler : UINT64)
    (s : Setup) : UINT64 × Setup :=
  match fails with
  | some status => (status.val, s)
  | none =>
      if handler ≠ 0 then
        if s.handlers exceptionType ≠ 0 then (EFI_ALREADY_STARTED, s)
        else (EFI_SUCCESS, { s with handlers := Function.update s.handlers exceptionType handler })
      else if s.handlers exceptionType = 0 then (EFI_INVALID_PARAMETER, s)
      else (EFI_SUCCESS, { s with handlers := Function.update s.handlers exceptionType 0 })

/-- `RegisterInterruptHandler (gCpu, exceptionType, &EmulatorSyncExceptionCallback)` -/
def registerCallback (b : Build) (v : StartServices) (exceptionType : Nat) (s : Setup) :
    UINT64 × Setup :=
  registerInterruptHandler (v.registerInterruptHandler exceptionType) exceptionType
    b.emulatorSyncExceptionCallback.val s

/-- `RegisterInterruptHandler (gCpu, exceptionType, NULL)`; its status is only asserted. -/
def unregisterCallback (v : StartServices) (exceptionType : Nat) (s : Setup) : Setup :=
  (registerInterruptHandler (v.unregisterInterruptHandler exceptionType) exceptionType 0 s).2

/-- The exceptions taken on RISC-V. -/
def mExceptions (b : Build) : List Nat :=
  [EXCEPT_RISCV_STORE_ACCESS_PAGE_FAULT, EXCEPT_RISCV_LOAD_ACCESS_PAGE_FAULT,
    EXCEPT_RISCV_INST_ACCESS_PAGE_FAULT, EXCEPT_RISCV_ILLEGAL_INST] ++
    if b.ndebug then [] else [EXCEPT_RISCV_LOAD_ACCESS_FAULT]

/-- The loops of the RISC-V `ArchInit`; `registered` is what has been registered
so far, last one first. -/
def registerExceptions (b : Build) (v : StartServices) :
    List Nat → List Nat → Setup → UINT64 × Setup
  | [], _, s => (EFI_SUCCESS, s)
  | exceptionType :: rest, registered, s =>
      let (status, s) := registerCallback b v exceptionType s
      if efiError status then (status, registered.foldl (fun s e => unregisterCallback v e s) s)
      else registerExceptions b v rest (exceptionType :: registered) s

def archInit (b : Build) (v : StartServices) (s : Setup) : UINT64 × Setup :=
  match b.host with
  | .aarch64 => registerCallback b v EXCEPT_AARCH64_SYNCHRONOUS_EXCEPTIONS s
  | .riscv64 => registerExceptions b v (mExceptions b) [] s
  | .loongarch64 =>
      let (_, s) := registerCallback b v (EXCEPT_LOONGARCH_PNX <<< CSR_ESTAT_EXC_SHIFT) s
      registerCallback b v (EXCEPT_LOONGARCH_ADE <<< CSR_ESTAT_EXC_SHIFT) s

def archCleanup (b : Build) (v : StartServices) (s : Setup) : Setup :=
  match b.host with
  | .aarch64 => unregisterCallback v EXCEPT_AARCH64_SYNCHRONOUS_EXCEPTIONS s
  | .riscv64 => (mExceptions b).foldl (fun s e => unregisterCallback v e s) s
  | .loongarch64 =>
      let s := unregisterCallback v (EXCEPT_LOONGARCH_PNX <<< CSR_ESTAT_EXC_SHIFT) s
      unregisterCallback v (EXCEPT_LOONGARCH_ADE <<< CSR_ESTAT_EXC_SHIFT) s

/-! ## the protocols -/

/-- `gBS->InstallProtocolInterface`: no handle has a protocol twice. -/
def installProtocolInterface (fails : Option ErrorStatus) (handle : UINT64)
    (interface : EmulatorInterface) (s : Setup) : UINT64 × Setup :=
  match fails with
  | some status => (status.val, s)
  | none =>
      if (handle, interface) ∈ s.protocols then (EFI_INVALID_PARAMETER, s)
      else (EFI_SUCCESS, { s with protocols := s.protocols ++ [(handle, interface)] })

/-- The same for a `NULL` handle, which is set to a new one on success. -/
def installOnNewHandle (newHandle : Except ErrorStatus { handle : UINT64 // handle ≠ 0 })
    (interface : EmulatorInterface) (s : Setup) : UINT64 × UINT64 × Setup :=
  match newHandle with
  | .error status => (status.val, 0, s)
  | .ok handle =>
      let (status, s) := installProtocolInterface none handle.val interface s
      (status, if efiError status then 0 else handle.val, s)

/-- `gBS->UninstallProtocolInterface` -/
def uninstallProtocolInterface (handle : UINT64) (interface : EmulatorInterface) (s : Setup) :
    Setup :=
  { s with protocols := s.protocols.erase (handle, interface) }

/-- `if (EmuHandle != NULL) gBS->UninstallProtocolInterface (...)` -/
def uninstallIfHandle (handle : UINT64) (interface : EmulatorInterface) (s : Setup) : Setup :=
  if handle ≠ 0 then uninstallProtocolInterface handle interface s else s

/-! ## the start -/

/-- The protocols that `EmulatorStart` installs: the status at `done`, `EmuHandleX64`
and `EmuHandleAArch64`. -/
def installProtocols (b : Build) (controllerHandle : UINT64) (v : StartServices) (s : Setup) :
    UINT64 × UINT64 × UINT64 × Setup :=
  let (status, emuHandleX64, s) :=
    if b.supportsX64Bins then installOnNewHandle v.installX64 .mEmulatorProtocolX64 s
    else (EFI_SUCCESS, 0, s)
  if efiError status then (status, emuHandleX64, 0, s)
  else
    let (status, emuHandleAArch64, s) :=
      if b.supportsAArch64Bins then installOnNewHandle v.installAArch64 .mEmulatorProtocolAArch64 s
      else (EFI_SUCCESS, 0, s)
    if efiError status then (status, emuHandleX64, emuHandleAArch64, s)
    else if b.ndebug then (status, emuHandleX64, emuHandleAArch64, s)
    else
      let (status, s) := installProtocolInterface v.installTest controllerHandle .mEmuTestProtocol s
      (status, emuHandleX64, emuHandleAArch64, s)

/-- `none` when it does not return. -/
def emulatorStart (b : Build) (controllerHandle : UINT64) (v : StartServices) (s : Setup) :
    Option (UINT64 × Setup) :=
  (efiHooksInit b v s).map fun (status, s) =>
    if efiError status then (status, s)
    else
      match cpuInitServices b v.cpu with
      | .error status => (status.val, s)
      | .ok () =>
          let (status, s) := archInit b v s
          if efiError status then (status, efiHooksCleanup s)
          else
            let (status, emuHandleX64, emuHandleAArch64, s) :=
              installProtocols b controllerHandle v s
            if efiError status then
              let s := uninstallIfHandle emuHandleX64 .mEmulatorProtocolX64 s
              let s := uninstallIfHandle emuHandleAArch64 .mEmulatorProtocolAArch64 s
              (status, efiHooksCleanup (archCleanup b v s))
            else (status, s)

/-! ## all or nothing -/

/-- `gCpu`, the exception handlers and the installed protocols are the same. -/
structure SameEnvironment (s s' : Setup) : Prop where
  gCpu : s'.gCpu = s.gCpu
  handlers : s'.handlers = s.handlers
  protocols : s'.protocols = s.protocols

/-- If `EmulatorStart` returns an error, nothing has changed. -/
def AllOrNothing (b : Build) (controllerHandle : UINT64) (v : StartServices) (s : Setup) : Prop :=
  ∀ status s', emulatorStart b controllerHandle v s = some (status, s') → efiError status = true →
    SameEnvironment s s'

/-- The exception type is free, and its registration does not fail. -/
def Registers (v : StartServices) (s : Setup) (exceptionType : Nat) : Prop :=
  s.handlers exceptionType = 0 ∧ v.registerInterruptHandler exceptionType = none

instance (v : StartServices) (s : Setup) (exceptionType : Nat) :
    Decidable (Registers v s exceptionType) :=
  inferInstanceAs (Decidable (_ ∧ _))

/-- Removing the handler does not fail. -/
def Unregisters (v : StartServices) (exceptionType : Nat) : Prop :=
  v.unregisterInterruptHandler exceptionType = none

instance (v : StartServices) (exceptionType : Nat) : Decidable (Unregisters v exceptionType) :=
  inferInstanceAs (Decidable (_ = _))

/-- `ArchInit` returns an error. -/
def ArchInitFails (b : Build) (v : StartServices) (s : Setup) : Prop :=
  match b.host with
  | .aarch64 => ¬ Registers v s EXCEPT_AARCH64_SYNCHRONOUS_EXCEPTIONS
  | .riscv64 => ∃ e ∈ mExceptions b, ¬ Registers v s e
  | .loongarch64 => ¬ Registers v s (EXCEPT_LOONGARCH_ADE <<< CSR_ESTAT_EXC_SHIFT)

/-- When it does, no handler is left behind: on LoongArch none may have been
registered before, on RISC-V removing those must not fail. -/
def ArchInitUndoes (b : Build) (v : StartServices) (s : Setup) : Prop :=
  match b.host with
  | .aarch64 => True
  | .riscv64 => ∀ e ∈ (mExceptions b).takeWhile (Registers v s), Unregisters v e
  | .loongarch64 => ¬ Registers v s (EXCEPT_LOONGARCH_PNX <<< CSR_ESTAT_EXC_SHIFT)

/-- Unregistering the callback gives the exception type back as it was before
it was to be registered, whether that failed or not. -/
def UndoesAttempt (v : StartServices) (s : Setup) (exceptionType : Nat) : Prop :=
  if Registers v s exceptionType then Unregisters v exceptionType
  else s.handlers exceptionType = 0 ∨ ¬ Unregisters v exceptionType

/-- `ArchCleanup` removes what a successful `ArchInit` has registered, and no
handler of somebody else. -/
def ArchCleanupUndoes (b : Build) (v : StartServices) (s : Setup) : Prop :=
  match b.host with
  | .aarch64 => Unregisters v EXCEPT_AARCH64_SYNCHRONOUS_EXCEPTIONS
  | .riscv64 => ∀ e ∈ mExceptions b, Unregisters v e
  | .loongarch64 => UndoesAttempt v s (EXCEPT_LOONGARCH_PNX <<< CSR_ESTAT_EXC_SHIFT) ∧
      Unregisters v (EXCEPT_LOONGARCH_ADE <<< CSR_ESTAT_EXC_SHIFT)

/-- A new handle is made, and has the protocol. -/
def InstallsOnNewHandle (newHandle : Except ErrorStatus { handle : UINT64 // handle ≠ 0 })
    (interface : EmulatorInterface) (s : Setup) : Prop :=
  match newHandle with
  | .error _ => False
  | .ok handle => (handle.val, interface) ∉ s.protocols

/-- One of the protocols cannot be installed. -/
def InstallFails (b : Build) (controllerHandle : UINT64) (v : StartServices) (s : Setup) : Prop :=
  (b.supportsX64Bins = true ∧ ¬ InstallsOnNewHandle v.installX64 .mEmulatorProtocolX64 s) ∨
    (b.supportsAArch64Bins = true ∧
      ¬ InstallsOnNewHandle v.installAArch64 .mEmulatorProtocolAArch64 s) ∨
    (b.ndebug = false ∧
      (v.installTest ≠ none ∨ (controllerHandle, .mEmuTestProtocol) ∈ s.protocols))

/-- What `CpuInitEx` calls for an engine succeeds. -/
def EngineServices.Succeed (b : Build) (arch : CpuId) (v : EngineServices) : Prop :=
  (efiError v.allocatePagesBelow4GB = true → efiError v.allocatePages = false) ∧ v.ucOpen = .ok ∧
    v.allocatePool = true ∧ v.allocateArena = true ∧ (∀ ucErr ∈ v.ucContextAllocs, ucErr = .ok) ∧
    (b.emuTimeoutNone = false → v.timeoutHook = .ok) ∧ v.isNativeHook = .ok ∧
    (arch = .x64 → v.ioReadHook = .ok ∧ v.ioWriteHook = .ok) ∧ v.ucMmioMap = .ok ∧
    v.ucMemMapPtr = .ok ∧ v.ucGetCodeGenBuf = .ok ∧ v.ucContextAlloc = .ok

/-- What `CpuInit` calls succeeds. -/
def CpuServices.Succeed (b : Build) (v : CpuServices) : Prop :=
  (b.onPrivateStack = true → efiError v.allocateNativeStack = false ∧
    efiError v.protectNativeStack = false ∧
      efiError v.protectNativeStackTop = false ∧ efiError v.protectNativeStackStart = false) ∧
    (b.supportsX64Bins = true → (v.engine .x64).Succeed b .x64) ∧
    (b.supportsAArch64Bins = true → (v.engine .aarch64).Succeed b .aarch64)

/-- What has been set up before a failure is rolled back: `CpuInit` does not
fail once the hooks are in place, and the handlers are taken care of. -/
def RollsBack (b : Build) (controllerHandle : UINT64) (v : StartServices) (s : Setup) : Prop :=
  ∀ status, getInterruptStateStatus b v s = some status → efiError status = false →
    (¬ v.cpu.Succeed b → s.gCpu = b.efiHooks) ∧
      (v.cpu.Succeed b → ArchInitFails b v s → ArchInitUndoes b v s) ∧
      (v.cpu.Succeed b → ¬ ArchInitFails b v s → InstallFails b controllerHandle v s →
        ArchCleanupUndoes b v s)

/-! ### the handlers -/

section

variable {b : Build} {v : StartServices} {s : Setup} {e : Nat}

/-- Registering the callback of an exception sets its handler, or nothing. -/
theorem registerCallback_eq (b : Build) (v : StartServices) (e : Nat) (s : Setup) :
    (registerCallback b v e s).2 = (if Registers v s e then
        { s with handlers := Function.update s.handlers e b.emulatorSyncExceptionCallback.val }
          else s) ∧
      (efiError (registerCallback b v e s).1 = true ↔ ¬ Registers v s e) := by
  have hcallback := b.emulatorSyncExceptionCallback.property
  cases hfails : v.registerInterruptHandler e with
  | some status =>
      have hnot : ¬ Registers v s e := fun h => by simp [h.2] at hfails
      simp [registerCallback, registerInterruptHandler, hfails, hnot, status.property]
  | none =>
      have hcall : registerCallback b v e s = if s.handlers e ≠ 0 then (EFI_ALREADY_STARTED, s)
          else (EFI_SUCCESS, { s with
            handlers := Function.update s.handlers e b.emulatorSyncExceptionCallback.val }) := by
        simp only [registerCallback, registerInterruptHandler, hfails]
        exact if_pos hcallback
      by_cases hfree : s.handlers e = 0
      · have hregisters : Registers v s e := ⟨hfree, hfails⟩
        rw [hcall, if_neg (not_not.mpr hfree), if_pos hregisters]
        exact ⟨rfl, iff_of_false (by decide : ¬ efiError EFI_SUCCESS = true)
          (not_not.mpr hregisters)⟩
      · have hnot : ¬ Registers v s e := fun h => hfree h.1
        rw [hcall, if_pos hfree, if_neg hnot]
        exact ⟨rfl, iff_of_true (by decide : efiError EFI_ALREADY_STARTED = true) hnot⟩

/-- Unregistering clears the handler, or nothing. -/
theorem unregisterCallback_eq (v : StartServices) (e : Nat) (s : Setup) :
    unregisterCallback v e s =
      if Unregisters v e then { s with handlers := Function.update s.handlers e 0 } else s := by
  cases hfails : v.unregisterInterruptHandler e with
  | some status =>
      have hnot : ¬ Unregisters v e := fun h => by
        rw [Unregisters, hfails] at h
        cases h
      rw [if_neg hnot]
      simp only [unregisterCallback, registerInterruptHandler, hfails]
  | none =>
      have hunregisters : Unregisters v e := hfails
      rw [if_pos hunregisters]
      simp only [unregisterCallback, registerInterruptHandler, hfails]
      rw [if_neg (not_not.mpr rfl)]
      by_cases hfree : s.handlers e = 0
      · have hsame : Function.update s.handlers e 0 = s.handlers := by
          rw [← hfree]
          exact Function.update_eq_self ..
        rw [if_pos hfree, hsame]
      · rw [if_neg hfree]

/-- The handlers after the callback has been registered for the exceptions of
`l`. -/
def registeredFor (b : Build) (l : List Nat) (handlers : Nat → UINT64) : Nat → UINT64 :=
  fun e => if e ∈ l then b.emulatorSyncExceptionCallback.val else handlers e

/-- The handlers after those of the exceptions of `l` have been removed, as far
as that does not fail. -/
def unregisteredFor (v : StartServices) (l : List Nat) (handlers : Nat → UINT64) : Nat → UINT64 :=
  fun e => if e ∈ l ∧ Unregisters v e then 0 else handlers e

/-- Unregistering a list of exceptions, whichever of these calls fail. -/
theorem foldl_unregisterCallback (v : StartServices) (l : List Nat) (s : Setup) :
    l.foldl (fun s e => unregisterCallback v e s) s =
      { s with handlers := unregisteredFor v l s.handlers } := by
  induction l generalizing s with
  | nil =>
      have hsame : unregisteredFor v [] s.handlers = s.handlers := funext fun e => by
        simp [unregisteredFor]
      rw [hsame, List.foldl_nil]
  | cons e l ih =>
      rw [List.foldl_cons, ih, unregisterCallback_eq]
      by_cases he : Unregisters v e
      · rw [if_pos he]
        refine congrArg (fun h => { s with handlers := h }) (funext fun e' => ?_)
        by_cases hee : e' = e
        · subst hee
          simp [unregisteredFor, he]
        · simp [unregisteredFor, hee]
      · rw [if_neg he]
        refine congrArg (fun h => { s with handlers := h }) (funext fun e' => ?_)
        by_cases hee : e' = e
        · subst hee
          simp [unregisteredFor, he]
        · simp [unregisteredFor, hee]

theorem registeredFor_nil (b : Build) (handlers : Nat → UINT64) :
    registeredFor b [] handlers = handlers :=
  funext fun e => by simp [registeredFor]

/-- The handlers are registered one exception after the other. -/
theorem update_registeredFor (b : Build) (e : Nat) (l : List Nat) (handlers : Nat → UINT64) :
    Function.update (registeredFor b l handlers) e b.emulatorSyncExceptionCallback.val =
      registeredFor b (e :: l) handlers := by
  funext e'
  by_cases he : e' = e
  · subst he
    simp [registeredFor]
  · simp [registeredFor, he]

/-- The handlers are restored exactly if each one that has been registered is
removed, and no other. -/
theorem unregisteredFor_eq_iff {l m : List Nat} {handlers : Nat → UINT64}
    (hfree : ∀ e ∈ m, handlers e = 0) :
    unregisteredFor v l (registeredFor b m handlers) = handlers ↔
      (∀ e ∈ m, e ∈ l ∧ Unregisters v e) ∧ ∀ e ∈ l, e ∉ m → handlers e = 0 ∨ ¬ Unregisters v e := by
  constructor
  · intro heq
    refine ⟨fun e he => ?_, fun e he hem => ?_⟩
    · by_contra hnot
      have hsame := congrFun heq e
      rw [unregisteredFor, if_neg hnot, registeredFor, if_pos he, hfree e he] at hsame
      exact b.emulatorSyncExceptionCallback.property hsame
    · by_contra hnot
      obtain ⟨hne, hunregisters⟩ := not_or.mp hnot
      have hsame := congrFun heq e
      rw [unregisteredFor, if_pos ⟨he, not_not.mp hunregisters⟩] at hsame
      exact hne hsame.symm
  · rintro ⟨hm, hl⟩
    funext e
    by_cases he : e ∈ l ∧ Unregisters v e
    · rw [unregisteredFor, if_pos he]
      by_cases hem : e ∈ m
      · exact (hfree e hem).symm
      · exact ((hl e he.1 hem).resolve_right (not_not.mpr he.2)).symm
    · have hem : e ∉ m := fun hem => he (hm e hem)
      rw [unregisteredFor, if_neg he, registeredFor, if_neg hem]

/-- Exceptions that have been registered are in nobody else's way. -/
theorem registers_registeredFor {l : List Nat} (he : e ∉ l) :
    Registers v { s with handlers := registeredFor b l s.handlers } e ↔ Registers v s e := by
  simp only [Registers, registeredFor, if_neg he]

/-- The RISC-V loops register all exceptions, or remove those registered before
the first that fails. -/
theorem registerExceptions_eq (b : Build) (v : StartServices) (s : Setup) {l registered : List Nat}
    (hnodup : (l ++ registered).Nodup) :
    let r := registerExceptions b v l registered
      { s with handlers := registeredFor b registered s.handlers }
    let pre := (l.takeWhile fun e => Registers v s e).reverse ++ registered
    (efiError r.1 = true ↔ ∃ e ∈ l, ¬ Registers v s e) ∧
      r.2 = { s with handlers := if ∃ e ∈ l, ¬ Registers v s e then
          unregisteredFor v pre (registeredFor b pre s.handlers)
        else registeredFor b pre s.handlers } := by
  induction l generalizing registered with
  | nil =>
      simp only [registerExceptions, List.not_mem_nil, false_and, exists_false, if_false,
        List.takeWhile_nil, List.reverse_nil, List.nil_append, iff_false, and_true]
      decide
  | cons e l ih =>
      have hmove : (l ++ e :: registered).Nodup := by
        have hperm : (e :: l ++ registered).Perm (l ++ e :: registered) := by
          simpa using (List.perm_middle : (l ++ e :: registered).Perm (e :: (l ++ registered))).symm
        exact hperm.nodup_iff.mp hnodup
      have he : e ∉ registered := fun hmem =>
        List.disjoint_of_nodup_append hnodup List.mem_cons_self hmem
      obtain ⟨hstate, hstatus⟩ := registerCallback_eq b v e
        { s with handlers := registeredFor b registered s.handlers }
      have hsame : Registers v { s with handlers := registeredFor b registered s.handlers } e ↔
        Registers v s e :=
        registers_registeredFor he
      by_cases hregisters : Registers v s e
      · have hok : ¬ efiError (registerCallback b v e
            { s with handlers := registeredFor b registered s.handlers }).1 = true := fun herror =>
          hstatus.mp herror (hsame.mpr hregisters)
        rw [if_pos (hsame.mpr hregisters)] at hstate
        simp only [update_registeredFor] at hstate
        have hrest := ih hmove
        simp only [registerExceptions, if_neg hok, hstate]
        simpa [hregisters] using hrest
      · have herror := hstatus.mpr fun h => hregisters (hsame.mp h)
        rw [if_neg fun h => hregisters (hsame.mp h)] at hstate
        have hexists : ∃ e' ∈ e :: l, ¬ Registers v s e' := ⟨e, List.mem_cons_self, hregisters⟩
        simp only [registerExceptions, if_pos herror, hstate, foldl_unregisterCallback]
        rw [if_pos hexists]
        refine ⟨iff_of_true herror hexists, ?_⟩
        rw [List.takeWhile_cons_of_neg (by simpa using hregisters)]
        rfl

/-- The exceptions whose handlers `ArchCleanup` removes. -/
def cleanedExceptions (b : Build) : List Nat :=
  match b.host with
  | .aarch64 => [EXCEPT_AARCH64_SYNCHRONOUS_EXCEPTIONS]
  | .riscv64 => mExceptions b
  | .loongarch64 =>
      [EXCEPT_LOONGARCH_PNX <<< CSR_ESTAT_EXC_SHIFT, EXCEPT_LOONGARCH_ADE <<< CSR_ESTAT_EXC_SHIFT]

/-- `ArchCleanup` unregisters the handlers of its architecture, whoever has set them. -/
theorem archCleanup_eq (b : Build) (v : StartServices) (s : Setup) :
    archCleanup b v s =
      { s with handlers := unregisteredFor v (cleanedExceptions b) s.handlers } := by
  rw [← foldl_unregisterCallback]
  unfold archCleanup cleanedExceptions
  cases b.host <;> rfl

/-- What `ArchInit` leaves, and what `ArchCleanup` makes of it. -/
structure ArchSpec (b : Build) (v : StartServices) (s : Setup) : Prop where
  status : efiError (archInit b v s).1 = true ↔ ArchInitFails b v s
  failed : ArchInitFails b v s → ∃ handlers, (archInit b v s).2 = { s with handlers := handlers } ∧
    (handlers = s.handlers ↔ ArchInitUndoes b v s)
  registered : ¬ ArchInitFails b v s →
    ∃ handlers, (archInit b v s).2 = { s with handlers := handlers } ∧
    (unregisteredFor v (cleanedExceptions b) handlers = s.handlers ↔ ArchCleanupUndoes b v s)

theorem registerCallback_of_registers (h : Registers v s e) :
    (registerCallback b v e s).2 = { s with handlers := registeredFor b [e] s.handlers } := by
  rw [(registerCallback_eq b v e s).1, if_pos h, ← update_registeredFor, registeredFor_nil]

theorem registerCallback_of_not_registers (h : ¬ Registers v s e) :
    (registerCallback b v e s).2 = s := by
  rw [(registerCallback_eq b v e s).1, if_neg h]

/-- An AArch64 host has one exception to register for. -/
theorem archSpec_aarch64 (hhost : b.host = .aarch64) : ArchSpec b v s := by
  have hinit : archInit b v s = registerCallback b v EXCEPT_AARCH64_SYNCHRONOUS_EXCEPTIONS s := by
    simp only [archInit, hhost]
  have hfails : ArchInitFails b v s ↔ ¬ Registers v s EXCEPT_AARCH64_SYNCHRONOUS_EXCEPTIONS := by
    simp only [ArchInitFails, hhost]
  refine ⟨?_, fun h => ⟨s.handlers, ?_, ?_⟩,
    fun h => ⟨registeredFor b [EXCEPT_AARCH64_SYNCHRONOUS_EXCEPTIONS] s.handlers, ?_, ?_⟩⟩
  · rw [hinit, hfails]
    exact (registerCallback_eq b v _ s).2
  · rw [hinit, registerCallback_of_not_registers (hfails.mp h)]
  · simp only [ArchInitUndoes, hhost]
  · rw [hinit, registerCallback_of_registers (not_not.mp fun hnot => h (hfails.mpr hnot))]
  · have hregisters : Registers v s EXCEPT_AARCH64_SYNCHRONOUS_EXCEPTIONS :=
      not_not.mp fun hnot => h (hfails.mpr hnot)
    simp only [cleanedExceptions, ArchCleanupUndoes, hhost]
    rw [unregisteredFor_eq_iff fun e he => by rw [List.mem_singleton.mp he]; exact hregisters.1]
    simp

/-- No exception is listed twice. -/
theorem nodup_mExceptions (b : Build) : (mExceptions b).Nodup := by
  unfold mExceptions
  cases b.ndebug <;> decide

/-- A RISC-V host registers for a list of exceptions, until one call fails. -/
theorem archSpec_riscv64 (hhost : b.host = .riscv64) : ArchSpec b v s := by
  have hnodup : (mExceptions b ++ []).Nodup := by simpa using nodup_mExceptions b
  have hloops := registerExceptions_eq b v s hnodup
  rw [registeredFor_nil] at hloops
  have hinit : archInit b v s = registerExceptions b v (mExceptions b) [] s := by
    simp only [archInit, hhost]
  have hfails : ArchInitFails b v s ↔ ∃ e ∈ mExceptions b, ¬ Registers v s e := by
    simp only [ArchInitFails, hhost]
  obtain ⟨hstatus, hstate⟩ := hloops
  rw [← hinit] at hstatus hstate
  have hpre : ∀ e, e ∈ ((mExceptions b).takeWhile fun e => Registers v s e).reverse ++ [] ↔
      e ∈ (mExceptions b).takeWhile fun e => Registers v s e := fun e => by simp
  have hfree : ∀ e ∈ ((mExceptions b).takeWhile fun e => Registers v s e).reverse ++ [],
      s.handlers e = 0 :=
    fun e he => by
      have hregisters := List.mem_takeWhile_imp ((hpre e).mp he)
      exact (of_decide_eq_true hregisters).1
  generalize ((mExceptions b).takeWhile fun e => Registers v s e).reverse ++ [] =
    pre at hstate hpre hfree
  refine ⟨by rw [hstatus, hfails],
    fun h => ⟨unregisteredFor v pre (registeredFor b pre s.handlers), ?_, ?_⟩,
      fun h => ⟨registeredFor b pre s.handlers, ?_, ?_⟩⟩
  · rw [hstate, if_pos (hfails.mp h)]
  · simp only [ArchInitUndoes, hhost]
    rw [unregisteredFor_eq_iff hfree]
    constructor
    · exact fun hall e he => (hall.1 e ((hpre e).mpr he)).2
    · exact fun hall => ⟨fun e he => ⟨he, hall e ((hpre e).mp he)⟩, fun e he hnot => absurd he hnot⟩
  · rw [hstate, if_neg fun hexists => h (hfails.mpr hexists)]
  · have hall : (mExceptions b).takeWhile (fun e => Registers v s e) = mExceptions b := by
      refine List.takeWhile_eq_self_iff.mpr fun e he => decide_eq_true ?_
      exact not_not.mp fun hnot => h (hfails.mpr ⟨e, he, hnot⟩)
    simp only [cleanedExceptions, ArchCleanupUndoes, hhost]
    rw [unregisteredFor_eq_iff hfree]
    simp only [hpre, hall]
    constructor
    · exact fun hundone e he => (hundone.1 e he).2
    · exact fun hundone => ⟨fun e he => ⟨he, hundone e he⟩, fun e he hnot => absurd he hnot⟩

/-- A LoongArch host registers for two exceptions, and returns what the second call does. -/
theorem archSpec_loongarch64 (hhost : b.host = .loongarch64) : ArchSpec b v s := by
  generalize hpnx : EXCEPT_LOONGARCH_PNX <<< CSR_ESTAT_EXC_SHIFT = pnx
  generalize hade : EXCEPT_LOONGARCH_ADE <<< CSR_ESTAT_EXC_SHIFT = ade
  have hne : ade ≠ pnx := by
    rw [← hpnx, ← hade]
    decide
  have hinit : archInit b v s = registerCallback b v ade (registerCallback b v pnx s).2 := by
    simp only [archInit, hhost, hpnx, hade]
  have hfails : ArchInitFails b v s ↔ ¬ Registers v s ade := by
    simp only [ArchInitFails, hhost, hade]
  have hundoes : ArchInitUndoes b v s ↔ ¬ Registers v s pnx := by
    simp only [ArchInitUndoes, hhost, hpnx]
  have hcleanup : ArchCleanupUndoes b v s ↔ UndoesAttempt v s pnx ∧ Unregisters v ade := by
    simp only [ArchCleanupUndoes, hhost, hpnx, hade]
  have hcleaned : cleanedExceptions b = [pnx, ade] := by
    simp only [cleanedExceptions, hhost, hpnx, hade]
  by_cases hregisters : Registers v s pnx
  · have hsame : Registers v { s with handlers := registeredFor b [pnx] s.handlers } ade ↔
      Registers v s ade :=
      registers_registeredFor (by simpa using hne)
    rw [registerCallback_of_registers hregisters] at hinit
    have hcall := registerCallback_eq b v ade
      { s with handlers := registeredFor b [pnx] s.handlers }
    refine ⟨?_, fun h => ⟨registeredFor b [pnx] s.handlers, ?_, ?_⟩,
      fun h => ⟨registeredFor b [ade, pnx] s.handlers, ?_, ?_⟩⟩
    · rw [hinit, hfails, ← hsame]
      exact hcall.2
    · rw [hinit, registerCallback_of_not_registers fun hade => hfails.mp h (hsame.mp hade)]
    · -- the handler that has been registered stays
      rw [hundoes]
      refine iff_of_false (fun heq => ?_) (not_not.mpr hregisters)
      have hhandler := congrFun heq pnx
      rw [registeredFor, if_pos List.mem_cons_self, hregisters.1] at hhandler
      exact b.emulatorSyncExceptionCallback.property hhandler
    · have hade : Registers v s ade := not_not.mp fun hnot => h (hfails.mpr hnot)
      rw [hinit, hcall.1, if_pos (hsame.mpr hade), update_registeredFor]
    · have hade : Registers v s ade := not_not.mp fun hnot => h (hfails.mpr hnot)
      have hfree : ∀ e ∈ [ade, pnx], s.handlers e = 0 := by simp [hade.1, hregisters.1]
      rw [hcleanup, hcleaned, unregisteredFor_eq_iff hfree, UndoesAttempt, if_pos hregisters]
      simp only [List.mem_cons, List.not_mem_nil, or_false, forall_eq_or_imp, forall_eq]
      tauto
  · rw [registerCallback_of_not_registers hregisters] at hinit
    refine ⟨?_, fun h => ⟨s.handlers, ?_, ?_⟩, fun h => ⟨registeredFor b [ade] s.handlers, ?_, ?_⟩⟩
    · rw [hinit, hfails]
      exact (registerCallback_eq b v ade s).2
    · rw [hinit, registerCallback_of_not_registers (hfails.mp h)]
    · exact iff_of_true rfl (hundoes.mpr hregisters)
    · have hade : Registers v s ade := not_not.mp fun hnot => h (hfails.mpr hnot)
      rw [hinit, registerCallback_of_registers hade]
    · have hade : Registers v s ade := not_not.mp fun hnot => h (hfails.mpr hnot)
      have hfree : ∀ e ∈ [ade], s.handlers e = 0 := by simp [hade.1]
      rw [hcleanup, hcleaned, unregisteredFor_eq_iff hfree, UndoesAttempt, if_neg hregisters]
      simp only [List.mem_cons, List.not_mem_nil, or_false, forall_eq_or_imp, forall_eq]
      have hne' : pnx ≠ ade := Ne.symm hne
      tauto

/-- On every host. -/
theorem archSpec (b : Build) (v : StartServices) (s : Setup) : ArchSpec b v s := by
  cases hhost : b.host with
  | aarch64 => exact archSpec_aarch64 hhost
  | riscv64 => exact archSpec_riscv64 hhost
  | loongarch64 => exact archSpec_loongarch64 hhost

end

/-! ### the engines -/

theorem bind_eq_ok_iff {x : Except ErrorStatus Unit} {f : Unit → Except ErrorStatus Unit} :
    (x >>= f) = .ok () ↔ x = .ok () ∧ f () = .ok () := by
  cases x with
  | error status => simp [bind, Except.bind]
  | ok _ => simp [bind, Except.bind]

/-- A call of the firmware goes on with any status but an error. -/
theorem checkStatus_eq_ok_iff {status : UINT64} :
    checkStatus status = .ok () ↔ efiError status = false := by
  cases h : efiError status <;> simp [checkStatus, h]

theorem checkUcErr_eq_ok_iff {ucErr : UcErr} : checkUcErr ucErr = .ok () ↔ ucErr = .ok := by
  by_cases h : ucErr = .ok <;> simp [checkUcErr, h]

theorem checkAllocated_eq_ok_iff {allocated : Bool} :
    checkAllocated allocated = .ok () ↔ allocated = true := by
  cases allocated <;> simp [checkAllocated]

/-- A stage that a build leaves out succeeds. -/
theorem onlyIf_eq_ok_iff {p : Prop} [Decidable p] {x : Except ErrorStatus Unit} :
    onlyIf p x = .ok () ↔ (p → x = .ok ()) := by
  by_cases h : p <;> simp [onlyIf, h]

/-- `CpuInitEx` succeeds when all that it asks for does. -/
theorem cpuInitEx_eq_ok_iff {b : Build} {arch : CpuId} {v : EngineServices} :
    cpuInitEx b arch v = .ok () ↔ v.Succeed b arch := by
  have hpool : runContextAllocCreate v = .ok () ↔
      v.allocatePool = true ∧ v.allocateArena = true ∧
      ∀ ucErr ∈ v.ucContextAllocs, ucErr = .ok := by
    simp only [runContextAllocCreate, bind_eq_ok_iff, checkAllocated_eq_ok_iff]
    simp
  simp only [cpuInitEx, bind_eq_ok_iff, hpool, onlyIf_eq_ok_iff, checkStatus_eq_ok_iff,
    checkUcErr_eq_ok_iff, EngineServices.Succeed, and_assoc]

/-- `CpuInit` succeeds exactly if everything that it calls does. -/
theorem cpuInitServices_eq_ok_iff {b : Build} {v : CpuServices} :
    cpuInitServices b v = .ok () ↔ v.Succeed b := by
  simp only [cpuInitServices, cpuPrivateStackInit, bind_eq_ok_iff, onlyIf_eq_ok_iff,
    checkStatus_eq_ok_iff, cpuInitEx_eq_ok_iff, CpuServices.Succeed]

/-! ### the protocols -/

/-- How an emulator protocol is installed from `s`, if the build has it: the
status, the handle and the state. -/
inductive InstallOutcome (interface : EmulatorInterface) (s : Setup) :
    UINT64 × UINT64 × Setup → Prop where
  | failed (status : ErrorStatus) : InstallOutcome interface s (status.val, 0, s)
  | skipped : InstallOutcome interface s (EFI_SUCCESS, 0, s)
  | installed (handle : UINT64) (hne : handle ≠ 0) (hfresh : (handle, interface) ∉ s.protocols) :
      InstallOutcome interface s
        (EFI_SUCCESS, handle, { s with protocols := s.protocols ++ [(handle, interface)] })

theorem efiError_success : ¬ efiError EFI_SUCCESS = true := by decide

/-- Installing a protocol on a new handle, in a build that has it. -/
theorem installOutcome (supports : Bool)
    (newHandle : Except ErrorStatus { handle : UINT64 // handle ≠ 0 })
    (interface : EmulatorInterface) (s : Setup) :
    let r := if supports then installOnNewHandle newHandle interface s else (EFI_SUCCESS, 0, s)
    InstallOutcome interface s r ∧
      (efiError r.1 = true ↔ supports = true ∧ ¬ InstallsOnNewHandle newHandle interface s) := by
  cases supports with
  | false => exact ⟨.skipped, by simp [efiError_success]⟩
  | true =>
      cases newHandle with
      | error status =>
          exact ⟨.failed status, by simp [installOnNewHandle, InstallsOnNewHandle, status.property]⟩
      | ok handle =>
          by_cases hmem : (handle.val, interface) ∈ s.protocols
          · have herror : efiError EFI_INVALID_PARAMETER = true := by decide
            have hinstall : installOnNewHandle (.ok handle) interface s =
                (EFI_INVALID_PARAMETER, 0, s) := by
              simp [installOnNewHandle, installProtocolInterface, hmem, herror]
            rw [if_pos rfl, hinstall]
            exact ⟨.failed ⟨_, herror⟩, iff_of_true herror ⟨rfl, not_not.mpr hmem⟩⟩
          · have hinstall : installOnNewHandle (.ok handle) interface s =
                (EFI_SUCCESS, handle.val,
                  { s with protocols := s.protocols ++ [(handle.val, interface)] }) := by
              simp [installOnNewHandle, installProtocolInterface, hmem, efiError_success]
            rw [if_pos rfl, hinstall]
            exact ⟨.installed handle.val handle.property hmem,
              iff_of_false efiError_success fun hnot => hnot.2 hmem⟩

/-- Another interface does not matter. -/
theorem InstallOutcome.mem_iff {interface interface' : EmulatorInterface} {s : Setup}
    {r : UINT64 × UINT64 × Setup} (h : InstallOutcome interface s r) (hne : interface' ≠ interface)
    (handle : UINT64) : (handle, interface') ∈ r.2.2.protocols ↔
    (handle, interface') ∈ s.protocols := by
  cases h with
  | failed => rfl
  | skipped => rfl
  | installed handle' _ _ => simp [hne]

/-- Uninstalling undoes installing, also when something has been installed since. -/
theorem uninstallIfHandle_append {handle : UINT64} {interface : EmulatorInterface} {s : Setup}
    (hfresh : (handle, interface) ∉ s.protocols) (hne : handle ≠ 0)
    (later : List (UINT64 × EmulatorInterface)) :
    uninstallIfHandle handle interface
      { s with protocols := s.protocols ++ (handle, interface) :: later } =
      { s with protocols := s.protocols ++ later } := by
  simp only [uninstallIfHandle, if_pos hne, uninstallProtocolInterface]
  rw [List.erase_append_right _ hfresh, List.erase_cons_head]

/-- Without a handle there is nothing to uninstall. -/
theorem uninstallIfHandle_null (interface : EmulatorInterface) (s : Setup) :
    uninstallIfHandle 0 interface s = s := if_neg (not_not.mpr rfl)

/-- Both emulator protocols are uninstalled in the order they were installed. -/
theorem InstallOutcome.uninstall {s : Setup} {r r' : UINT64 × UINT64 × Setup}
    (hX64 : InstallOutcome .mEmulatorProtocolX64 s r)
    (hAArch64 : InstallOutcome .mEmulatorProtocolAArch64 r.2.2 r') :
    uninstallIfHandle r'.2.1 .mEmulatorProtocolAArch64
      (uninstallIfHandle r.2.1 .mEmulatorProtocolX64 r'.2.2) = s := by
  have hiff : ∀ handle, (handle, EmulatorInterface.mEmulatorProtocolAArch64) ∈ r.2.2.protocols ↔
      (handle, .mEmulatorProtocolAArch64) ∈ s.protocols := hX64.mem_iff (by decide)
  have hremove : ∀ later, uninstallIfHandle r.2.1 .mEmulatorProtocolX64
      { r.2.2 with protocols := r.2.2.protocols ++ later } =
      { s with protocols := s.protocols ++ later } := by
    intro later
    cases hX64 with
    | failed => exact uninstallIfHandle_null ..
    | skipped => exact uninstallIfHandle_null ..
    | installed handle hne hfresh => simpa using uninstallIfHandle_append hfresh hne later
  have hnil : uninstallIfHandle r.2.1 .mEmulatorProtocolX64 r.2.2 = s := by simpa using hremove []
  cases hAArch64 with
  | failed => rw [uninstallIfHandle_null, hnil]
  | skipped => rw [uninstallIfHandle_null, hnil]
  | installed handle hne hfresh =>
      have happend := uninstallIfHandle_append (s := s)
        (fun hmem => hfresh ((hiff handle).mpr hmem)) hne []
      rw [List.append_nil] at happend
      exact (congrArg (uninstallIfHandle handle _) (hremove [(handle, _)])).trans happend

/-- Installing a protocol changes the protocol database only. -/
theorem InstallOutcome.eq_protocols {interface : EmulatorInterface} {s : Setup}
    {r : UINT64 × UINT64 × Setup} (h : InstallOutcome interface s r) :
    ∃ protocols, r.2.2 = { s with protocols := protocols } := by
  cases h with
  | failed => exact ⟨s.protocols, rfl⟩
  | skipped => exact ⟨s.protocols, rfl⟩
  | installed handle hne hfresh => exact ⟨s.protocols ++ [(handle, interface)], rfl⟩

/-- Nothing has been installed when installing fails. -/
theorem InstallOutcome.of_error {interface : EmulatorInterface} {s : Setup}
    {r : UINT64 × UINT64 × Setup} (h : InstallOutcome interface s r)
    (herror : efiError r.1 = true) : r.2 = (0, s) := by
  cases h with
  | failed => rfl
  | skipped => exact absurd herror efiError_success
  | installed => exact absurd herror efiError_success

/-- Whether a protocol can be installed depends on where it is installed already. -/
theorem installsOnNewHandle_congr {newHandle : Except ErrorStatus { handle : UINT64 // handle ≠ 0 }}
    {interface : EmulatorInterface} {s s' : Setup}
    (h : ∀ handle, (handle, interface) ∈ s'.protocols ↔ (handle, interface) ∈ s.protocols) :
    InstallsOnNewHandle newHandle interface s' ↔ InstallsOnNewHandle newHandle interface s := by
  cases newHandle with
  | error status => rfl
  | ok handle => exact not_congr (h handle.val)

/-- Installing a protocol on a handle fails where it is installed already. -/
theorem installProtocolInterface_spec (fails : Option ErrorStatus) (handle : UINT64)
    (interface : EmulatorInterface) (s : Setup) :
    let r := installProtocolInterface fails handle interface s
    (efiError r.1 = true ↔ fails ≠ none ∨ (handle, interface) ∈ s.protocols) ∧
      (∃ protocols, r.2 = { s with protocols := protocols }) ∧ (efiError r.1 = true → r.2 = s) := by
  cases fails with
  | some status =>
      exact ⟨by simp [installProtocolInterface, status.property], ⟨s.protocols, rfl⟩, fun _ => rfl⟩
  | none =>
      by_cases hmem : (handle, interface) ∈ s.protocols
      · have hinstall : installProtocolInterface none handle interface s =
            (EFI_INVALID_PARAMETER, s) := if_pos hmem
        rw [hinstall]
        have herror : efiError EFI_INVALID_PARAMETER = true := by decide
        exact ⟨iff_of_true herror (.inr hmem), ⟨s.protocols, rfl⟩, fun _ => rfl⟩
      · have hinstall : installProtocolInterface none handle interface s =
            (EFI_SUCCESS, { s with protocols := s.protocols ++ [(handle, interface)] }) :=
            if_neg hmem
        rw [hinstall]
        exact ⟨iff_of_false efiError_success (by simp [hmem]), ⟨_, rfl⟩,
          fun h => absurd h efiError_success⟩

/-- Installing changes the protocols alone, and what is installed before a
failure is uninstalled. -/
theorem installProtocols_spec (b : Build) (controllerHandle : UINT64)
    (v : StartServices) (s : Setup) :
    let r := installProtocols b controllerHandle v s
    (efiError r.1 = true ↔ InstallFails b controllerHandle v s) ∧
      (∃ protocols, r.2.2.2 = { s with protocols := protocols }) ∧
      (efiError r.1 = true → uninstallIfHandle r.2.2.1 .mEmulatorProtocolAArch64
        (uninstallIfHandle r.2.1 .mEmulatorProtocolX64 r.2.2.2) = s) := by
  obtain ⟨hX64, hX64error⟩ := installOutcome b.supportsX64Bins v.installX64 .mEmulatorProtocolX64 s
  simp only [installProtocols]
  generalize (if b.supportsX64Bins =
    true then installOnNewHandle v.installX64 .mEmulatorProtocolX64 s
    else (EFI_SUCCESS, 0, s)) = rX64 at hX64 hX64error ⊢
  obtain ⟨statusX64, emuHandleX64, sX64⟩ := rX64
  obtain ⟨hAArch64, hAArch64error⟩ :=
    installOutcome b.supportsAArch64Bins v.installAArch64 .mEmulatorProtocolAArch64 sX64
  simp only
  by_cases hfirst : efiError statusX64 = true
  · obtain ⟨rfl, rfl⟩ := Prod.mk.inj (hX64.of_error hfirst)
    simp only [if_pos hfirst]
    refine ⟨iff_of_true hfirst (.inl (hX64error.mp hfirst)), ⟨_, rfl⟩, fun _ => ?_⟩
    rw [uninstallIfHandle_null, uninstallIfHandle_null]
  · simp only [if_neg hfirst]
    generalize (if b.supportsAArch64Bins = true then
      installOnNewHandle v.installAArch64 .mEmulatorProtocolAArch64 sX64
      else (EFI_SUCCESS, 0, sX64)) = rAArch64 at hAArch64 hAArch64error ⊢
    obtain ⟨statusAArch64, emuHandleAArch64, sAArch64⟩ := rAArch64
    rw [installsOnNewHandle_congr (hX64.mem_iff (by decide))] at hAArch64error
    have hundone := hX64.uninstall hAArch64
    obtain ⟨protocolsX64, heqX64⟩ := hX64.eq_protocols
    obtain ⟨protocolsAArch64, heqAArch64⟩ := hAArch64.eq_protocols
    have hprotocols : sAArch64 = { s with protocols := protocolsAArch64 } := by
      simp only at heqX64 heqAArch64
      rw [heqAArch64, heqX64]
    have hnotX64 := fun h => hfirst (hX64error.mpr h)
    by_cases hsecond : efiError statusAArch64 = true
    · simp only [if_pos hsecond]
      exact ⟨iff_of_true hsecond (.inr (.inl (hAArch64error.mp hsecond))), ⟨_, hprotocols⟩,
        fun _ => hundone⟩
    · have hnotAArch64 := fun h => hsecond (hAArch64error.mpr h)
      simp only [if_neg hsecond]
      cases hndebug : b.ndebug with
      | true =>
          simp only [if_true]
          refine ⟨iff_of_false hsecond ?_, ⟨_, hprotocols⟩, fun h => absurd h hsecond⟩
          rintro (h | h | h)
          · exact hnotX64 h
          · exact hnotAArch64 h
          · rw [hndebug] at h
            cases h.1
      | false =>
          have htest : (controllerHandle, EmulatorInterface.mEmuTestProtocol) ∈ sAArch64.protocols ↔
              (controllerHandle, .mEmuTestProtocol) ∈ s.protocols :=
            (hAArch64.mem_iff (by decide) controllerHandle).trans
              (hX64.mem_iff (by decide) controllerHandle)
          obtain ⟨herror, ⟨protocols, heq⟩, hsame⟩ :=
            installProtocolInterface_spec v.installTest controllerHandle .mEmuTestProtocol sAArch64
          simp only [Bool.false_eq_true, if_false]
          refine ⟨?_, ⟨protocols, by rw [heq, hprotocols]⟩, fun h => by rw [hsame h]; exact hundone⟩
          rw [herror, htest, InstallFails]
          simp only [hndebug, true_and]
          constructor
          · exact fun h => .inr (.inr h)
          · rintro (h | h | h)
            · exact absurd h hnotX64
            · exact absurd h hnotAArch64
            · exact h

/-! ### the exact condition -/

section

variable {b : Build} {controllerHandle : UINT64} {v : StartServices} {s : Setup}

/-- The setup with the hooks in place. -/
def Setup.hooked (b : Build) (s : Setup) : Setup :=
  { s with
    mReal := s.gCpu
    gCpu := b.efiHooks
    interrupts := criticalEnd (criticalBegin
      { s.interrupts with gApparentInterruptState := s.interrupts.interruptState }) }

/-- The rest of `EmulatorStart`, once the hooks are in place. -/
def emulatorStartHooked (b : Build) (controllerHandle : UINT64) (v : StartServices) (s : Setup) :
    UINT64 × Setup :=
  match cpuInitServices b v.cpu with
  | .error status => (status.val, s)
  | .ok () =>
      let r := archInit b v s
      if efiError r.1 then (r.1, efiHooksCleanup r.2)
      else
        let i := installProtocols b controllerHandle v r.2
        if efiError i.1 then
          let s := uninstallIfHandle i.2.1 .mEmulatorProtocolX64 i.2.2.2
          let s := uninstallIfHandle i.2.2.1 .mEmulatorProtocolAArch64 s
          (i.1, efiHooksCleanup (archCleanup b v s))
        else (i.1, i.2.2.2)

/-- `EmulatorStart` first asks for the interrupt state, then hooks the firmware. -/
theorem emulatorStart_eq (b : Build) (controllerHandle : UINT64) (v : StartServices) (s : Setup) :
    emulatorStart b controllerHandle v s = (getInterruptStateStatus b v s).map fun status =>
      if efiError status then (status, s) else emulatorStartHooked b controllerHandle v
        (s.hooked b) := by
  unfold emulatorStart efiHooksInit
  rw [Option.map_map]
  refine congrArg (fun f => Option.map f _) (funext fun status => ?_)
  by_cases herror : efiError status = true
  · simp [herror]
  · simp only [Function.comp_apply, if_neg herror, if_neg efiError_success]
    rfl

/-- With the hooks in place, an error leaves `gCpu` and the handlers as they
should be exactly if the rest is rolled back. -/
theorem emulatorStartHooked_iff (b : Build) (controllerHandle : UINT64)
    (v : StartServices) (s : Setup) :
    let r := emulatorStartHooked b controllerHandle v (s.hooked b)
    (efiError r.1 = true → SameEnvironment s r.2) ↔
      (¬ v.cpu.Succeed b → s.gCpu = b.efiHooks) ∧
        (v.cpu.Succeed b → ArchInitFails b v s → ArchInitUndoes b v s) ∧
        (v.cpu.Succeed b → ¬ ArchInitFails b v s → InstallFails b controllerHandle v s →
          ArchCleanupUndoes b v s) := by
  obtain ⟨hstatus, hfailed, hregistered⟩ := archSpec b v (s.hooked b)
  have hfails : ArchInitFails b v (s.hooked b) ↔ ArchInitFails b v s := Iff.rfl
  cases hcpu : cpuInitServices b v.cpu with
  | error status =>
      have hnot : ¬ v.cpu.Succeed b := fun h => by
        rw [cpuInitServices_eq_ok_iff.mpr h] at hcpu
        cases hcpu
      have hresult : emulatorStartHooked b controllerHandle v
          (s.hooked b) = (status.val, s.hooked b) := by
        simp only [emulatorStartHooked, hcpu]
      rw [hresult]
      constructor
      · intro h
        refine ⟨fun _ => (h status.property).gCpu.symm, fun hsucceed => absurd hsucceed hnot,
          fun hsucceed => absurd hsucceed hnot⟩
      · exact fun h _ => ⟨(h.1 hnot).symm, rfl, rfl⟩
  | ok _ =>
      have hsucceed : v.cpu.Succeed b := cpuInitServices_eq_ok_iff.mp hcpu
      by_cases hinit : ArchInitFails b v s
      · -- `ArchInit` fails
        have herror := hstatus.mpr (hfails.mpr hinit)
        obtain ⟨handlers, heq, hundoes⟩ := hfailed (hfails.mpr hinit)
        have hresult : emulatorStartHooked b controllerHandle v (s.hooked b) =
            ((archInit b v (s.hooked b)).1,
              efiHooksCleanup { s.hooked b with handlers := handlers }) := by
          simp only [emulatorStartHooked, hcpu]
          rw [if_pos herror, heq]
        rw [hresult]
        constructor
        · intro h
          exact ⟨fun hnot => absurd hsucceed hnot, fun _ _ => hundoes.mp (h herror).handlers,
            fun _ hnot => absurd hinit hnot⟩
        · exact fun h _ => ⟨rfl, hundoes.mpr (h.2.1 hsucceed hinit), rfl⟩
      · have hok : ¬ efiError (archInit b v (s.hooked b)).1 = true :=
          fun h => hinit (hfails.mp (hstatus.mp h))
        obtain ⟨handlers, heq, hundoes⟩ := hregistered fun h => hinit (hfails.mp h)
        obtain ⟨hierror, -, huninstalled⟩ :=
          installProtocols_spec b controllerHandle v { s.hooked b with handlers := handlers }
        have hinstall : InstallFails b controllerHandle v { s.hooked b with handlers := handlers } ↔
            InstallFails b controllerHandle v s := Iff.rfl
        by_cases hfail : InstallFails b controllerHandle v s
        · -- a protocol cannot be installed
          have herror := hierror.mpr (hinstall.mpr hfail)
          have hresult : emulatorStartHooked b controllerHandle v (s.hooked b) =
              ((installProtocols b controllerHandle v { s.hooked b with handlers := handlers }).1,
                efiHooksCleanup (archCleanup b v { s.hooked b with handlers := handlers })) := by
            simp only [emulatorStartHooked, hcpu]
            rw [if_neg hok, heq, if_pos herror, huninstalled herror]
          rw [hresult, archCleanup_eq]
          constructor
          · intro h
            exact ⟨fun hnot => absurd hsucceed hnot, fun _ h => absurd h hinit,
              fun _ _ _ => hundoes.mp (h herror).handlers⟩
          · exact fun h _ => ⟨rfl, hundoes.mpr (h.2.2 hsucceed hinit hfail), rfl⟩
        · have hsuccess : ¬ efiError (installProtocols b controllerHandle v
              { s.hooked b with handlers := handlers }).1 = true :=
              fun h => hfail (hinstall.mp (hierror.mp h))
          have hresult : emulatorStartHooked b controllerHandle v (s.hooked b) =
              ((installProtocols b controllerHandle v { s.hooked b with handlers := handlers }).1,
                (installProtocols b controllerHandle v
                  { s.hooked b with handlers := handlers }).2.2.2) := by
            simp only [emulatorStartHooked, hcpu]
            rw [if_neg hok, heq, if_neg hsuccess]
          rw [hresult]
          exact iff_of_true (fun h => absurd h hsuccess)
            ⟨fun hnot => absurd hsucceed hnot, fun _ h => absurd h hinit,
              fun _ _ h => absurd h hfail⟩

/-- `EmulatorStart` is all or nothing exactly if everything that has been set up
before a failure is rolled back. -/
theorem allOrNothing_of_rollsBack_iff (b : Build) (controllerHandle : UINT64)
    (v : StartServices) (s : Setup) :
    AllOrNothing b controllerHandle v s ↔ RollsBack b controllerHandle v s := by
  have hhooked := emulatorStartHooked_iff b controllerHandle v s
  unfold AllOrNothing RollsBack
  rw [emulatorStart_eq]
  cases getInterruptStateStatus b v s with
  | none => simp
  | some status =>
      cases herror : efiError status with
      | true =>
          refine iff_of_true (fun status' s' heq _ => ?_) fun status' heq hnot => ?_
          · simp only [Option.map_some, herror, if_true, Option.some.injEq, Prod.mk.injEq] at heq
            obtain ⟨-, rfl⟩ := heq
            exact ⟨rfl, rfl, rfl⟩
          · obtain rfl := Option.some.inj heq
            rw [herror] at hnot
            cases hnot
      | false =>
          simp only [Option.map_some, herror, Bool.false_eq_true, if_false, Option.some.injEq]
          constructor
          · rintro h status' rfl -
            exact hhooked.mp fun hfail => h _ _ rfl hfail
          · intro h status' s' heq hfail
            have hrest := hhooked.mpr (h status rfl herror)
            rw [heq] at hrest
            exact hrest hfail

/-- The `mReal` pointers of a start that has succeeded. -/
theorem emulatorStart_succeeded {status : UINT64} {s' : Setup}
    (hstart : emulatorStart b controllerHandle v s = some (status, s'))
    (hsuccess : efiError status = false) :
    s'.gCpu = b.efiHooks ∧ s'.mReal = s.gCpu := by
  rw [emulatorStart_eq] at hstart
  obtain ⟨status', hget, hresult⟩ := Option.map_eq_some_iff.mp hstart
  by_cases herror : efiError status' = true
  · rw [if_pos herror] at hresult
    obtain ⟨rfl, -⟩ := Prod.mk.inj hresult
    rw [herror] at hsuccess
    cases hsuccess
  · rw [if_neg herror] at hresult
    obtain ⟨hstatus, -, hregistered⟩ := archSpec b v (s.hooked b)
    have hnot : ∀ status, efiError status = true →
      status ≠ (emulatorStartHooked b controllerHandle v
        (s.hooked b)).1 := by
      rintro _ hfail rfl
      rw [hresult, hsuccess] at hfail
      cases hfail
    unfold emulatorStartHooked at hresult hnot
    cases hcpu : cpuInitServices b v.cpu with
    | error status => exact absurd (by simp only [hcpu]) (hnot status.val status.property)
    | ok _ =>
        simp only [hcpu] at hresult hnot
        by_cases hinit : efiError (archInit b v (s.hooked b)).1 = true
        · exact absurd (by rw [if_pos hinit]) (hnot _ hinit)
        · rw [if_neg hinit] at hresult hnot
          obtain ⟨handlers, heq, -⟩ := hregistered fun h => hinit (hstatus.mpr h)
          obtain ⟨-, ⟨protocols, hprotocols⟩, -⟩ :=
            installProtocols_spec b controllerHandle v (archInit b v (s.hooked b)).2
          by_cases hinstall : efiError (installProtocols b controllerHandle v
              (archInit b v (s.hooked b)).2).1 = true
          · exact absurd (by rw [if_pos hinstall]) (hnot _ hinstall)
          · rw [if_neg hinstall] at hresult
            obtain ⟨-, rfl⟩ := Prod.mk.inj hresult
            rw [hprotocols, heq]
            exact ⟨rfl, rfl⟩

end

/-! ## one start after the other -/

/-- The setup, and whether `DriverStart` has left the caller's protocol open. -/
structure Driver where
  setup : Setup
  opened : Bool

/-- The driver is started, or other code has its way with the interrupts, the
handlers and the protocols. -/
inductive DriverAction where
  | driverStart (openProtocol : Option ErrorStatus) (services : StartServices)
  | others (interrupts : Interrupts) (handlers : Nat → UINT64)
      (protocols : List (UINT64 × EmulatorInterface))

/-- `gBS->OpenProtocol` with `EFI_OPEN_PROTOCOL_BY_DRIVER`: a driver does not open
what it has open. -/
def openProtocolStatus (fails : Option ErrorStatus) (d : Driver) : UINT64 :=
  match fails with
  | some status => status.val
  | none => if d.opened then EFI_ALREADY_STARTED else EFI_SUCCESS

/-- `DriverStart`; `none` when it does not return. -/
def driverStart (b : Build) (controllerHandle : UINT64) (openProtocol : Option ErrorStatus)
    (v : StartServices) (d : Driver) : Option (UINT64 × Driver) :=
  let status := openProtocolStatus openProtocol d
  if efiError status then some (status, d)
  else (emulatorStart b controllerHandle v d.setup).map fun (status, s) =>
    (status, { setup := s, opened := !efiError status })

def driverStep (b : Build) (controllerHandle : UINT64) (d : Driver) : DriverAction → Option Driver
  | .driverStart openProtocol v => (driverStart b controllerHandle openProtocol v d).map Prod.snd
  | .others interrupts handlers protocols =>
      some { d with setup :=
        { d.setup with interrupts := interrupts, handlers := handlers, protocols := protocols } }

/-- What the action starts, if anything, is rolled back when it fails. -/
def StartRollsBack (b : Build) (controllerHandle : UINT64) (d : Driver) : DriverAction → Prop
  | .driverStart openProtocol v =>
      efiError (openProtocolStatus openProtocol d) = false → RollsBack b controllerHandle v d.setup
  | .others .. => True

/-- None of the services is the hook for it. -/
structure InterruptServices.NotHooked (b : Build) (services : InterruptServices) : Prop where
  enableInterrupt : services.enableInterrupt ≠ b.efiHooks.enableInterrupt
  disableInterrupt : services.disableInterrupt ≠ b.efiHooks.disableInterrupt
  getInterruptState : services.getInterruptState ≠ b.efiHooks.getInterruptState

/-- The firmware's own functions are where they belong. -/
structure FirmwareKept (b : Build) (firmware : InterruptServices) (d : Driver) : Prop where
  closed : d.opened = false → d.setup.gCpu = firmware
  opened : d.opened = true → d.setup.gCpu = b.efiHooks ∧ d.setup.mReal = firmware

section

variable {b : Build} {controllerHandle : UINT64} {firmware : InterruptServices} {d d' : Driver}

/-- Once the driver has been started it is not started again. -/
theorem openProtocolStatus_opened {openProtocol : Option ErrorStatus} (h : d.opened = true) :
    efiError (openProtocolStatus openProtocol d) = true := by
  cases openProtocol with
  | some status => exact status.property
  | none =>
      simp only [openProtocolStatus, h, if_true]
      decide

/-- The step lemma: a driver that is not started leaves the firmware's own services. -/
theorem firmwareKept_step {action : DriverAction} (hkept : FirmwareKept b firmware d)
    (hback : StartRollsBack b controllerHandle d action)
    (hstep : driverStep b controllerHandle d action = some d') : FirmwareKept b firmware d' := by
  cases action with
  | others interrupts handlers protocols =>
      obtain rfl := Option.some.inj hstep
      exact ⟨hkept.closed, hkept.opened⟩
  | driverStart openProtocol v =>
      obtain ⟨⟨status, d₁⟩, hstart, rfl⟩ := Option.map_eq_some_iff.mp hstep
      unfold driverStart at hstart
      cases hopen : efiError (openProtocolStatus openProtocol d) with
      | true =>
          simp only [hopen, if_true] at hstart
          obtain ⟨-, rfl⟩ := Prod.mk.inj (Option.some.inj hstart)
          exact hkept
      | false =>
          have hclosed : d.opened = false := Bool.eq_false_iff.mpr fun h => by
            rw [openProtocolStatus_opened h] at hopen
            cases hopen
          simp only [hopen, Bool.false_eq_true, if_false] at hstart
          obtain ⟨⟨status', s'⟩, hemulator, heq⟩ := Option.map_eq_some_iff.mp hstart
          obtain ⟨rfl, rfl⟩ := Prod.mk.inj heq
          cases herror : efiError status' with
          | true =>
              have hsame := (allOrNothing_of_rollsBack_iff ..).mpr
                (hback hopen) _ _ hemulator herror
              exact ⟨fun _ => hsame.gCpu.trans (hkept.closed hclosed), fun h => by simp at h⟩
          | false =>
              obtain ⟨hcpu, hreal⟩ := emulatorStart_succeeded hemulator herror
              exact ⟨fun h => by simp at h, fun _ => ⟨hcpu, hreal.trans (hkept.closed hclosed)⟩⟩

/-- With the firmware's functions in place, every start returns. -/
theorem driverStart_ne_none (hkept : FirmwareKept b firmware d) (hfirmware : firmware.NotHooked b)
    (openProtocol : Option ErrorStatus) (v : StartServices) :
    driverStart b controllerHandle openProtocol v d ≠ none := by
  intro hnone
  unfold driverStart at hnone
  cases hopen : efiError (openProtocolStatus openProtocol d) with
  | true => simp [hopen] at hnone
  | false =>
      have hclosed : d.opened = false := Bool.eq_false_iff.mpr fun h => by
        rw [openProtocolStatus_opened h] at hopen
        cases hopen
      have hget : getInterruptStateStatus b v d.setup = some v.getInterruptState := by
        refine if_neg ?_
        rw [hkept.closed hclosed]
        exact hfirmware.getInterruptState
      simp [hopen, emulatorStart_eq, hget] at hnone

end

/-- Whether one start is all or nothing depends on the way out that it takes.
As long as every start that is made rolls back, one that succeeds after any
number of failed ones finds the firmware's own functions, no hook calls itself,
and every start returns. -/
theorem allOrNothing_iff (b : Build) (controllerHandle : UINT64) :
    (∀ v s, AllOrNothing b controllerHandle v s ↔ RollsBack b controllerHandle v s) ∧
    ∀ (d d' : Driver) (actions : List DriverAction), d.opened = false → d.setup.gCpu.NotHooked b →
      Run (driverStep b controllerHandle) (StartRollsBack b controllerHandle) d actions d' →
      (d'.opened = false → d'.setup.gCpu = d.setup.gCpu) ∧
        (d'.opened = true → d'.setup.gCpu = b.efiHooks ∧ d'.setup.mReal = d.setup.gCpu ∧
          d'.setup.mReal.NotHooked b) ∧
        ∀ openProtocol v, driverStart b controllerHandle openProtocol v d' ≠ none := by
  refine ⟨fun v s => allOrNothing_of_rollsBack_iff b controllerHandle v s, ?_⟩
  intro d d' actions hclosed hfirmware hrun
  have hkept : FirmwareKept b d.setup.gCpu d' :=
    hrun.invariant (fun _ _ _ h hback hstep => firmwareKept_step h hback hstep)
      ⟨fun _ => rfl, fun h => by rw [hclosed] at h; cases h⟩
  refine ⟨hkept.closed, fun hopened => ?_, driverStart_ne_none hkept hfirmware⟩
  obtain ⟨hcpu, hreal⟩ := hkept.opened hopened
  refine ⟨hcpu, hreal, ?_⟩
  rw [hreal]
  exact hfirmware

/-- A debug build for AArch64 hosts. -/
def hostBuild : Build where
  host := .aarch64
  ndebug := false
  supportsX64Bins := true
  supportsAArch64Bins := false
  onPrivateStack := false
  emuTimeoutNone := true
  efiHooks := ⟨0x20001000, 0x20001100, 0x20001200⟩
  emulatorSyncExceptionCallback := ⟨0x20002000, by decide⟩

def firmwareServices : InterruptServices := ⟨0x10001000, 0x10001100, 0x10001200⟩

/-- The host before the driver is started, with a synchronous exception handler. -/
def hostSetup (handler : UINT64) : Setup where
  gCpu := firmwareServices
  mReal := ⟨0, 0, 0⟩
  interrupts := ⟨0, false, true⟩
  handlers := fun e => if e = EXCEPT_AARCH64_SYNCHRONOUS_EXCEPTIONS then handler else 0
  protocols := []

def engineServices (ucOpen : UcErr) : EngineServices where
  allocatePagesBelow4GB := EFI_SUCCESS
  allocatePages := EFI_SUCCESS
  ucOpen := ucOpen
  allocatePool := true
  allocateArena := true
  ucContextAllocs := [.ok, .ok]
  timeoutHook := .ok
  isNativeHook := .ok
  ioReadHook := .ok
  ioWriteHook := .ok
  ucMmioMap := .ok
  ucMemMapPtr := .ok
  ucGetCodeGenBuf := .ok
  ucContextAlloc := .ok

/-- Only `uc_open` may fail. -/
def startServices (ucOpen : UcErr) : StartServices where
  getInterruptState := EFI_SUCCESS
  cpu := ⟨EFI_SUCCESS, EFI_SUCCESS, EFI_SUCCESS, EFI_SUCCESS, fun _ => engineServices ucOpen⟩
  registerInterruptHandler := fun _ => none
  unregisterInterruptHandler := fun _ => none
  installX64 := .ok ⟨0x30001000, by decide⟩
  installAArch64 := .ok ⟨0x30002000, by decide⟩
  installTest := none

theorem startServices_succeed : (startServices .ok).cpu.Succeed hostBuild := by
  simp [CpuServices.Succeed, EngineServices.Succeed, startServices, engineServices,
    hostBuild, efiError, EFI_SUCCESS]

/-- The first start finds a handler for synchronous exceptions and fails; that
handler is removed, and the second start succeeds. -/
theorem allOrNothing_iff_secondStart :
    (driverStart hostBuild 0x40001000 none (startServices .ok) ⟨hostSetup 0x50001000, false⟩).map
      Prod.fst =
        some EFI_ALREADY_STARTED ∧
      ∃ d', Run (driverStep hostBuild 0x40001000) (StartRollsBack hostBuild 0x40001000)
          ⟨hostSetup 0x50001000, false⟩ [.driverStart none (startServices .ok),
            .others ⟨0, false, true⟩ (fun _ => 0) [], .driverStart none (startServices .ok)] d' ∧
        d'.opened = true ∧ d'.setup.mReal = firmwareServices := by
  have hback : ∀ s, RollsBack hostBuild 0x40001000 (startServices .ok) s := fun s _ _ _ =>
    ⟨fun hnot => absurd startServices_succeed hnot, fun _ _ => trivial, fun _ _ _ => rfl⟩
  have hrun : Run (driverStep hostBuild 0x40001000) (StartRollsBack hostBuild 0x40001000)
      ⟨hostSetup 0x50001000, false⟩ ([.driverStart none (startServices .ok)] ++
        [.others ⟨0, false, true⟩ (fun _ => 0) []] ++ [.driverStart none (startServices .ok)]) _ :=
    .snoc (.snoc (.snoc .nil (fun _ => hback _) rfl) trivial rfl) (fun _ => hback _) rfl
  have hfirmware : (hostSetup 0x50001000).gCpu.NotHooked hostBuild :=
    ⟨by decide, by decide, by decide⟩
  have hreal := ((allOrNothing_iff hostBuild 0x40001000).2 _ _ _ rfl hfirmware hrun).2.1 rfl
  exact ⟨rfl, _, hrun, rfl, hreal.2.1⟩

/-- `CpuInit` fails because `uc_open` does, and the hooks stay in place; the next
start takes them for the firmware's functions, and asking for the interrupt
state does not return any more. -/
theorem emulatorStart_cpuInitFails : ¬ (∀ v s, AllOrNothing hostBuild 0x40001000 v s) ∧
    ∃ s', emulatorStart hostBuild 0x40001000 (startServices (.other 1)) (hostSetup 0) =
        some (EFI_UNSUPPORTED, s') ∧ s'.gCpu = hostBuild.efiHooks ∧
      ∃ s'', emulatorStart hostBuild 0x40001000 (startServices .ok) s' = some (EFI_SUCCESS, s'') ∧
        s''.mReal = hostBuild.efiHooks ∧ getInterruptStateStatus hostBuild
          (startServices .ok) s'' = none := by
  refine ⟨fun h => ?_, _, rfl, rfl, _, rfl, rfl, rfl⟩
  have hsame := h (startServices (.other 1)) (hostSetup 0) _ _ rfl (by decide)
  exact absurd hsame.gCpu (by decide)

end MultiArchUefi
