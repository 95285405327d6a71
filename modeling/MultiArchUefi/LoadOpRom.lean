import MultiArchUefi.Lib.Traced
import MultiArchUefi.CommandLine

/-!
# MultiArchUefi.LoadOpRom

The option ROM loader: which PCI devices have their ROM analyzed.

A PCI handle carries what the services come to for it.  The trace of a run is the
list of the calls of `AnalyzeROM`.  `AllDevs` is not initialized, so what it holds
before it is set is one of the inputs.
-/

namespace MultiArchUefi

/-! ## inputs -/

/-- Segment, bus, device and function. -/
structure Location where
  seg : UINT64
  bus : UINT64
  dev : UINT64
  func : UINT64
deriving DecidableEq, Repr

/-- A handle with the PCI I/O protocol: the statuses of the two `HandleProtocol`
calls and of `GetLocation`, and the location. -/
structure PciHandle where
  handle : UINT64
  pciIo : UINT64
  devicePath : UINT64
  getLocation : UINT64
  location : Location
deriving DecidableEq, Repr

namespace PciHandle

variable (h : PciHandle)

/-- The status of the first service that fails, or of the last one. -/
def status : UINT64 :=
  if h.pciIo ≠ EFI_SUCCESS then h.pciIo
  else if h.devicePath ≠ EFI_SUCCESS then h.devicePath
  else h.getLocation

/-- The protocols and the location can be read. -/
def Readable : Prop := h.status = EFI_SUCCESS

/-- The handle can be read, and is at this location. -/
def IsAt (want : Location) : Prop := h.Readable ∧ want = h.location

instance : Decidable h.Readable := inferInstanceAs (Decidable (_ = _))

instance (want : Location) : Decidable (h.IsAt want) := inferInstanceAs (Decidable (_ ∧ _))

end PciHandle

/-- `mOnlyList` and `mNoConnect`. -/
structure LoadOptions where
  onlyList : Bool
  noConnect : Bool
deriving DecidableEq, Repr

/-- A call of `AnalyzeROM`. -/
structure Analysis where
  handle : PciHandle
  options : LoadOptions
deriving DecidableEq, Repr

/-- What a run of the loader depends on: the command lines that the shell protocols hold,
`StrHexToUintn`, the content of `AllDevs` before it is set, and what `LocateHandleBuffer`
returns. -/
structure LoadOpRom where
  shellParameters : Option CommandLine
  shellInterface : Option CommandLine
  strHexToUintn : String16 → UINT64
  allDevs : UINT8
  locateHandleBuffer : UINT64
  pciHandles : List PciHandle

namespace LoadOpRom

variable (t : LoadOpRom)

/-! ## command line -/

/-- `L""`. -/
def optionsWithArgs : Option String16 := some ⟨[], by simp⟩

/-- The `switch` over the options; an unknown one leads to `Usage`. -/
def onOption (options : LoadOptions) (report : GetOptContext) :
    Option (Except UINT64 LoadOptions) :=
  if report.opt = 0x6c then some (.ok { options with onlyList := true })
  else if report.opt = 0x6e then some (.ok { options with noConnect := true })
  else some (.error EFI_INVALID_PARAMETER)

/-- The location that the operands from an index on ask for. -/
def wanted (commandLine : CommandLine) (optIndex : UINT64) : Option Location := do
  let seg ← commandLine.argv[(optIndex + 0).toNat]?
  let bus ← commandLine.argv[(optIndex + 1).toNat]?
  let dev ← commandLine.argv[(optIndex + 2).toNat]?
  let func ← commandLine.argv[(optIndex + 3).toNat]?
  some ⟨t.strHexToUintn seg, t.strHexToUintn bus, t.strHexToUintn dev, t.strHexToUintn func⟩

/-- `EntryPoint` until `LocateHandleBuffer`: the status that it returns, or the options and
the location that is wanted, if there is one. -/
def arguments : Option (Except UINT64 (LoadOptions × Option Location)) :=
  match getShellArgcArgv t.shellParameters t.shellInterface with
  | .error _ => some (.error EFI_ABORTED)
  | .ok commandLine => do
      match ← commandLine.optionLoop optionsWithArgs onOption commandLine.calls
        ⟨false, false⟩ initGetOptContext with
      | .error status => some (.error status)
      | .ok (options, context) =>
          if commandLine.argc - context.optIndex = 0 then some (.ok (options, none))
          else if commandLine.argc - context.optIndex = 4 then do
            let want ← t.wanted commandLine context.optIndex
            some (.ok (options, some want))
          else some (.error EFI_INVALID_PARAMETER)

/-! ## devices -/

/-- `AnalyzeROM`: whatever is found in the ROM, it succeeds. -/
def analyzeROM (options : LoadOptions) (handle : PciHandle) : Traced Analysis UINT64 :=
  ⟨EFI_SUCCESS, [⟨handle, options⟩]⟩

/-- The loop over the handles: the index and the status after it. -/
def forEachHandle (options : LoadOptions) (want : Location) (allDevs : UINT8) :
    Nat → UINT64 → List PciHandle → Traced Analysis (Nat × UINT64)
  | pciIndex, status, [] => pure (pciIndex, status)
  | pciIndex, _, handle :: handles =>
      if handle.pciIo ≠ EFI_SUCCESS then forEachHandle options want allDevs
        (pciIndex + 1) handle.pciIo handles
      else if handle.devicePath ≠ EFI_SUCCESS then
        forEachHandle options want allDevs (pciIndex + 1) handle.devicePath handles
      else if handle.getLocation ≠ EFI_SUCCESS then
        forEachHandle options want allDevs (pciIndex + 1) handle.getLocation handles
      else if allDevs = 0 ∧ want ≠ handle.location then
        forEachHandle options want allDevs (pciIndex + 1) handle.getLocation handles
      else do
        let status ← analyzeROM options handle
        if allDevs = 0 then pure (pciIndex, status)
        else forEachHandle options want allDevs (pciIndex + 1) status handles

/-- `EntryPoint` from `LocateHandleBuffer` on. -/
def process (options : LoadOptions) (want : Location) (allDevs : UINT8) : Traced Analysis UINT64 :=
  if t.locateHandleBuffer ≠ EFI_SUCCESS then pure EFI_SUCCESS
  else do
    let (pciIndex, status) ← forEachHandle options want allDevs 0 t.locateHandleBuffer t.pciHandles
    if allDevs = 0 ∧ pciIndex = t.pciHandles.length then pure EFI_NOT_FOUND else pure status

/-- `EntryPoint`.  Only without operands `AllDevs` is set. -/
def entryPoint : Option (Traced Analysis UINT64) :=
  t.arguments.map fun
    | .error status => pure status
    | .ok (options, none) => t.process options ⟨-1, -1, -1, -1⟩ 1
    | .ok (options, some want) => t.process options want t.allDevs

/-! ## the loop over the handles -/

/-- The status of the last handle, or the one before the loop. -/
def lastStatus : UINT64 → List PciHandle → UINT64
  | status, [] => status
  | _, handle :: handles => lastStatus handle.status handles

section

variable (options : LoadOptions) (want : Location) {allDevs : UINT8} {handle : PciHandle}
  {handles : List PciHandle}

/-- A handle that cannot be read is skipped. -/
theorem forEachHandle_of_not_readable (h : ¬ handle.Readable) (pciIndex : Nat) (status : UINT64) :
    forEachHandle options want allDevs pciIndex status (handle :: handles) =
      forEachHandle options want allDevs (pciIndex + 1) handle.status handles := by
  unfold PciHandle.Readable PciHandle.status at *
  rw [forEachHandle]
  split
  · rfl
  · split
    · rfl
    · rw [if_pos (by simpa [*] using h)]

/-- One that can be read is analyzed, unless another one is wanted. -/
theorem forEachHandle_of_readable (h : handle.Readable) (pciIndex : Nat) (status : UINT64) :
    forEachHandle options want allDevs pciIndex status (handle :: handles) =
      if allDevs = 0 ∧ want ≠ handle.location then
        forEachHandle options want allDevs (pciIndex + 1) EFI_SUCCESS handles
      else analyzeROM options handle >>= fun status =>
        if allDevs = 0 then pure (pciIndex, status)
        else forEachHandle options want allDevs (pciIndex + 1) status handles := by
  obtain ⟨hpciIo, hdevicePath, hlocation⟩ :
    handle.pciIo = EFI_SUCCESS ∧ handle.devicePath = EFI_SUCCESS ∧
      handle.getLocation = EFI_SUCCESS := by
    unfold PciHandle.Readable PciHandle.status at h
    split at h
    · exact absurd h ‹_›
    · split at h
      · exact absurd h ‹_›
      · exact ⟨not_not.mp ‹_›, not_not.mp ‹_›, h⟩
  rw [forEachHandle, if_neg (not_not.mpr hpciIo), if_neg (not_not.mpr hdevicePath),
    if_neg (not_not.mpr hlocation), hlocation]

/-- With `AllDevs`, every handle that can be read is analyzed. -/
theorem forEachHandle_all (hall : allDevs ≠ 0) (handles : List PciHandle) (pciIndex : Nat)
    (status : UINT64) :
    forEachHandle options want allDevs pciIndex status handles =
      ⟨(pciIndex + handles.length, lastStatus status handles),
        (handles.filter fun handle => handle.Readable).map (⟨·, options⟩)⟩ := by
  induction handles generalizing pciIndex status with
  | nil => rfl
  | cons handle handles ih =>
      have hindex : pciIndex + 1 + handles.length = pciIndex + (handles.length + 1) := by omega
      by_cases hreadable : handle.Readable
      · rw [forEachHandle_of_readable options want hreadable, if_neg fun h => hall h.1]
        simp only [if_neg hall, ih, hindex, List.length_cons, lastStatus]
        rw [List.filter_cons_of_pos (by simpa using hreadable),
          show handle.status = EFI_SUCCESS from hreadable]
        rfl
      · rw [forEachHandle_of_not_readable options want hreadable, ih, hindex,
          List.filter_cons_of_neg (by simpa using hreadable)]
        rfl

/-- Without, the first handle at the location is analyzed, and ends the loop. -/
theorem forEachHandle_one (handles : List PciHandle) (pciIndex : Nat) (status : UINT64) :
    match handles.find? fun handle => handle.IsAt want with
    | none => ∃ status', forEachHandle options want 0 pciIndex status handles =
        ⟨(pciIndex + handles.length, status'), []⟩
    | some handle =>
        ∃ index < pciIndex + handles.length, forEachHandle options want 0 pciIndex status handles =
        ⟨(index, EFI_SUCCESS), [⟨handle, options⟩]⟩ := by
  induction handles generalizing pciIndex status with
  | nil => exact ⟨status, rfl⟩
  | cons handle handles ih =>
      have hindex : pciIndex + 1 + handles.length = pciIndex + (handle :: handles).length := by
        rw [List.length_cons]
        omega
      by_cases hat : handle.IsAt want
      · rw [List.find?_cons_of_pos (by simpa using hat)]
        refine ⟨pciIndex, by rw [List.length_cons]; omega, ?_⟩
        rw [forEachHandle_of_readable options want hat.1, if_neg fun h => h.2 hat.2]
        rfl
      · rw [List.find?_cons_of_neg (by simpa using hat), ← hindex]
        by_cases hreadable : handle.Readable
        · rw [forEachHandle_of_readable options want hreadable,
            if_pos ⟨rfl, fun h => hat ⟨hreadable, h⟩⟩]
          exact ih ..
        · rw [forEachHandle_of_not_readable options want hreadable]
          exact ih ..

end

section

variable {t} (options : LoadOptions) (want : Location)

theorem process_all {allDevs : UINT8} (hlocate : t.locateHandleBuffer = EFI_SUCCESS)
    (hall : allDevs ≠ 0) :
    t.process options want allDevs =
      ⟨lastStatus EFI_SUCCESS t.pciHandles, (t.pciHandles.filter fun handle => handle.Readable).map
        (⟨·, options⟩)⟩ := by
  have hend : ¬ (allDevs = 0 ∧ 0 + t.pciHandles.length = t.pciHandles.length) := fun h => hall h.1
  rw [process, if_neg (not_not.mpr hlocate), forEachHandle_all options want hall, hlocate]
  simp only [bind, pure, if_neg hend, List.append_nil]

theorem process_one (hlocate : t.locateHandleBuffer = EFI_SUCCESS) :
    t.process options want 0 =
      match t.pciHandles.find? fun handle => handle.IsAt want with
      | none => ⟨EFI_NOT_FOUND, []⟩
      | some handle => ⟨EFI_SUCCESS, [⟨handle, options⟩]⟩ := by
  have hloop := forEachHandle_one options want t.pciHandles 0 t.locateHandleBuffer
  rw [process, if_neg (not_not.mpr hlocate)]
  split at hloop
  · obtain ⟨status, heq⟩ := hloop
    rw [heq]
    simp [bind, pure]
  · obtain ⟨index, hlt, heq⟩ := hloop
    have hne : index ≠ t.pciHandles.length := by omega
    rw [heq]
    simp [bind, pure, hne]

end

/-! ## the requested function -/

/-- Every option is handled, or leads to an error. -/
theorem exists_onOption (options : LoadOptions) (report : GetOptContext) :
    ∃ result, onOption options report = some result := by
  unfold onOption
  split
  · exact ⟨_, rfl⟩
  · split
    · exact ⟨_, rfl⟩
    · exact ⟨_, rfl⟩

theorem exists_wanted (commandLine : CommandLine)
    (hfour : commandLine.argc - (commandLine.parsed optionsWithArgs).2.optIndex = 4) :
    ∃ want, t.wanted commandLine (commandLine.parsed optionsWithArgs).2.optIndex = some want := by
  have hargc : 1 ≤ commandLine.argc := by
    by_cases hzero : commandLine.argc = 0
    · rw [commandLine.parsed_of_argc_zero _ hzero, hzero] at hfour
      exact absurd hfour (by decide)
    · bv_omega
  have hword (k : UINT64) (hk : k < 4) :=
    commandLine.exists_operand optionsWithArgs (k := k) (hfour ▸ hk) hargc
  obtain ⟨seg, hseg⟩ := hword 0 (by decide)
  obtain ⟨bus, hbus⟩ := hword 1 (by decide)
  obtain ⟨dev, hdev⟩ := hword 2 (by decide)
  obtain ⟨func, hfunc⟩ := hword 3 (by decide)
  refine ⟨⟨t.strHexToUintn seg, t.strHexToUintn bus, t.strHexToUintn dev, t.strHexToUintn func⟩, ?_⟩
  simp only [wanted, hseg, hbus, hdev, hfunc, bind, Option.bind]

/-- What is read of the command line is there. -/
theorem isSome_arguments : t.arguments.isSome = true := by
  unfold arguments
  cases getShellArgcArgv t.shellParameters t.shellInterface with
  | error status => rfl
  | ok commandLine =>
      obtain ⟨result, hresult⟩ :=
        CommandLine.exists_handleReports onOption (commandLine.parsed optionsWithArgs).1
        (fun report _ options => exists_onOption options report)
        ⟨false, false⟩
      simp only [commandLine.optionLoop_eq, hresult]
      cases result with
      | error status => rfl
      | ok options =>
          simp only [Option.map_some, Except.map, bind, Option.bind]
          split
          · rfl
          · split
            · obtain ⟨want, hwant⟩ := t.exists_wanted commandLine ‹_›
              rw [hwant]
              rfl
            · rfl

/-- Once `LocateHandleBuffer` has succeeded, the ROM of the first device at the location is
analyzed and of no other one, and `EFI_NOT_FOUND` says that there is none; without operands
the ROM of every device that can be read is analyzed. -/
structure ProcessesRequested : Prop where
  returns : t.entryPoint.isSome = true
  requested : ∀ options want, t.arguments = some (.ok (options, some want)) →
    t.locateHandleBuffer = EFI_SUCCESS →
    ∀ run ∈ t.entryPoint,
      run.trace = (t.pciHandles.find? fun handle => handle.IsAt want).toList.map (⟨·, options⟩) ∧
        (run.value = EFI_NOT_FOUND ↔ ¬ ∃ handle ∈ t.pciHandles, handle.IsAt want)
  all : ∀ options, t.arguments = some (.ok (options, none)) → t.locateHandleBuffer = EFI_SUCCESS →
    ∀ run ∈ t.entryPoint, run.trace = (t.pciHandles.filter fun handle => handle.Readable).map
      (⟨·, options⟩)

/-- No other handle than the first one at the location can be read, and the services for the
last handle return `EFI_NOT_FOUND` exactly when there is none. -/
structure OnlyRequested (want : Location) : Prop where
  readable : t.pciHandles.filter (fun handle => handle.Readable) =
    (t.pciHandles.find? fun handle => handle.IsAt want).toList
  last : lastStatus EFI_SUCCESS t.pciHandles = EFI_NOT_FOUND ↔
    ¬ ∃ handle ∈ t.pciHandles, handle.IsAt want

/-- With four operands and `AllDevs` not zero, every device is analyzed. -/
theorem requested_iff {options : LoadOptions} {want : Location} (hall : t.allDevs ≠ 0)
    (hlocate : t.locateHandleBuffer = EFI_SUCCESS) :
    (t.process options want t.allDevs).trace =
          (t.pciHandles.find? fun handle => handle.IsAt want).toList.map (⟨·, options⟩) ∧
        ((t.process options want t.allDevs).value = EFI_NOT_FOUND ↔
          ¬ ∃ handle ∈ t.pciHandles, handle.IsAt want) ↔
      t.OnlyRequested want := by
  have hinj : Function.Injective fun handle : PciHandle => Analysis.mk handle options :=
    fun _ _ heq => (Analysis.mk.inj heq).1
  rw [process_all options want hlocate hall]
  constructor
  · rintro ⟨htrace, hvalue⟩
    exact ⟨List.map_injective_iff.mpr hinj htrace, hvalue⟩
  · rintro ⟨hreadable, hlast⟩
    exact ⟨congrArg _ hreadable, hlast⟩

/-- Otherwise, the first device at the location is. -/
theorem requested_of_allDevs_eq_zero (options : LoadOptions) (want : Location)
    (hlocate : t.locateHandleBuffer = EFI_SUCCESS) :
    (t.process options want 0).trace =
          (t.pciHandles.find? fun handle => handle.IsAt want).toList.map (⟨·, options⟩) ∧
        ((t.process options want 0).value = EFI_NOT_FOUND ↔
          ¬ ∃ handle ∈ t.pciHandles, handle.IsAt want) := by
  rw [process_one options want hlocate]
  cases hfind : t.pciHandles.find? fun handle => handle.IsAt want with
  | none =>
      have hnone : ¬ ∃ handle ∈ t.pciHandles, handle.IsAt want := by
        rintro ⟨handle, hmem, hat⟩
        exact absurd hat (by simpa using List.find?_eq_none.mp hfind handle hmem)
      exact ⟨rfl, iff_of_true rfl hnone⟩
  | some handle =>
      have hsome : ∃ handle ∈ t.pciHandles, handle.IsAt want :=
        ⟨handle, List.mem_of_find?_eq_some hfind, by simpa using List.find?_some hfind⟩
      exact ⟨rfl, iff_of_false (show EFI_SUCCESS ≠ EFI_NOT_FOUND by decide) (not_not.mpr hsome)⟩

/-- For every command line, every content of `AllDevs` and every list of handles, what is
requested is processed exactly when, with four operands, `AllDevs` happens to hold zero or
only the requested handle can be read. -/
theorem processesRequested_iff (t : LoadOpRom) :
    t.ProcessesRequested ↔
      ∀ options want, t.arguments = some (.ok (options, some want)) →
      t.locateHandleBuffer = EFI_SUCCESS →
        t.allDevs = 0 ∨ t.OnlyRequested want := by
  constructor
  · intro h options want harguments hlocate
    by_cases hzero : t.allDevs = 0
    · exact .inl hzero
    · have hrun : t.entryPoint = some (t.process options want t.allDevs) := by
        rw [entryPoint, harguments]; rfl
      exact .inr ((requested_iff t hzero hlocate).mp
        (h.requested options want harguments hlocate _ hrun))
  · intro h
    refine ⟨by rw [entryPoint, Option.isSome_map]; exact t.isSome_arguments, ?_, ?_⟩
    · intro options want harguments hlocate run hrun
      obtain rfl : t.process options want t.allDevs = run := by
        rw [entryPoint, harguments] at hrun
        exact Option.some.inj hrun
      by_cases hzero : t.allDevs = 0
      · rw [hzero]
        exact requested_of_allDevs_eq_zero t options want hlocate
      · exact (requested_iff t hzero hlocate).mpr
          ((h options want harguments hlocate).resolve_left hzero)
    · intro options harguments hlocate run hrun
      obtain rfl : t.process options ⟨-1, -1, -1, -1⟩ 1 = run := by
        rw [entryPoint, harguments] at hrun
        exact Option.some.inj hrun
      rw [process_all _ _ hlocate (by decide)]

/-- A device whose protocols and location can be read. -/
def readableDevice (dev : UINT64) : PciHandle :=
  ⟨0x7000 + dev, EFI_SUCCESS, EFI_SUCCESS, EFI_SUCCESS, ⟨0, 0, dev, 0⟩⟩

/-- `LoadOpRom 0 0 1 0`, on a machine with two devices, when `AllDevs` happens to hold 1. -/
def twoDevices : LoadOpRom where
  shellParameters := some
    ⟨5, [⟨[0x4c], by simp⟩, ⟨[0x30], by simp⟩, ⟨[0x30], by simp⟩, ⟨[0x31], by simp⟩,
      ⟨[0x30], by simp⟩], rfl⟩
  shellInterface := none
  strHexToUintn word := if word.chars = [0x31] then 1 else 0
  allDevs := 1
  locateHandleBuffer := EFI_SUCCESS
  pciHandles := [readableDevice 0, readableDevice 1]

/-- The ROM of the other device is analyzed, too. -/
theorem twoDevices_analyzed :
    twoDevices.entryPoint = some ⟨EFI_SUCCESS,
        [⟨readableDevice 0, ⟨false, false⟩⟩, ⟨readableDevice 1, ⟨false, false⟩⟩]⟩ ∧
      ¬ twoDevices.ProcessesRequested := by
  have hrun : twoDevices.entryPoint = some ⟨EFI_SUCCESS,
      [⟨readableDevice 0, ⟨false, false⟩⟩, ⟨readableDevice 1, ⟨false, false⟩⟩]⟩ := rfl
  refine ⟨hrun, fun h => ?_⟩
  have htrace := (h.requested ⟨false, false⟩ ⟨0, 0, 1, 0⟩ rfl rfl _ hrun).1
  exact absurd htrace (by decide)

end LoadOpRom

end MultiArchUefi
