import MultiArchUefi.Lib.Traced
import MultiArchUefi.CommandLine

/-!
# MultiArchUefi.SetCon

The tool that shows and sets the console variables.

The services that it uses are given, the functions of the device path library
among them: `Documented` is what is relied on of these.  `Path` is what a buffer
may hold that is taken for a device path.  The trace of a run is the list of the
calls of `SetVariable`.
-/

namespace MultiArchUefi

def EFI_BUFFER_TOO_SMALL : UINT64 := 0x8000000000000005

/-! ## services -/

/-- The protocols of consoles. -/
inductive ConsoleProtocol where
  | simpleTextOut
  | simpleTextIn
deriving DecidableEq, Repr

/-- What comes of reading a variable: the status and the size without a buffer, whether
the buffer can be allocated, and what is returned with the buffer. -/
structure VariableRead (Path : Type) where
  sizeStatus : UINT64
  allocated : Bool
  status : UINT64
  attributes : UINT32
  variableSize : UINT64
  contents : Path

/-- A call of `SetVariable`; attributes that have not been read are not initialized. -/
structure SetVariableCall (Path : Type) where
  variableName : String16
  attributes : Option UINT32
  dataSize : UINT64
  data : Option Path

/-- What a run of the tool depends on; `none` stands for a null pointer, or for a service that
fails. -/
structure SetCon (Path : Type) where
  shellParameters : Option CommandLine
  shellInterface : Option CommandLine
  strHexToUintn : String16 → UINT64
  convertHandleIndexToHandle : UINT64 → UINT64
  convertTextToDevicePath : String16 → Option Path
  devicePathFromHandle : UINT64 → Option Path
  duplicateDevicePath : Option Path → Option Path
  appendDevicePathInstance : Option Path → Option Path → Option Path
  getDevicePathSize : Option Path → UINT64
  isDevicePathValid : Path → UINT64 → Bool
  getVariable : String16 → VariableRead Path
  setVariable : UINT64
  locateHandleBuffer : ConsoleProtocol → Option (List UINT64)
  handleProtocol : UINT64 → Option Path

namespace SetCon

variable {Path : Type} (s : SetCon Path)

/-! ## variables -/

/-- `GetVarPath`: the status, the path, and the attributes. -/
def getVarPath (varName : String16) : UINT64 × Option Path × Option UINT32 :=
  let read := s.getVariable varName
  if read.sizeStatus = EFI_NOT_FOUND then (read.sizeStatus, none, none)
  else if read.sizeStatus ≠ EFI_BUFFER_TOO_SMALL then (read.sizeStatus, none, none)
  else if read.allocated = false then (EFI_OUT_OF_RESOURCES, none, none)
  else if efiError read.status then (read.status, none, none)
  else if s.isDevicePathValid read.contents read.variableSize = false then
    (EFI_SUCCESS, none, some read.attributes)
  else (EFI_SUCCESS, some read.contents, some read.attributes)

/-- `L"ConOut"`. -/
def CON_OUT : List CHAR16 := [0x43, 0x6f, 0x6e, 0x4f, 0x75, 0x74]

/-- `L"ErrOut"`. -/
def ERR_OUT : List CHAR16 := [0x45, 0x72, 0x72, 0x4f, 0x75, 0x74]

/-- `L"ConIn"`. -/
def CON_IN : List CHAR16 := [0x43, 0x6f, 0x6e, 0x49, 0x6e]

/-- The loop of `AutoPath`, with the path that it builds. -/
def buildPath : Option Path → List UINT64 → Except UINT64 (Option Path)
  | build, [] => .ok build
  | build, handle :: handles =>
      match s.handleProtocol handle with
      | none => buildPath build handles
      | some path =>
          match s.appendDevicePathInstance build (some path) with
          | none => .error EFI_OUT_OF_RESOURCES
          | some new => buildPath (some new) handles

/-- The protocol of the consoles that a variable lists. -/
def consoleProtocol (varName : String16) : Option ConsoleProtocol :=
  if CON_OUT.isPrefixOf varName.chars ∨ ERR_OUT.isPrefixOf varName.chars then some .simpleTextOut
  else if CON_IN.isPrefixOf varName.chars then some .simpleTextIn
  else none

/-- `AutoPath`. -/
def autoPath (varName : String16) : Except UINT64 Path :=
  match consoleProtocol varName with
  | none => .error EFI_INVALID_PARAMETER
  | some proto =>
      match s.locateHandleBuffer proto with
      | none => .error EFI_NOT_FOUND
      | some handles =>
          match s.buildPath none handles with
          | .error status => .error status
          | .ok none => .error EFI_NOT_FOUND
          | .ok (some build) => .ok build

/-! ## options -/

/-- `L"ihp"`. -/
def optionsWithArgs : Option String16 := some ⟨[0x69, 0x68, 0x70], by simp⟩

/-- `Set`, `Append`, `Auto` and `Path`. -/
structure State (Path : Type) where
  set : Bool
  append : Bool
  auto : Bool
  path : Option Path

/-- The state before the options. -/
def initState : State Path := ⟨false, false, false, none⟩

/-- The path of a handle. -/
def pathOfHandle (handle : UINT64) : Except UINT64 (Option Path) :=
  match s.duplicateDevicePath (s.devicePathFromHandle handle) with
  | none => .error EFI_INVALID_PARAMETER
  | some path => .ok (some path)

/-- What an option makes of its argument.  The status that is set for a text that is no path gets
lost. -/
def pathOf (opt : CHAR16) (text : String16) : Except UINT64 (Option Path) :=
  if opt = 0x70 then .ok (s.convertTextToDevicePath text)
  else if opt = 0x68 then s.pathOfHandle (s.strHexToUintn text)
  else
    let handle := s.convertHandleIndexToHandle (s.strHexToUintn text)
    if handle = 0 then .error EFI_INVALID_PARAMETER else s.pathOfHandle handle

/-- The options `-p`, `-h` and `-i`. -/
def onPathOption (commandLine : CommandLine) (state : State Path) (report : GetOptContext) :
    Option (Except UINT64 (State Path)) :=
  match report.optArg with
  | none => some (.error EFI_INVALID_PARAMETER)
  | some pointer =>
      if state.set ∨ state.auto then some (.error EFI_INVALID_PARAMETER)
      else do
        let text ← commandLine.stringAt pointer
        match s.pathOf report.opt text with
        | .error status => some (.error status)
        | .ok path => some (.ok { state with path := path, set := true })

/-- An option takes a path, or a handle that has one. -/
def IsPathOption (opt : CHAR16) : Prop := opt = 0x70 ∨ opt = 0x68 ∨ opt = 0x69

instance (opt : CHAR16) : Decidable (IsPathOption opt) := inferInstanceAs (Decidable (_ ∨ _))

/-- The `switch` over the options; what is not accepted leads to `Usage`. -/
def onOption (commandLine : CommandLine) (state : State Path) (report : GetOptContext) :
    Option (Except UINT64 (State Path)) :=
  if report.opt = 0x41 then
    if state.set ∨ state.append then some (.error EFI_INVALID_PARAMETER)
    else some (.ok { state with auto := true, set := true })
  else if report.opt = 0x61 then
    if state.auto then some (.error EFI_INVALID_PARAMETER) else some
      (.ok { state with append := true })
  else if IsPathOption report.opt then s.onPathOption commandLine state report
  else some (.error EFI_INVALID_PARAMETER)

/-! ## writing -/

/-- `SetVariable` is called with a path. -/
def writePath (varName : String16) (attributes : Option UINT32) (path : Option Path) :
    Traced (SetVariableCall Path) UINT64 :=
  ⟨s.setVariable, [⟨varName, attributes, s.getDevicePathSize path, path⟩]⟩

/-- `EntryPoint` from `GetVarPath` on. -/
def update (state : State Path) (varName : String16) : Traced (SetVariableCall Path) UINT64 :=
  let (status, currentPath, attributes) := s.getVarPath varName
  if status ≠ EFI_SUCCESS then pure status
  else if state.set = false then pure status
  else if state.auto then
    match s.autoPath varName with
    | .error status => pure status
    | .ok path => s.writePath varName attributes (some path)
  else if state.append then
    match s.appendDevicePathInstance currentPath state.path with
    | none => pure EFI_OUT_OF_RESOURCES
    | some newPath => s.writePath varName attributes (some newPath)
  else s.writePath varName attributes state.path

/-- `EntryPoint` after the options. -/
def afterOptions (commandLine : CommandLine) :
    Except UINT64 (State Path × GetOptContext) → Option (Traced (SetVariableCall Path) UINT64)
  | .error status => some (pure status)
  | .ok (state, context) =>
      if commandLine.argc - context.optIndex < 1 then some (pure EFI_INVALID_PARAMETER)
      else (commandLine.argv[(context.optIndex + 0).toNat]?).map (s.update state)

/-- `EntryPoint`; `none` when a word is read that is not there. -/
def entryPoint : Option (Traced (SetVariableCall Path) UINT64) :=
  match getShellArgcArgv s.shellParameters s.shellInterface with
  | .error _ => some (pure EFI_ABORTED)
  | .ok commandLine =>
      if commandLine.argc < 1 then some (pure EFI_ABORTED)
      else do
        let result ← commandLine.optionLoop optionsWithArgs
          (s.onOption commandLine) commandLine.calls initState
          initGetOptContext
        s.afterOptions commandLine result

/-! ## what is relied on -/

section

variable {Node : Type} (instances : Path → List (List Node))

/-- A path is not empty: one of its instances has a node before its end. -/
def HasNode (path : Path) : Prop := ∃ nodes ∈ instances path, nodes ≠ []

/-- The device path library does what it says, with `instances` for the nodes of the
instances of a path; a path is valid when it is valid without a limit on its size, and may
be empty.  Reading a variable succeeds or fails, and does not only warn. -/
structure Documented : Prop where
  converted : ∀ text path, s.convertTextToDevicePath text = some path →
    s.isDevicePathValid path 0 = true
  duplicated : ∀ source path, s.duplicateDevicePath source = some path →
    s.isDevicePathValid path 0 = true
  appended_null : ∀ source, s.appendDevicePathInstance source none = none
  appended : ∀ source path new, s.appendDevicePathInstance source (some path) = some new →
    s.isDevicePathValid new 0 = true ∧ instances new = source.elim [] instances ++ instances path
  size : ∀ path, s.isDevicePathValid path 0 = true → 0 < s.getDevicePathSize (some path)
  read : ∀ varName, (s.getVariable varName).sizeStatus = EFI_SUCCESS ∨
    efiError (s.getVariable varName).sizeStatus = true

/-- The command line of the tool, and the variable that it names. -/
structure Names (commandLine : CommandLine) (varName : String16) : Prop where
  shell : getShellArgcArgv s.shellParameters s.shellInterface = .ok commandLine
  word : commandLine.argv[((commandLine.parsed optionsWithArgs).2.optIndex + 0).toNat]? =
    some varName

/-- The device path that a path option gives. -/
def Yields (commandLine : CommandLine) (report : GetOptContext) (path : Path) : Prop :=
  IsPathOption report.opt ∧ ∃ pointer text, report.optArg = some pointer ∧
    commandLine.stringAt pointer = some text ∧ s.pathOf report.opt text = .ok (some path)

/-- The options that are given. -/
def reports (commandLine : CommandLine) : List GetOptContext :=
  (commandLine.parsed optionsWithArgs).1

/-- The path that is written was asked for: it has been built from the consoles for `-A`, or
is what a path option gives, after the old instances for `-a`. -/
def Requested (commandLine : CommandLine) (varName : String16) (path : Path) : Prop :=
  (∃ report ∈ reports commandLine, report.opt = 0x41) ∧ s.autoPath varName = .ok path ∨
    ∃ report ∈ reports commandLine, ∃ new, s.Yields commandLine report new ∧
      if ∃ report ∈ reports commandLine, report.opt = 0x61 then
        instances path = (s.getVarPath varName).2.1.elim [] instances ++ instances new
      else path = new

/-- An argument is invalid, or a step before `SetVariable` fails. -/
inductive Fails : Prop
  | shell (h : ∀ commandLine, getShellArgcArgv s.shellParameters s.shellInterface ≠ .ok commandLine)
  | words {commandLine : CommandLine}
      (h : getShellArgcArgv s.shellParameters s.shellInterface = .ok commandLine)
      (hargc : commandLine.argc < 1)
  | unknown {commandLine : CommandLine} {report : GetOptContext}
      (h : getShellArgcArgv s.shellParameters s.shellInterface = .ok commandLine)
      (hmem : report ∈ reports commandLine)
      (hopt : report.opt ≠ 0x41 ∧ report.opt ≠ 0x61 ∧ ¬ IsPathOption report.opt)
  | argument {commandLine : CommandLine} {report : GetOptContext}
      (h : getShellArgcArgv s.shellParameters s.shellInterface = .ok commandLine)
      (hmem : report ∈ reports commandLine) (hopt : IsPathOption report.opt)
      (hinvalid : ∀ path, ¬ s.Yields commandLine report path)
  | noName {commandLine : CommandLine}
      (h : getShellArgcArgv s.shellParameters s.shellInterface = .ok commandLine)
      (hname : commandLine.argc - (commandLine.parsed optionsWithArgs).2.optIndex < 1)
  | unreadable {commandLine : CommandLine} {varName : String16} (h : s.Names commandLine varName)
      (hread : efiError (s.getVarPath varName).1 = true)
  | auto {commandLine : CommandLine} {varName : String16} (h : s.Names commandLine varName)
      (hauto : ∃ report ∈ reports commandLine, report.opt = 0x41)
      (hbuild : ∀ path, s.autoPath varName ≠ .ok path)
  | append {commandLine : CommandLine} {varName : String16} {report : GetOptContext} {new : Path}
      (h : s.Names commandLine varName)
      (happend : ∃ report ∈ reports commandLine, report.opt = 0x61)
      (hmem : report ∈ reports commandLine) (hnew : s.Yields commandLine report new)
      (hfails : s.appendDevicePathInstance (s.getVarPath varName).2.1 (some new) = none)

/-- A run writes at most once, a valid and not empty device path that was asked for; when
something has failed before, it returns an error and writes nothing. -/
structure NeverDestroys : Prop where
  returns : s.entryPoint.isSome = true
  once : ∀ run ∈ s.entryPoint, run.trace.length ≤ 1
  written : ∀ run ∈ s.entryPoint, ∀ call ∈ run.trace, ∃ commandLine path,
    s.Names commandLine call.variableName ∧ call.data = some path ∧
      s.isDevicePathValid path 0 = true ∧ HasNode instances path ∧ 0 < call.dataSize ∧
      s.Requested instances commandLine call.variableName path
  failed : ∀ run ∈ s.entryPoint, s.Fails → efiError run.value = true ∧ run.trace = []

/-- The only option is `-p`, its text is no device path, and the variable can be read. -/
def OnlyRejectedText : Prop :=
  ∃ commandLine varName report pointer text, s.Names commandLine varName ∧
    reports commandLine = [report] ∧
    report.opt = 0x70 ∧ report.optArg = some pointer ∧ commandLine.stringAt pointer = some text ∧
    s.convertTextToDevicePath text = none ∧ (s.getVarPath varName).1 = EFI_SUCCESS

/-- The paths of the consoles for `-A`. -/
def consolePaths (varName : String16) : List Path :=
  (((consoleProtocol varName).bind s.locateHandleBuffer).getD []).filterMap s.handleProtocol

/-- No node comes from the options, the variable can be read, and what is to be written can
be built: with `-A` alone, no console has a node in its path; with a path option, its path has
none, and neither has the current one if there is an `-a`. -/
inductive OnlyEmptyPath : Prop
  | auto {commandLine : CommandLine} {varName : String16} {report : GetOptContext}
      (h : s.Names commandLine varName) (hreports : reports commandLine = [report])
      (hopt : report.opt = 0x41) (hread : (s.getVarPath varName).1 = EFI_SUCCESS)
      (hbuild : ∃ path, s.autoPath varName = .ok path)
      (hempty : ∀ path ∈ s.consolePaths varName, ¬ HasNode instances path)
  | option {commandLine : CommandLine} {varName : String16} {before after : List GetOptContext}
      {report : GetOptContext} {path : Path} (h : s.Names commandLine varName)
      (hreports : reports commandLine = before ++ report :: after)
      (happends : ∀ other ∈ before ++ after, other.opt = 0x61)
      (hyields : s.Yields commandLine report path)
      (hread : (s.getVarPath varName).1 = EFI_SUCCESS) (hempty : ¬ HasNode instances path)
      (hkept : before ++ after ≠ [] →
        (∀ current ∈ (s.getVarPath varName).2.1, ¬ HasNode instances current) ∧
          s.appendDevicePathInstance (s.getVarPath varName).2.1 (some path) ≠ none)

end

/-! ## single steps -/

section

variable {s} {Node : Type} {instances : Path → List (List Node)} {commandLine : CommandLine}
  {varName : String16} {opt : CHAR16} {text : String16} {status : UINT64} {report : GetOptContext}
  {state state' : State Path}

theorem isPathOption_iff : IsPathOption opt ↔ TakesArgument optionsWithArgs opt := by
  simp only [IsPathOption, TakesArgument, optionsWithArgs, Option.mem_some_iff, exists_eq_left']
  constructor
  · rintro (rfl | rfl | rfl) <;> decide
  · intro h
    rcases List.mem_cons.mp h with h | h
    · exact .inr (.inr h)
    · rcases List.mem_cons.mp h with h | h
      · exact .inr (.inl h)
      · exact .inl (List.mem_singleton.mp h)

theorem IsPathOption.ne {opt : CHAR16} (h : IsPathOption opt) : opt ≠ 0x41 ∧ opt ≠ 0x61 := by
  rcases h with rfl | rfl | rfl <;> decide

theorem pathOfHandle_ne_none (handle : UINT64) : s.pathOfHandle handle ≠ .ok none := by
  unfold pathOfHandle
  split <;> simp

/-- Only a text comes to no path without an error. -/
theorem pathOf_none (hpath : s.pathOf opt text = .ok none) :
    opt = 0x70 ∧ s.convertTextToDevicePath text = none := by
  unfold pathOf at hpath
  split at hpath
  · exact ⟨‹_›, Except.ok.inj hpath⟩
  · split at hpath
    · exact absurd hpath (pathOfHandle_ne_none _)
    · simp only at hpath
      split at hpath
      · cases hpath
      · exact absurd hpath (pathOfHandle_ne_none _)

theorem pathOfHandle_valid (hdoc : s.Documented instances) {handle : UINT64} {path : Path}
    (hpath : s.pathOfHandle handle = .ok (some path)) : s.isDevicePathValid path 0 = true := by
  unfold pathOfHandle at hpath
  split at hpath
  · cases hpath
  · rename_i hduplicate
    obtain rfl := Option.some.inj (Except.ok.inj hpath)
    exact hdoc.duplicated _ _ hduplicate

/-- What an option gives is a valid path. -/
theorem pathOf_valid (hdoc : s.Documented instances) {path : Path}
    (hpath : s.pathOf opt text = .ok (some path)) :
    s.isDevicePathValid path 0 = true := by
  unfold pathOf at hpath
  split at hpath
  · exact hdoc.converted _ _ (Except.ok.inj hpath)
  · split at hpath
    · exact pathOfHandle_valid hdoc hpath
    · simp only at hpath
      split at hpath
      · cases hpath
      · exact pathOfHandle_valid hdoc hpath

theorem buildPath_valid (hdoc : s.Documented instances) {handles : List UINT64}
    {build : Option Path} {path : Path} (hbuild : ∀ p ∈ build, s.isDevicePathValid p 0 = true)
    (h : s.buildPath build handles = .ok (some path)) :
    s.isDevicePathValid path 0 = true := by
  induction handles generalizing build with
  | nil => exact hbuild path (Except.ok.inj h)
  | cons handle handles ih =>
      rw [buildPath] at h
      split at h
      · exact ih hbuild h
      · split at h
        · cases h
        · rename_i new happend
          refine ih (fun p hp => ?_) h
          obtain rfl := Option.some.inj hp
          exact (hdoc.appended _ _ _ happend).1

theorem buildPath_error {handles : List UINT64} {build : Option Path}
    (h : s.buildPath build handles = .error status) :
    status = EFI_OUT_OF_RESOURCES := by
  induction handles generalizing build with
  | nil => cases h
  | cons handle handles ih =>
      rw [buildPath] at h
      split at h
      · exact ih h
      · split at h
        · exact (Except.error.inj h).symm
        · exact ih h

/-- What is built from the consoles is a valid path. -/
theorem autoPath_valid (hdoc : s.Documented instances) {path : Path}
    (h : s.autoPath varName = .ok path) :
    s.isDevicePathValid path 0 = true := by
  unfold autoPath at h
  split at h
  · cases h
  · split at h
    · cases h
    · split at h
      · cases h
      · cases h
      · rename_i hbuild
        obtain rfl := Except.ok.inj h
        exact buildPath_valid hdoc (fun _ hp => by cases hp) hbuild

theorem autoPath_error (h : s.autoPath varName = .error status) : efiError status = true := by
  unfold autoPath at h
  split at h
  · obtain rfl := Except.error.inj h
    decide
  · split at h
    · obtain rfl := Except.error.inj h
      decide
    · split at h
      · rename_i hbuild
        obtain rfl := Except.error.inj h
        rw [buildPath_error hbuild]
        decide
      · obtain rfl := Except.error.inj h
        decide
      · cases h

/-- What is appended has a node when the source or the new instance has one. -/
theorem hasNode_appended (hdoc : s.Documented instances) {source : Option Path} {path new : Path}
    (h : s.appendDevicePathInstance source (some path) = some new) :
    HasNode instances new ↔ (∃ old ∈ source, HasNode instances old) ∨ HasNode instances path := by
  have hinstances := (hdoc.appended _ _ _ h).2
  cases source <;> simp [HasNode, hinstances, or_and_right, exists_or]

/-- What is built has a node when what it is built from has one. -/
theorem hasNode_buildPath (hdoc : s.Documented instances) {handles : List UINT64}
    {build : Option Path} {path : Path} (h : s.buildPath build handles = .ok (some path)) :
    HasNode instances path ↔
      (∃ old ∈ build, HasNode instances old) ∨
        ∃ console ∈ handles.filterMap s.handleProtocol, HasNode instances console := by
  induction handles generalizing build with
  | nil =>
      obtain rfl := Except.ok.inj h
      simp
  | cons handle handles ih =>
      rw [buildPath] at h
      split at h
      · rename_i hnone
        rw [ih h, List.filterMap_cons_none hnone]
      · rename_i console hconsole
        split at h
        · cases h
        · rename_i new happend
          have hnew := hasNode_appended hdoc happend
          rw [ih h, List.filterMap_cons_some hconsole]
          simp [hnew, or_assoc]

theorem hasNode_autoPath (hdoc : s.Documented instances) {path : Path}
    (h : s.autoPath varName = .ok path) :
    HasNode instances path ↔ ∃ console ∈ s.consolePaths varName, HasNode instances console := by
  unfold autoPath at h
  split at h
  · cases h
  · rename_i proto hproto
    split at h
    · cases h
    · rename_i handles hhandles
      split at h
      · cases h
      · cases h
      · rename_i build hbuild
        obtain rfl := Except.ok.inj h
        have hconsoles : s.consolePaths varName = handles.filterMap s.handleProtocol := by
          simp [consolePaths, hproto, hhandles]
        rw [hasNode_buildPath hdoc hbuild, hconsoles]
        simp

/-- `GetVarPath` succeeds or fails. -/
theorem getVarPath_status (hdoc : s.Documented instances) (varName : String16) :
    (s.getVarPath varName).1 = EFI_SUCCESS ∨ efiError (s.getVarPath varName).1 = true := by
  unfold getVarPath
  simp only
  split
  · exact hdoc.read varName
  · split
    · exact hdoc.read varName
    · split
      · exact .inr (show efiError EFI_OUT_OF_RESOURCES = true by decide)
      · split
        · exact .inr ‹_›
        · split <;> exact .inl rfl

/-! ## accepted options -/

/-- The options that are accepted, and the state that they lead to: any number of `-a`;
`-A` alone; or one path option among any number of `-a`. -/
inductive Accepted (s : SetCon Path) (commandLine : CommandLine) :
    List GetOptContext → State Path → Prop
  | appends {reports : List GetOptContext} {append : Bool}
      (happends : ∀ report ∈ reports, report.opt = 0x61) (happend : append = true ↔ reports ≠ []) :
      Accepted s commandLine reports ⟨false, append, false, none⟩
  | auto {report : GetOptContext} (h : report.opt = 0x41) :
      Accepted s commandLine [report] ⟨true, false, true, none⟩
  | path {before after : List GetOptContext} {append : Bool} {report : GetOptContext}
      {pointer : ArgPointer} {text : String16} {path : Option Path}
      (happends : ∀ other ∈ before ++ after, other.opt = 0x61)
      (happend : append = true ↔ before ++ after ≠ []) (hopt : IsPathOption report.opt)
      (harg : report.optArg = some pointer) (htext : commandLine.stringAt pointer = some text)
      (hpath : s.pathOf report.opt text = .ok path) :
      Accepted s commandLine (before ++ report :: after) ⟨true, append, false, path⟩

/-- What an accepted path option does. -/
theorem onPathOption_ok (h : s.onPathOption commandLine state report = some (.ok state')) :
    ∃ pointer text path, report.optArg = some pointer ∧ commandLine.stringAt pointer = some text ∧
      s.pathOf report.opt text = .ok path ∧ state.set = false ∧ state.auto = false ∧
      state' = { state with path := path, set := true } := by
  unfold onPathOption at h
  split at h
  · cases h
  · rename_i pointer harg
    split at h
    · cases h
    · rename_i hset
      obtain ⟨hset, hauto⟩ := not_or.mp hset
      cases htext : commandLine.stringAt pointer with
      | none => simp [htext] at h
      | some text =>
          cases hpath : s.pathOf report.opt text with
          | error status => simp [htext, hpath] at h
          | ok path =>
              simp only [htext, hpath, bind, Option.bind, Option.some.injEq, Except.ok.injEq] at h
              exact ⟨pointer, text, path, harg, htext, hpath, by simpa using hset, by
                simpa using hauto, h.symm⟩

/-- What an accepted option does. -/
theorem onOption_ok (h : s.onOption commandLine state report = some (.ok state')) :
    (report.opt = 0x41 ∧ state.set = false ∧ state.append = false ∧
      state' = { state with auto := true, set := true }) ∨
      (report.opt = 0x61 ∧ state.auto = false ∧ state' = { state with append := true }) ∨
      (IsPathOption report.opt ∧ s.onPathOption commandLine state report = some (.ok state')) := by
  unfold onOption at h
  split at h
  · split at h
    · cases h
    · rename_i hopt hset
      obtain ⟨hset, happend⟩ := not_or.mp hset
      exact .inl ⟨hopt, by simpa using hset, by simpa using happend,
        (Except.ok.inj (Option.some.inj h)).symm⟩
  · split at h
    · split at h
      · cases h
      · rename_i hopt hauto
        exact .inr (.inl ⟨hopt, by simpa using hauto, (Except.ok.inj (Option.some.inj h)).symm⟩)
    · split at h
      · exact .inr (.inr ⟨‹_›, h⟩)
      · cases h

theorem forall_append_singleton {reports : List GetOptContext}
    (hreports : ∀ other ∈ reports, other.opt = opt) (hopt : report.opt = opt) :
    ∀ other ∈ reports ++ [report], other.opt = opt := by
  intro other hother
  rcases List.mem_append.mp hother with hother | hother
  · exact hreports other hother
  · rwa [List.mem_singleton.mp hother]

/-- One more option that is accepted. -/
theorem Accepted.step {reports : List GetOptContext} (h : s.Accepted commandLine reports state)
    (hstep : s.onOption commandLine state report = some (.ok state')) :
    s.Accepted commandLine (reports ++ [report]) state' := by
  rcases onOption_ok hstep with ⟨hopt, hset, hnone, rfl⟩ | ⟨hopt, hauto, rfl⟩ | ⟨hopt, hpath⟩
  · cases h with
    | appends happends happend =>
        obtain rfl : reports = [] := by
          by_contra hne
          exact Bool.false_ne_true (hnone.symm.trans (happend.mpr hne))
        obtain rfl := hnone
        exact .auto hopt
    | auto => cases hset
    | path => cases hset
  · cases h with
    | appends happends happend => exact .appends (forall_append_singleton happends hopt) (by simp)
    | auto => cases hauto
    | @path before after append other _ _ _ happends happend hother harg htext hpath =>
        rw [List.append_assoc, List.cons_append]
        refine .path ?_ (by simp) hother harg htext hpath
        rw [← List.append_assoc]
        exact forall_append_singleton happends hopt
  · obtain ⟨pointer, text, path, harg, htext, hyields, hset, -, rfl⟩ := onPathOption_ok hpath
    cases h with
    | appends happends happend =>
        exact .path (by simpa using happends) (by simpa using happend) hopt harg htext hyields
    | auto => cases hset
    | path => cases hset

/-- The options that a run accepts. -/
theorem Accepted.run {done rest : List GetOptContext} (h : s.Accepted commandLine done state)
    (hrun : CommandLine.handleReports (s.onOption commandLine) state rest = some (.ok state')) :
    s.Accepted commandLine (done ++ rest) state' := by
  induction rest generalizing done state with
  | nil =>
      obtain rfl := Except.ok.inj (Option.some.inj hrun)
      rwa [List.append_nil]
  | cons report rest ih =>
      cases hstep : s.onOption commandLine state report with
      | none => simp [CommandLine.handleReports, hstep] at hrun
      | some result =>
          cases result with
          | error status => simp [CommandLine.handleReports, hstep] at hrun
          | ok next =>
              simp only [CommandLine.handleReports, hstep, bind, Option.bind] at hrun
              rw [List.append_cons]
              exact ih (h.step hstep) hrun

theorem accepted_of_handleReports {reports : List GetOptContext}
    (hrun : CommandLine.handleReports (s.onOption commandLine) initState reports =
      some (.ok state)) :
    s.Accepted commandLine reports state := by
  have hinit : s.Accepted commandLine [] initState := .appends (by simp) (by simp)
  simpa using hinit.run hrun

/-- Any number of `-a` options. -/
theorem handleReports_appends {reports : List GetOptContext}
    (happends : ∀ report ∈ reports, report.opt = 0x61) (hauto : state.auto = false) :
    CommandLine.handleReports (s.onOption commandLine) state reports =
      some (.ok { state with append := state.append || !reports.isEmpty }) := by
  induction reports generalizing state with
  | nil => simp [CommandLine.handleReports]
  | cons report reports ih =>
      have hopt : report.opt = 0x61 := happends report (List.mem_cons_self ..)
      have hstep : s.onOption commandLine state report = some
          (.ok { state with append := true }) := by
        simp [onOption, hopt, hauto]
      simp only [CommandLine.handleReports, hstep, bind, Option.bind]
      have hrest := @ih { state with append := true }
        (fun other hmem => happends other (List.mem_cons_of_mem _ hmem)) hauto
      simpa using hrest

/-- One option before the others. -/
theorem handleReports_cons {reports : List GetOptContext}
    (hstep : s.onOption commandLine state report = some (.ok state')) :
    CommandLine.handleReports (s.onOption commandLine) state (report :: reports) =
      CommandLine.handleReports (s.onOption commandLine) state' reports := by
  simp only [CommandLine.handleReports, hstep, bind, Option.bind]

theorem handleReports_append {first : List GetOptContext}
    (hfirst : CommandLine.handleReports (s.onOption commandLine) state first = some (.ok state'))
    (rest : List GetOptContext) :
    CommandLine.handleReports (s.onOption commandLine) state (first ++ rest) =
      CommandLine.handleReports (s.onOption commandLine) state' rest := by
  induction first generalizing state with
  | nil =>
      obtain rfl := Except.ok.inj (Option.some.inj hfirst)
      rfl
  | cons report first ih =>
      cases hstep : s.onOption commandLine state report with
      | none => simp [CommandLine.handleReports, hstep] at hfirst
      | some result =>
          cases result with
          | error status => simp [CommandLine.handleReports, hstep] at hfirst
          | ok next =>
              rw [handleReports_cons hstep] at hfirst
              rw [List.cons_append, handleReports_cons hstep, ih hfirst]

/-- The options that are accepted are the ones of `Accepted`. -/
theorem Accepted.handleReports {reports : List GetOptContext}
    (h : s.Accepted commandLine reports state) :
    CommandLine.handleReports (s.onOption commandLine) initState reports = some (.ok state) := by
  cases h with
  | @appends _ append happends happend =>
      rw [handleReports_appends happends rfl]
      cases append <;> simp_all [initState]
  | @auto report hopt =>
      have hstep : s.onOption commandLine initState report = some
          (.ok ⟨true, false, true, none⟩) := by
        simp [onOption, hopt, initState]
      exact handleReports_cons hstep
  | @path before after append report pointer text path happends happend hopt harg htext hpath =>
      have hbefore : CommandLine.handleReports (s.onOption commandLine) initState before =
          some (.ok ⟨false, !before.isEmpty, false, none⟩) :=
        handleReports_appends (fun other hmem => happends other (List.mem_append_left _ hmem)) rfl
      have hstep : s.onOption commandLine ⟨false, !before.isEmpty, false, none⟩ report =
          some (.ok ⟨true, !before.isEmpty, false, path⟩) := by
        rw [onOption, if_neg hopt.ne.1, if_neg hopt.ne.2, if_pos hopt]
        simp [onPathOption, harg, htext, hpath]
      have hafter : CommandLine.handleReports (s.onOption commandLine)
        ⟨true, !before.isEmpty, false, path⟩ after =
          some (.ok ⟨true, !before.isEmpty || !after.isEmpty, false, path⟩) :=
        handleReports_appends (fun other hmem => happends other (List.mem_append_right _ hmem)) rfl
      have happend : append = (!before.isEmpty || !after.isEmpty) := by
        rw [Bool.eq_iff_iff, happend]
        cases before <;> cases after <;> simp
      rw [handleReports_append hbefore]
      exact (handleReports_cons hstep).trans (hafter.trans (by rw [happend]))

theorem pathOfHandle_error {handle : UINT64} (h : s.pathOfHandle handle = .error status) :
    status = EFI_INVALID_PARAMETER := by
  unfold pathOfHandle at h
  split at h
  · exact (Except.error.inj h).symm
  · cases h

theorem pathOf_error (h : s.pathOf opt text = .error status) : status = EFI_INVALID_PARAMETER := by
  unfold pathOf at h
  split at h
  · cases h
  · split at h
    · exact pathOfHandle_error h
    · simp only at h
      split at h
      · exact (Except.error.inj h).symm
      · exact pathOfHandle_error h

theorem onPathOption_error (h : s.onPathOption commandLine state report = some (.error status)) :
    status = EFI_INVALID_PARAMETER := by
  unfold onPathOption at h
  split at h
  · exact (Except.error.inj (Option.some.inj h)).symm
  · rename_i pointer harg
    split at h
    · exact (Except.error.inj (Option.some.inj h)).symm
    · cases htext : commandLine.stringAt pointer with
      | none => simp [htext] at h
      | some text =>
          cases hpath : s.pathOf report.opt text with
          | ok path => simp [htext, hpath] at h
          | error status' =>
              simp only [htext, hpath, bind, Option.bind, Option.some.injEq,
                Except.error.injEq] at h
              exact h ▸ pathOf_error hpath

/-- What is not accepted is an invalid parameter. -/
theorem onOption_error (h : s.onOption commandLine state report = some (.error status)) :
    status = EFI_INVALID_PARAMETER := by
  unfold onOption at h
  split at h
  · split at h
    · exact (Except.error.inj (Option.some.inj h)).symm
    · cases h
  · split at h
    · split at h
      · exact (Except.error.inj (Option.some.inj h)).symm
      · cases h
    · split at h
      · exact onPathOption_error h
      · exact (Except.error.inj (Option.some.inj h)).symm

theorem handleReports_error {reports : List GetOptContext}
    (h : CommandLine.handleReports (s.onOption commandLine) state reports = some (.error status)) :
    status = EFI_INVALID_PARAMETER := by
  induction reports generalizing state with
  | nil => cases h
  | cons report reports ih =>
      cases hstep : s.onOption commandLine state report with
      | none => simp [CommandLine.handleReports, hstep] at h
      | some result =>
          cases result with
          | error status' =>
              simp only [CommandLine.handleReports, hstep, bind, Option.bind, Option.some.injEq,
                Except.error.injEq] at h
              exact h ▸ onOption_error hstep
          | ok next =>
              simp only [CommandLine.handleReports, hstep, bind, Option.bind] at h
              exact ih h

/-- The argument of an option is there when it is read. -/
theorem exists_onOption (hmem : report ∈ reports commandLine) (state : State Path) :
    ∃ result, s.onOption commandLine state report = some result := by
  unfold onOption
  split
  · split <;> exact ⟨_, rfl⟩
  · split
    · split <;> exact ⟨_, rfl⟩
    · split
      · rename_i hopt
        unfold onPathOption
        split
        · exact ⟨_, rfl⟩
        · rename_i pointer harg
          split
          · exact ⟨_, rfl⟩
          · obtain ⟨text, htext⟩ :=
              commandLine.exists_argument _ hmem (isPathOption_iff.mp hopt) harg
            simp only [htext, bind, Option.bind]
            split <;> exact ⟨_, rfl⟩
      · exact ⟨_, rfl⟩

end

/-! ## runs -/

section

variable {s} {Node : Type} {instances : Path → List (List Node)} {commandLine : CommandLine}
  {varName : String16} {state : State Path}

/-- The variable is named by a word after the options. -/
theorem Names.operand (h : s.Names commandLine varName) :
    ¬ commandLine.argc - (commandLine.parsed optionsWithArgs).2.optIndex < 1 := by
  have hlt := (List.getElem?_eq_some_iff.mp h.word).1
  rw [commandLine.length] at hlt
  bv_omega

theorem entryPoint_of_handled
    (hshell : getShellArgcArgv s.shellParameters s.shellInterface = .ok commandLine)
    (hargc : ¬ commandLine.argc < 1) {result : Except UINT64 (State Path)}
    (hrun : CommandLine.handleReports (s.onOption commandLine) initState
      (reports commandLine) = some result) :
    s.entryPoint = s.afterOptions commandLine
      (result.map (·, (commandLine.parsed optionsWithArgs).2)) := by
  have hrun : CommandLine.handleReports (s.onOption commandLine) initState
    (commandLine.parsed optionsWithArgs).1 =
      some result := hrun
  simp only [entryPoint, hshell, if_neg hargc, commandLine.optionLoop_eq, hrun]
  rfl

/-- After the options that are accepted, the variable is updated. -/
theorem afterOptions_of_names (h : s.Names commandLine varName) (state : State Path) :
    s.afterOptions commandLine (.ok (state, (commandLine.parsed optionsWithArgs).2)) =
      some (s.update state varName) := by
  rw [afterOptions, if_neg h.operand, h.word]
  rfl

/-- A run that accepts the options updates the variable. -/
theorem Names.entryPoint (h : s.Names commandLine varName)
    (haccepted : s.Accepted commandLine (reports commandLine) state) :
    s.entryPoint = some (s.update state varName) := by
  have hargc : ¬ commandLine.argc < 1 := by
    have hlt := (List.getElem?_eq_some_iff.mp h.word).1
    rw [commandLine.length] at hlt
    bv_omega
  exact (entryPoint_of_handled h.shell hargc haccepted.handleReports).trans
    (afterOptions_of_names h state)

/-- A run returns an error before it reads the variable, or has accepted the options. -/
theorem entryPoint_cases (s : SetCon Path) :
    (∃ status, s.entryPoint = some (pure status) ∧ efiError status = true) ∨
      ∃ commandLine varName state, s.Names commandLine varName ∧ 1 ≤ commandLine.argc ∧
        s.Accepted commandLine (reports commandLine) state ∧ s.entryPoint = some
          (s.update state varName) := by
  cases hshell : getShellArgcArgv s.shellParameters s.shellInterface with
  | error status => exact .inl ⟨EFI_ABORTED, by simp only [entryPoint, hshell], by decide⟩
  | ok commandLine =>
      by_cases hargc : commandLine.argc < 1
      · exact .inl ⟨EFI_ABORTED, by simp only [entryPoint, hshell, if_pos hargc], by decide⟩
      obtain ⟨result, hrun⟩ :=
        CommandLine.exists_handleReports (s.onOption commandLine) (reports commandLine)
        (fun report hmem state => exists_onOption hmem state) initState
      have hentry := entryPoint_of_handled hshell hargc hrun
      cases result with
      | error status =>
          refine .inl ⟨status, hentry, ?_⟩
          rw [handleReports_error hrun]
          decide
      | ok state =>
          have hpos : 1 ≤ commandLine.argc := BitVec.not_lt.mp hargc
          by_cases hoperand : commandLine.argc - (commandLine.parsed optionsWithArgs).2.optIndex < 1
          · refine .inl ⟨EFI_INVALID_PARAMETER, ?_, by decide⟩
            rw [hentry]
            exact if_pos hoperand
          · obtain ⟨varName, hword⟩ :=
              commandLine.exists_operand optionsWithArgs (k := 0) (by bv_omega) hpos
            have hnames : s.Names commandLine varName := ⟨hshell, hword⟩
            exact .inr ⟨commandLine, varName, state, hnames, hpos, accepted_of_handleReports hrun,
              hentry.trans (afterOptions_of_names hnames state)⟩

theorem update_of_not_read (hread : efiError (s.getVarPath varName).1 = true) (state : State Path) :
    s.update state varName = pure (s.getVarPath varName).1 := by
  have hne : (s.getVarPath varName).1 ≠ EFI_SUCCESS := by
    intro heq
    rw [heq] at hread
    exact absurd hread (by decide)
  simp only [update, if_pos hne]

/-- With `-A`, the path that is built is written. -/
theorem update_auto (hread : (s.getVarPath varName).1 = EFI_SUCCESS) :
    s.update ⟨true, false, true, none⟩ varName =
      match s.autoPath varName with
      | .error status => pure status
      | .ok path => s.writePath varName (s.getVarPath varName).2.2 (some path) := by
  simp only [update, if_neg (not_not.mpr hread)]
  rfl

/-- With a path option, its path is written, after the old ones for `-a`. -/
theorem update_path (hread : (s.getVarPath varName).1 = EFI_SUCCESS) (append : Bool)
    (path : Option Path) :
    s.update ⟨true, append, false, path⟩ varName =
      if append then
        match s.appendDevicePathInstance (s.getVarPath varName).2.1 path with
        | none => pure EFI_OUT_OF_RESOURCES
        | some newPath => s.writePath varName (s.getVarPath varName).2.2 (some newPath)
      else s.writePath varName (s.getVarPath varName).2.2 path := by
  simp only [update, if_neg (not_not.mpr hread)]
  rfl

theorem update_appends (hread : (s.getVarPath varName).1 = EFI_SUCCESS) (append : Bool) :
    s.update ⟨false, append, false, none⟩ varName = pure EFI_SUCCESS := by
  simp only [update, hread]
  rfl

theorem length_update_le (state : State Path) (varName : String16) :
    (s.update state varName).trace.length ≤ 1 := by
  unfold update
  simp only
  split
  · exact Nat.zero_le _
  · split
    · exact Nat.zero_le _
    · split
      · split
        · exact Nat.zero_le _
        · exact Nat.le_refl _
      · split
        · split
          · exact Nat.zero_le _
          · exact Nat.le_refl _
        · exact Nat.le_refl _

/-! ## what is written -/

/-- What a path option gives after the accepted options: no path, for a text that is
rejected, or the path that the option yields. -/
theorem path_cases {report : GetOptContext} {pointer : ArgPointer} {text : String16}
    {path : Option Path} (hopt : IsPathOption report.opt) (harg : report.optArg = some pointer)
    (htext : commandLine.stringAt pointer = some text)
    (hpath : s.pathOf report.opt text = .ok path) :
    (path = none ∧ report.opt = 0x70 ∧ s.convertTextToDevicePath text = none) ∨
      ∃ new, path = some new ∧ s.Yields commandLine report new := by
  cases path with
  | none => exact .inl ⟨rfl, pathOf_none hpath⟩
  | some new => exact .inr ⟨new, rfl, hopt, pointer, text, harg, htext, hpath⟩

/-- The `-a` options among the others. -/
theorem exists_append_iff {before after : List GetOptContext} {report : GetOptContext}
    (happends : ∀ other ∈ before ++ after, other.opt = 0x61) (hopt : IsPathOption report.opt) :
    (∃ other ∈ before ++ report :: after, other.opt = 0x61) ↔ before ++ after ≠ [] := by
  constructor
  · rintro ⟨other, hmem, hother⟩ hnil
    obtain ⟨rfl, rfl⟩ := List.append_eq_nil_iff.mp hnil
    obtain rfl : other = report := by simpa using hmem
    exact hopt.ne.2 hother
  · intro hne
    obtain ⟨other, hmem⟩ := List.exists_mem_of_ne_nil _ hne
    refine ⟨other, ?_, happends other hmem⟩
    rcases List.mem_append.mp hmem with hmem | hmem
    · exact List.mem_append_left _ hmem
    · exact List.mem_append_right _ (List.mem_cons_of_mem _ hmem)

/-- A call writes a valid path that was asked for, unless the only option is a text that is
rejected, or no node comes from the options. -/
theorem written_of_accepted (hdoc : s.Documented instances) (hnames : s.Names commandLine varName)
    (haccepted : s.Accepted commandLine (reports commandLine) state) (hnot : ¬ s.OnlyRejectedText)
    (hnode : ¬ s.OnlyEmptyPath instances) {call : SetVariableCall Path}
    (hmem : call ∈ (s.update state varName).trace) :
    ∃ commandLine path, s.Names commandLine call.variableName ∧ call.data = some path ∧
      s.isDevicePathValid path 0 = true ∧ HasNode instances path ∧ 0 < call.dataSize ∧
      s.Requested instances commandLine call.variableName path := by
  have hread : (s.getVarPath varName).1 = EFI_SUCCESS := by
    rcases getVarPath_status hdoc varName with hread | hread
    · exact hread
    · rw [update_of_not_read hread] at hmem
      cases hmem
  -- what is written to the variable is a valid path with a node
  have hwrite {path : Path} (hvalid : s.isDevicePathValid path 0 = true)
      (hhas : HasNode instances path) (hrequested : s.Requested instances commandLine varName path)
      (hcall : call ∈ (s.writePath varName (s.getVarPath varName).2.2 (some path)).trace) :
      ∃ commandLine path, s.Names commandLine call.variableName ∧ call.data = some path ∧
        s.isDevicePathValid path 0 = true ∧ HasNode instances path ∧ 0 < call.dataSize ∧
        s.Requested instances commandLine call.variableName path := by
    obtain rfl := List.mem_singleton.mp hcall
    exact ⟨commandLine, path, hnames, rfl, hvalid, hhas, hdoc.size path hvalid, hrequested⟩
  generalize hreports : reports commandLine = given at haccepted
  cases haccepted with
  | appends =>
      rw [update_appends hread] at hmem
      cases hmem
  | @auto report hopt =>
      rw [update_auto hread] at hmem
      cases hbuild : s.autoPath varName with
      | error status =>
          rw [hbuild] at hmem
          cases hmem
      | ok path =>
          rw [hbuild] at hmem
          have hhas : HasNode instances path := by
            by_contra hempty
            rw [hasNode_autoPath hdoc hbuild] at hempty
            exact hnode (.auto hnames hreports hopt hread ⟨path, hbuild⟩
              fun console hconsole hhas =>
              hempty ⟨console, hconsole, hhas⟩)
          refine hwrite (autoPath_valid hdoc hbuild) hhas (.inl ⟨⟨report, ?_, hopt⟩, hbuild⟩) hmem
          rw [hreports]
          exact List.mem_singleton_self _
  | @path before after append report pointer text path happends happend hopt harg htext hpath =>
      have hreport : report ∈ reports commandLine := by
        rw [hreports]
        exact List.mem_append_right _ (List.mem_cons_self ..)
      have hexists := exists_append_iff happends hopt
      rw [update_path hread] at hmem
      rcases path_cases hopt harg htext hpath with ⟨rfl, hletter, hrejected⟩ | ⟨new, rfl, hyields⟩
      · -- the path is null
        cases append with
        | true =>
            simp only [if_true, hdoc.appended_null] at hmem
            cases hmem
        | false =>
            have hnil : before ++ after = [] :=
              not_not.mp fun hne => Bool.false_ne_true (happend.mpr hne)
            obtain ⟨rfl, rfl⟩ := List.append_eq_nil_iff.mp hnil
            exact absurd ⟨commandLine, varName, report, pointer, text, hnames, hreports,
              hletter, harg, htext, hrejected, hread⟩ hnot
      · cases append with
        | true =>
            simp only [if_true] at hmem
            split at hmem
            · cases hmem
            · rename_i newPath hnew
              obtain ⟨hvalid, hinstances⟩ := hdoc.appended _ _ _ hnew
              have hhas : HasNode instances newPath := by
                by_contra hempty
                rw [hasNode_appended hdoc hnew] at hempty
                obtain ⟨hcurrent, hempty⟩ := not_or.mp hempty
                refine hnode (.option hnames hreports happends hyields hread hempty
                  fun _ => ⟨?_, ?_⟩)
                · exact fun current hmem hhas => hcurrent ⟨current, hmem, hhas⟩
                · rw [hnew]
                  exact Option.some_ne_none newPath
              refine hwrite hvalid hhas (.inr ⟨report, hreport, new, hyields, ?_⟩) hmem
              rw [hreports, if_pos (hexists.mpr (happend.mp rfl))]
              exact hinstances
        | false =>
            have hnone : ¬ ∃ other ∈ before ++ report :: after, other.opt = 0x61 := fun h =>
              Bool.false_ne_true (happend.mpr (hexists.mp h))
            have hhas : HasNode instances new := by
              by_contra hempty
              exact hnode (.option hnames hreports happends hyields hread hempty fun hne =>
                absurd (happend.mpr hne) Bool.false_ne_true)
            refine hwrite (pathOf_valid hdoc hpath) hhas
              (.inr ⟨report, hreport, new, hyields, ?_⟩) hmem
            rw [hreports, if_neg hnone]

/-! ## what fails -/

/-- The run has accepted the options of this command line. -/
theorem Names.unique {other : CommandLine} {otherName : String16} (h : s.Names commandLine varName)
    (hother : s.Names other otherName) : other = commandLine ∧ otherName = varName := by
  obtain rfl := Except.ok.inj (hother.shell.symm.trans h.shell)
  exact ⟨rfl, Option.some.inj (hother.word.symm.trans h.word)⟩

/-- Only `-A`, `-a` and the path options are accepted. -/
theorem Accepted.known {given : List GetOptContext} (h : s.Accepted commandLine given state)
    {report : GetOptContext} (hmem : report ∈ given) :
    report.opt = 0x41 ∨ report.opt = 0x61 ∨ IsPathOption report.opt := by
  cases h with
  | appends happends => exact .inr (.inl (happends report hmem))
  | auto hopt =>
      obtain rfl := List.mem_singleton.mp hmem
      exact .inl hopt
  | path happends _ hopt =>
      rcases List.mem_append.mp hmem with hmem | hmem
      · exact .inr (.inl (happends report (List.mem_append_left _ hmem)))
      · rcases List.mem_cons.mp hmem with rfl | hmem
        · exact .inr (.inr hopt)
        · exact .inr (.inl (happends report (List.mem_append_right _ hmem)))

/-- With `-A`, nothing else is accepted. -/
theorem Accepted.of_auto {given : List GetOptContext} (h : s.Accepted commandLine given state)
    (hauto : ∃ report ∈ given, report.opt = 0x41) : state = ⟨true, false, true, none⟩ := by
  obtain ⟨report, hmem, hletter⟩ := hauto
  cases h with
  | appends happends => exact absurd (hletter.symm.trans (happends report hmem)) (by decide)
  | auto => rfl
  | path happends _ hopt =>
      rcases List.mem_append.mp hmem with hmem | hmem
      · exact absurd (hletter.symm.trans (happends report (List.mem_append_left _ hmem)))
          (by decide)
      · rcases List.mem_cons.mp hmem with rfl | hmem
        · exact absurd hletter hopt.ne.1
        · exact absurd (hletter.symm.trans (happends report (List.mem_append_right _ hmem)))
            (by decide)

/-- With a path option, the others are `-a`, and its path is kept. -/
theorem Accepted.of_path {given : List GetOptContext} (h : s.Accepted commandLine given state)
    {report : GetOptContext} (hmem : report ∈ given) (hopt : IsPathOption report.opt) :
    ∃ append pointer text path, state = ⟨true, append, false, path⟩ ∧
      (append = true ↔ ∃ other ∈ given, other.opt = 0x61) ∧ (append = false → given = [report]) ∧
      report.optArg = some pointer ∧ commandLine.stringAt pointer = some text ∧
      s.pathOf report.opt text = .ok path := by
  cases h with
  | appends happends => exact absurd (happends report hmem) hopt.ne.2
  | auto hauto =>
      obtain rfl := List.mem_singleton.mp hmem
      exact absurd hauto hopt.ne.1
  | @path before after append other pointer text path happends happend hother harg htext hpath =>
      obtain rfl : report = other := by
        rcases List.mem_append.mp hmem with hmem | hmem
        · exact absurd (happends report (List.mem_append_left _ hmem)) hopt.ne.2
        · rcases List.mem_cons.mp hmem with rfl | hmem
          · rfl
          · exact absurd (happends report (List.mem_append_right _ hmem)) hopt.ne.2
      refine ⟨append, pointer, text, path, rfl,
        happend.trans (exists_append_iff happends hopt).symm, ?_, harg, htext, hpath⟩
      rintro rfl
      have hnil : before ++ after = [] := not_not.mp fun hne => Bool.false_ne_true (happend.mpr hne)
      obtain ⟨rfl, rfl⟩ := List.append_eq_nil_iff.mp hnil
      rfl

/-- After a failure an error is returned and nothing is written, unless the only option is a
text that is rejected. -/
theorem failed_of_accepted (hdoc : s.Documented instances) (hnames : s.Names commandLine varName)
    (hargc : 1 ≤ commandLine.argc) (haccepted : s.Accepted commandLine (reports commandLine) state)
    (hnot : ¬ s.OnlyRejectedText) (hfails : s.Fails) :
    efiError (s.update state varName).value = true ∧ (s.update state varName).trace = [] := by
  rcases getVarPath_status hdoc varName with hread | hread
  case inr =>
    rw [update_of_not_read hread]
    exact ⟨hread, rfl⟩
  cases hfails with
  | shell h => exact absurd hnames.shell (h commandLine)
  | words h hzero =>
      obtain rfl := Except.ok.inj (h.symm.trans hnames.shell)
      exact absurd hargc (BitVec.not_le.mpr hzero)
  | unknown h hmem hopt =>
      obtain rfl := Except.ok.inj (h.symm.trans hnames.shell)
      obtain ⟨hauto, happend, hpath⟩ := hopt
      exact ((haccepted.known hmem).elim hauto fun h => h.elim happend hpath).elim
  | @argument _ report h hmem hopt hinvalid =>
      obtain rfl := Except.ok.inj (h.symm.trans hnames.shell)
      obtain ⟨append, pointer, text, path, rfl, -, honly, harg, htext, hpath⟩ :=
        haccepted.of_path hmem hopt
      rcases path_cases hopt harg htext hpath with ⟨rfl, hletter, hrejected⟩ | ⟨new, -, hyields⟩
      · cases append with
        | true =>
            rw [update_path hread, if_pos rfl, hdoc.appended_null]
            exact ⟨show efiError EFI_OUT_OF_RESOURCES = true by decide, rfl⟩
        | false =>
            exact absurd ⟨_, varName, report, pointer, text, hnames, honly rfl, hletter, harg,
              htext, hrejected, hread⟩
              hnot
      · exact absurd hyields (hinvalid new)
  | noName h hname =>
      obtain rfl := Except.ok.inj (h.symm.trans hnames.shell)
      exact absurd hname hnames.operand
  | unreadable h hunread =>
      obtain ⟨rfl, rfl⟩ := hnames.unique h
      rw [hread] at hunread
      exact absurd hunread (by decide)
  | auto h hauto hbuild =>
      obtain ⟨rfl, rfl⟩ := hnames.unique h
      obtain rfl := haccepted.of_auto hauto
      rw [update_auto hread]
      split
      · rename_i hbuilt
        exact ⟨autoPath_error hbuilt, rfl⟩
      · rename_i hbuilt
        exact absurd hbuilt (hbuild _)
  | append h happend hmem hnew hnull =>
      obtain ⟨rfl, rfl⟩ := hnames.unique h
      obtain ⟨hopt, pointer, text, harg, htext, hpath⟩ := hnew
      obtain ⟨append, pointer', text', path, rfl, happends, -, harg', htext', hpath'⟩ :=
        haccepted.of_path hmem hopt
      obtain rfl := Option.some.inj (harg.symm.trans harg')
      obtain rfl := Option.some.inj (htext.symm.trans htext')
      obtain rfl := Except.ok.inj (hpath.symm.trans hpath')
      rw [update_path hread, if_pos (happends.mpr happend), hnull]
      exact ⟨show efiError EFI_OUT_OF_RESOURCES = true by decide, rfl⟩

/-- With a text that is rejected as the only option, the variable is set to nothing. -/
theorem entryPoint_of_onlyRejectedText (h : s.OnlyRejectedText) :
    ∃ varName attributes, s.entryPoint = some (s.writePath varName attributes none) := by
  obtain ⟨commandLine, varName, report, pointer, text, hnames, hreports, hletter, harg, htext,
    hrejected, hread⟩ := h
  have hpath : s.pathOf report.opt text = .ok none := by rw [pathOf, if_pos hletter, hrejected]
  have haccepted : s.Accepted commandLine (reports commandLine) ⟨true, false, false, none⟩ := by
    rw [hreports]
    exact @Accepted.path Path s commandLine [] [] false report pointer text none (by simp) (by simp)
      (.inl hletter) harg htext hpath
  refine ⟨varName, (s.getVarPath varName).2.2, ?_⟩
  rw [hnames.entryPoint haccepted, update_path hread]
  rfl

/-- With no node from the options, the variable is set to an empty path. -/
theorem entryPoint_of_onlyEmptyPath (hdoc : s.Documented instances)
    (h : s.OnlyEmptyPath instances) :
    ∃ varName attributes path, s.entryPoint = some (s.writePath varName attributes (some path)) ∧
      ¬ HasNode instances path := by
  cases h with
  | @auto commandLine varName report hnames hreports hopt hread hbuild hempty =>
      obtain ⟨path, hbuild⟩ := hbuild
      have haccepted : s.Accepted commandLine (reports commandLine) ⟨true, false, true, none⟩ := by
        rw [hreports]
        exact .auto hopt
      refine ⟨varName, (s.getVarPath varName).2.2, path, ?_, ?_⟩
      · rw [hnames.entryPoint haccepted, update_auto hread, hbuild]
      · rw [hasNode_autoPath hdoc hbuild]
        rintro ⟨console, hmem, hhas⟩
        exact hempty console hmem hhas
  | @option commandLine varName before after report path hnames hreports happends hyields hread
    hempty hkept =>
      obtain ⟨hopt, pointer, text, harg, htext, hpath⟩ := hyields
      by_cases hne : before ++ after = []
      · have haccepted : s.Accepted commandLine (reports commandLine)
            ⟨true, false, false, some path⟩ := by
          rw [hreports]
          exact .path happends (by simp [hne]) hopt harg htext hpath
        refine ⟨varName, (s.getVarPath varName).2.2, path, ?_, hempty⟩
        rw [hnames.entryPoint haccepted, update_path hread]
        rfl
      · obtain ⟨hcurrent, hnew⟩ := hkept hne
        obtain ⟨newPath, hnew⟩ := Option.ne_none_iff_exists'.mp hnew
        have haccepted : s.Accepted commandLine (reports commandLine)
            ⟨true, true, false, some path⟩ := by
          rw [hreports]
          exact .path happends (iff_of_true rfl hne) hopt harg htext hpath
        refine ⟨varName, (s.getVarPath varName).2.2, newPath, ?_, ?_⟩
        · rw [hnames.entryPoint haccepted, update_path hread, if_pos rfl, hnew]
        · rw [hasNode_appended hdoc hnew]
          rintro (⟨current, hmem, hhas⟩ | hhas)
          · exact hcurrent current hmem hhas
          · exact hempty hhas

end

/-- For every command line and every outcome of the services, no console variable is destroyed
exactly when it is not the case that the variable can be read and the only option is `-p` with
a text that is rejected, or that no node comes from the options. -/
theorem neverDestroys_iff {Node : Type} (s : SetCon Path) (instances : Path → List (List Node))
    (hdoc : s.Documented instances) :
    s.NeverDestroys instances ↔ ¬ s.OnlyRejectedText ∧ ¬ s.OnlyEmptyPath instances := by
  constructor
  · intro h
    constructor
    · intro hrejected
      obtain ⟨varName, attributes, hentry⟩ := entryPoint_of_onlyRejectedText hrejected
      obtain ⟨_, _, _, hdata, _⟩ := h.written _ hentry _ (List.mem_singleton_self _)
      cases hdata
    · intro hempty
      obtain ⟨varName, attributes, path, hentry, hnone⟩ := entryPoint_of_onlyEmptyPath hdoc hempty
      obtain ⟨_, _, _, hdata, _, hhas, _⟩ := h.written _ hentry _ (List.mem_singleton_self _)
      obtain rfl := Option.some.inj hdata
      exact hnone hhas
  · rintro ⟨hnot, hnode⟩
    rcases entryPoint_cases s
      with ⟨status, hentry, herror⟩ | ⟨commandLine, varName, state, hnames, hargc,
        haccepted, hentry⟩
    · refine ⟨by rw [hentry]; rfl, ?_, ?_, ?_⟩ <;> intro run hrun <;>
        obtain rfl := Option.some.inj (hentry.symm.trans hrun)
      · exact Nat.zero_le _
      · exact fun _ hmem => absurd hmem List.not_mem_nil
      · exact fun _ => ⟨herror, rfl⟩
    · refine ⟨by rw [hentry]; rfl, ?_, ?_, ?_⟩ <;> intro run hrun <;>
        obtain rfl := Option.some.inj (hentry.symm.trans hrun)
      · exact length_update_le ..
      · exact fun _ hmem => written_of_accepted hdoc hnames haccepted hnot hnode hmem
      · exact failed_of_accepted hdoc hnames hargc haccepted hnot

/-- `ConOut`. -/
def conOut : String16 := ⟨CON_OUT, by simp [CON_OUT]⟩

/-- `SetCon -p x ConOut`, with the nodes of the instances of a path for the path.  There may
not be enough memory for the path of a text. -/
def textOption (enoughMemory : Bool) : SetCon (List (List CHAR16)) where
  shellParameters := some
    ⟨4, [⟨[0x53], by simp⟩, ⟨[DASH, 0x70], by simp [DASH]⟩, ⟨[0x78], by simp⟩, conOut], rfl⟩
  shellInterface := none
  strHexToUintn _ := 0
  convertHandleIndexToHandle _ := 0
  convertTextToDevicePath text := if enoughMemory then some [text.chars] else none
  devicePathFromHandle _ := none
  duplicateDevicePath source := source.filter fun path => !path.isEmpty
  appendDevicePathInstance
    | _, none => none
    | source, some path =>
        if path.isEmpty ∨ source = some [] then none else some (source.elim [] id ++ path)
  getDevicePathSize
    | none => 0
    | some path => if path.isEmpty then 0 else 20
  isDevicePathValid path _ := !path.isEmpty
  getVariable _ := ⟨EFI_BUFFER_TOO_SMALL, true, EFI_SUCCESS, 7, 20, [[0x79]]⟩
  setVariable := EFI_SUCCESS
  locateHandleBuffer _ := none
  handleProtocol _ := none

/-- The nodes of the instances of such a path. -/
def instanceNodes (path : List (List CHAR16)) : List (List CHAR16) := path

theorem textOption_documented (enoughMemory : Bool) :
    (textOption enoughMemory).Documented instanceNodes where
  converted := by
    intro text path h
    cases enoughMemory with
    | false => cases h
    | true =>
        obtain rfl : [text.chars] = path := Option.some.inj h
        rfl
  duplicated source path h := (Option.filter_eq_some_iff.mp h).2
  appended_null _ := rfl
  appended := by
    intro source path new h
    simp only [textOption] at h
    split at h
    · cases h
    · rename_i hvalid
      obtain rfl := Option.some.inj h
      refine ⟨by simp_all [textOption], ?_⟩
      cases source <;> simp [instanceNodes]
  size := by
    intro path h
    simp_all [textOption]
  read _ := .inr (show efiError EFI_BUFFER_TOO_SMALL = true by decide)

theorem neverDestroys_iff_textOption :
    (textOption true).Documented instanceNodes ∧ (textOption true).NeverDestroys instanceNodes := by
  refine ⟨textOption_documented true,
    (neverDestroys_iff _ _ (textOption_documented true)).mpr ⟨?_, ?_⟩⟩
  · rintro ⟨_, _, _, _, _, _, _, _, _, _, hrejected, _⟩
    cases hrejected
  · -- the path that is written has the node `x`
    intro hempty
    obtain ⟨_, _, path, hentry, hnone⟩ :=
      entryPoint_of_onlyEmptyPath (textOption_documented true) hempty
    have hrun : (textOption true).entryPoint = some
        ⟨EFI_SUCCESS, [⟨conOut, some 7, 20, some [[0x78]]⟩]⟩ := rfl
    have hdata := congrArg (Option.map fun run => run.trace.map SetVariableCall.data)
      (hentry.symm.trans hrun)
    obtain rfl : path = [[0x78]] := by simpa [writePath] using hdata
    exact hnone ⟨[0x78], List.mem_singleton_self _, List.cons_ne_nil _ _⟩

/-- The text is rejected, and `ConOut` is deleted. -/
theorem rejectedText_deletes :
    (textOption false).Documented instanceNodes ∧
      (textOption false).entryPoint = some ⟨EFI_SUCCESS, [⟨conOut, some 7, 0, none⟩]⟩ ∧
      ¬ (textOption false).NeverDestroys instanceNodes := by
  have hentry : (textOption false).entryPoint = some ⟨EFI_SUCCESS, [⟨conOut, some 7, 0, none⟩]⟩ :=
    rfl
  refine ⟨textOption_documented false, hentry, fun h => ?_⟩
  obtain ⟨_, _, _, hdata, _⟩ := h.written _ hentry _ (List.mem_singleton_self _)
  cases hdata

/-- From a text without a node an empty path comes, and `ConOut` is overwritten with it. -/
example :
    { textOption true with convertTextToDevicePath := fun _ => some [[]] }.entryPoint =
      some ⟨EFI_SUCCESS, [⟨conOut, some 7, 20, some [[]]⟩]⟩ := rfl

end SetCon

end MultiArchUefi
