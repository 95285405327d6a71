import MultiArchUefi.Lib.Ownership
import MultiArchUefi.SetCon

/-!
# MultiArchUefi.SetConPool

The tool for the console variables once more, with the pool buffers that it gets and
frees: the paths of options, the content of the variable, the path that is built for
`-A`, and what is printed.

A buffer is named by the call that it comes from.  Without the buffers, a run is that
of `SetCon.entryPoint`, step by step.
-/

namespace MultiArchUefi

open Ownership

namespace SetCon

/-! ## buffers -/

inductive Buffer where
  /-- `Path`, from a path option. -/
  | path
  /-- `Variable` in `GetVarPath`. -/
  | contents
  /-- `Handles` in `AutoPath`. -/
  | handles
  /-- `New` in `AutoPath`, for one of the handles. -/
  | build (index : Nat)
  /-- `NewPath`. -/
  | newPath
  /-- `Path` in `PrintVarPath`, for one of the instances, and its text. -/
  | pathInstance (index : Nat)
  | pathString (index : Nat)
deriving DecidableEq, Repr

variable {Path : Type}

/-- A device path in a buffer of its own. -/
abbrev PoolPath (Path : Type) := Buffer × Path

abbrev Pool (Path : Type) := Traced (Event Buffer Empty (SetVariableCall Path))

/-- `NULL`, when there is no path. -/
def pointer : Option (PoolPath Path) → Pointer Buffer Empty
  | none => .null
  | some path => .block path.1

/-- `if (Path != NULL) FreePool (Path)`. -/
def freeIfAny (path : Option (PoolPath Path)) : Pool Path Unit :=
  if pointer path ≠ .null then free (pointer path) else pure ()

@[simp] theorem freeIfAny_none : (freeIfAny none : Pool Path Unit) = pure () := rfl

@[simp] theorem freeIfAny_some (path : PoolPath Path) :
    freeIfAny (some path) = free (.block path.1) := rfl

/-- What the buffers depend on, next to the services: what the first `GetVariable` leaves in
`VariableSize`, and which of the instances of a path can be converted to text. -/
structure PoolServices (Path : Type) where
  firstSize : String16 → UINT64
  texts : Path → List Bool

variable (s : SetCon Path) (v : PoolServices Path)

/-! ## variables -/

/-- `GetVarPath` from the label on. -/
def getVarPathOut (variableSize : UINT64) (contents : Pointer Buffer Empty) (status : UINT64)
    (attributes : Option UINT32) : Pool Path (UINT64 × Option (PoolPath Path) × Option UINT32) := do
  let _ ← (if variableSize ≠ 0 then free contents else pure ())
  pure (status, none, attributes)

/-- `GetVarPath`. -/
def getVarPathPool (varName : String16) :
    Pool Path (UINT64 × Option (PoolPath Path) × Option UINT32) :=
  let read := s.getVariable varName
  if read.sizeStatus = EFI_NOT_FOUND then getVarPathOut
    (v.firstSize varName) .null read.sizeStatus none
  else if read.sizeStatus ≠ EFI_BUFFER_TOO_SMALL then
    getVarPathOut (v.firstSize varName) .null read.sizeStatus none
  else do
    let contents ← allocate read.allocated .contents
    if contents = .null then getVarPathOut (v.firstSize varName) contents EFI_OUT_OF_RESOURCES none
    else if efiError read.status then getVarPathOut read.variableSize contents read.status none
    else if s.isDevicePathValid read.contents read.variableSize = false then
      getVarPathOut read.variableSize contents EFI_SUCCESS (some read.attributes)
    else pure (EFI_SUCCESS, some (.contents, read.contents), some read.attributes)

/-- The loop of `PrintVarPath`, from one of the instances on. -/
def printVarPath : Nat → List Bool → Pool Path Unit
  | _, [] => pure ()
  | i, text :: texts => do
      let _ ← allocate true (.pathInstance i)
      let pathString ← allocate text (.pathString i)
      free pathString
      free (.block (.pathInstance i))
      printVarPath (i + 1) texts

/-! ## consoles -/

/-- The loop of `AutoPath`, from one of the handles on: the status, and `Build`. -/
def buildPathPool : Nat → Option (PoolPath Path) → List UINT64 →
    Pool Path (UINT64 × Option (PoolPath Path))
  | _, build, [] => pure (EFI_SUCCESS, build)
  | i, build, handle :: handles =>
      match s.handleProtocol handle with
      | none => buildPathPool (i + 1) build handles
      | some path =>
          match s.appendDevicePathInstance (build.map Prod.snd) (some path) with
          | none => pure (EFI_OUT_OF_RESOURCES, build)
          | some new => do
              let _ ← allocate true (.build i)
              freeIfAny build
              buildPathPool (i + 1) (some (.build i, new)) handles

/-- `AutoPath` after the loop, but for the handles. -/
def autoPathOut (status : UINT64) :
    Option (PoolPath Path) → Pool Path (Except UINT64 (PoolPath Path))
  | none => pure (.error (if status = EFI_SUCCESS then EFI_NOT_FOUND else status))
  | some build =>
      if status ≠ EFI_SUCCESS then do
        freeIfAny (some build)
        pure (.error status)
      else pure (.ok build)

/-- `AutoPath`. -/
def autoPathPool (varName : String16) : Pool Path (Except UINT64 (PoolPath Path)) :=
  match consoleProtocol varName with
  | none => pure (.error EFI_INVALID_PARAMETER)
  | some proto =>
      match s.locateHandleBuffer proto with
      | none => pure (.error EFI_NOT_FOUND)
      | some handles => do
          let _ ← allocate true .handles
          let built ← s.buildPathPool 0 none handles
          let result ← autoPathOut built.1 built.2
          free (.block .handles)
          pure result

/-! ## runs -/

/-- `EntryPoint` from the label on. -/
def entryPointOut (status : UINT64) (currentPath path : Option (PoolPath Path)) :
    Pool Path UINT64 := do
  freeIfAny currentPath
  freeIfAny path
  pure status

/-- `EntryPoint` from `SetVariable` on. -/
def writePathPool (varName : String16) (attributes : Option UINT32)
    (currentPath path : Option (PoolPath Path)) :
    Pool Path UINT64 := do
  let status ← call ⟨varName, attributes, s.getDevicePathSize (path.map Prod.snd),
    path.map Prod.snd⟩ s.setVariable
  entryPointOut status currentPath path

/-- `Path` after the options. -/
def State.poolPath (state : State Path) : Option (PoolPath Path) := state.path.map (.path, ·)

/-- `EntryPoint` after `GetVarPath`. -/
def afterRead (state : State Path) (varName : String16) (status : UINT64)
    (currentPath : Option (PoolPath Path)) (attributes : Option UINT32) : Pool Path UINT64 :=
  if status ≠ EFI_SUCCESS then entryPointOut status currentPath state.poolPath
  else if state.set = false then do
    printVarPath 0 (currentPath.elim [] fun current => v.texts current.2)
    entryPointOut status currentPath state.poolPath
  else if state.auto then do
    match ← s.autoPathPool varName with
    | .error status => entryPointOut status currentPath state.poolPath
    | .ok path => s.writePathPool varName attributes currentPath (some path)
  else if state.append then
    match s.appendDevicePathInstance (currentPath.map Prod.snd) state.path with
    | none => entryPointOut EFI_OUT_OF_RESOURCES currentPath state.poolPath
    | some newPath => do
        let _ ← allocate true .newPath
        free (pointer state.poolPath)
        s.writePathPool varName attributes currentPath (some (.newPath, newPath))
  else s.writePathPool varName attributes currentPath state.poolPath

/-- `EntryPoint` from `GetVarPath` on. -/
def updatePool (state : State Path) (varName : String16) : Pool Path UINT64 := do
  let read ← s.getVarPathPool v varName
  s.afterRead v state varName read.1 read.2.1 read.2.2

/-- The buffer that an accepted option leaves in `Path`. -/
def optionBuffer (report : GetOptContext) (state : State Path) : Pool Path Unit :=
  if IsPathOption report.opt ∧ state.path.isSome then do
    let _ ← allocate true .path
    pure ()
  else pure ()

/-- The options, until one of them is not accepted. -/
def handleOptions (commandLine : CommandLine) :
    State Path → List GetOptContext → Option (Pool Path (Except UINT64 (State Path)))
  | state, [] => some (pure (.ok state))
  | state, report :: given => do
      match ← s.onOption commandLine state report with
      | .error status => some (pure (.error status))
      | .ok state => do
          let rest ← handleOptions commandLine state given
          some (optionBuffer report state >>= fun _ => rest)

/-- `EntryPoint` after the options. -/
def afterOptionsPool (commandLine : CommandLine) :
    Except UINT64 (State Path) → Option (Pool Path UINT64)
  | .error status => some (pure status)
  | .ok state =>
      let context := (commandLine.parsed optionsWithArgs).2
      if commandLine.argc - context.optIndex < 1 then some (pure EFI_INVALID_PARAMETER)
      else (commandLine.argv[(context.optIndex + 0).toNat]?).map (s.updatePool v state)

/-- `EntryPoint`. -/
def entryPointPool : Option (Pool Path UINT64) :=
  match getShellArgcArgv s.shellParameters s.shellInterface with
  | .error _ => some (pure EFI_ABORTED)
  | .ok commandLine =>
      if commandLine.argc < 1 then some (pure EFI_ABORTED)
      else do
        let options ← s.handleOptions commandLine initState (reports commandLine)
        let rest ← s.afterOptionsPool v commandLine options.value
        some (options >>= fun _ => rest)

/-! ## without the buffers -/

section

variable {s v} {varName : String16} {state : State Path} {commandLine : CommandLine}

/-- Freeing is not among the calls of the plain model. -/
@[simp] theorem calls_freeIfAny (path : Option (PoolPath Path)) : calls (freeIfAny path) = [] := by
  cases path <;> rfl

@[simp] theorem calls_getVarPathOut (variableSize : UINT64) (contents : Pointer Buffer Empty)
    (status : UINT64) (attributes : Option UINT32) :
    calls (getVarPathOut variableSize contents status attributes : Pool Path _) = [] := by
  unfold getVarPathOut
  rw [calls_bind]
  split <;> rfl

@[simp] theorem calls_printVarPath (i : Nat) (texts : List Bool) :
    calls (printVarPath i texts : Pool Path Unit) = [] := by
  induction texts generalizing i with
  | nil => rfl
  | cons text texts ih => simp [printVarPath, ih]

@[simp] theorem calls_entryPointOut (status : UINT64) (currentPath path : Option (PoolPath Path)) :
    calls (entryPointOut status currentPath path) = [] := by
  simp [entryPointOut]

@[simp] theorem value_entryPointOut (status : UINT64) (currentPath path : Option (PoolPath Path)) :
    (entryPointOut status currentPath path).value = status := rfl

/-- `GetVarPath` with its allocations returns what it returns without them. -/
theorem getVarPathPool_refines (varName : String16) :
    calls (s.getVarPathPool v varName) = [] ∧
      s.getVarPath varName =
        ((s.getVarPathPool v varName).value.1, (s.getVarPathPool v varName).value.2.1.map Prod.snd,
          (s.getVarPathPool v varName).value.2.2) := by
  unfold getVarPathPool getVarPath
  simp only
  split
  · exact ⟨by simp, rfl⟩
  split
  · exact ⟨by simp, rfl⟩
  cases (s.getVariable varName).allocated with
  | false => exact ⟨by simp, rfl⟩
  | true =>
      simp only [Traced.value_bind, calls_bind, calls_allocate, value_allocate,
        reduceCtorEq, if_false, Bool.true_eq_false]
      split
      · exact ⟨by simp, rfl⟩
      split
      · exact ⟨by simp, rfl⟩
      · exact ⟨rfl, rfl⟩

/-- The loop of `AutoPath`, with its allocations and without. -/
theorem buildPathPool_refines (i : Nat) (build : Option (PoolPath Path)) (handles : List UINT64) :
    calls (s.buildPathPool i build handles) = [] ∧ s.buildPath (build.map Prod.snd) handles =
      if (s.buildPathPool i build handles).value.1 = EFI_SUCCESS then
        .ok ((s.buildPathPool i build handles).value.2.map Prod.snd)
      else .error (s.buildPathPool i build handles).value.1 := by
  induction handles generalizing i build with
  | nil => exact ⟨rfl, rfl⟩
  | cons handle handles ih =>
      cases hpath : s.handleProtocol handle with
      | none =>
          simp only [buildPathPool, buildPath, hpath]
          exact ih (i + 1) build
      | some path =>
          cases happend : s.appendDevicePathInstance (build.map Prod.snd) (some path) with
          | none =>
              simp only [buildPathPool, buildPath, hpath, happend]
              exact ⟨rfl, rfl⟩
          | some new =>
              obtain ⟨hcalls, hvalue⟩ := ih (i + 1) (some (.build i, new))
              simp only [buildPathPool, buildPath, hpath, happend]
              exact ⟨by simp [hcalls], hvalue⟩

/-- `AutoPath`, with its allocations and without. -/
theorem autoPathPool_refines (varName : String16) :
    calls (s.autoPathPool varName) = [] ∧
      s.autoPath varName = (s.autoPathPool varName).value.map Prod.snd := by
  cases hproto : consoleProtocol varName with
  | none =>
      simp only [autoPathPool, autoPath, hproto]
      exact ⟨rfl, rfl⟩
  | some proto =>
      cases hhandles : s.locateHandleBuffer proto with
      | none =>
          simp only [autoPathPool, autoPath, hproto, hhandles]
          exact ⟨rfl, rfl⟩
      | some handles =>
          obtain ⟨hcalls, hvalue⟩ := s.buildPathPool_refines 0 none handles
          rw [Option.map_none] at hvalue
          simp only [autoPathPool, autoPath, hproto, hhandles, hvalue, calls_bind, calls_allocate,
            hcalls, calls_free, calls_pure, Traced.value_bind, Traced.value_pure, List.nil_append,
            List.append_nil]
          generalize (s.buildPathPool 0 none handles).value = built
          obtain ⟨status, build⟩ := built
          by_cases hstatus : status = EFI_SUCCESS
          · cases build <;> simp [autoPathOut, hstatus, Except.map]
          · cases build <;> simp [autoPathOut, hstatus, Except.map]

/-- The write of the new path makes the same call of `SetVariable`. -/
theorem writePathPool_refines (varName : String16) (attributes : Option UINT32)
    (currentPath path : Option (PoolPath Path)) :
    s.writePath varName attributes (path.map Prod.snd) =
      ⟨(s.writePathPool varName attributes currentPath path).value,
        calls (s.writePathPool varName attributes currentPath path)⟩ := by
  simp only [writePathPool, writePath, Traced.value_bind, calls_bind, calls_call,
    calls_entryPointOut, List.append_nil]
  rfl

/-- All that follows the options, with its allocations and without. -/
theorem updatePool_refines (state : State Path) (varName : String16) :
    s.update state varName =
      ⟨(s.updatePool v state varName).value, calls (s.updatePool v state varName)⟩ := by
  obtain ⟨hcalls, hread⟩ := s.getVarPathPool_refines (v := v) varName
  simp only [update, updatePool, hread, Traced.value_bind, calls_bind, hcalls, List.nil_append]
  generalize (s.getVarPathPool v varName).value = read
  obtain ⟨status, currentPath, attributes⟩ := read
  unfold afterRead
  split
  · rw [calls_entryPointOut]
    rfl
  split
  · simp only [Traced.value_bind, value_entryPointOut, calls_bind, calls_printVarPath,
      calls_entryPointOut, List.append_nil]
    rfl
  split
  · obtain ⟨hcalls, hauto⟩ := s.autoPathPool_refines varName
    simp only [hauto, Traced.value_bind, calls_bind, hcalls, List.nil_append]
    cases (s.autoPathPool varName).value with
    | error status =>
        simp only [Except.map, value_entryPointOut, calls_entryPointOut]
        rfl
    | ok path => exact s.writePathPool_refines varName attributes currentPath (some path)
  split
  · cases happend : s.appendDevicePathInstance (currentPath.map Prod.snd) state.path with
    | none =>
        simp only [value_entryPointOut, calls_entryPointOut]
        rfl
    | some newPath =>
        simp only [Traced.value_bind, calls_bind, calls_allocate, calls_free, List.nil_append]
        exact s.writePathPool_refines varName attributes currentPath (some (.newPath, newPath))
  · have hpath : state.poolPath.map Prod.snd = state.path := by
      unfold State.poolPath
      cases state.path <;> rfl
    rw [← s.writePathPool_refines varName attributes currentPath state.poolPath, hpath]

/-- An option allocates at most the path that its text spells. -/
@[simp] theorem calls_optionBuffer (report : GetOptContext) (state : State Path) :
    calls (optionBuffer report state) = [] := by
  unfold optionBuffer
  split <;> rfl

/-- What has made no other calls leaves no trace without the buffers. -/
theorem andThen_refines {options : Pool Path (Except UINT64 (State Path))}
    (hcalls : calls options = []) (rest : Pool Path UINT64) :
    (⟨(options >>= fun _ => rest).value, calls (options >>= fun _ => rest)⟩ : Traced _ _) =
      ⟨rest.value, calls rest⟩ := by
  rw [calls_bind, hcalls]
  rfl

/-- The options are handled in the same order and to the same effect. -/
theorem handleOptions_refines (commandLine : CommandLine) (given : List GetOptContext)
    (state : State Path) :
    CommandLine.handleReports (s.onOption commandLine) state given =
        (s.handleOptions commandLine state given).map Traced.value ∧
      ∀ options ∈ s.handleOptions commandLine state given, calls options = [] := by
  induction given generalizing state with
  | nil => exact ⟨rfl, by simp [handleOptions]⟩
  | cons report given ih =>
      cases hresult : s.onOption commandLine state report with
      | none => simp [CommandLine.handleReports, handleOptions, hresult]
      | some result =>
          cases result with
          | error status => simp [CommandLine.handleReports, handleOptions, hresult]
          | ok next =>
              obtain ⟨hvalue, hcalls⟩ := ih next
              simp only [CommandLine.handleReports, handleOptions, hresult, Option.bind_eq_bind,
                Option.bind_some, hvalue]
              cases hrest : s.handleOptions commandLine next given with
              | none => simp
              | some rest =>
                  refine ⟨rfl, fun options hoptions => ?_⟩
                  obtain rfl := Option.some.inj hoptions
                  simp [hcalls rest hrest]

/-- The pool buffers change nothing of a run after the options. -/
theorem afterOptionsPool_refines (result : Except UINT64 (State Path)) :
    s.afterOptions commandLine (result.map (·, (commandLine.parsed optionsWithArgs).2)) =
      (s.afterOptionsPool v commandLine result).map fun rest => ⟨rest.value, calls rest⟩ := by
  cases result with
  | error status => rfl
  | ok state =>
      simp only [Except.map, afterOptions, afterOptionsPool]
      split
      · rfl
      · cases commandLine.argv[((commandLine.parsed optionsWithArgs).2.optIndex + 0).toNat]? with
        | none => rfl
        | some varName => simp [s.updatePool_refines (v := v) state varName]

/-- Without the buffers, a run of the tool is what it was. -/
theorem entryPointPool_refines (s : SetCon Path) (v : PoolServices Path) :
    s.entryPoint = (s.entryPointPool v).map fun run => ⟨run.value, calls run⟩ := by
  cases hshell : getShellArgcArgv s.shellParameters s.shellInterface with
  | error status =>
      simp only [entryPoint, entryPointPool, hshell]
      rfl
  | ok commandLine =>
      by_cases hargc : commandLine.argc < 1
      · simp only [entryPoint, entryPointPool, hshell, if_pos hargc]
        rfl
      · obtain ⟨hvalue, hcalls⟩ :=
          s.handleOptions_refines commandLine (reports commandLine) initState
        obtain ⟨result, hresult⟩ :=
          CommandLine.exists_handleReports (s.onOption commandLine) (reports commandLine)
          (fun report hmem state => exists_onOption hmem state) initState
        obtain ⟨options, hoptions, rfl⟩ := Option.map_eq_some_iff.mp (hvalue.symm.trans hresult)
        rw [entryPoint_of_handled hshell hargc hresult, s.afterOptionsPool_refines (v := v)]
        simp only [entryPointPool, hshell, if_neg hargc, hoptions, Option.bind_eq_bind,
          Option.bind_some]
        cases s.afterOptionsPool v commandLine options.value with
        | none => rfl
        | some rest => exact congrArg some (andThen_refines (hcalls options hoptions) rest).symm

end

/-! ## what is owed -/

/-- The buffer of a path, if there is one. -/
def owed (path : Option (PoolPath Path)) : List Buffer := (path.map Prod.fst).toList

/-- All buffers that `GetVarPath` gets are freed, or handed out with the path. -/
def ReadFrees (varName : String16) : Prop :=
  if (s.getVariable varName).sizeStatus = EFI_BUFFER_TOO_SMALL ∧
    (s.getVariable varName).allocated = true then
    (s.getVarPath varName).2.1 = none → (s.getVariable varName).variableSize ≠ 0
  else v.firstSize varName = 0

/-- What is printed can be converted to text. -/
def PrintFrees (state : State Path) (varName : String16) : Prop :=
  state.set = false → ∀ path ∈ (s.getVarPath varName).2.1, ∀ text ∈ v.texts path, text = true

section

variable {s v} {varName : String16} {state : State Path} {live : List Buffer}
  {currentPath path : Option (PoolPath Path)}

/-- What was allocated last may be freed at once. -/
theorem owes_free_newest (buffer : Buffer) (live : List Buffer) :
    Owes (buffer :: live) (free (.block buffer) : Pool Path Unit) live := by
  have hfree : Owes (buffer :: live) (free (.block buffer) : Pool Path Unit)
      ((buffer :: live).erase buffer) :=
    .free (List.mem_cons_self ..)
  rwa [List.erase_cons_head] at hfree

/-- A path that there may be is freed if there is one. -/
theorem owes_freeIfAny (path : Option (PoolPath Path)) (live : List Buffer) :
    Owes (owed path ++ live) (freeIfAny path) live := by
  cases path with
  | none => exact rfl
  | some path => exact owes_free_newest path.1 live

/-- A buffer is freed after a newer one has come. -/
theorem owes_free_older {new old : Buffer} (hne : new ≠ old) (live : List Buffer) :
    Owes (new :: old :: live) (free (.block old) : Pool Path Unit) (new :: live) := by
  have hfree : Owes (new :: old :: live) (free (.block old) : Pool Path Unit)
      ((new :: old :: live).erase old) :=
    .free (by simp)
  rwa [List.erase_cons_tail (by simpa using hne), List.erase_cons_head] at hfree

/-- The way out of the entry point frees both paths. -/
theorem owes_entryPointOut (status : UINT64) (currentPath path : Option (PoolPath Path))
    (live : List Buffer) :
    Owes (owed currentPath ++ (owed path ++ live)) (entryPointOut status currentPath path) live :=
  .bind (owes_freeIfAny ..) (.bind (owes_freeIfAny ..) (.pure ..))

/-- A path that has come after the current one is freed, too. -/
theorem owes_entryPointOut_new (status : UINT64) (currentPath : Option (PoolPath Path))
    (path : PoolPath Path) (live : List Buffer)
    (hne : ∀ current ∈ currentPath, path.1 ≠ current.1) :
    Owes (path.1 :: (owed currentPath ++ live))
      (entryPointOut status currentPath (some path)) live := by
  cases currentPath with
  | none => exact owes_entryPointOut status none (some path) live
  | some current =>
      exact .bind (owes_free_older (hne current rfl) live)
        (.bind (owes_freeIfAny (some path) live) (.pure ..))

/-- Only what cannot be converted to text frees the null pointer. -/
theorem owes_printVarPath_iff (i : Nat) (texts : List Bool) {after : List Buffer} :
    Owes live (printVarPath i texts : Pool Path Unit) after ↔
      live = after ∧ ∀ text ∈ texts, text = true := by
  induction texts generalizing i with
  | nil => simp [printVarPath]
  | cons text texts ih =>
      cases text with
      | false => simp [printVarPath]
      | true => simp [printVarPath, ih]

/-- One path is owed at a time while the path for `-A` is built. -/
theorem owes_buildPathPool (handles : List UINT64) (i : Nat) (build : Option (PoolPath Path))
    (live : List Buffer) (hbuild : ∀ path ∈ build, ∃ j < i, path.1 = .build j) :
    Owes (owed build ++ live) (s.buildPathPool i build handles)
        (owed (s.buildPathPool i build handles).value.2 ++ live) ∧
      ∀ path ∈ (s.buildPathPool i build handles).value.2, ∃ j, path.1 = .build j := by
  induction handles generalizing i build with
  | nil => exact ⟨.pure .., fun path hpath => (hbuild path hpath).imp fun _ h => h.2⟩
  | cons handle handles ih =>
      cases hpath : s.handleProtocol handle with
      | none =>
          simp only [buildPathPool, hpath]
          exact ih (i + 1) build fun path h => (hbuild path h).imp fun j hj => ⟨by omega, hj.2⟩
      | some path =>
          cases happend : s.appendDevicePathInstance (build.map Prod.snd) (some path) with
          | none =>
              simp only [buildPathPool, hpath, happend]
              exact ⟨.pure .., fun path h => (hbuild path h).imp fun _ h => h.2⟩
          | some new =>
              simp only [buildPathPool, hpath, happend]
              obtain ⟨howes, hvalue⟩ :=
                ih (i + 1) (some (.build i, new)) fun _ h => ⟨i, by omega, by
                obtain rfl := Option.some.inj h
                rfl⟩
              have hfree : Owes (.build i :: (owed build ++ live)) (freeIfAny build)
                  (.build i :: live) := by
                cases build with
                | none => exact rfl
                | some old =>
                    obtain ⟨j, hj, hold⟩ := hbuild old rfl
                    exact owes_free_older (by rw [hold]; simp; omega) live
              exact ⟨.bind (.allocate ..) (.bind hfree howes), hvalue⟩

/-- What is built for `-A` is owed, and nothing else is. -/
theorem owes_autoPathPool (varName : String16) (live : List Buffer) :
    Owes live (s.autoPathPool varName) (owed (s.autoPathPool varName).value.toOption ++ live) ∧
      ∀ path, (s.autoPathPool varName).value = .ok path → ∃ j, path.1 = .build j := by
  cases hproto : consoleProtocol varName with
  | none =>
      simp only [autoPathPool, hproto]
      exact ⟨.pure .., fun path h => by cases h⟩
  | some proto =>
      cases hhandles : s.locateHandleBuffer proto with
      | none =>
          simp only [autoPathPool, hproto, hhandles]
          exact ⟨.pure .., fun path h => by cases h⟩
      | some handles =>
          obtain ⟨howes, hbuild⟩ := s.owes_buildPathPool handles 0 none (.handles :: live) (by simp)
          simp only [autoPathPool, hproto, hhandles, Traced.value_bind, Traced.value_pure]
          generalize hbuilt : (s.buildPathPool 0 none handles).value = built at howes hbuild
          obtain ⟨status, build⟩ := built
          cases build with
          | none =>
              refine ⟨.bind (.allocate ..) (.bind howes ?_), fun path h => by cases h⟩
              rw [hbuilt]
              exact .bind (.pure ..) (.bind (owes_free_newest ..) (.pure ..))
          | some path =>
              obtain ⟨j, hj⟩ := hbuild path rfl
              have hhandle : path.1 ≠ .handles := by simp [hj]
              by_cases hstatus : status = EFI_SUCCESS
              · have hout : autoPathOut status (some path) = (pure (.ok path) : Pool Path _) :=
                  if_neg (not_not.mpr hstatus)
                refine ⟨.bind (.allocate ..) (.bind howes ?_), fun other h => ⟨j, ?_⟩⟩
                · rw [hbuilt]
                  simp only [hout]
                  exact .bind (.pure ..) (.bind (owes_free_older hhandle live) (.pure ..))
                · rw [hout] at h
                  exact Except.ok.inj h ▸ hj
              · have hout : autoPathOut status (some path) =
                    (freeIfAny (some path) >>= fun _ => pure (.error status)) := if_pos hstatus
                simp only [hout, Traced.value_bind, Traced.value_pure]
                refine ⟨.bind (.allocate ..) (.bind howes ?_), fun other h => by cases h⟩
                rw [hbuilt]
                simp only [hout]
                exact .bind (.bind (owes_freeIfAny ..) (.pure ..))
                  (.bind (owes_free_newest ..) (.pure ..))

/-- `GetVarPath` jumps to its label without a buffer or with one, or hands its buffer out. -/
theorem getVarPathPool_cases (varName : String16) :
    (¬ ((s.getVariable varName).sizeStatus = EFI_BUFFER_TOO_SMALL ∧
      (s.getVariable varName).allocated = true) ∧
        ∃ status, s.getVarPathPool v varName = getVarPathOut
          (v.firstSize varName) .null status none) ∨
      ((s.getVariable varName).sizeStatus = EFI_BUFFER_TOO_SMALL ∧
        (s.getVariable varName).allocated = true) ∧
        ((∃ status attributes, s.getVarPathPool v varName = allocate true .contents >>=
          fun contents =>
            getVarPathOut (s.getVariable varName).variableSize contents status attributes) ∨
          ∃ path attributes, s.getVarPathPool v varName = allocate true .contents >>= fun _ =>
            pure (EFI_SUCCESS, some (.contents, path), attributes)) := by
  have hne : EFI_NOT_FOUND ≠ EFI_BUFFER_TOO_SMALL := by decide
  unfold getVarPathPool
  simp only
  by_cases hfound : (s.getVariable varName).sizeStatus = EFI_NOT_FOUND
  · rw [if_pos hfound, hfound]
    exact .inl ⟨fun h => hne h.1, _, rfl⟩
  rw [if_neg hfound]
  by_cases hsmall : (s.getVariable varName).sizeStatus = EFI_BUFFER_TOO_SMALL
  · rw [if_neg (not_not.mpr hsmall)]
    cases hallocated : (s.getVariable varName).allocated with
    | false => exact .inl ⟨by simp, _, rfl⟩
    | true =>
        refine .inr ⟨⟨hsmall, rfl⟩, ?_⟩
        by_cases hstatus : efiError (s.getVariable varName).status = true
        · refine .inl ⟨(s.getVariable varName).status, none, ?_⟩
          simp only [hstatus, if_true]
          rfl
        by_cases hvalid : s.isDevicePathValid (s.getVariable varName).contents
            (s.getVariable varName).variableSize = false
        · refine .inl ⟨EFI_SUCCESS, some (s.getVariable varName).attributes, ?_⟩
          simp only [if_neg hstatus, if_pos hvalid]
          rfl
        · refine .inr ⟨(s.getVariable varName).contents,
            some (s.getVariable varName).attributes, ?_⟩
          simp only [if_neg hstatus, if_neg hvalid]
          rfl
  · rw [if_pos hsmall]
    exact .inl ⟨fun h => hsmall h.1, _, rfl⟩

/-- The way out of `GetVarPath` frees the contents where their size is known. -/
theorem owes_getVarPathOut {size status : UINT64} {attributes : Option UINT32} (hsize : size ≠ 0) :
    Owes (.contents :: live)
      (getVarPathOut size (.block .contents) status attributes : Pool Path _) live := by
  rw [getVarPathOut, if_pos hsize]
  exact .bind (owes_free_newest ..) (.pure ..)

/-- With a size of zero it frees nothing. -/
theorem owes_getVarPathOut_zero (contents : Pointer Buffer Empty) (status : UINT64)
    (attributes : Option UINT32) :
    Owes live (getVarPathOut 0 contents status attributes : Pool Path _) live :=
  .bind (.pure ..) (.pure ..)

/-- What `GetVarPath` hands out is owed, and nothing else is. -/
theorem owes_getVarPathPool (h : s.ReadFrees v varName) :
    Owes live (s.getVarPathPool v varName)
      (owed (s.getVarPathPool v varName).value.2.1 ++ live) := by
  have hread := (s.getVarPathPool_refines (v := v) varName).2
  unfold ReadFrees at h
  rcases s.getVarPathPool_cases (v := v) varName with
    ⟨hnot, status, heq⟩ | ⟨hallocated, ⟨status, attributes, heq⟩ | ⟨path, attributes, heq⟩⟩
  · rw [if_neg hnot] at h
    rw [heq, h]
    exact owes_getVarPathOut_zero ..
  · rw [if_pos hallocated, hread, heq] at h
    rw [heq]
    exact .bind (.allocate ..) (owes_getVarPathOut (h rfl))
  · rw [heq]
    exact .bind (.allocate ..) (.pure ..)

/-- Otherwise no path is handed out, and the buffer is never freed, or the null pointer is. -/
theorem owes_getVarPathPool_of_not (h : ¬ s.ReadFrees v varName) (live : List Buffer) :
    (s.getVarPathPool v varName).value.2.1 = none ∧
      (Owes live (s.getVarPathPool v varName) (.contents :: live) ∨
      ∀ after, ¬ Owes live (s.getVarPathPool v varName) after) := by
  have hread := (s.getVarPathPool_refines (v := v) varName).2
  unfold ReadFrees at h
  rcases s.getVarPathPool_cases (v := v) varName with
    ⟨hnot, status, heq⟩ | ⟨hallocated, ⟨status, attributes, heq⟩ | ⟨path, attributes, heq⟩⟩
  · rw [if_neg hnot] at h
    rw [heq]
    refine ⟨rfl, .inr fun after => ?_⟩
    rw [getVarPathOut, if_pos h]
    exact not_owes_free_null_bind
  · rw [if_pos hallocated, Classical.not_imp, not_not] at h
    rw [heq, h.2]
    exact ⟨rfl, .inl (.bind (.allocate ..) (owes_getVarPathOut_zero ..))⟩
  · rw [if_pos hallocated, hread, heq] at h
    exact absurd (fun hnone => by cases hnone) h

/-- The write frees the two paths that it was given. -/
theorem owes_writePathPool (attributes : Option UINT32) (currentPath path : Option (PoolPath Path))
    (live : List Buffer) :
    Owes (owed currentPath ++ (owed path ++ live))
      (s.writePathPool varName attributes currentPath path) live :=
  .bind (.call ..) (owes_entryPointOut ..)

theorem owes_writePathPool_new (attributes : Option UINT32) (currentPath : Option (PoolPath Path))
    (path : PoolPath Path) (live : List Buffer)
    (hne : ∀ current ∈ currentPath, path.1 ≠ current.1) :
    Owes (path.1 :: (owed currentPath ++ live))
      (s.writePathPool varName attributes currentPath (some path)) live :=
  .bind (.call ..) (owes_entryPointOut_new _ _ _ _ hne)

/-- After `GetVarPath`, both paths are freed in the end. -/
theorem owes_afterRead {status : UINT64} {attributes : Option UINT32}
    (happend : ∀ source, s.appendDevicePathInstance source none = none)
    (hauto : state.auto = true → state.path = none)
    (hcontents : ∀ current ∈ currentPath, current.1 = .contents)
    (hprint : status = EFI_SUCCESS → state.set = false →
      ∀ text ∈ (currentPath.elim [] fun current => v.texts current.2), text = true) :
    Owes (owed currentPath ++ (owed state.poolPath ++ live))
      (s.afterRead v state varName status currentPath attributes) live := by
  unfold afterRead
  refine .ite (fun _ => owes_entryPointOut ..) fun hstatus => .ite (fun hset => ?_) fun _ => .ite
    (fun hbuild => ?_)
    fun _ => .ite (fun _ => ?_) fun _ => owes_writePathPool ..
  · exact .bind ((owes_printVarPath_iff ..).mpr ⟨rfl, hprint (not_not.mp hstatus) hset⟩)
      (owes_entryPointOut ..)
  · obtain ⟨howes, hvalue⟩ :=
      s.owes_autoPathPool varName (owed currentPath ++ (owed state.poolPath ++ live))
    refine howes.bind ?_
    cases hpath : (s.autoPathPool varName).value with
    | error status => exact owes_entryPointOut status currentPath state.poolPath live
    | ok path =>
        obtain ⟨j, hj⟩ := hvalue path hpath
        have hnone : state.poolPath = none := by simp [State.poolPath, hauto hbuild]
        rw [hnone]
        exact owes_writePathPool_new _ _ _ _ fun current h => by simp [hcontents current h, hj]
  · cases hpath : state.path with
    | none =>
        rw [happend]
        exact owes_entryPointOut ..
    | some path =>
        cases s.appendDevicePathInstance (currentPath.map Prod.snd) (some path) with
        | none => exact owes_entryPointOut ..
        | some newPath =>
            have hpool : state.poolPath = some (.path, path) := by simp [State.poolPath, hpath]
            have hfree : Owes (.newPath :: (owed currentPath ++ .path :: live))
              (free (.block .path) : Pool Path Unit)
                (.newPath :: (owed currentPath ++ live)) := by
              cases currentPath with
              | none => exact owes_free_older (by decide) live
              | some current =>
                  obtain ⟨buffer, contents⟩ := current
                  obtain rfl : buffer = .contents := hcontents _ rfl
                  have hfree : Owes (.newPath :: .contents :: .path :: live)
                    (free (.block .path) : Pool Path Unit)
                      ((.newPath :: .contents :: .path :: live).erase .path) := .free (by simp)
                  exact hfree
            have hne : ∀ current ∈ currentPath, Buffer.newPath ≠ current.1 := fun current h => by
              simp [hcontents current h]
            rw [hpool]
            exact .bind (.allocate ..) (.bind hfree
              (owes_writePathPool_new attributes currentPath (.newPath, newPath) live hne))

/-- Unless a path is to be set, and is given, none was spelled on the command line. -/
theorem Accepted.path_eq_none {given : List GetOptContext} (h : s.Accepted commandLine given state)
    (hstate : state.set = false ∨ state.auto = true) : state.path = none := by
  cases h with
  | appends => rfl
  | auto => rfl
  | path => simp at hstate

/-- A path is handed out in its own buffer, with success. -/
theorem contents_getVarPathPool : ∀ current ∈ (s.getVarPathPool v varName).value.2.1,
    current.1 = .contents ∧ (s.getVarPathPool v varName).value.1 = EFI_SUCCESS := by
  intro current hcurrent
  rcases s.getVarPathPool_cases (v := v) varName with
    ⟨-, status, heq⟩ | ⟨-, ⟨status, attributes, heq⟩ | ⟨path, attributes, heq⟩⟩
  · rw [heq] at hcurrent
    cases hcurrent
  · rw [heq] at hcurrent
    cases hcurrent
  · rw [heq] at hcurrent ⊢
    obtain rfl := Option.some.inj hcurrent
    exact ⟨rfl, rfl⟩

/-- After `GetVarPath`, what it has handed out is freed. -/
theorem owes_afterRead_of_printFrees {given : List GetOptContext}
    (happend : ∀ source, s.appendDevicePathInstance source none = none)
    (h : s.Accepted commandLine given state) (hprint : s.PrintFrees v state varName)
    (live : List Buffer) :
    Owes (owed (s.getVarPathPool v varName).value.2.1 ++ (owed state.poolPath ++ live))
      (s.afterRead v state varName (s.getVarPathPool v varName).value.1
        (s.getVarPathPool v varName).value.2.1
        (s.getVarPathPool v varName).value.2.2) live := by
  obtain ⟨-, hvalue⟩ := s.getVarPathPool_refines (v := v) varName
  refine owes_afterRead happend (fun hauto => h.path_eq_none (.inr hauto))
    (fun current hcurrent => (contents_getVarPathPool current hcurrent).1) fun _ hset => ?_
  have hprint := hprint hset
  rw [hvalue] at hprint
  cases hcurrent : (s.getVarPathPool v varName).value.2.1 with
  | none => exact fun text htext => absurd htext List.not_mem_nil
  | some current => exact hprint current.2 (by simp [hcurrent])

/-- From `GetVarPath` on, everything is freed exactly when `GetVarPath` and `PrintVarPath` do. -/
theorem owes_updatePool_iff {given : List GetOptContext}
    (happend : ∀ source, s.appendDevicePathInstance source none = none)
    (h : s.Accepted commandLine given state) :
    Owes (owed state.poolPath) (s.updatePool v state varName) [] ↔
      s.ReadFrees v varName ∧ s.PrintFrees v state varName := by
  obtain ⟨-, hvalue⟩ := s.getVarPathPool_refines (v := v) varName
  by_cases hread : s.ReadFrees v varName
  · rw [updatePool, Owes.bind_iff (owes_getVarPathPool hread)]
    refine ⟨fun howes => ⟨hread, fun hset path hpath => ?_⟩, fun hfrees => ?_⟩
    · rw [hvalue] at hpath
      obtain ⟨current, hcurrent, rfl⟩ := Option.map_eq_some_iff.mp hpath
      obtain ⟨-, hstatus⟩ := contents_getVarPathPool current hcurrent
      rw [hstatus, hcurrent, afterRead, if_neg (not_not.mpr rfl), if_pos hset] at howes
      obtain ⟨mid, hmid⟩ := howes.of_bind
      exact ((owes_printVarPath_iff ..).mp hmid).2
    · simpa using owes_afterRead_of_printFrees happend h hfrees.2 []
  · refine iff_of_false (fun howes => ?_) fun hfrees => hread hfrees.1
    obtain ⟨hnone, hleak | hnull⟩ := owes_getVarPathPool_of_not hread (owed state.poolPath)
    · have hprint : s.PrintFrees v state varName := fun _ path hpath => by
        rw [hvalue, hnone] at hpath
        cases hpath
      have hrest := owes_afterRead_of_printFrees happend h hprint [.contents]
      rw [updatePool, hleak.bind_iff] at howes
      rw [hnone] at hrest howes
      have hperm : (owed (none : Option (PoolPath Path)) ++
        (owed state.poolPath ++ [Buffer.contents])).Perm
          (Buffer.contents :: owed state.poolPath) := List.perm_append_singleton ..
      obtain ⟨after, hperm, hafter⟩ := hrest.perm hperm
      obtain rfl := hafter.unique howes
      exact absurd hperm.length_eq (by simp)
    · obtain ⟨mid, hmid⟩ := howes.of_bind
      exact hnull mid hmid

end

/-! ## the options -/

/-- The state that the options lead to, up to the first one that is not accepted. -/
def acceptedState (commandLine : CommandLine) : State Path → List GetOptContext → State Path
  | state, [] => state
  | state, report :: given =>
      match s.onOption commandLine state report with
      | some (.ok next) => acceptedState commandLine next given
      | _ => state

section

variable {s} {commandLine : CommandLine} {state next : State Path} {done given : List GetOptContext}
  {report : GetOptContext}

/-- A path option is accepted when no path has been given yet. -/
theorem owes_optionBuffer (h : s.Accepted commandLine done state)
    (hstep : s.onOption commandLine state report = some (.ok next)) :
    Owes (owed state.poolPath) (optionBuffer report next) (owed next.poolPath) := by
  rcases onOption_ok hstep with ⟨hopt, -, -, rfl⟩ | ⟨hopt, -, rfl⟩ | ⟨hopt, hpath⟩
  · rw [optionBuffer, if_neg fun h => h.1.ne.1 hopt]
    exact .pure ..
  · rw [optionBuffer, if_neg fun h => h.1.ne.2 hopt]
    exact .pure ..
  · obtain ⟨-, -, path, -, -, -, hset, -, rfl⟩ := onPathOption_ok hpath
    have hnone : state.poolPath = none := by simp [State.poolPath, h.path_eq_none (.inl hset)]
    rw [hnone]
    cases path with
    | none => exact .ite (fun h => by simp at h) fun _ => .pure ..
    | some path =>
        rw [optionBuffer, if_pos ⟨hopt, rfl⟩]
        exact .bind (.allocate ..) (.pure ..)

/-- After the options, the path that was given is owed. -/
theorem owes_handleOptions (h : s.Accepted commandLine done state)
    {options : Pool Path (Except UINT64 (State Path))}
    (hoptions : s.handleOptions commandLine state given = some options) :
    Owes (owed state.poolPath) options (owed (s.acceptedState commandLine state given).poolPath) ∧
      ∀ last, options.value = .ok last → last = s.acceptedState commandLine state given := by
  induction given generalizing done state options with
  | nil =>
      obtain rfl := Option.some.inj hoptions
      exact ⟨.pure .., fun last hlast => (Except.ok.inj hlast).symm⟩
  | cons report given ih =>
      cases hstep : s.onOption commandLine state report with
      | none => simp [handleOptions, hstep] at hoptions
      | some result =>
          cases result with
          | error status =>
              simp only [handleOptions, hstep, Option.bind_eq_bind, Option.bind_some,
                Option.some.injEq] at hoptions
              obtain rfl := hoptions
              simp only [acceptedState, hstep]
              exact ⟨.pure .., fun last hlast => by cases hlast⟩
          | ok next =>
              simp only [handleOptions, hstep, Option.bind_eq_bind, Option.bind_some] at hoptions
              obtain ⟨rest, hrest, hoptions⟩ := Option.bind_eq_some_iff.mp hoptions
              obtain rfl := Option.some.inj hoptions
              obtain ⟨howes, hlast⟩ := ih (h.step hstep) hrest
              simp only [acceptedState, hstep]
              exact ⟨.bind (owes_optionBuffer h hstep) howes, hlast⟩

end

/-! ## whole runs -/

/-- An option has given a path, and then one is not accepted, or no variable is named. -/
def DropsPath : Prop :=
  ∃ commandLine, getShellArgcArgv s.shellParameters s.shellInterface = .ok commandLine ∧
    ¬ commandLine.argc < 1 ∧
    (s.acceptedState commandLine initState (reports commandLine)).path ≠ none ∧
    ((∃ status, CommandLine.handleReports (s.onOption commandLine) initState (reports commandLine) =
        some (.error status)) ∨
      commandLine.argc - (commandLine.parsed optionsWithArgs).2.optIndex < 1)

/-- The run gets to `GetVarPath`. -/
structure Updates (varName : String16) (state : State Path) (commandLine : CommandLine) : Prop where
  names : s.Names commandLine varName
  argc : ¬ commandLine.argc < 1
  handled : CommandLine.handleReports (s.onOption commandLine) initState (reports commandLine) =
    some (.ok state)

/-- No path is dropped before the variable is read, `GetVarPath` never frees the null pointer
nor keeps its buffer, and everything that is printed has a text. -/
structure FreesAll : Prop where
  options : ¬ s.DropsPath
  read : ∀ varName state commandLine, s.Updates varName state commandLine → s.ReadFrees v varName
  print : ∀ varName state commandLine, s.Updates varName state commandLine →
    s.PrintFrees v state varName

section

variable {s v} {commandLine : CommandLine} {varName : String16} {state : State Path}

/-- A run that does not get to `GetVarPath`. -/
theorem freesAll_of_not_updates
    (hnot : ∀ varName state commandLine, ¬ s.Updates varName state commandLine) :
    s.FreesAll v ↔ ¬ s.DropsPath :=
  ⟨fun h => h.options, fun h => ⟨h, fun _ _ _ hupdates => (hnot _ _ _ hupdates).elim,
    fun _ _ _ hupdates => (hnot _ _ _ hupdates).elim⟩⟩

/-- The options owe a buffer exactly when they have built a path. -/
theorem owed_eq_nil_iff {state : State Path} : owed state.poolPath = [] ↔ state.path = none := by
  unfold owed State.poolPath
  cases state.path <;> simp

/-- A command line asks for one update at most. -/
theorem Updates.unique {other : CommandLine} {otherName : String16} {otherState : State Path}
    (h : s.Updates varName state commandLine) (hother : s.Updates otherName otherState other) :
    otherName = varName ∧ otherState = state := by
  obtain ⟨rfl, rfl⟩ := h.names.unique hother.names
  exact ⟨rfl, Except.ok.inj (Option.some.inj (hother.handled.symm.trans h.handled))⟩

/-- A run that stops after the options owes the path that was given. -/
theorem owes_pure_iff_freesAll
    (hshell : getShellArgcArgv s.shellParameters s.shellInterface = .ok commandLine)
    (hargc : ¬ commandLine.argc < 1)
    (hstops : (∃ status, CommandLine.handleReports (s.onOption commandLine) initState
      (reports commandLine) =
        some (.error status)) ∨
          commandLine.argc - (commandLine.parsed optionsWithArgs).2.optIndex < 1)
    (hnot : ∀ varName state commandLine, ¬ s.Updates varName state commandLine) {status : UINT64} :
    Owes (owed (s.acceptedState commandLine initState (reports commandLine)).poolPath)
      (pure status : Pool Path UINT64) [] ↔ s.FreesAll v := by
  rw [freesAll_of_not_updates hnot, owes_pure_iff, owed_eq_nil_iff]
  refine ⟨fun hnone hdrops => ?_, fun hkeeps => ?_⟩
  · obtain ⟨_, h, -, hpath, -⟩ := hdrops
    obtain rfl := Except.ok.inj (h.symm.trans hshell)
    exact hpath hnone
  · by_contra hpath
    exact hkeeps ⟨commandLine, hshell, hargc, hpath, hstops⟩

/-- After the options, the rest of the run decides. -/
theorem balanced_iff_freesAll (happend : ∀ source, s.appendDevicePathInstance source none = none)
    {run : Pool Path UINT64} (hrun : s.entryPointPool v = some run) :
    Balanced run ↔ s.FreesAll v := by
  cases hshell : getShellArgcArgv s.shellParameters s.shellInterface with
  | error status =>
      simp only [entryPointPool, hshell] at hrun
      obtain rfl := Option.some.inj hrun
      refine iff_of_true (.pure ..) ((freesAll_of_not_updates fun _ _ _ h => ?_).mpr fun h => ?_)
      · cases hshell.symm.trans h.names.shell
      · obtain ⟨_, h, -⟩ := h
        cases hshell.symm.trans h
  | ok commandLine =>
      have hunique {other : CommandLine}
          (h : getShellArgcArgv s.shellParameters s.shellInterface = .ok other) :
          other = commandLine := Except.ok.inj (h.symm.trans hshell)
      by_cases hargc : commandLine.argc < 1
      · simp only [entryPointPool, hshell, if_pos hargc] at hrun
        obtain rfl := Option.some.inj hrun
        refine iff_of_true (.pure ..) ((freesAll_of_not_updates fun _ _ _ h => ?_).mpr fun h => ?_)
        · obtain rfl := hunique h.names.shell
          exact h.argc hargc
        · obtain ⟨_, h, hpos, -⟩ := h
          obtain rfl := hunique h
          exact hpos hargc
      · simp only [entryPointPool, hshell, if_neg hargc, Option.bind_eq_bind] at hrun
        obtain ⟨options, hoptions, hrun⟩ := Option.bind_eq_some_iff.mp hrun
        obtain ⟨rest, hrest, hrun⟩ := Option.bind_eq_some_iff.mp hrun
        obtain rfl := Option.some.inj hrun
        have haccepted : s.Accepted commandLine [] initState := .appends (by simp) (by simp)
        obtain ⟨howes, hlast⟩ := owes_handleOptions haccepted hoptions
        have hhandled := (s.handleOptions_refines commandLine (reports commandLine) initState).1
        rw [hoptions, Option.map_some] at hhandled
        have hbalanced : Balanced (options >>= fun _ => rest) ↔
            Owes (owed (s.acceptedState commandLine initState (reports commandLine)).poolPath) rest
              [] := howes.bind_iff
        rw [hbalanced]
        cases hresult : options.value with
        | error status =>
            rw [hresult] at hrest hhandled
            obtain rfl := Option.some.inj hrest
            refine owes_pure_iff_freesAll hshell hargc (.inl ⟨status, hhandled⟩) fun _ _ _ h => ?_
            obtain rfl := hunique h.names.shell
            cases hhandled.symm.trans h.handled
        | ok state =>
            rw [hresult] at hrest hhandled
            obtain rfl := hlast state hresult
            simp only [afterOptionsPool] at hrest
            split at hrest
            · rename_i hoperand
              obtain rfl := Option.some.inj hrest
              refine owes_pure_iff_freesAll hshell hargc (.inr hoperand) fun _ _ _ h => ?_
              obtain rfl := hunique h.names.shell
              exact h.names.operand hoperand
            · rename_i hoperand
              obtain ⟨varName, hword, rfl⟩ := Option.map_eq_some_iff.mp hrest
              have hupdates : s.Updates varName
                (s.acceptedState commandLine initState (reports commandLine))
                  commandLine := ⟨⟨hshell, hword⟩, hargc, hhandled⟩
              rw [owes_updatePool_iff happend (accepted_of_handleReports hhandled)]
              refine ⟨fun h => ⟨fun hdrops => ?_, fun otherName otherState _ hother => ?_,
                fun otherName otherState _ hother => ?_⟩,
                  fun h => ⟨h.read _ _ _ hupdates, h.print _ _ _ hupdates⟩⟩
              · obtain ⟨_, h, -, -, hwhy⟩ := hdrops
                obtain rfl := hunique h
                rcases hwhy with ⟨status, herror⟩ | hnoName
                · cases hhandled.symm.trans herror
                · exact hoperand hnoName
              · obtain ⟨rfl, rfl⟩ := hupdates.unique hother
                exact h.1
              · obtain ⟨rfl, rfl⟩ := hupdates.unique hother
                exact h.2

end

/-- Every run of the tool does what it does without the buffers, and frees each buffer that it
gets once, and nothing else, exactly when `FreesAll` holds. -/
theorem freesAll_of_run (s : SetCon Path) (v : PoolServices Path)
    (happend : ∀ source, s.appendDevicePathInstance source none = none) :
    ∃ run, s.entryPointPool v = some run ∧ s.entryPoint = some ⟨run.value, calls run⟩ ∧
      (Balanced run ↔ s.FreesAll v) := by
  have hentry := s.entryPointPool_refines v
  obtain ⟨run, hrun⟩ : ∃ run, s.entryPointPool v = some run := by
    rcases s.entryPoint_cases with ⟨status, heq, -⟩ | ⟨_, _, _, _, _, _, heq⟩
    · obtain ⟨run, hrun, -⟩ := Option.map_eq_some_iff.mp (hentry.symm.trans heq)
      exact ⟨run, hrun⟩
    · obtain ⟨run, hrun, -⟩ := Option.map_eq_some_iff.mp (hentry.symm.trans heq)
      exact ⟨run, hrun⟩
  rw [hrun] at hentry
  exact ⟨run, hrun, hentry, balanced_iff_freesAll happend hrun⟩

/-- `SetCon -p x ConOut`, without enough memory for the content of the variable. -/
def noMemory : SetCon (List (List CHAR16)) :=
  { textOption true with
    getVariable := fun _ => ⟨EFI_BUFFER_TOO_SMALL, false, EFI_SUCCESS, 7, 20, [[0x79]]⟩ }

/-- `FreePool` gets the null pointer. -/
theorem freesAll_of_run_noMemory :
    ∃ run, noMemory.entryPointPool ⟨fun _ => 20, fun _ => []⟩ = some run ∧
    run.trace = [.allocated .path, .freed .null, .freed (.block .path)] ∧
      ¬ noMemory.FreesAll ⟨fun _ => 20, fun _ => []⟩ := by
  obtain ⟨run, hrun, -, hiff⟩ := freesAll_of_run noMemory ⟨fun _ => 20, fun _ => []⟩ fun _ => rfl
  have htrace : run.trace = [.allocated .path, .freed .null, .freed (.block .path)] := by
    obtain rfl := Option.some.inj hrun
    rfl
  refine ⟨run, hrun, htrace, fun hfrees => ?_⟩
  have hbalanced : Owes [] run [] := hiff.mpr hfrees
  rw [Owes, htrace] at hbalanced
  cases hbalanced

end SetCon

end MultiArchUefi
