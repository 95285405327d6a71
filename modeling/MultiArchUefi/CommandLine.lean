import MultiArchUefi.GetOpt

/-!
# MultiArchUefi.CommandLine

Command lines of the shell, and the loop in which an application handles its options.

`optionLoop` calls `GetOpt` and handles what is reported, until there are no more
options or the handler returns from the application.  It comes to the same as
handling the reports of `getOptLoop` one after the other.
-/

namespace MultiArchUefi

def EFI_ABORTED : UINT64 := 0x8000000000000015

/-- `Argc` and `Argv`. -/
structure CommandLine where
  argc : UINT64
  argv : List String16
  length : argv.length = argc.toNat

/-- `GetShellArgcArgv`, given the command lines of the two protocols, where they can be opened. -/
def getShellArgcArgv (shellParameters shellInterface : Option CommandLine) :
    Except UINT64 CommandLine :=
  match shellParameters with
  | some commandLine => .ok commandLine
  | none =>
      match shellInterface with
      | some commandLine => .ok commandLine
      | none => .error EFI_NOT_FOUND

namespace CommandLine

variable (commandLine : CommandLine) (optionsWithArgs : Option String16)

/-- The string at a pointer into the words, if it is inside of one. -/
def stringAt (pointer : ArgPointer) : Option String16 := do
  let word ← commandLine.argv[pointer.word]?
  if pointer.offset ≤ word.strLen then some (word.drop pointer.offset) else none

/-! ## handling options -/

section

variable {σ : Type} (onOption : σ → GetOptContext → Option (Except UINT64 σ))

/-- The loop that handles options: the state that it ends with, or the status that the
application returns; `none` when something is read that is not there, or when `n` calls
are not enough. -/
def optionLoop : Nat → σ → GetOptContext → Option (Except UINT64 (σ × GetOptContext))
  | 0, _, _ => none
  | n + 1, state, context => do
      let (status, context) ← getOpt commandLine.argc commandLine.argv optionsWithArgs context
      if status = EFI_SUCCESS then
        match ← onOption state context with
        | .error status => some (.error status)
        | .ok state => optionLoop n state context
      else some (.ok (state, context))

/-- The reports are handled one after the other. -/
def handleReports : σ → List GetOptContext → Option (Except UINT64 σ)
  | state, [] => some (.ok state)
  | state, report :: reports => do
      match ← onOption state report with
      | .error status => some (.error status)
      | .ok state => handleReports state reports

end

/-- `Argc` calls and one more are enough. -/
def calls : Nat := commandLine.argc.toNat + 1

/-- Without any word, the index is past the end at once. -/
theorem getOptLoop_of_argc_zero (h : commandLine.argc = 0) :
    getOptLoop commandLine.argc commandLine.argv optionsWithArgs commandLine.calls
      initGetOptContext =
      some ([], initGetOptContext) := by
  have hge : initGetOptContext.optIndex ≥ commandLine.argc := by
    rw [h]
    decide
  have hget : getOpt commandLine.argc commandLine.argv optionsWithArgs initGetOptContext =
      some (EFI_END_OF_MEDIA, initGetOptContext) := if_pos hge
  exact getOptLoop_end hget

theorem loopSplits_of_argc_pos (h : 1 ≤ commandLine.argc) :
    LoopSplits commandLine.argc commandLine.argv optionsWithArgs commandLine.calls
      initGetOptContext :=
  loopSplits optionsWithArgs initGetOptContext commandLine.length commandLine.calls h
    (show _ < 1 + (_ + 1) by omega)

theorem isSome_getOptLoop :
    (getOptLoop commandLine.argc commandLine.argv optionsWithArgs commandLine.calls
      initGetOptContext).isSome = true := by
  by_cases hargc : commandLine.argc = 0
  · rw [commandLine.getOptLoop_of_argc_zero optionsWithArgs hargc]
    rfl
  · have hpos : 1 ≤ commandLine.argc := by bv_omega
    obtain ⟨-, reports, last, hloop, -⟩ := commandLine.loopSplits_of_argc_pos optionsWithArgs hpos
    rw [hloop]
    rfl

/-- The options that `GetOpt` reports, and the context that it ends with. -/
def parsed : List GetOptContext × GetOptContext :=
  Option.get _ (commandLine.isSome_getOptLoop optionsWithArgs)

theorem getOptLoop_eq :
    getOptLoop commandLine.argc commandLine.argv optionsWithArgs commandLine.calls
      initGetOptContext =
      some (commandLine.parsed optionsWithArgs) := (Option.some_get _).symm

theorem parsed_of_argc_zero (h : commandLine.argc = 0) :
    commandLine.parsed optionsWithArgs = ([], initGetOptContext) :=
  Option.some.inj ((commandLine.getOptLoop_eq optionsWithArgs).symm.trans
    (commandLine.getOptLoop_of_argc_zero optionsWithArgs h))

/-- How the words after the first are split. -/
theorem splits_parsed (h : 1 ≤ commandLine.argc) :
    (commandLine.parsed optionsWithArgs).2.optIndex ≤ commandLine.argc ∧
      ∃ roles, Splits optionsWithArgs 1 (commandLine.argv.drop 1) roles
        (commandLine.parsed optionsWithArgs).1
        (commandLine.parsed optionsWithArgs).2.optIndex.toNat := by
  obtain ⟨roles, reports, last, hloop, hlast, hsplits⟩ :=
    commandLine.loopSplits_of_argc_pos optionsWithArgs h
  have heq : commandLine.parsed optionsWithArgs = (reports, last) :=
    Option.some.inj ((commandLine.getOptLoop_eq optionsWithArgs).symm.trans hloop)
  rw [heq]
  exact ⟨hlast, roles, hsplits⟩

/-- What `GetOpt` reports as the argument of an option is a string of the command line. -/
theorem exists_argument {report : GetOptContext}
    (hmem : report ∈ (commandLine.parsed optionsWithArgs).1)
    (hopt : TakesArgument optionsWithArgs report.opt) {pointer : ArgPointer}
    (harg : report.optArg = some pointer) :
    ∃ text, commandLine.stringAt pointer = some text := by
  have hargc : 1 ≤ commandLine.argc := by
    by_cases hzero : commandLine.argc = 0
    · rw [commandLine.parsed_of_argc_zero _ hzero] at hmem
      cases hmem
    · bv_omega
  obtain ⟨-, roles, hsplits⟩ := commandLine.splits_parsed optionsWithArgs hargc
  obtain ⟨word, j, hj, hword, hoffset⟩ := hsplits.pointsInto hmem hopt harg
  rw [List.getElem?_drop, ← hj] at hword
  exact ⟨word.drop pointer.offset, by
    simp only [stringAt, hword, bind, Option.bind, if_pos hoffset]⟩

/-- The operands are words of the command line. -/
theorem exists_operand {k : UINT64}
    (h : k < commandLine.argc - (commandLine.parsed optionsWithArgs).2.optIndex)
    (hargc : 1 ≤ commandLine.argc) :
    ∃ word, commandLine.argv[((commandLine.parsed optionsWithArgs).2.optIndex + k).toNat]? =
      some word := by
  have hlast := (commandLine.splits_parsed optionsWithArgs hargc).1
  generalize (commandLine.parsed optionsWithArgs).2.optIndex = optIndex at h hlast ⊢
  have hlength := commandLine.length
  have hlt : (optIndex + k).toNat < commandLine.argv.length := by
    rw [hlength]
    bv_omega
  exact ⟨_, List.getElem?_eq_getElem hlt⟩

section

variable {commandLine optionsWithArgs} {σ : Type}
  {onOption : σ → GetOptContext → Option (Except UINT64 σ)}

/-- Options are handled as they are reported, unless the handler returns before. -/
theorem optionLoop_of_getOptLoop {n : Nat} {context last : GetOptContext}
    {reports : List GetOptContext}
    (h : getOptLoop commandLine.argc commandLine.argv optionsWithArgs n context = some
      (reports, last)) (state : σ) :
    commandLine.optionLoop optionsWithArgs onOption n state context =
      (handleReports onOption state reports).map fun result => result.map (·, last) := by
  induction n generalizing context reports state with
  | zero => cases h
  | succ n ih =>
      cases hget : getOpt commandLine.argc commandLine.argv optionsWithArgs context with
      | none => simp [getOptLoop, hget] at h
      | some result =>
          obtain ⟨status, report⟩ := result
          by_cases hstatus : status = EFI_SUCCESS
          · simp only [getOptLoop, hget, bind, Option.bind, if_pos hstatus] at h
            split at h
            · cases h
            · rename_i rest hrest
              obtain ⟨rfl, rfl⟩ := Prod.mk.inj (Option.some.inj h)
              simp only [optionLoop, hget, bind, Option.bind, if_pos hstatus, handleReports]
              cases onOption state report with
              | none => rfl
              | some result =>
                  cases result with
                  | error status => rfl
                  | ok state => exact ih hrest state
          · simp only [getOptLoop, hget, bind, Option.bind, if_neg hstatus, Option.some.injEq,
              Prod.mk.injEq] at h
            obtain ⟨rfl, rfl⟩ := h
            simp only [optionLoop, hget, bind, Option.bind, if_neg hstatus]
            rfl

/-- A handler that always comes to something handles all reports. -/
theorem exists_handleReports (onOption : σ → GetOptContext → Option (Except UINT64 σ))
    (reports : List GetOptContext)
    (h : ∀ report ∈ reports, ∀ state, ∃ result, onOption state report = some result) (state : σ) :
    ∃ result, handleReports onOption state reports = some result := by
  induction reports generalizing state with
  | nil => exact ⟨_, rfl⟩
  | cons report reports ih =>
      obtain ⟨result, hresult⟩ := h report (List.mem_cons_self ..) state
      simp only [handleReports, hresult, bind, Option.bind]
      cases result with
      | error status => exact ⟨_, rfl⟩
      | ok state => exact ih (fun report hreport => h report (List.mem_cons_of_mem _ hreport)) state

/-- The loop of an application, from its start. -/
theorem optionLoop_eq (state : σ) :
    commandLine.optionLoop optionsWithArgs onOption commandLine.calls state initGetOptContext =
      (handleReports onOption state (commandLine.parsed optionsWithArgs).1).map fun result =>
        result.map (·, (commandLine.parsed optionsWithArgs).2) :=
  optionLoop_of_getOptLoop (commandLine.getOptLoop_eq optionsWithArgs) state

end

end CommandLine

end MultiArchUefi
