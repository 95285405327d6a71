import MultiArchUefi.Basic

/-!
# MultiArchUefi.GetOpt

The parser of command lines that the applications share.

`getOpt` is one call of `GetOpt`, on pointers: it fails where the source would
read an argument that is not there, or a character past a terminator.  `Splits`
says, without pointers and calls, how the words of a command line are split into
options, arguments, a lone dash and operands.
-/

namespace MultiArchUefi

/-! ## strings -/

abbrev CHAR16 := BitVec 16

/-- `L'-'`. -/
def DASH : CHAR16 := 0x2d

/-- A string, without its terminator. -/
structure String16 where
  chars : List CHAR16
  nonzero : ∀ c ∈ chars, c ≠ 0
deriving DecidableEq, Repr

namespace String16

/-- The character at an index, the terminator included; past it there is none. -/
def charAt (s : String16) (index : Nat) : Option CHAR16 := (s.chars ++ [0])[index]?

def strLen (s : String16) : Nat := s.chars.length

/-- The string from an index on. -/
def drop (s : String16) (offset : Nat) : String16 :=
  ⟨s.chars.drop offset, fun c hc => s.nonzero c (List.mem_of_mem_drop hc)⟩

/-- The string looks like an option, or is a lone dash. -/
def beginsWithDash (s : String16) : Bool := s.chars.head? == some DASH

end String16

/-! ## options -/

def EFI_END_OF_MEDIA : UINT64 := 0x800000000000001c

/-- `Argv[word] + offset`. -/
structure ArgPointer where
  word : Nat
  offset : Nat
deriving DecidableEq, Repr

/-- `GET_OPT_CONTEXT`. -/
structure GetOptContext where
  opt : CHAR16
  optArg : Option ArgPointer
  optIndex : UINT64
deriving DecidableEq, Repr

/-- `INIT_GET_OPT_CONTEXT`. -/
def initGetOptContext : GetOptContext := ⟨0, none, 1⟩

section

variable (argc : UINT64) (argv : List String16)

/-- What the loop of `GetOpt` does with the option it has found: the argument, and `SkipCount`. -/
def getOptArg (optIndex : UINT64) : Option (Option ArgPointer × UINT64) := do
  let word ← argv[optIndex.toNat]?
  let attached ← word.charAt 2
  if attached ≠ 0 then some (some ⟨optIndex.toNat, 2⟩, 1)
  else if optIndex + 1 < argc then
    let next ← argv[(optIndex + 1).toNat]?
    let first ← next.charAt 0
    if first ≠ DASH then some (some ⟨(optIndex + 1).toNat, 0⟩, 2) else some (none, 1)
  else some (none, 1)

/-- The loop of `GetOpt`, over the rest of `OptionsWithArgs`; it is left at the first match. -/
def getOptLetters (context : GetOptContext) (opt : CHAR16) :
    List CHAR16 → Option (Option ArgPointer × UINT64)
  | [] => some (context.optArg, 1)
  | letter :: letters =>
      if letter = opt then getOptArg argc argv context.optIndex
        else getOptLetters context opt letters

/-- `if (OptionsWithArgs != NULL)`. -/
def getOptOption (context : GetOptContext) (opt : CHAR16) :
    Option String16 → Option (Option ArgPointer × UINT64)
  | none => some (context.optArg, 1)
  | some options => getOptLetters argc argv context opt options.chars

/-- One call: the status and the context; `none` when it reads what is not there. -/
def getOpt (optionsWithArgs : Option String16) (context : GetOptContext) :
    Option (UINT64 × GetOptContext) :=
  if context.optIndex ≥ argc then some (EFI_END_OF_MEDIA, context)
  else do
    let word ← argv[context.optIndex.toNat]?
    let first ← word.charAt 0
    if first ≠ DASH then some (EFI_END_OF_MEDIA, context)
    else
      let opt ← word.charAt 1
      if opt = 0 then some (EFI_END_OF_MEDIA, { context with optIndex := context.optIndex + 1 })
      else
        let (optArg, skipCount) ← getOptOption argc argv context opt optionsWithArgs
        some (EFI_SUCCESS, ⟨opt, optArg, context.optIndex + skipCount⟩)

/-- `GetOpt` is called until it does not return `EFI_SUCCESS`: the contexts that it
reports, and the one it ends with; `none` when `n` calls are not enough. -/
def getOptLoop (optionsWithArgs : Option String16) :
    Nat → GetOptContext → Option (List GetOptContext × GetOptContext)
  | 0, _ => none
  | n + 1, context => do
      let (status, context) ← getOpt argc argv optionsWithArgs context
      if status = EFI_SUCCESS then
        let (reports, last) ← getOptLoop optionsWithArgs n context
        some (context :: reports, last)
      else some ([], context)

end

/-! ## how a command line is split -/

/-- What a word of a command line is. -/
inductive Role where
  | option
  | argument
  | dash
  | operand
deriving DecidableEq, Repr

/-- The option with this letter takes an argument. -/
def TakesArgument (optionsWithArgs : Option String16) (opt : CHAR16) : Prop :=
  ∃ options ∈ optionsWithArgs, opt ∈ options.chars

/-- The words from `Argv[i]` on have these roles and make these reports, and the
operands start at the last index.  What is reported as the argument of an option
that takes none is left open. -/
inductive Splits (optionsWithArgs : Option String16) :
    Nat → List String16 → List Role → List GetOptContext → Nat → Prop
  | nil {i : Nat} : Splits optionsWithArgs i [] [] [] i
  | operands {i : Nat} {word : String16} {words : List String16}
      (hword : word.beginsWithDash = false) :
      Splits optionsWithArgs i (word :: words) (.replicate (words.length + 1) .operand) [] i
  | dash {i : Nat} {word : String16} {words : List String16} (hword : word.chars = [DASH]) :
      Splits optionsWithArgs i (word :: words)
        (.dash :: .replicate words.length .operand) [] (i + 1)
  /-- `-x`, and whatever follows the letter in the word -/
  | flag {i k : Nat} {word : String16} {words : List String16} {opt : CHAR16} {text : List CHAR16}
      {roles : List Role} {report : GetOptContext} {reports : List GetOptContext}
      (hword : word.chars = DASH :: opt :: text) (hopt : ¬ TakesArgument optionsWithArgs opt)
      (hreport : report.opt = opt) (hrest : Splits optionsWithArgs (i + 1) words roles reports k) :
      Splits optionsWithArgs i (word :: words) (.option :: roles) (report :: reports) k
  /-- `-xtext` -/
  | attached {i k : Nat} {word : String16} {words : List String16} {opt t : CHAR16}
      {text : List CHAR16} {roles : List Role} {report : GetOptContext}
      {reports : List GetOptContext} (hword : word.chars = DASH :: opt :: t :: text)
      (hopt : TakesArgument optionsWithArgs opt) (hreport : report.opt = opt)
      (harg : report.optArg = some ⟨i, 2⟩)
      (hrest : Splits optionsWithArgs (i + 1) words roles reports k) :
      Splits optionsWithArgs i (word :: words) (.option :: roles) (report :: reports) k
  /-- `-x text` -/
  | separate {i k : Nat} {word next : String16} {words : List String16} {opt : CHAR16}
      {roles : List Role} {report : GetOptContext} {reports : List GetOptContext}
      (hword : word.chars = [DASH, opt]) (hopt : TakesArgument optionsWithArgs opt)
      (hnext : next.beginsWithDash = false) (hreport : report.opt = opt)
      (harg : report.optArg = some ⟨i + 1, 0⟩)
      (hrest : Splits optionsWithArgs (i + 2) words roles reports k) :
      Splits optionsWithArgs i (word :: next :: words) (.option :: .argument :: roles)
        (report :: reports) k
  /-- `-x`, at the end or before another dash -/
  | missing {i k : Nat} {word : String16} {words : List String16} {opt : CHAR16}
      {roles : List Role} {report : GetOptContext} {reports : List GetOptContext}
      (hword : word.chars = [DASH, opt]) (hopt : TakesArgument optionsWithArgs opt)
      (hnext : ∀ next ∈ words.head?, next.beginsWithDash = true) (hreport : report.opt = opt)
      (harg : report.optArg = none) (hrest : Splits optionsWithArgs (i + 1) words roles reports k) :
      Splits optionsWithArgs i (word :: words) (.option :: roles) (report :: reports) k

/-- The pointer is into one of the words, which are those from `Argv[i]` on. -/
def PointsInto (i : Nat) (words : List String16) (pointer : ArgPointer) : Prop :=
  ∃ word j, pointer.word = i + j ∧ words[j]? = some word ∧ pointer.offset ≤ word.strLen

theorem PointsInto.cons {i : Nat} {word : String16} {words : List String16} {pointer : ArgPointer}
    (h : PointsInto (i + 1) words pointer) : PointsInto i (word :: words) pointer := by
  obtain ⟨next, j, hj, hword, hoffset⟩ := h
  exact ⟨next, j + 1, by omega, hword, hoffset⟩

namespace Splits

variable {optionsWithArgs : Option String16} {i k : Nat} {words : List String16} {roles : List Role}
  {reports : List GetOptContext}

/-- Every word has one role. -/
theorem length_roles (h : Splits optionsWithArgs i words roles reports k) :
    roles.length = words.length := by
  induction h <;> simp_all

theorem last_mem (h : Splits optionsWithArgs i words roles reports k) :
    i ≤ k ∧ k ≤ i + words.length := by
  induction h with
  | nil => simp
  | operands => simp
  | dash => simp
  | flag _ _ _ _ ih | attached _ _ _ _ _ ih | missing _ _ _ _ _ _ ih =>
      rw [List.length_cons]
      omega
  | separate _ _ _ _ _ _ ih =>
      rw [List.length_cons, List.length_cons]
      omega

/-- The operands are the words from the last index on. -/
theorem operand_iff (h : Splits optionsWithArgs i words roles reports k) (j : Nat) :
    roles[j]? = some .operand ↔ k ≤ i + j ∧ j < words.length := by
  induction h generalizing j with
  | nil => simp
  | operands => simp [List.getElem?_replicate]
  | @dash i word words hword =>
      cases j with
      | zero => simp
      | succ j =>
          rw [List.getElem?_cons_succ, List.getElem?_replicate, List.length_cons]
          by_cases hj : j < words.length <;> simp [hj]
  | flag _ _ _ hrest ih | attached _ _ _ _ hrest ih | missing _ _ _ _ _ hrest ih =>
      have hlast := hrest.last_mem
      cases j with
      | zero => simp; omega
      | succ j =>
          have hj := ih j
          rw [List.getElem?_cons_succ, hj, List.length_cons]
          omega
  | separate _ _ _ _ _ hrest ih =>
      have hlast := hrest.last_mem
      match j with
      | 0 => simp; omega
      | 1 => simp; omega
      | j + 2 =>
          have hj := ih j
          rw [List.getElem?_cons_succ, List.getElem?_cons_succ, hj, List.length_cons,
            List.length_cons]
          omega

/-- The argument of an option points into the words. -/
theorem pointsInto (h : Splits optionsWithArgs i words roles reports k) {report : GetOptContext}
    (hmem : report ∈ reports) (hopt : TakesArgument optionsWithArgs report.opt)
    {pointer : ArgPointer} (harg : report.optArg = some pointer) : PointsInto i words pointer := by
  induction h with
  | nil => cases hmem
  | operands => cases hmem
  | dash => cases hmem
  | flag _ hnone hreport _ ih =>
      rcases List.mem_cons.mp hmem with rfl | hmem
      · exact absurd (hreport ▸ hopt) hnone
      · exact (ih hmem).cons
  | @attached i k word _ _ _ _ _ _ _ hword _ _ hattached _ ih =>
      rcases List.mem_cons.mp hmem with rfl | hmem
      · obtain rfl : ArgPointer.mk i 2 = pointer := Option.some.inj (hattached.symm.trans harg)
        exact ⟨word, 0, rfl, rfl, by rw [String16.strLen, hword]; simp⟩
      · exact (ih hmem).cons
  | @separate i k _ next _ _ _ _ _ _ _ _ _ hseparate _ ih =>
      rcases List.mem_cons.mp hmem with rfl | hmem
      · obtain rfl : ArgPointer.mk (i + 1) 0 = pointer :=
          Option.some.inj (hseparate.symm.trans harg)
        exact ⟨next, 1, rfl, rfl, Nat.zero_le _⟩
      · exact (ih hmem).cons.cons
  | missing _ _ _ _ hmissing _ ih =>
      rcases List.mem_cons.mp hmem with rfl | hmem
      · cases hmissing.symm.trans harg
      · exact (ih hmem).cons

/-- There is at most one lone dash that ends the options. -/
theorem count_dash_le (h : Splits optionsWithArgs i words roles reports k) :
    roles.count .dash ≤ 1 := by
  induction h with
  | nil => simp
  | operands => simp [List.count_replicate]
  | dash => simp [List.count_replicate]
  | flag _ _ _ _ ih | attached _ _ _ _ _ ih | missing _ _ _ _ _ _ ih | separate _ _ _ _ _ _ ih =>
      simpa using ih

end Splits

/-! ## single calls -/

namespace String16

variable {s : String16}

theorem charAt_of_chars (pre : List CHAR16) {post : List CHAR16} {c : CHAR16}
    (h : s.chars = pre ++ c :: post) :
    s.charAt pre.length = some c := by
  simp [charAt, h]

/-- A string whose first character is no dash does not begin with one. -/
theorem charAt_zero_of_not_beginsWithDash (h : s.beginsWithDash = false) :
    ∃ c, s.charAt 0 = some c ∧ c ≠ DASH := by
  cases hs : s.chars with
  | nil => exact ⟨0, by simp [charAt, hs], by decide⟩
  | cons c chars =>
      refine ⟨c, charAt_of_chars [] hs, fun hc => ?_⟩
      simp [beginsWithDash, hs, hc] at h

/-- A string that begins with a dash is a lone one, or has a letter after it. -/
theorem chars_of_beginsWithDash (h : s.beginsWithDash = true) :
    s.charAt 0 = some DASH ∧ (s.chars = [DASH] ∨ ∃ opt text, s.chars = DASH :: opt :: text) := by
  match hs : s.chars with
  | [] => simp [beginsWithDash, hs] at h
  | c :: chars =>
      obtain rfl : c = DASH := by simpa [beginsWithDash, hs] using h
      refine ⟨charAt_of_chars [] hs, ?_⟩
      cases chars with
      | nil => exact .inl rfl
      | cons opt text => exact .inr ⟨opt, text, rfl⟩

end String16

section

variable {argc : UINT64} {argv : List String16} {optionsWithArgs : Option String16}
  {context : GetOptContext} {word : String16} {words : List String16} {opt : CHAR16}
  {text : List CHAR16}

theorem getOptLetters_eq (letters : List CHAR16) :
    getOptLetters argc argv context opt letters =
      if opt ∈ letters then getOptArg argc argv context.optIndex else some (context.optArg, 1) := by
  induction letters with
  | nil => rfl
  | cons letter letters ih =>
      rw [getOptLetters, ih]
      by_cases hletter : letter = opt
      · simp [hletter]
      · simp [hletter, Ne.symm hletter]

/-- The word at `OptIndex`, and the words after it. -/
structure At (argc : UINT64) (argv : List String16) (optIndex : UINT64) (word : String16)
    (words : List String16) : Prop where
  length : argv.length = argc.toNat
  drop : argv.drop optIndex.toNat = word :: words

namespace At

variable {optIndex : UINT64} (h : At argc argv optIndex word words)
include h

theorem index_lt : optIndex.toNat + words.length + 1 = argc.toNat := by
  have hlength := congrArg List.length h.drop
  rw [List.length_drop, h.length, List.length_cons] at hlength
  omega

theorem not_ge : ¬ optIndex ≥ argc := by
  have hlt := h.index_lt
  rw [ge_iff_le, BitVec.le_def]
  omega

theorem getElem? : argv[optIndex.toNat]? = some word := by
  have hget := congrArg (·[0]?) h.drop
  simpa using hget

theorem toNat_add (skipCount : UINT64) (hskip : skipCount.toNat ≤ words.length + 1) :
    (optIndex + skipCount).toNat = optIndex.toNat + skipCount.toNat := by
  have hlt := h.index_lt
  have hargc := argc.isLt
  rw [BitVec.toNat_add, Nat.mod_eq_of_lt (by omega)]

theorem drop_add (skipCount : UINT64) (hskip : skipCount.toNat ≤ words.length + 1) :
    argv.drop (optIndex + skipCount).toNat = (word :: words).drop skipCount.toNat := by
  rw [h.toNat_add skipCount hskip, ← List.drop_drop, h.drop]

end At

/-- The first operand ends the options. -/
theorem getOpt_operand (h : At argc argv context.optIndex word words)
    (hword : word.beginsWithDash = false) :
    getOpt argc argv optionsWithArgs context = some (EFI_END_OF_MEDIA, context) := by
  obtain ⟨c, hc, hdash⟩ := word.charAt_zero_of_not_beginsWithDash hword
  simp only [getOpt, if_neg h.not_ge, h.getElem?, hc, bind, Option.bind, if_pos hdash]

/-- A lone dash ends the options, and is skipped. -/
theorem getOpt_dash (h : At argc argv context.optIndex word words) (hword : word.chars = [DASH]) :
    getOpt argc argv optionsWithArgs context =
      some (EFI_END_OF_MEDIA, { context with optIndex := context.optIndex + 1 }) := by
  have hfirst : word.charAt 0 = some DASH := String16.charAt_of_chars [] hword
  have hend : word.charAt 1 = some 0 := by simp [String16.charAt, hword]
  simp only [getOpt, if_neg h.not_ge, h.getElem?, hfirst, hend, bind, Option.bind, ne_eq,
    not_true_eq_false, if_false, if_true]

/-- An option is reported with what its letter makes of it. -/
theorem getOpt_option (h : At argc argv context.optIndex word words)
    (hword : word.chars = DASH :: opt :: text) {optArg : Option ArgPointer} {skipCount : UINT64}
    (harg : TakesArgument optionsWithArgs opt →
      getOptArg argc argv context.optIndex = some (optArg, skipCount))
    (hnone : ¬ TakesArgument optionsWithArgs opt → optArg = context.optArg ∧ skipCount = 1) :
    getOpt argc argv optionsWithArgs context =
      some (EFI_SUCCESS, ⟨opt, optArg, context.optIndex + skipCount⟩) := by
  have hfirst : word.charAt 0 = some DASH := String16.charAt_of_chars [] hword
  have hopt : word.charAt 1 = some opt := String16.charAt_of_chars [DASH] hword
  have hzero : opt ≠ 0 := word.nonzero opt (by simp [hword])
  have hletters : getOptOption argc argv context opt optionsWithArgs = some
      (optArg, skipCount) := by
    cases optionsWithArgs with
    | none =>
        obtain ⟨rfl, rfl⟩ := hnone (by simp [TakesArgument])
        rfl
    | some options =>
        rw [getOptOption, getOptLetters_eq]
        split
        · rename_i hmem
          exact harg ⟨options, rfl, hmem⟩
        · rename_i hmem
          obtain ⟨rfl, rfl⟩ := hnone (by simpa [TakesArgument] using hmem)
          rfl
  simp only [getOpt, if_neg h.not_ge, h.getElem?, hfirst, hopt, bind, Option.bind, ne_eq,
    not_true_eq_false, if_false, if_neg hzero, hletters]

/-- An argument may follow the letter. -/
theorem getOptArg_attached (h : At argc argv context.optIndex word words) {t : CHAR16}
    (hword : word.chars = DASH :: opt :: t :: text) :
    getOptArg argc argv context.optIndex = some (some ⟨context.optIndex.toNat, 2⟩, 1) := by
  have hattached : word.charAt 2 = some t := String16.charAt_of_chars [DASH, opt] hword
  have hzero : t ≠ 0 := word.nonzero t (by simp [hword])
  simp only [getOptArg, h.getElem?, hattached, bind, Option.bind, if_pos hzero]

/-- Or it may be the next word. -/
theorem getOptArg_separate {next : String16}
    (h : At argc argv context.optIndex word (next :: words)) (hword : word.chars = [DASH, opt])
    (hnext : next.beginsWithDash = false) :
    getOptArg argc argv context.optIndex = some (some ⟨context.optIndex.toNat + 1, 0⟩, 2) := by
  have hend : word.charAt 2 = some 0 := by simp [String16.charAt, hword]
  have hindex : (context.optIndex + 1).toNat = context.optIndex.toNat + 1 := h.toNat_add 1 (by simp)
  have hlt : context.optIndex + 1 < argc := by
    have := h.index_lt
    rw [List.length_cons] at this
    rw [BitVec.lt_def, hindex]
    omega
  have hget : argv[context.optIndex.toNat + 1]? = some next := by
    have hget := congrArg (·[1]?) h.drop
    simpa using hget
  obtain ⟨c, hc, hdash⟩ := next.charAt_zero_of_not_beginsWithDash hnext
  simp only [getOptArg, h.getElem?, hend, hindex, hget, hc, bind, Option.bind, ne_eq,
    not_true_eq_false, if_false, if_pos hlt, if_pos hdash]

/-- Or there is none. -/
theorem getOptArg_missing (h : At argc argv context.optIndex word words)
    (hword : word.chars = [DASH, opt]) (hnext : ∀ next ∈ words.head?, next.beginsWithDash = true) :
    getOptArg argc argv context.optIndex = some (none, 1) := by
  have hend : word.charAt 2 = some 0 := by simp [String16.charAt, hword]
  have hindex : (context.optIndex + 1).toNat = context.optIndex.toNat + 1 := h.toNat_add 1 (by simp)
  have hlength := h.index_lt
  simp only [getOptArg, h.getElem?, hend, bind, Option.bind, ne_eq, not_true_eq_false, if_false]
  cases words with
  | nil =>
      have hge : ¬ context.optIndex + 1 < argc := by
        rw [List.length_nil] at hlength
        rw [BitVec.lt_def, hindex]
        omega
      rw [if_neg hge]
  | cons next words =>
      have hlt : context.optIndex + 1 < argc := by
        rw [List.length_cons] at hlength
        rw [BitVec.lt_def, hindex]
        omega
      have hget : argv[context.optIndex.toNat + 1]? = some next := by
        have hget := congrArg (·[1]?) h.drop
        simpa using hget
      obtain ⟨hdash, -⟩ := String16.chars_of_beginsWithDash (hnext next rfl)
      simp only [if_pos hlt, hindex, hget, hdash, not_true_eq_false, if_false]

end

/-! ## whole command lines -/

section

variable {argc : UINT64} {argv : List String16} {optionsWithArgs : Option String16}
  {context : GetOptContext}

/-- One option: the report takes one or two words, and goes with the split of the rest. -/
theorem getOpt_step (optionsWithArgs : Option String16) {word : String16} {words : List String16}
    {opt : CHAR16} {text : List CHAR16} (h : At argc argv context.optIndex word words)
    (hword : word.chars = DASH :: opt :: text) :
    ∃ report skipCount, getOpt argc argv optionsWithArgs context = some (EFI_SUCCESS, report) ∧
      report.optIndex = context.optIndex + skipCount ∧
      0 < skipCount.toNat ∧ skipCount.toNat ≤ words.length + 1 ∧
      ∀ roles reports k, Splits optionsWithArgs (context.optIndex.toNat + skipCount.toNat)
        ((word :: words).drop skipCount.toNat) roles reports k →
        ∃ roles, Splits optionsWithArgs context.optIndex.toNat (word :: words) roles
          (report :: reports) k := by
  have hone : (1 : UINT64).toNat = 1 := rfl
  have htwo : (2 : UINT64).toNat = 2 := rfl
  by_cases hopt : TakesArgument optionsWithArgs opt
  · cases text with
    | cons t text =>
        have hget := getOpt_option h hword (fun _ => getOptArg_attached h hword) (absurd hopt)
        exact ⟨_, 1, hget, rfl, by decide, by rw [hone]; omega,
          fun _ _ _ hrest => ⟨_, .attached hword hopt rfl rfl hrest⟩⟩
    | nil =>
        have hmissing (hnext : ∀ next ∈ words.head?, next.beginsWithDash = true) :=
          getOpt_option h hword (fun _ => getOptArg_missing h hword hnext) (absurd hopt)
        cases words with
        | nil =>
            exact ⟨_, 1, hmissing nofun, rfl, by decide, by decide,
              fun _ _ _ hrest => ⟨_, .missing hword hopt nofun rfl rfl hrest⟩⟩
        | cons next words =>
            cases hnext : next.beginsWithDash with
            | false =>
                have hget := getOpt_option h hword
                  (fun _ => getOptArg_separate h hword hnext) (absurd hopt)
                exact ⟨_, 2, hget, rfl, by decide, by rw [htwo, List.length_cons]; omega,
                  fun _ _ _ hrest => ⟨_, .separate hword hopt hnext rfl rfl hrest⟩⟩
            | true =>
                have hnext : ∀ other ∈ (next :: words).head?, other.beginsWithDash = true := by
                  simpa using hnext
                exact ⟨_, 1, hmissing hnext, rfl, by decide, by rw [hone]; omega,
                  fun _ _ _ hrest => ⟨_, .missing hword hopt hnext rfl rfl hrest⟩⟩
  · have hget := getOpt_option h hword (fun htakes => absurd htakes hopt) fun _ => ⟨rfl, rfl⟩
    exact ⟨_, 1, hget, rfl, by decide, by rw [hone]; omega,
      fun _ _ _ hrest => ⟨_, .flag hword hopt rfl hrest⟩⟩

/-- The calls that `GetOpt` still takes split the words that are left. -/
def LoopSplits (argc : UINT64) (argv : List String16) (optionsWithArgs : Option String16) (n : Nat)
    (context : GetOptContext) : Prop :=
  ∃ roles reports last, getOptLoop argc argv optionsWithArgs n context = some (reports, last) ∧
    last.optIndex ≤ argc ∧
    Splits optionsWithArgs context.optIndex.toNat (argv.drop context.optIndex.toNat) roles reports
      last.optIndex.toNat

/-- An option is reported, and the rest is split. -/
theorem getOptLoop_option {n : Nat} {report : GetOptContext} {reports : List GetOptContext}
    {last : GetOptContext}
    (hget : getOpt argc argv optionsWithArgs context = some (EFI_SUCCESS, report))
    (hrest : getOptLoop argc argv optionsWithArgs n report = some (reports, last)) :
    getOptLoop argc argv optionsWithArgs (n + 1) context = some (report :: reports, last) := by
  simp only [getOptLoop, hget, hrest, bind, Option.bind, if_true]

theorem getOptLoop_end {n : Nat} {last : GetOptContext}
    (hget : getOpt argc argv optionsWithArgs context = some (EFI_END_OF_MEDIA, last)) :
    getOptLoop argc argv optionsWithArgs (n + 1) context = some ([], last) := by
  simp only [getOptLoop, hget, bind, Option.bind,
    if_neg (show EFI_END_OF_MEDIA ≠ EFI_SUCCESS by decide)]

/-- Each call that reports an option moves on by a word at least. -/
theorem loopSplits (optionsWithArgs : Option String16) (context : GetOptContext)
    (hlength : argv.length = argc.toNat) (n : Nat) (hindex : context.optIndex ≤ argc)
    (hn : argc.toNat < context.optIndex.toNat + n) :
    LoopSplits argc argv optionsWithArgs n context := by
  induction n generalizing context with
  | zero =>
      rw [BitVec.le_def] at hindex
      omega
  | succ n ih =>
      cases hdrop : argv.drop context.optIndex.toNat with
      | nil =>
          have hge : context.optIndex ≥ argc := by
            rw [List.drop_eq_nil_iff] at hdrop
            rw [ge_iff_le, BitVec.le_def]
            omega
          have hget : getOpt argc argv optionsWithArgs context = some (EFI_END_OF_MEDIA, context) :=
            if_pos hge
          refine ⟨[], [], context, getOptLoop_end hget, hindex, ?_⟩
          rw [hdrop]
          exact .nil
      | cons word words =>
          have h : At argc argv context.optIndex word words := ⟨hlength, hdrop⟩
          have hlt := h.index_lt
          rw [LoopSplits, hdrop]
          cases hdash : word.beginsWithDash with
          | false =>
              exact ⟨_, [], context, getOptLoop_end (getOpt_operand h hdash), hindex,
                .operands hdash⟩
          | true =>
              rcases (String16.chars_of_beginsWithDash hdash).2 with hword | ⟨opt, text, hword⟩
              · have hnext : (context.optIndex + 1).toNat = context.optIndex.toNat + 1 :=
                  h.toNat_add 1 (by simp)
                refine ⟨.dash :: .replicate words.length .operand, [],
                  { context with optIndex := context.optIndex + 1 },
                  getOptLoop_end (getOpt_dash h hword), ?_, ?_⟩
                · rw [BitVec.le_def, hnext]
                  omega
                · show Splits _ _ _ _ _ (context.optIndex + 1).toNat
                  rw [hnext]
                  exact .dash hword
              · obtain ⟨report, skipCount, hget, hreport, hpos, hskip, hsplit⟩ :=
                  getOpt_step optionsWithArgs h hword
                have hnext := h.toNat_add skipCount hskip
                have hloop := ih report (by rw [hreport, BitVec.le_def, hnext]; omega)
                  (by rw [hreport, hnext]; omega)
                rw [LoopSplits, hreport, h.drop_add skipCount hskip, hnext] at hloop
                obtain ⟨roles, reports, last, hrest, hlast, hsplits⟩ := hloop
                obtain ⟨roles, hsplits⟩ := hsplit _ _ _ hsplits
                exact ⟨roles, report :: reports, last, getOptLoop_option hget hrest, hlast, hsplits⟩

end

/-- For every command line and every option string, at most `Argc` calls of `GetOpt`
parse the words after the first, and read nothing but them: every word has one
role, at most one is the lone dash, and the operands start at `OptIndex`. -/
theorem getOpt_splits (argc : UINT64) (argv : List String16) (optionsWithArgs : Option String16)
    (hargc : 1 ≤ argc) (hlength : argv.length = argc.toNat) :
    ∃ roles reports last,
      getOptLoop argc argv optionsWithArgs argc.toNat initGetOptContext = some (reports, last) ∧
      last.optIndex ≤ argc ∧
      Splits optionsWithArgs 1 (argv.drop 1) roles reports last.optIndex.toNat ∧
      roles.length = argc.toNat - 1 ∧ roles.count .dash ≤ 1 ∧
      ∀ j, roles[j]? = some .operand ↔ last.optIndex.toNat ≤ j + 1 ∧ j + 1 < argc.toNat := by
  obtain ⟨roles, reports, last, hloop, hlast, hsplits⟩ :=
    loopSplits optionsWithArgs initGetOptContext hlength argc.toNat hargc
      (show _ < 1 + _ by omega)
  have hsplits : Splits optionsWithArgs 1 (argv.drop 1) roles reports last.optIndex.toNat := hsplits
  refine ⟨roles, reports, last, hloop, hlast, hsplits, ?_, hsplits.count_dash_le, fun j => ?_⟩
  · rw [hsplits.length_roles, List.length_drop, hlength]
  · rw [hsplits.operand_iff, List.length_drop, hlength]
    omega

theorem x_nonzero : ∀ c ∈ [(0x78 : CHAR16)], c ≠ 0 := by simp

theorem dashP_nonzero : ∀ c ∈ [DASH, 0x70], c ≠ 0 := by simp [DASH]

/-- `x -p y - z`. -/
def dashedWords : List String16 :=
  [⟨[0x78], x_nonzero⟩, ⟨[DASH, 0x70], dashP_nonzero⟩, ⟨[0x79], by simp⟩, ⟨[DASH], by simp [DASH]⟩,
    ⟨[0x7a], by simp⟩]

/-- The option `-p` takes the word after it. -/
def optionsOfP : Option String16 := some ⟨[0x70], by simp⟩

theorem getOpt_splits_dashedWords :
    ∃ roles reports last,
      getOptLoop 5 dashedWords optionsOfP 5 initGetOptContext = some (reports, last) ∧
      last.optIndex ≤ 5 ∧ Splits optionsOfP 1
        (dashedWords.drop 1) roles reports last.optIndex.toNat ∧
      roles.length = 4 ∧ roles.count .dash ≤ 1 ∧
      ∀ j, roles[j]? = some .operand ↔ last.optIndex.toNat ≤ j + 1 ∧ j + 1 < 5 :=
  getOpt_splits 5 dashedWords optionsOfP (by decide) rfl

example : getOptLoop 5 dashedWords optionsOfP 5 initGetOptContext =
    some ([⟨0x70, some ⟨2, 0⟩, 3⟩], ⟨0x70, some ⟨2, 0⟩, 4⟩) := by decide

end MultiArchUefi
