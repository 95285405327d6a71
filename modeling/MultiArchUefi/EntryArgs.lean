import MultiArchUefi.EntryFrame
import MultiArchUefi.System

/-!
# MultiArchUefi.EntryArgs

The `Args` arrays that C code passes to `CpuRunCtx`.  Whoever starts emulated code
builds an array of its own, and the thunks read a fixed number of words from it,
whatever its length; the words past its end are whatever lies behind it on the
native stack.
-/

namespace MultiArchUefi

/-! ## what is read -/

/-- The indices of `Args` that `EmuThunkPre` reads, in its order. -/
def emuThunkPreReads : CpuId → List Nat
  | .x64 => [0, 1, 2, 3] ++ (List.range (MAX_ARGS - 4)).map fun index => (MAX_ARGS - 1) - index
  | .aarch64 => [0, 1, 2, 3, 4, 5, 6, 7] ++
      (List.range (MAX_ARGS - 8)).map fun index => (MAX_ARGS - 1) - index

/-- The indices of `Args` that `EmuThunkPost` compares with what it pops. -/
def emuThunkPostReads : CpuId → List Nat
  | .x64 => List.range' 4 (MAX_ARGS - 4)
  | .aarch64 => List.range' 8 (MAX_ARGS - 8)

/-- The indices of `Args` that `CpuRunCtxInternal` traces. -/
def traceReads : List Nat := List.range 9

/-- All indices of `Args` that are read for one call on the engine. -/
def argReads (cpu : CpuId) : List Nat := traceReads ++ emuThunkPreReads cpu ++ emuThunkPostReads cpu

/-- `EmuThunkPre` reads every word up to `MAX_ARGS`, and none from there on. -/
theorem mem_emuThunkPreReads {cpu : CpuId} {i : Nat} : i ∈ emuThunkPreReads cpu ↔ i < MAX_ARGS := by
  constructor
  · intro h
    cases cpu <;> simp [emuThunkPreReads, MAX_ARGS] at h ⊢ <;> omega
  · intro h
    have hall : ∀ cpu, ∀ i < MAX_ARGS, i ∈ emuThunkPreReads cpu := by
      intro cpu
      cases cpu <;> decide
    exact hall cpu i h

theorem lt_of_mem_argReads {cpu : CpuId} {i : Nat} (h : i ∈ argReads cpu) : i < MAX_ARGS := by
  rcases List.mem_append.mp h with h | h
  · rcases List.mem_append.mp h with h | h
    · exact Nat.lt_trans (List.mem_range.mp h) (by decide)
    · exact mem_emuThunkPreReads.mp h
  · cases cpu <;> simp [emuThunkPostReads, MAX_ARGS, List.mem_range'_1] at h ⊢ <;> omega

/-! ## what is passed -/

/-- The C code that starts emulated code. -/
inductive Caller where
  | cpuRunImage (imageHandle systemTable : UINT64)
  | testWrappedCb (args : Fin 16 → UINT64)
  | efiWrappersEventNotify (event notifyContext : UINT64)

namespace Caller

/-- The array `Args` of the caller. -/
def array : Caller → List UINT64
  | cpuRunImage imageHandle systemTable =>
      [imageHandle, systemTable] ++ List.replicate (MAX_ARGS - 2) 0
  | testWrappedCb args => List.ofFn args
  | efiWrappersEventNotify event notifyContext => [event, notifyContext]

/-- What is found at `Args`, when `beyond` lies behind the array. -/
def passed (caller : Caller) (beyond : Nat → UINT64) : Args := fun i =>
  caller.array[i.val]?.getD (beyond i.val)

/-- `CpuRunImage` passes the image its handle and the system table. -/
theorem passed_cpuRunImage (imageHandle systemTable : UINT64) (beyond : Nat → UINT64) :
    (cpuRunImage imageHandle systemTable).passed beyond =
      System.imageArgs imageHandle systemTable := by
  funext i
  fin_cases i <;> rfl

theorem passed_testWrappedCb (args : Fin 16 → UINT64) (beyond : Nat → UINT64) :
    (testWrappedCb args).passed beyond = args := by
  funext i
  rw [passed, array, List.getElem?_ofFn, dif_pos i.isLt, Option.getD_some]

end Caller

/-- Nothing but the caller's array is read, and what the emulated function is
entered with does not depend on what lies behind it. -/
structure DependsOnArgs (caller : Caller) : Prop where
  inside : ∀ cpu, ∀ i ∈ argReads cpu, i < caller.array.length
  entry : ∀ magic cpu e beyond beyond',
    emuThunkPre magic cpu (caller.passed beyond) e = emuThunkPre magic cpu (caller.passed beyond') e

/-- The caller is `CpuRunImage` or `TestWrappedCb`. -/
def Caller.PassesAll : Caller → Prop
  | cpuRunImage _ _ => True
  | testWrappedCb _ => True
  | efiWrappersEventNotify _ _ => False

/-- An array of `MAX_ARGS` words is all that is ever read. -/
theorem dependsOnArgs_of_length {caller : Caller} (h : caller.array.length = MAX_ARGS) :
    DependsOnArgs caller := by
  have hpassed : ∀ beyond beyond', caller.passed beyond = caller.passed beyond' :=
    fun beyond beyond' => by
    funext i
    have hi : i.val < caller.array.length := by rw [h]; exact i.isLt
    simp [Caller.passed, List.getElem?_eq_getElem hi]
  exact ⟨fun cpu i hi => h ▸ lt_of_mem_argReads hi, fun magic cpu e beyond beyond' => by
    rw [hpassed beyond beyond']⟩

/-- Two words are less than what is read, and the third one is an argument. -/
theorem not_dependsOnArgs_efiWrappersEventNotify (event notifyContext : UINT64) :
    ¬ DependsOnArgs (.efiWrappersEventNotify event notifyContext) := fun h =>
  absurd (h.inside .x64 2 (by decide)) (Nat.lt_irrefl 2)

/-- Emulated entry depends on the arguments alone for the callers that pass
`MAX_ARGS` of them. -/
theorem dependsOnArgs_iff (caller : Caller) : DependsOnArgs caller ↔ caller.PassesAll := by
  cases caller with
  | cpuRunImage imageHandle systemTable => exact iff_of_true (dependsOnArgs_of_length rfl) trivial
  | testWrappedCb args => exact iff_of_true (dependsOnArgs_of_length (List.length_ofFn ..)) trivial
  | efiWrappersEventNotify event notifyContext =>
      exact iff_of_false (not_dependsOnArgs_efiWrappersEventNotify event notifyContext) id

/-- An event's notification function is entered with a third argument that its
caller does not pass. -/
theorem eventNotify_reads_beyond : ¬ DependsOnArgs (.efiWrappersEventNotify 1 2) := by
  intro h
  have heq := h.entry 0 .x64 ⟨fun _ => 0, ⟨fun _ => 0, []⟩⟩ (fun _ => 0) (fun _ => 1)
  have hr8 := congrArg (fun e : Engine => e.regs .r8) heq
  simp only [emuThunkPre_eq] at hr8
  exact absurd hr8 (by decide)

end MultiArchUefi
