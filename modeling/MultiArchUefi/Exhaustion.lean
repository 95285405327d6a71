import MultiArchUefi.Accounting

/-!
# MultiArchUefi.Exhaustion

Calls of emulated code when all contexts of the engine's pool are allocated.
`CpuRunFunc` tests what `CpuAllocContext` returns; `CpuRunImage` prints
`Context->Cpu` before it does.
-/

namespace MultiArchUefi

open Chain Transition

/-- The call returns `EFI_OUT_OF_RESOURCES`, has not dereferenced a `NULL` context,
and has left the pools, the chain, the counters, the records and the engines'
registers as they were. -/
structure FailsCleanly (sys sys' : System) : Prop where
  returned : sys'.trace = .returned sys.nextId EFI_OUT_OF_RESOURCES :: sys.trace
  stack : sys'.stack = sys.stack
  dereferences : sys'.emu.failedAsserts.count .contextNotNull =
    sys.emu.failedAsserts.count .contextNotNull
  runContextAlloc : sys'.emu.runContextAlloc = sys.emu.runContextAlloc
  mTopContext : sys'.emu.mTopContext = sys.emu.mTopContext
  context : sys'.emu.context = sys.emu.context
  contexts : sys'.emu.contexts = sys.emu.contexts
  images : sys'.emu.images = sys.emu.images
  ue : sys'.emu.ue = sys.emu.ue

/-- The action is a call of `CpuRunFunc`. -/
def Action.isRunFunc : Action → Bool
  | .runFunc _ _ _ _ => true
  | _ => false

variable {cfg : Config} {sys : System}

theorem cpuAllocContext_of_nil {cpu : CpuId} {s : State} (h : s.runContextAlloc cpu = []) :
    cpuAllocContext cpu s = none := by
  simp only [cpuAllocContext, h]

/-- `CpuRunFunc` fails cleanly. -/
theorem cpuRunFunc_of_exhausted {cpu : CpuId} (h : sys.emu.runContextAlloc cpu = [])
    (programCounter : UINT64) (args : Args) (fp : Nat) :
    ∃ sys', sys.cpuRunFunc cfg cpu programCounter args fp = some sys' ∧ FailsCleanly sys sys' := by
  refine ⟨_, by rw [System.cpuRunFunc, cpuAllocContext_of_nil h], ?_⟩
  exact ⟨rfl, rfl, rfl, rfl, rfl, rfl, rfl, rfl, rfl⟩

/-- `CpuRunImage` returns as well, but dereferences `NULL` first. -/
theorem cpuRunImage_of_exhausted (cfg : Config) {imageBase : UINT64} {record : RecordId}
    (hrecord : imageFindByAddress sys.emu.images imageBase = some record)
    (h : sys.emu.runContextAlloc (sys.emu.images.record record).cpu = [])
    (imageHandle systemTable : UINT64) (fp : Nat) :
    ∃ sys', sys.cpuRunImage cfg imageHandle systemTable (.ok imageBase) fp = some sys' ∧
      sys'.emu.failedAsserts = .contextNotNull :: sys.emu.failedAsserts := by
  have hrun : sys.cpuRunImage cfg imageHandle systemTable (.ok imageBase) fp =
      some (System.returned
        { sys with emu := sys.emu.assert .contextNotNull False } EFI_OUT_OF_RESOURCES) := by
    simp only [System.cpuRunImage, hrecord, cpuAllocContext_of_nil h]
  exact ⟨_, hrun, rfl⟩

/-- The call that the action makes fails cleanly. -/
def CleanlyExhausted (cfg : Config) (sys : System) (action : Action) : Prop :=
  ∃ sys', step cfg sys action = some sys' ∧ FailsCleanly sys sys'

/-- With an empty pool, native code's calls of emulated code fail cleanly exactly
if they are calls of `CpuRunFunc`. -/
theorem cleanlyExhausted_iff {id fp : Nat} {rest : List Frame} {cpu : CpuId} {action : Action}
    (hstack : sys.stack = .native id :: rest) (hfp : fpFits fp sys.stack = true)
    (hcallee : action.callee sys = some (cpu, fp)) (hpool : sys.emu.runContextAlloc cpu = []) :
    CleanlyExhausted cfg sys action ↔ action.isRunFunc = true := by
  unfold CleanlyExhausted
  cases action with
  | runFunc cpu' programCounter args fp' =>
      obtain ⟨rfl, rfl⟩ := Prod.mk.inj (Option.some.inj hcallee)
      refine iff_of_true ?_ rfl
      simp only [step, hstack]
      rw [← hstack, if_pos hfp]
      exact cpuRunFunc_of_exhausted hpool programCounter args fp'
  | runImage imageHandle systemTable loadedImage fp' =>
      refine iff_of_false ?_ Bool.false_ne_true
      cases loadedImage with
      | error status => cases hcallee
      | ok imageBase =>
          obtain ⟨record, hrecord, heq⟩ := Option.map_eq_some_iff.mp hcallee
          obtain ⟨rfl, rfl⟩ := Prod.mk.inj heq
          obtain ⟨sys₁, hrun, hasserts⟩ := cpuRunImage_of_exhausted cfg hrecord hpool imageHandle
            systemTable fp'
          rintro ⟨sys', hstep, hclean⟩
          simp only [step, hstack] at hstep
          rw [← hstack, if_pos hfp, hrun] at hstep
          obtain rfl := Option.some.inj hstep
          have hcount := hclean.dereferences
          rw [hasserts, List.count_cons_self] at hcount
          omega
  | emulate regs memory ucErr => cases hcallee
  | store memory => cases hcallee
  | ret value => cases hcallee
  | longJump id => cases hcallee

/-! ## a slow leak -/

/-- A function is called, calls native code, and never gets control back. -/
def leak : List Action :=
  [.runFunc .x64 0x10400 (fun _ => 0) 100, callOut .x64, .longJump 0]

/-- As many leaks as there are contexts. -/
def leakAll : List Action := (List.replicate examplePlatform.runContexts leak).flatten

/-- The native function that is running. -/
def System.running? (sys : System) : Option Nat :=
  match sys.stack with
  | .native id :: _ => some id
  | _ => none

theorem System.stack_of_running {id : Nat} (h : sys.running? = some id) :
    ∃ rest, sys.stack = .native id :: rest := by
  unfold System.running? at h
  split at h
  · rename_i id' rest hstack
    obtain rfl := Option.some.inj h
    exact ⟨rest, hstack⟩
  · cases h

/-- After the leaks the firmware finds the pool of the x64 engine empty. -/
theorem exhausted_of_leakAll :
    ∃ sys rest, Run (step riscvConfig) (fun _ _ => True) (initial examplePlatform) leakAll sys ∧
      sys.stack = .native 0 :: rest ∧ fpFits 100 sys.stack = true ∧
      (Action.runImage 1 0 (.ok 0x10000) 100).callee sys = some (.x64, 100) ∧
      sys.emu.runContextAlloc .x64 = [] := by
  have hvalues : (exec (step riscvConfig) (fun _ _ => True) (initial examplePlatform) leakAll).map
      (fun sys => (sys.running?, fpFits 100 sys.stack,
        (Action.runImage 1 0 (.ok 0x10000) 100).callee sys, sys.emu.runContextAlloc .x64)) = some
        (some 0, true, some (.x64, 100), []) := by
    decide +kernel
  obtain ⟨sys, hsys, heq⟩ := Option.map_eq_some_iff.mp hvalues
  simp only [Prod.mk.injEq] at heq
  obtain ⟨hrunning, hfp, himage, hpool⟩ := heq
  obtain ⟨rest, hstack⟩ := System.stack_of_running hrunning
  exact ⟨sys, rest, .of_exec hsys, hstack, hfp, himage, hpool⟩

/-- Another function call fails cleanly then. -/
theorem cleanlyExhausted_runFunc_of_leakAll :
    ∃ sys, Run (step riscvConfig) (fun _ _ => True) (initial examplePlatform) leakAll sys ∧
      CleanlyExhausted riscvConfig sys (.runFunc .x64 0x10400 (fun _ => 0) 100) := by
  obtain ⟨sys, rest, hrun, hstack, hfp, -, hpool⟩ := exhausted_of_leakAll
  exact ⟨sys, hrun, (cleanlyExhausted_iff hstack hfp rfl hpool).mpr rfl⟩

/-- Starting an image does not. -/
theorem runImage_of_leakAll_dereferences :
    ∃ sys, Run (step riscvConfig) (fun _ _ => True) (initial examplePlatform) leakAll sys ∧
      sys.emu.runContextAlloc .x64 = [] ∧
      ¬ CleanlyExhausted riscvConfig sys (.runImage 1 0 (.ok 0x10000) 100) := by
  obtain ⟨sys, rest, hrun, hstack, hfp, hcallee, hpool⟩ := exhausted_of_leakAll
  refine ⟨sys, hrun, hpool, fun ⟨sys', hstep, hclean⟩ => ?_⟩
  obtain ⟨record, hrecord, heq⟩ := Option.map_eq_some_iff.mp hcallee
  have hcpu : (sys.emu.images.record record).cpu = .x64 := congrArg Prod.fst heq
  obtain ⟨sys₁, himage, hasserts⟩ :=
    cpuRunImage_of_exhausted riscvConfig hrecord (hcpu ▸ hpool) 1 0 100
  simp only [step, hstack] at hstep
  rw [← hstack, if_pos hfp, himage] at hstep
  obtain rfl := Option.some.inj hstep
  have hcount := hclean.dereferences
  rw [hasserts, List.count_cons_self] at hcount
  omega

end MultiArchUefi
