import MultiArchUefi.CallStack

/-!
# MultiArchUefi.OrphanTransparency

A build that checks for orphan contexts against one that does not.

Both implement calls that nest, so nothing native or emulated code can see
tells them apart, until an orphan is dropped that somebody needs:
`CpuFreeOrphanContexts` does not give the engine back what the orphan had saved
for the context below it.
-/

namespace MultiArchUefi

open Transition

/-- The build with, or without, `MAU_CHECK_ORPHAN_CONTEXTS`. -/
def Config.withOrphanCheck (check : Bool) (cfg : Config) : Config :=
  { cfg with checkOrphanContexts := check }

/-- Calls that nest know nothing of orphans. -/
theorem callStack_step_withOrphanCheck (check : Bool) (cfg : Config) :
    CallStack.step (cfg.withOrphanCheck check) = CallStack.step cfg := by
  funext c action
  cases action <;> rfl

/-- When no orphan that is dropped is still needed, everything the clients of
the driver see is the same in both builds: the native calls with their
arguments, the registers emulated code is resumed with, the values returned to
native code, and what can happen next. -/
theorem sameCalls_of_run (cfg : Config) (p : Platform) (actions : List Action) (sys sys' : System)
    (h : Run (step (cfg.withOrphanCheck false)) (Benign (cfg.withOrphanCheck false))
      (initial p) actions sys)
    (h' : Run (step (cfg.withOrphanCheck true)) (Benign (cfg.withOrphanCheck true))
      (initial p) actions sys') :
    sys.trace = sys'.trace ∧ sys.calls = sys'.calls ∧
      ∀ action, Benign (cfg.withOrphanCheck false) sys action →
        Benign (cfg.withOrphanCheck true) sys' action →
        (step (cfg.withOrphanCheck false) sys action).map System.calls =
          (step (cfg.withOrphanCheck true) sys' action).map System.calls := by
  have hrun := calls_of_run h
  have hrun' := calls_of_run h'
  rw [callStack_step_withOrphanCheck] at hrun hrun'
  have hcalls : sys.calls = sys'.calls := hrun.unique hrun'
  refine ⟨congrArg CallStack.trace hcalls, hcalls, fun action hbenign hbenign' => ?_⟩
  obtain ⟨chain, hs⟩ := sound_of_run (h.mono fun _ _ hb => hb.1)
  obtain ⟨chain', hs'⟩ := sound_of_run (h'.mono fun _ _ hb => hb.1)
  rw [calls_step hs hbenign, calls_step hs' hbenign', callStack_step_withOrphanCheck,
    callStack_step_withOrphanCheck, hcalls]

/-- An orphan that nobody needs is dropped, and then the new function fails. -/
theorem sameCalls_of_run_orphanOf :
    ∃ sys sys', Run (step riscvConfig) (Benign riscvConfig) (initial examplePlatform)
        (orphanOf .x64 ++ [.emulate (fun _ => 0) ⟨fun _ => 0, []⟩ (.other 10)]) sys ∧
      Run (step orphanConfig) (Benign orphanConfig) (initial examplePlatform)
        (orphanOf .x64 ++ [.emulate (fun _ => 0) ⟨fun _ => 0, []⟩ (.other 10)]) sys' ∧
      sys.emu.chain ≠ sys'.emu.chain ∧ sys.trace = sys'.trace := by
  obtain ⟨sys, sys', hexec, hexec', hchain, hchain'⟩ : ∃ sys sys',
      exec (step riscvConfig) (Benign riscvConfig) (initial examplePlatform)
        (orphanOf .x64 ++ [.emulate (fun _ => 0) ⟨fun _ => 0, []⟩ (.other 10)]) = some sys ∧
      exec (step orphanConfig) (Benign orphanConfig) (initial examplePlatform)
        (orphanOf .x64 ++ [.emulate (fun _ => 0) ⟨fun _ => 0, []⟩ (.other 10)]) = some sys' ∧
      sys.emu.chain = [⟨.x64, 0⟩] ∧ sys'.emu.chain = [] :=
    ⟨_, _, rfl, rfl, rfl, rfl⟩
  refine ⟨sys, sys', .of_exec hexec, .of_exec hexec', ?_,
    (sameCalls_of_run riscvConfig examplePlatform _ sys sys' (.of_exec hexec) (.of_exec hexec')).1⟩
  rw [hchain, hchain']
  exact List.cons_ne_nil _ _

/-- The registers with which an x64 function whose stack pointer is `rsp` calls native code. -/
def callingFrom (rsp : UINT64) : RegFile := Function.update (fun _ => rsp) .rip 0x90000000

/-- Native code called by an x64 function runs another one, jumps out of a
native call of that, runs a third one from a frame between the two, and returns
when that has failed. -/
def jumpAndCall : List Action :=
  [.runFunc .x64 0x10400 (fun _ => 0) 100,
    .emulate (callingFrom 0x70080000) ⟨fun _ => 0, []⟩ .findTb,
    .runFunc .x64 0x10800 (fun _ => 0) 90,
    .emulate (callingFrom 0x70070000) ⟨fun _ => 0, []⟩ .findTb,
    .longJump 2,
    .runFunc .x64 0x10c00 (fun _ => 0) 95,
    .emulate (fun _ => 0) ⟨fun _ => 0, []⟩ (.other 10),
    .ret 7]

/-- The second function's context holds the first one's registers when it is
dropped: the first function goes on with the registers of the second. -/
theorem neededOrphan_dropped :
    ∃ sys sys', Run (step riscvConfig)
      (fun sys action => Roomy sys action ∧ NoExit riscvConfig sys action)
        (initial examplePlatform) jumpAndCall sys ∧
      Run (step orphanConfig) (fun sys action => Roomy sys action ∧ NoExit orphanConfig sys action)
        (initial examplePlatform) jumpAndCall sys' ∧
      sys.trace.head? = some (.resumed 1 (callingFrom 0x70080000)) ∧
      sys'.trace.head? = some (.resumed 1 (callingFrom 0x70070000)) ∧ sys.trace ≠ sys'.trace := by
  obtain ⟨sys, sys', hexec, hexec', htrace, htrace'⟩ : ∃ sys sys',
      exec (step riscvConfig) (fun sys action => Roomy sys action ∧ NoExit riscvConfig sys action)
        (initial examplePlatform) jumpAndCall = some sys ∧
      exec (step orphanConfig) (fun sys action => Roomy sys action ∧ NoExit orphanConfig sys action)
        (initial examplePlatform) jumpAndCall = some sys' ∧
      sys.trace.head? = some (.resumed 1 (callingFrom 0x70080000)) ∧
      sys'.trace.head? = some (.resumed 1 (callingFrom 0x70070000)) :=
    ⟨_, _, rfl, rfl, rfl, rfl⟩
  refine ⟨sys, sys', .of_exec hexec, .of_exec hexec', htrace, htrace', fun heq => ?_⟩
  rw [heq, htrace'] at htrace
  have hregs : callingFrom 0x70070000 .rsp = callingFrom 0x70080000 .rsp := by
    injection htrace with h
    injection h with _ hr
    rw [hr]
  exact absurd hregs (by decide)

end MultiArchUefi
