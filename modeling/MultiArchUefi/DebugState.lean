import MultiArchUefi.Accounting
import MultiArchUefi.ExitPeriod
import MultiArchUefi.LiveContexts

/-!
# MultiArchUefi.DebugState

What the driver tells about itself: `CpuGetDebugState` walks the chain from
`mTopContext`, and copies the counts that the engines keep.

The test application asserts that the contexts met on the way are as many as both
engines count.  They are, in every state that accountable steps reach, and as long
as no long jump leaves emulated code they are the calls on the native stack: the
report is what a walk over the stack itself would give.
-/

namespace MultiArchUefi

open Chain Transition

/-! ## the report -/

/-- `HOST_MACHINE_TYPE` -/
def Host.machineType : Host → UINT16
  | .aarch64 => 0xaa64
  | .riscv64 => 0x5064
  | .loongarch64 => 0x6264

def CpuId.emuMachineType : CpuId → UINT16
  | .x64 => 0x8664
  | .aarch64 => 0xaa64

/-- `EMU_TEST_DEBUG_STATE` -/
structure EmuTestDebugState where
  hostMachineType : UINT16
  callerMachineType : UINT16
  contextCount : UINT64
  exitPeriodMs : UINT64
  x64ExitPeriodTicks : UINT64
  x64ExitPeriodTbs : UINT64
  x64ContextCount : UINT64
  aArch64ExitPeriodTicks : UINT64
  aArch64ExitPeriodTbs : UINT64
  aArch64ContextCount : UINT64

/-- The count that an engine keeps. -/
def EmuTestDebugState.engineCount (d : EmuTestDebugState) : CpuId → UINT64
  | .x64 => d.x64ContextCount
  | .aarch64 => d.aArch64ContextCount

/-- The `while` loop, for at most `n` contexts. -/
def State.contextCount (s : State) : Nat → Option CtxId → UINT64 → Option UINT64
  | _, none, count => some count
  | 0, some _, _ => none
  | n + 1, some context, count => s.contextCount n (s.next context) (count + 1)

/-- What is stored once the contexts are counted.  Without exit timers the build is one with
`MAU_EMU_TIMEOUT_NONE`. -/
def State.debugState (cfg : Config) (exitTimers : Option (CpuId → ExitTimer))
    (contextCount : UINT64) (s : State) :
    EmuTestDebugState where
  hostMachineType := cfg.host.machineType
  callerMachineType :=
    match s.mTopContext with
    | some context => context.cpu.emuMachineType
    | none => cfg.host.machineType
  contextCount := contextCount
  exitPeriodMs := exitTimers.elim 0 fun _ => UC_EMU_EXIT_PERIOD_MS
  x64ExitPeriodTicks := exitTimers.elim 0 fun timers => (timers .x64).exitPeriodTicks
  x64ExitPeriodTbs := exitTimers.elim 0 fun timers => (timers .x64).exitPeriodTbs
  x64ContextCount := BitVec.ofInt 64 (s.contexts .x64)
  aArch64ExitPeriodTicks := exitTimers.elim 0 fun timers => (timers .aarch64).exitPeriodTicks
  aArch64ExitPeriodTbs := exitTimers.elim 0 fun timers => (timers .aarch64).exitPeriodTbs
  aArch64ContextCount := BitVec.ofInt 64 (s.contexts .aarch64)

/-- `CpuGetDebugState`, when the loop ends after at most `n` contexts. -/
def cpuGetDebugState (cfg : Config) (exitTimers : Option (CpuId → ExitTimer))
    (n : Nat) (s : State) :
    Option (EmuTestDebugState × State) := do
  let s := s.criticalBegin
  let contextCount ← s.contextCount n s.mTopContext 0
  some (s.debugState cfg exitTimers contextCount, s.criticalEnd)

/-! ## the loop -/

/-- On a chain that ends the loop counts its contexts. -/
theorem contextCount_of_seg {s : State} {l : List CtxId} {p : Option CtxId} {n : Nat}
    (hseg : Seg s.next p l none) (hn : l.length ≤ n) (count : UINT64) :
    s.contextCount n p count = some (count + BitVec.ofNat 64 l.length) := by
  induction l generalizing p n count with
  | nil =>
      obtain rfl := seg_nil.mp hseg
      cases n <;> simp [State.contextCount]
  | cons k l ih =>
      obtain ⟨rfl, hseg⟩ := hseg
      obtain ⟨n, rfl⟩ : ∃ n', n = n' + 1 := ⟨n - 1, by simp only [List.length_cons] at hn; omega⟩
      rw [State.contextCount, ih hseg (by simpa using hn), List.length_cons]
      congr 1
      bv_omega

/-- A section with nothing but reads in it. -/
theorem criticalEnd_criticalBegin_state (s : State) :
    s.criticalBegin.criticalEnd =
      { s with interrupts := criticalEnd (criticalBegin s.interrupts) } := by
  have hopen : CriticalEndAssert s.criticalBegin.interrupts := by
    simp [CriticalEndAssert, State.criticalBegin, criticalBegin_eq]
  rw [State.criticalEnd, State.assert_of hopen]
  rfl

/-! ## what is reported -/

/-- The report is about these contexts, the newest one first. -/
structure Reports (cfg : Config) (d : EmuTestDebugState) (l : List CtxId) : Prop where
  contextCount : d.contextCount.toNat = l.length
  engineCount : ∀ cpu, (d.engineCount cpu).toNat = l.countP fun k => k.cpu = cpu
  callerMachineType : d.callerMachineType =
    (l.head?.map fun k => k.cpu.emuMachineType).getD cfg.host.machineType

/-- The counts are small enough to be counted in a `UINTN`. -/
theorem cpuGetDebugState_of_linked {s : State} {l : List CtxId} (cfg : Config)
    (exitTimers : Option (CpuId → ExitTimer)) (h : Linked s l) :
    ∃ d, Reports cfg d l ∧ ∀ n, l.length ≤ n → cpuGetDebugState cfg exitTimers n s =
      some (d, { s with interrupts := criticalEnd (criticalBegin s.interrupts) }) := by
  have hfew : l.length < 2 ^ 64 := h.length_lt.trans (by decide)
  have hengine (cpu : CpuId) :
      (BitVec.ofInt 64 (s.contexts cpu)).toNat = l.countP fun k => k.cpu = cpu := by
    have hle : l.countP (fun k => k.cpu = cpu) ≤ l.length := List.countP_le_length
    rw [h.counted, BitVec.ofInt_natCast, BitVec.toNat_ofNat, Nat.mod_eq_of_lt (hle.trans_lt hfew)]
  have htop : s.mTopContext = ptr l none := h.seg.eq_ptr
  have hseg : Seg s.criticalBegin.next s.criticalBegin.mTopContext l none := h.seg
  refine ⟨s.criticalBegin.debugState cfg exitTimers (BitVec.ofNat 64 l.length),
    ⟨?_, fun cpu => ?_, ?_⟩, fun n hn => ?_⟩
  · simpa [State.debugState] using hfew
  · cases cpu with
    | x64 => exact hengine .x64
    | aarch64 => exact hengine .aarch64
  · cases l <;> simp [State.debugState, State.criticalBegin, htop]
  · have hcount : s.criticalBegin.contextCount n s.criticalBegin.mTopContext 0 = some
        (BitVec.ofNat 64 l.length) :=
      (contextCount_of_seg hseg hn 0).trans (congrArg some (BitVec.zero_add _))
    simp only [cpuGetDebugState, hcount, criticalEnd_criticalBegin_state]
    rfl

/-- Each call on the native stack has its context on the chain. -/
theorem Reports.activations_le {cfg : Config} {d : EmuTestDebugState} {s : State} {l : List CtxId}
    {acts : List Activation} (h : Reports cfg d l) (hlive : Live cfg s l acts) (cpu : CpuId) :
    acts.countP (fun a => a.context.cpu = cpu) ≤ (d.engineCount cpu).toNat := by
  rw [h.engineCount]
  have hle := hlive.sublist.countP_le (p := fun k => k.cpu = cpu)
  rwa [List.countP_map] at hle

/-- In every state that accountable steps reach, `CpuGetDebugState` comes to an end, changes
nothing but the interrupt bookkeeping, and reports as many contexts as both engines count,
which are at least those of the calls that have not returned.  When no long jump has left
emulated code, the report is that of the calls on the native stack. -/
theorem cpuGetDebugState_of_run (cfg : Config) (p : Platform) (actions : List Action) (sys : System)
    (exitTimers : Option (CpuId → ExitTimer))
    (h : Run (step cfg) (Accountable cfg) (initial p) actions sys) :
    ∃ d, (∀ n, 2 * RUN_CONTEXTS_LIMIT ≤ n → cpuGetDebugState cfg exitTimers n sys.emu =
        some (d, { sys.emu with interrupts := criticalEnd (criticalBegin sys.emu.interrupts) })) ∧
      d.contextCount = d.x64ContextCount + d.aArch64ContextCount ∧
      d.contextCount.toNat ≤ 2 * RUN_CONTEXTS_LIMIT ∧
      (∀ cpu, (activations sys.stack).countP (fun a => a.context.cpu = cpu) ≤
        (d.engineCount cpu).toNat) ∧
      (Run (step cfg) (fun sys action => LeavesActivations sys action ∧
        FinishesSwitched cfg sys action)
          (initial p) actions sys →
        Reports cfg d ((activations sys.stack).map (·.context))) := by
  obtain ⟨chain, hacc⟩ := accounted_of_run h
  have hchained : Chained sys.emu chain := hacc.chained
  have hlive : Live cfg sys.emu chain (activations sys.stack) := hacc.live
  obtain ⟨d, hreports, hreport⟩ := cpuGetDebugState_of_linked cfg exitTimers hchained.toLinked
  have hlength : chain.length < 2 * RUN_CONTEXTS_LIMIT + 1 := hchained.length_lt
  refine ⟨d, fun n hn => hreport n (by omega), ?_, ?_, hreports.activations_le hlive,
    fun hleaves => ?_⟩
  · have hsum : d.contextCount.toNat = d.x64ContextCount.toNat + d.aArch64ContextCount.toNat := by
      rw [hreports.contextCount,
        length_eq_countP_add chain, ← hreports.engineCount, ← hreports.engineCount]
      rfl
    bv_omega
  · rw [hreports.contextCount]
    omega
  · obtain ⟨chain', hsound, halive⟩ := hleaves.invariant
      (I := fun sys => ∃ chain, Sound cfg (sys.books chain) ∧ AllLive (sys.books chain))
      (fun _ _ _ hlive hC hstep => AllLive.step_of_sound hlive hC.1 hC.2 hstep)
      (AllLive.initial cfg p)
    have hchain : chain' = (activations sys.stack).map (·.context) := halive.chain
    obtain rfl : chain' = chain := hsound.chained.seg.unique hchained.seg
    rwa [← hchain]

/-- An x64 function calls native code, which calls an AArch64 function, and that calls the
report. -/
theorem cpuGetDebugState_of_run_nested :
    ∃ sys d s', Run (step riscvConfig) (Accountable riscvConfig) (initial examplePlatform)
        [.runFunc .x64 0x10400 (fun _ => 0) 100, callOut .x64,
          .runFunc .aarch64 0x20400 (fun _ => 0) 90, callOut .aarch64] sys ∧
      cpuGetDebugState riscvConfig none 92 sys.emu = some (d, s') ∧
      d.callerMachineType = 0xaa64 ∧ d.contextCount.toNat = 2 := by
  obtain ⟨sys, hexec, hexec', hacts⟩ :
    ∃ sys, exec (step riscvConfig) (Accountable riscvConfig) (initial examplePlatform)
        [.runFunc .x64 0x10400 (fun _ => 0) 100, callOut .x64,
          .runFunc .aarch64 0x20400 (fun _ => 0) 90, callOut .aarch64] = some sys ∧
      exec (step riscvConfig)
        (fun sys action => LeavesActivations sys action ∧ FinishesSwitched riscvConfig sys action)
        (initial examplePlatform)
        [.runFunc .x64 0x10400 (fun _ => 0) 100, callOut .x64,
          .runFunc .aarch64 0x20400 (fun _ => 0) 90, callOut .aarch64] = some sys ∧
      (activations sys.stack).map (·.context) = [⟨.aarch64, 0⟩, ⟨.x64, 0⟩] := ⟨_, rfl, rfl, rfl⟩
  obtain ⟨d, hreport, -, -, -, hlive⟩ :=
    cpuGetDebugState_of_run riscvConfig examplePlatform _ sys none (.of_exec hexec)
  have hreports := hlive (.of_exec hexec')
  rw [hacts] at hreports
  exact ⟨sys, d, _, .of_exec hexec, hreport 92 le_rfl, hreports.callerMachineType,
    hreports.contextCount⟩

end MultiArchUefi
