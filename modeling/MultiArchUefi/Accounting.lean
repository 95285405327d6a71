import MultiArchUefi.Moves
import MultiArchUefi.Lib.Run

/-!
# MultiArchUefi.Accounting

Each engine's `Contexts` counts the contexts on the chain that are its own.

`CpuDetectOrphanContexts` counts down on the engine of the new context, whatever
engine an orphan is of, and in `MAU_ON_PRIVATE_STACK` builds a context that did
not switch to the private stack frees the one that did while that is still on
the chain.  In runs that do neither, the count is right in every state.
-/

namespace MultiArchUefi

open Chain Transition

/-! ## the property -/

/-- The chain from `mTopContext` ends, the counters count it, none is negative,
and no `ASSERT (Contexts >= 0)` has failed. -/
structure CountsContexts (s : State) : Prop where
  counts : ∃ l, Seg s.next s.mTopContext l none ∧
    (∀ cpu, s.contexts cpu = (l.countP fun k => k.cpu = cpu : Nat)) ∧
    (l.length : Int) = s.contexts .x64 + s.contexts .aarch64
  nonNegative : ∀ cpu, 0 ≤ s.contexts cpu
  asserts : Assertion.contextsNonNegative ∉ s.failedAsserts

/-- Every context is of one of the two engines. -/
theorem length_eq_countP_add (l : List CtxId) :
    l.length = l.countP (fun k => k.cpu = .x64) + l.countP (fun k => k.cpu = .aarch64) := by
  induction l with
  | nil => rfl
  | cons k l ih =>
      obtain ⟨cpu, index⟩ := k
      cases cpu <;> simp <;> omega

theorem Linked.countsContexts {s : State} {l : List CtxId} (h : Linked s l) : CountsContexts s where
  counts := by
    refine ⟨l, h.seg, h.counted, ?_⟩
    rw [h.counted, h.counted, length_eq_countP_add]
    omega
  nonNegative := fun cpu => by
    rw [h.counted]
    exact Int.natCast_nonneg _
  asserts := fun hmem => absurd (h.asserts _ hmem) (by decide)

/-! ## runs -/

theorem accounted_initial (cfg : Config) (p : Platform) : Accounted cfg ((initial p).books []) := by
  refine Accounted.of_native
    ⟨⟨⟨rfl, fun _ => rfl, fun _ => List.nodup_range, fun k hk => ?_, by simp, by simp, by
    simp [initial, cpuInit]⟩, trivial⟩, Live.nil _ _, trivial⟩
  exact ⟨(List.mem_range.mp hk).trans_le p.runContexts_le, List.not_mem_nil⟩

/-- In every run of accountable steps, of any build, every state's books are in order. -/
theorem accounted_of_run {cfg : Config} {p : Platform} {actions : List Action} {sys : System}
    (h : Run (step cfg) (Accountable cfg) (initial p) actions sys) :
    ∃ chain, Accounted cfg (sys.books chain) :=
  h.invariant (I := fun sys => ∃ chain, Accounted cfg (sys.books chain))
    (fun _ _ _ ⟨_, hacc⟩ hC hstep => hacc.step hC hstep) ⟨[], accounted_initial cfg p⟩

/-- In every state reached by accountable steps the counters count the chain. -/
theorem countsContexts_of_run (cfg : Config) (p : Platform) (actions : List Action) (sys : System)
    (h : Run (step cfg) (Accountable cfg) (initial p) actions sys) : CountsContexts sys.emu := by
  obtain ⟨chain, hacc⟩ := accounted_of_run h
  exact hacc.chained.countsContexts

/-! ## an orphan of the other engine -/

/-- A build that checks for orphan contexts. -/
def orphanConfig : Config := { riscvConfig with checkOrphanContexts := true }

/-- A platform with its emulated stacks below 4 GiB, and one image of each CPU. -/
def examplePlatform : Platform where
  reset := fun _ _ => 0
  emuStackStart := fun cpu =>
    match cpu with
    | .x64 => 0x70000000
    | .aarch64 => 0x71000000
  runContexts := 46
  runContexts_le := le_rfl
  arena := fun _ => ⟨fun _ => 0, 0, 0, fun _ => 0, 0, 0, none, none⟩
  images := oneImageEach
  memory := ⟨fun _ => 0, []⟩
  interruptState := true

/-- Emulated code of the engine calls the native function at `0x90000000`. -/
def callOut (cpu : CpuId) : Action :=
  .emulate (Function.update (fun _ => 0x70080000) cpu.programCounterReg 0x90000000)
    ⟨fun _ => 0, []⟩ .findTb

/-- A function of the engine calls native code, which jumps out of it to the
firmware; the firmware then calls an x64 function from the same frame address. -/
def orphanOf (cpu : CpuId) : List Action :=
  [.runFunc cpu 0x20400 (fun _ => 0) 100, callOut cpu, .longJump 0,
    .runFunc .x64 0x10400 (fun _ => 0) 100]

/-- An orphan of the new context's own engine is accounted for. -/
theorem countsContexts_of_run_ownOrphan :
    ∃ sys, exec (step orphanConfig) (Accountable orphanConfig) (initial examplePlatform)
        (orphanOf .x64) = some sys ∧ CountsContexts sys.emu := by
  have hexec : (exec (step orphanConfig) (Accountable orphanConfig) (initial examplePlatform)
      (orphanOf .x64)).isSome = true := by decide
  obtain ⟨sys, hsys⟩ := Option.isSome_iff_exists.mp hexec
  exact ⟨sys, hsys, countsContexts_of_run _ _ _ _ (.of_exec hsys)⟩

/-- An orphan of the other engine is counted down on the wrong one: the chain
holds an x64 context, and none is counted. -/
theorem foreignOrphan_miscounted :
    ∃ sys, Run (step orphanConfig) (fun _ _ => True) (initial examplePlatform)
        (orphanOf .aarch64) sys ∧ ¬ CountsContexts sys.emu := by
  have hvalues : (exec (step orphanConfig) (fun _ _ => True) (initial examplePlatform)
      (orphanOf .aarch64)).map (fun sys => (sys.emu.mTopContext, sys.emu.contexts .x64)) =
      some (some ⟨.x64, 0⟩, 0) := by decide
  obtain ⟨sys, hsys, heq⟩ := Option.map_eq_some_iff.mp hvalues
  obtain ⟨htop, hx64⟩ := Prod.mk.inj heq
  refine ⟨sys, .of_exec hsys, fun h => ?_⟩
  obtain ⟨l, hseg, hcount, -⟩ := h.counts
  rw [htop] at hseg
  cases l with
  | nil => cases seg_nil.mp hseg
  | cons k l =>
      have hk : k = ⟨.x64, 0⟩ := (Option.some.inj hseg.1).symm
      have hzero := hcount .x64
      rw [hx64, hk] at hzero
      simp at hzero
      omega

end MultiArchUefi
