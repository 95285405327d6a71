import MultiArchUefi.LeakedRuns
import MultiArchUefi.NestedStack

/-!
# MultiArchUefi.NestedRuns

Whole runs of everything that is nested inside a suspended run.

Nothing nested looks below the native function or notification function that it
runs in, so that the frames there can be exchanged (`step_onto`).  Put the
contexts of the chain there, whoever they belong to, leaked ones included, and
the books of the nested runs are in order.
-/

namespace MultiArchUefi

open Transition Chain Handover

namespace Interleaving

/-! ## frames that nobody looks at -/

/-- The machine with the frames `B` below its own. -/
def Machine.onto (m : Machine) (B : List Frame) : Machine := { m with stack := m.stack ++ B }

section

variable {cfg : Config} {m m' : Machine} {a : Activation} {rest B : List Frame} {action : Action}

/-- A statement of a thunk works on the engine and memory only. -/
theorem execStatement_onto (stack : List Frame) (stage : UINT64 → Stage) (rsp : UINT64)
    (st : Statement) :
    { m with stack := stack }.execStatement a (rest ++ B) stage rsp st =
      (m.execStatement a rest stage rsp st).map (·.onto B) := by
  simp only [Machine.execStatement]
  split <;> rfl

/-- A native call is put on top of the run that makes it. -/
theorem callNative_onto (stack : List Frame) (programCounter : UINT64) (s : State) :
    { m with stack := stack }.callNative cfg a (rest ++ B) programCounter s =
      (m.callNative cfg a rest programCounter s).onto B := by
  simp only [Machine.callNative]
  generalize nativeThunkEnter cfg a.context.cpu programCounter ⟨s.ue a.context.cpu, s.memory⟩ = r
  cases r.1.func <;> rfl

/-- Deciding why the emulation ended looks at no frame. -/
theorem reason_onto (stack : List Frame) (ucErr : UcErr) :
    { m with stack := stack }.reason cfg a
      (rest ++ B) ucErr = (m.reason cfg a rest ucErr).onto B := by
  simp only [Machine.reason]
  split
  · rfl
  · exact callNative_onto ..
  · rfl
  · rfl

/-- `CpuExitImage` searches the chain, not the stack. -/
theorem exitImage_onto (stack : List Frame) (args : Args) :
    { m with stack := stack }.exitImage a (rest ++ B) args = (m.exitImage a rest args).map
      (·.onto B) := by
  unfold Machine.exitImage
  cases imageFindByHandle m.emu.images (args 0) with
  | none => rfl
  | some currentImageRecord =>
      simp only [Option.bind_eq_bind]
      cases System.findImageContext m.emu.criticalBegin chainFuel
        m.emu.criticalBegin.mTopContext with
      | none => simp only [Option.bind_none, Option.map_none]
      | some context =>
          simp only [Option.bind_some]
          cases context with
          | none => rfl
          | some k =>
              simp only
              split <;> rfl

/-- A statement that does not long-jump does not look at the frames below. -/
theorem advance_onto (stack : List Frame) (hlong : ∀ record, a.stage ≠ .longJumping record) :
    { m with stack := stack }.advance cfg a (rest ++ B) = (m.advance cfg a rest).map
      (·.onto B) := by
  unfold Machine.advance
  cases hstage : a.stage <;> simp only
  case longJumping record => exact absurd hstage (hlong record)
  case entered =>
    split
    · simp only [Option.bind_eq_bind, Option.map_bind]
      rfl
    · rfl
  case freeingOrphans orphan => cases orphan <;> rfl
  case settingUp rsp stmts =>
    cases stmts with
    | nil => rfl
    | cons st stmts => exact execStatement_onto ..
  case cleaningUp rsp stmts =>
    cases stmts with
    | nil => rfl
    | cons st stmts => exact execStatement_onto ..
  case reasoning ucErr => simp only [reason_onto, Option.map_some]
  case exitingImage args => exact exitImage_onto ..
  case checking value =>
    split
    · simp only [Option.bind_eq_bind, Option.map_bind]
      rfl
    · rfl
  case freeingLeaked value fromContext toContext =>
    split
    · rfl
    · simp only [Option.bind_eq_bind, Option.map_bind]
      rfl
  case imageExited =>
    simp only [Option.bind_eq_bind, Option.map_bind]
    rfl
  case freeingExited fromContext toContext =>
    split
    · rfl
    · simp only [Option.bind_eq_bind, Option.map_bind]
      rfl
  all_goals rfl

/-- A return goes to the innermost frame only. -/
theorem returnTo_append (value : UINT64) (f : Frame) (rest : List Frame) :
    Machine.returnTo value (f :: rest) ++ B = Machine.returnTo value (f :: rest ++ B) := by
  cases f with
  | run a =>
      simp only [Machine.returnTo, List.cons_append]
      cases a.stage <;> rfl
  | _ => rfl

theorem length_returnTo (value : UINT64) (stack : List Frame) :
    (Machine.returnTo value stack).length = stack.length := by
  unfold Machine.returnTo
  split
  · split <;> rfl
  · rfl

/-- A frame pointer fits when it fits both parts of the stack. -/
theorem fpFits_append (fp : Nat) (pre : List Frame) :
    fpFits fp (pre ++ B) = (fpFits fp pre && fpFits fp B) := by
  simp [fpFits]

@[simp] theorem onto_emu : (m.onto B).emu = m.emu := rfl

/-- `CpuRunFunc` puts its run on top, if it gets a context. -/
theorem runFunc_onto (cpu : CpuId) (programCounter : UINT64) (args : Args) (fp : Nat) :
    (m.onto B).runFunc cpu programCounter args fp =
      (m.runFunc cpu programCounter args fp).onto B := by
  simp only [Machine.runFunc, onto_emu]
  cases cpuAllocContext cpu m.emu <;> rfl

theorem runImage_onto (imageHandle systemTable : UINT64)
    (loadedImage : Except UINT64 UINT64) (fp : Nat) :
    (m.onto B).runImage imageHandle systemTable loadedImage fp =
      (m.runImage imageHandle systemTable loadedImage fp).map (·.onto B) := by
  cases loadedImage with
  | error => rfl
  | ok imageBase =>
      simp only [Machine.runImage, onto_emu]
      cases imageFindByAddress m.emu.images imageBase with
      | none => rfl
      | some record =>
          simp only
          cases cpuAllocContext (m.emu.images.record record).cpu m.emu <;> rfl

/-- Either a native frame is innermost, whatever is below the frame `id`, or another frame is. -/
theorem native_top_or (id : Nat) (stack : List Frame) :
    (∀ below, ∃ g rest, stack ++ .native id :: below = .native g :: rest) ∨
      ∃ f pre, stack = f :: pre ∧ ∀ g, f ≠ .native g := by
  cases stack with
  | nil => exact .inl fun below => ⟨id, below, rfl⟩
  | cons f pre =>
      cases f with
      | native g => exact .inl fun below => ⟨g, _, rfl⟩
      | criticalSection | run => exact .inr ⟨_, pre, rfl, nofun⟩

/-- What native code does looks no further down than a test of the frames that carries over. -/
theorem native_step_onto {id : Nat} {below below' : List Frame} (fits : List Frame → Bool)
    (next : Option Machine)
    (hfits : fits (m.stack ++ .native id :: below) = true →
      fits (m.stack ++ .native id :: below') = true)
    (hnative : ∀ {B : List Frame} {g : Nat} {rest : List Frame}, m.stack ++ B = .native g :: rest →
      step cfg (m.onto B) action = if fits (m.stack ++ B) then next.map (·.onto B) else none)
    (hother : ∀ {B : List Frame} {f : Frame} {pre : List Frame}, m.stack = f :: pre →
      (∀ g, f ≠ .native g) → step cfg (m.onto B) action = none)
    (hstep : step cfg (m.onto (.native id :: below)) action = some m') :
    ∃ m₁ : Machine, m' = m₁.onto (.native id :: below) ∧
      step cfg (m.onto (.native id :: below')) action = some (m₁.onto (.native id :: below')) := by
  rcases native_top_or id m.stack with htop | ⟨f, pre, hs, hf⟩
  · obtain ⟨g, rest, hs⟩ := htop below
    obtain ⟨g', rest', hs'⟩ := htop below'
    rw [hnative hs] at hstep
    split at hstep
    · rename_i hfit
      obtain ⟨m₁, hm₁, rfl⟩ := Option.map_eq_some_iff.mp hstep
      exact ⟨m₁, rfl, by rw [hnative hs', if_pos (hfits hfit), hm₁]; rfl⟩
    · cases hstep
  · rw [hother hs hf] at hstep
    cases hstep

/-- Statements of the innermost run, which is not in a long jump. -/
theorem advance_step_onto {id : Nat} {below below' : List Frame}
    (hlong : longJumps (m.onto (.native id :: below)) .advance = false)
    (hstep : step cfg (m.onto (.native id :: below)) .advance = some m') :
    ∃ m₁ : Machine, m' = m₁.onto (.native id :: below) ∧
      step cfg (m.onto (.native id :: below')) .advance =
        some (m₁.onto (.native id :: below')) := by
  cases hs : m.stack with
  | nil => simp [step, Machine.onto, hs] at hstep
  | cons f pre =>
      cases f with
      | native | criticalSection => simp [step, Machine.onto, hs] at hstep
      | run a =>
          have hstage (record : RecordId) : a.stage ≠ .longJumping record := by
            intro hstage
            simp [longJumps, Machine.onto, hs, hstage] at hlong
          have hadvance (B : List Frame) :
              step cfg (m.onto B) .advance = (m.advance cfg a pre).map (·.onto B) := by
            simp only [step, Machine.onto, hs, List.cons_append]
            exact advance_onto _ hstage
          rw [hadvance] at hstep
          obtain ⟨m₁, hm₁, rfl⟩ := Option.map_eq_some_iff.mp hstep
          exact ⟨m₁, rfl, by rw [hadvance, hm₁]; rfl⟩

/-- Emulation returns to a run that has started it, and to no other. -/
theorem emulate_eq_some {regs : RegFile} {memory : WordMemory.Memory} {ucErr : UcErr}
    (hs : m.stack = .run a :: rest) (hstep : step cfg m (.emulate regs memory ucErr) = some m') :
    a.stage = .emulating ∧ m' =
      { m.goto a rest (.stopped ucErr)
          { m.emu with ue := Function.update m.emu.ue a.context.cpu regs, memory := memory } with
        jitActive := m.jitActive - 1 } := by
  have hstage : a.stage = .emulating := by
    cases hstage : a.stage <;> first | rfl | simp [step, hs, hstage] at hstep
  simp only [step, hs, hstage, Option.some.injEq] at hstep
  exact ⟨hstage, hstep.symm⟩

theorem emulate_step_onto {id : Nat} {below below' : List Frame} {regs : RegFile}
    {memory : WordMemory.Memory} {ucErr : UcErr}
    (hstep : step cfg (m.onto (.native id :: below)) (.emulate regs memory ucErr) = some m') :
    ∃ m₁ : Machine, m' = m₁.onto (.native id :: below) ∧
      step cfg (m.onto (.native id :: below')) (.emulate regs memory ucErr) =
        some (m₁.onto (.native id :: below')) := by
  cases hs : m.stack with
  | nil => simp [step, Machine.onto, hs] at hstep
  | cons f pre =>
      cases f with
      | native | criticalSection => simp [step, Machine.onto, hs] at hstep
      | run a =>
          have hs₁ (B : List Frame) : (m.onto B).stack = .run a :: (pre ++ B) := by
            simp only [Machine.onto, hs, List.cons_append]
          obtain ⟨hstage, rfl⟩ := emulate_eq_some (hs₁ _) hstep
          refine ⟨{ m.goto a pre _ _ with jitActive := _ }, rfl, ?_⟩
          simp only [step, hs₁, hstage]
          rfl

/-- A return is to a frame of its own, as the native frame itself stays. -/
theorem ret_step_onto {id : Nat} {below below' : List Frame} {value : UINT64}
    (hstep : step cfg (m.onto (.native id :: below)) (.ret value) = some m')
    (hB : .native id :: below <:+ m'.stack) :
    ∃ m₁ : Machine, m' = m₁.onto (.native id :: below) ∧
      step cfg (m.onto (.native id :: below')) (.ret value) =
        some (m₁.onto (.native id :: below')) := by
  cases hs : m.stack with
  | nil =>
      -- the native frame itself would return
      exfalso
      have hlen := hB.length_le
      cases below with
      | nil => simp [step, Machine.onto, hs] at hstep
      | cons f rest =>
          simp only [step, Machine.onto, hs, List.nil_append, Option.some.injEq] at hstep
          subst hstep
          simp only [length_returnTo, List.length_cons] at hlen
          omega
  | cons f pre =>
      cases f with
      | run | criticalSection => simp [step, Machine.onto, hs] at hstep
      | native g =>
          cases pre with
          | nil =>
              simp only [step, Machine.onto, hs, List.cons_append, List.nil_append] at hstep ⊢
              obtain rfl := Option.some.inj hstep
              exact ⟨{ m with stack := [] }, rfl, rfl⟩
          | cons f pre =>
              simp only [step, Machine.onto, hs, List.cons_append] at hstep ⊢
              obtain rfl := Option.some.inj hstep
              refine ⟨{ m with stack := Machine.returnTo value (f :: pre) }, ?_, ?_⟩
              · rw [returnTo_append]
                rfl
              · rw [returnTo_append]
                rfl

/-- A critical section of native code ends where it began, above the native frame. -/
theorem sectionEnd_step_onto {id : Nat} {below below' : List Frame}
    (hstep : step cfg (m.onto (.native id :: below)) .sectionEnd = some m') :
    ∃ m₁ : Machine, m' = m₁.onto (.native id :: below) ∧
      step cfg (m.onto (.native id :: below')) .sectionEnd =
        some (m₁.onto (.native id :: below')) := by
  cases hs : m.stack with
  | nil => simp [step, Machine.onto, hs] at hstep
  | cons f pre =>
      cases f with
      | native | run => simp [step, Machine.onto, hs] at hstep
      | criticalSection =>
          simp only [step, Machine.onto, hs, List.cons_append] at hstep ⊢
          obtain rfl := Option.some.inj hstep
          exact ⟨{ m with emu := _, stack := pre }, rfl, rfl⟩

/-- Steps above a native frame that stays do not depend on what is below it. -/
theorem step_onto {id : Nat} {below below' : List Frame}
    (hfp : ∀ fp, fpFits fp below = true → fpFits fp below' = true)
    (hlong : longJumps (m.onto (.native id :: below)) action = false)
    (hstep : step cfg (m.onto (.native id :: below)) action = some m')
    (hB : .native id :: below <:+ m'.stack) :
    ∃ m₁ : Machine, m' = m₁.onto (.native id :: below) ∧
      step cfg (m.onto (.native id :: below')) action = some (m₁.onto (.native id :: below')) := by
  have hfits (fp : Nat) (h : fpFits fp (m.stack ++ .native id :: below) = true) :
      fpFits fp (m.stack ++ .native id :: below') = true := by
    simp only [fpFits_append, Bool.and_eq_true] at h ⊢
    exact ⟨h.1, hfp fp h.2⟩
  cases action with
  | longJump => cases hlong
  | advance => exact advance_step_onto hlong hstep
  | emulate => exact emulate_step_onto hstep
  | ret => exact ret_step_onto hstep hB
  | sectionEnd => exact sectionEnd_step_onto hstep
  | request r =>
      simp only [step] at hstep ⊢
      split at hstep
      · rename_i hr
        obtain rfl := Option.some.inj hstep
        exact ⟨{ m with emu := _ }, rfl, if_pos hr⟩
      · cases hstep
  | notify =>
      simp only [step] at hstep ⊢
      split at hstep
      · rename_i hr
        obtain rfl := Option.some.inj hstep
        exact ⟨{ m with stack := _ :: m.stack, nextId := _ }, rfl, if_pos hr⟩
      · cases hstep
  | runFunc cpu programCounter args fp =>
      refine native_step_onto (fpFits fp) (some (m.runFunc cpu programCounter args fp))
        (hfits fp) (fun {B g rest} hs => ?_) (fun {B f pre} hs hf => ?_) hstep
      · simp only [step, Machine.onto, hs]
        rw [← hs, ← Machine.onto, runFunc_onto, Option.map_some]
        rfl
      · cases f <;> simp_all [step, Machine.onto]
  | runImage imageHandle systemTable loadedImage fp =>
      refine native_step_onto (fpFits fp) (m.runImage imageHandle systemTable loadedImage fp)
        (hfits fp) (fun {B g rest} hs => ?_) (fun {B f pre} hs hf => ?_) hstep
      · simp only [step, Machine.onto, hs]
        rw [← hs, ← Machine.onto, runImage_onto]
        rfl
      · cases f <;> simp_all [step, Machine.onto]
  | store memory =>
      refine native_step_onto (fun _ => true)
        (some { m with emu := { m.emu with memory := memory } }) (fun h => h)
        (fun {B g rest} hs => ?_) (fun {B f pre} hs hf => ?_) hstep
      · simp [step, Machine.onto, hs]
      · cases f <;> simp_all [step, Machine.onto]
  | sectionBegin =>
      refine native_step_onto (fun _ => true)
        (some { m with emu := m.emu.criticalBegin, stack := .criticalSection :: m.stack })
        (fun h => h) (fun {B g rest} hs => ?_) (fun {B f pre} hs hf => ?_) hstep
      · simp [step, Machine.onto, hs]
      · cases f <;> simp_all [step, Machine.onto]

end

/-! ## frames for the contexts of a chain -/

/-- A run for every context of a chain. -/
def standIns (fp : Nat) : List CtxId → List Activation
  | [] => []
  | k :: chain => ⟨0, fp, k, none, 0, .looping, 0, 0⟩ :: standIns (fp + 1) chain

/-- The stand-ins have the contexts of the chain, in its order. -/
theorem map_context_standIns (fp : Nat) (chain : List CtxId) :
    (standIns fp chain).map (·.context) = chain := by
  induction chain generalizing fp with
  | nil => rfl
  | cons k chain ih => simp [standIns, ih]

/-- Every stand-in is about to emulate. -/
theorem stage_of_mem_standIns {fp : Nat} {chain : List CtxId} {b : Activation}
    (hb : b ∈ standIns fp chain) :
    b.stage = .looping ∧ fp ≤ b.fp := by
  induction chain generalizing fp with
  | nil => cases hb
  | cons k chain ih =>
      rcases List.mem_cons.mp hb with rfl | hb
      · exact ⟨rfl, le_rfl⟩
      · obtain ⟨hstage, hfp⟩ := ih hb
        exact ⟨hstage, by omega⟩

/-- The stand-ins' frames are ordered as those of real runs. -/
theorem pairwise_fp_standIns (fp : Nat) (chain : List CtxId) :
    (standIns fp chain).Pairwise fun a b => a.fp < b.fp := by
  induction chain generalizing fp with
  | nil => exact .nil
  | cons k chain ih =>
      refine List.pairwise_cons.mpr ⟨fun b hb => ?_, ih (fp + 1)⟩
      have := (stage_of_mem_standIns hb).2
      show fp < b.fp
      omega

/-- A stack of runs only is its list of activations. -/
theorem activations_map_run (l : List Activation) : activations (l.map .run) = l := by
  induction l with
  | nil => rfl
  | cons a l ih => rw [List.map_cons, activations_run, ih]

/-- The chain that the stand-ins account for is the one they were made from. -/
theorem chainOf_standIns (fp : Nat) (chain : List CtxId) : chainOf (standIns fp chain) = chain := by
  have hall : (standIns fp chain).filter (fun a => a.stage.counted) = standIns fp chain :=
    List.filter_eq_self.mpr fun b hb => by rw [(stage_of_mem_standIns hb).1]; rfl
  rw [chainOf, hall, map_context_standIns]

section

variable {cfg : Config} {m m' : Machine} {chain : List CtxId} {id fp : Nat} {below : List Frame}

/-- With a run for every context of the chain below a native frame, the books are in order. -/
theorem orderly_standIns (h : Masked m) (hs : m.stack = .native id :: below)
    (hlinked : Linked m.emu chain) (horphans : cfg.checkOrphanContexts = false) (fp : Nat) :
    Orderly cfg { m with stack := .native id :: (standIns fp chain).map .run } where
  masked := by
    have htop : topDepth m.stack = 0 := by rw [hs]; rfl
    refine ⟨h.depth.trans htop, fun h0 => absurd rfl h0, fun f hf => ?_, h.idle htop, h.asserts⟩
    obtain ⟨b, hb, rfl⟩ := List.mem_map.mp hf
    exact congrArg Stage.depth (stage_of_mem_standIns hb).1
  tidy := by
    have hmem {b : Activation} (hb : b ∈ standIns fp chain) : b.context ∈ chain := by
      rw [← map_context_standIns fp chain]
      exact List.mem_map_of_mem hb
    rw [activations_native, activations_map_run]
    refine ⟨?_, ?_, fun b hb hpool => ?_, fun b hb => hlinked.bounded _ (hmem hb), fun b hb => ?_,
      fun b hb => ?_, fun hcfg => ?_, pairwise_fp_standIns fp chain⟩
    · rwa [chainOf_standIns]
    · rw [map_context_standIns]
      exact hlinked.nodup
    · exact (hlinked.pool_free _ hpool).2 (hmem hb)
    · rw [(stage_of_mem_standIns hb).1]
      exact hlinked.flags _ (hmem hb)
    · rw [(stage_of_mem_standIns hb).1]
      rfl
    · rw [horphans] at hcfg
      cases hcfg

end

/-! ## nested runs -/

/-- When `uc_emu_start` has returned, the stack pointer is at or below the one the
function was entered with, or above its return address when it has returned. -/
def Abides (cfg : Config) (m : Machine) : Prop :=
  ∀ a rest ucErr, m.stack = .run a :: rest → a.stage = .stopped ucErr →
    a.sp.toNat ≤ a.entrySp.toNat + leftAbove cfg a.context.cpu (m.emu.ue a.context.cpu) ucErr

/-- The step does not long-jump, the frames `B` stay, and emulated functions keep
to their stack. -/
def Inside (cfg : Config) (B : List Frame) (m : Machine) (action : Action) : Prop :=
  longJumps m action = false ∧ ∀ m', step cfg m action = some m' → B <:+ m'.stack ∧ Abides cfg m'

section

variable {cfg : Config} {init : CpuId → RegFile} {cpu : CpuId} {m₀ m m' : Machine} {action : Action}
  {B : List Frame}

/-- Emulated code that abides leaves its stack pointer no higher than it may be, also
in a run that has been interrupted since. -/
theorem Abides.of_mem (h : Abides cfg m) (hmasked : Masked m) {a : Activation}
    (ha : a ∈ activations m.stack) {ucErr : UcErr} (hstage : a.stage = .stopped ucErr) :
    a.sp.toNat ≤ a.entrySp.toNat + leftAbove cfg a.context.cpu (m.emu.ue a.context.cpu) ucErr := by
  obtain ⟨f, hf, hrun⟩ := List.mem_filterMap.mp ha
  obtain rfl : f = .run a := by
    cases f with
    | run b => exact congrArg Frame.run (Option.some.inj hrun)
    | _ => cases hrun
  cases hs : m.stack with
  | nil =>
      rw [hs] at hf
      cases hf
  | cons g rest =>
      rw [hs] at hf
      rcases List.mem_cons.mp hf with rfl | hf
      · exact h a rest ucErr hs hstage
      · -- only the innermost frame has a section open
        have hdepth := hmasked.below (.run a) (by rw [hs]; exact hf)
        simp [Frame.depth, Stage.depth, hstage] at hdepth

theorem isStore_thunkPre (magic : UINT64) (cpu : CpuId) (args : Args) :
    (thunkPre magic cpu args).any Statement.isStore = true := by
  refine (framedOff_thunkPre magic cpu args).2.resolve_right ?_
  rw [down_thunkPre]
  cases cpu <;> decide

/-- A nested run that starts to set its frame up keeps what `Engaged` says, and no more yet. -/
theorem keepsBelow_take (initialState : CpuId → RegFile) (magic : UINT64) (a : Activation)
    (saved : RegFile) (args : Args) : KeepsBelow cfg initialState
      { a with
        stage := .settingUp 0 (stackPushRedZone ++ thunkPre magic a.context.cpu args)
        sp := saved a.context.cpu.stackReg } (some saved) saved := by
  refine ⟨engaged_take initialState magic a saved args, fun start _ hnone => ?_⟩
  rw [List.any_append, isStore_thunkPre, Bool.or_true] at hnone
  cases hnone

/-- The same for a first run, which has saved nothing. -/
theorem keepsBelow_begin (initialState : CpuId → RegFile) (magic : UINT64) (a : Activation)
    (args : Args) :
    KeepsBelow cfg initialState
      { a with
        stage := .settingUp 0 (thunkPre magic a.context.cpu args)
        sp := initialState a.context.cpu a.context.cpu.stackReg } none
          (initialState a.context.cpu) :=
  ⟨engaged_begin initialState magic a args, nofun⟩

theorem Uses.context_eq {a a' : Activation} {regs regs' : RegFile} {stores : List Store}
    (h : Uses cfg a regs a' regs' stores) : a'.context = a.context := by
  cases h <;> rfl

/-- The books are in order above the frames `B`, whatever happens to the engine
there is kept in its place, and words have been stored only below the red zone
of the stack pointer that the engine had. -/
structure Sheltered (cfg : Config) (init : CpuId → RegFile) (cpu : CpuId) (m₀ : Machine)
    (B : List Frame) (m : Machine) : Prop where
  orderly : Orderly cfg m
  initialState : m.emu.initialState = init
  held : ∃ pre, m.stack = pre ++ B ∧ Held (KeepsBelow cfg init) (fun _ _ => True)
    (· = m₀.emu.ue cpu) (m.emu.ue cpu) (holders cpu m.emu (activations pre))
  stores : ∃ new, m.stores = new ++ m₀.stores ∧ ∀ st ∈ new, st.cpu = cpu →
    st.address.toNat + 8 ≤ (m₀.emu.ue cpu cpu.stackReg).toNat - 128

/-- Fewer runs are on an engine than its stack has room for. -/
theorem length_runsOn_lt {s : State} {pre : List Activation} {l : List Activation}
    (h : Tidy cfg s (pre ++ l)) :
    (runsOn cpu pre).length < 1024 := by
  have hsub : (runsOn cpu pre).Sublist (pre ++ l) :=
    List.filter_sublist.trans (List.sublist_append_left ..)
  have hlt := length_lt_chainFuel (h.nodup.sublist (hsub.map _)) fun k hk => by
    obtain ⟨b, hb, rfl⟩ := List.mem_map.mp hk
    exact h.bounded b (hsub.subset hb)
  rw [List.length_map] at hlt
  exact hlt.trans (by decide)

/-- A step of the nested runs stores below the red zone of the run that is suspended. -/
theorem Sheltered.stores_step (h : Sheltered cfg init cpu m₀ B m)
    (hlong : longJumps m action = false) (hstep : step cfg m action = some m')
    (hB : B <:+ m'.stack) :
    ∃ new, m'.stores = new ++ m₀.stores ∧ ∀ st ∈ new, st.cpu = cpu →
      st.address.toNat + 8 ≤ (m₀.emu.ue cpu cpu.stackReg).toNat - 128 := by
  obtain ⟨pre, hs, hheld⟩ := h.held
  obtain ⟨new, hnew, hlow⟩ := h.stores
  rcases h.orderly.stores_step hlong hstep hs hB
    with hsame | ⟨a, older, a', v, stores, hpre, hphase, huses, hstores⟩
  · exact ⟨new, hsame.trans hnew, hlow⟩
  refine ⟨stores ++ new, by rw [hstores, hnew, List.append_assoc], fun st hst hcpu => ?_⟩
  rcases List.mem_append.mp hst with hst | hst
  swap
  · exact hlow st hst hcpu
  obtain rfl : a.context.cpu = cpu := (huses.stores_of st hst).2.symm.trans hcpu
  rw [hpre, holders_cons_self rfl, hphase] at hheld
  have hruns : ∀ b ∈ runsOn a.context.cpu older, b.context.cpu = a.context.cpu := fun b hb =>
    of_decide_eq_true (List.mem_filter.mp hb).2
  have hlen : (runsOn a.context.cpu (a :: older)).length < 1024 := by
    have htidy := h.orderly.tidy
    rw [hs, activations_append, hpre] at htidy
    exact length_runsOn_lt htidy
  have hcons : runsOn a.context.cpu (a :: older) = a :: runsOn a.context.cpu older := by
    simp [runsOn]
  rw [hcons, List.length_cons] at hlen
  cases v with
  | none => exact (not_forall_held hheld.2).elim
  | some q =>
      obtain ⟨hkeeps, -, hheld⟩ := hheld
      exact huses.stores_low hkeeps (low_of_held hruns (by omega) hheld) (by omega) st hst

/-- One step of whatever is nested. -/
theorem Sheltered.step (h : Sheltered cfg init cpu m₀ B m)
    (hbelow : ∃ b ∈ activations B, b.context.cpu = cpu ∧ b.stage.counted = true)
    (hinside : Inside cfg B m action) (hstep : Interleaving.step cfg m action = some m') :
    Sheltered cfg init cpu m₀ B m' := by
  obtain ⟨hlong, hinside⟩ := hinside
  obtain ⟨hB, habides⟩ := hinside m' hstep
  have horderly := h.orderly.step hlong hstep
  obtain ⟨pre, hs, hheld⟩ := h.held
  refine ⟨horderly, ?_, ?_, h.stores_step hlong hstep hB⟩
  · exact (h.orderly.tidy.step h.orderly.masked hlong hstep).initialState.trans h.initialState
  · refine h.orderly.held_step hlong hstep hs hB (.inr hbelow) (fun _ _ _ _ _ _ _ _ => trivial)
      (fun a v l args hcpu _ => ?_) (fun a args hcpu => ?_)
      (fun a a' v l stores ha' hcpu huses _ hkeeps => ?_) hheld
    · exact hcpu ▸ keepsBelow_take init _ a v args
    · rw [h.initialState]
      exact hcpu ▸ keepsBelow_begin init _ a args
    · refine huses.keepsBelow (fun ucErr hstage => ?_) hkeeps
      have hcpu' : a'.context.cpu = cpu := huses.context_eq ▸ hcpu
      have := habides.of_mem horderly.masked ha' hstage
      rwa [hcpu'] at this ⊢

end

/-! ## what a run stores itself -/

/-- No word is left to store for `EmuThunkPost`. -/
def Stage.popsOnly : Stage → Bool
  | .cleaningUp _ stmts => !stmts.any Statement.isStore
  | _ => true

/-- `EmuThunkPost` only pops, in every run. -/
def PopsOnly (stack : List Frame) : Prop := ∀ b ∈ activations stack, b.stage.popsOnly = true

section

variable {cfg : Config} {m m' : Machine} {a : Activation} {rest : List Frame}

/-- The thunks of the runs below only pop as well. -/
theorem PopsOnly.of_run (h : PopsOnly (.run a :: rest)) : PopsOnly rest := fun b hb =>
  h b (List.mem_cons_of_mem _ hb)

theorem PopsOnly.run (h : PopsOnly rest) (ha : a.stage.popsOnly = true) :
    PopsOnly (.run a :: rest) :=
  List.forall_mem_cons.mpr ⟨ha, h⟩

theorem PopsOnly.of_append {pre : List Frame} (h : PopsOnly (pre ++ rest)) : PopsOnly rest :=
  fun b hb => h b (by rw [activations_append]; exact List.mem_append_right _ hb)

/-- A statement of a thunk leaves the frames below as they are. -/
theorem PopsOnly.execStatement (h : PopsOnly rest) {stage : UINT64 → Stage} {rsp : UINT64}
    {st : Statement} (hstage : ∀ rsp, (stage rsp).popsOnly = true)
    (hstep : m.execStatement a rest stage rsp st = some m') :
    PopsOnly m'.stack := by
  simp only [Machine.execStatement] at hstep
  split at hstep
  · cases hstep
  · obtain rfl := Option.some.inj hstep
    exact h.run (hstage _)

/-- What follows an emulation begins no thunk that stores on the way out. -/
theorem PopsOnly.reason (h : PopsOnly rest) (ucErr : UcErr) :
    PopsOnly (m.reason cfg a rest ucErr).stack := by
  simp only [Machine.reason]
  split
  · exact h.run rfl
  · simp only [Machine.callNative]
    split <;> exact h.run rfl
  · exact h.run (by simp [Stage.popsOnly, isStore_thunkPost])
  · exact h.run rfl

/-- `CpuExitImage` begins no thunk at all. -/
theorem PopsOnly.exitImage (h : PopsOnly rest) {args : Args}
    (hstep : m.exitImage a rest args = some m') :
    PopsOnly m'.stack := by
  simp only [Machine.exitImage] at hstep
  split at hstep
  · obtain rfl := Option.some.inj hstep
    exact h.run rfl
  · obtain ⟨context, -, hstep⟩ := Option.bind_eq_some_iff.mp hstep
    split at hstep
    · obtain rfl := Option.some.inj hstep
      exact h.run rfl
    · split at hstep <;>
        (obtain rfl := Option.some.inj hstep; exact h.run rfl)

/-- One statement of the innermost run, which may begin its `EmuThunkPost`. -/
theorem PopsOnly.advance (h : PopsOnly m.stack) (hs : m.stack = .run a :: rest)
    (hstep : m.advance cfg a rest = some m') : PopsOnly m'.stack := by
  have hrest : PopsOnly rest := by
    rw [hs] at h
    exact h.of_run
  cases hstage : a.stage <;> simp only [Machine.advance, hstage] at hstep
  case emulating => cases hstep
  case calling => cases hstep
  case callingExit => cases hstep
  case entered =>
    split at hstep
    · obtain ⟨⟨orphan, s⟩, -, hstep⟩ := Option.bind_eq_some_iff.mp hstep
      obtain rfl := Option.some.inj hstep
      exact hrest.run rfl
    · obtain rfl := Option.some.inj hstep
      exact hrest.run rfl
  case freeingOrphans orphan =>
    cases orphan <;> (obtain rfl := Option.some.inj hstep; exact hrest.run rfl)
  case deciding =>
    obtain rfl := Option.some.inj hstep
    exact hrest.run (by split <;> rfl)
  case settingUp rsp stmts =>
    cases stmts with
    | nil =>
        obtain rfl := Option.some.inj hstep
        exact hrest.run rfl
    | cons st stmts => exact hrest.execStatement (fun _ => rfl) hstep
  case cleaningUp rsp stmts =>
    cases stmts with
    | nil =>
        obtain rfl := Option.some.inj hstep
        exact hrest.run rfl
    | cons st stmts =>
        have ha := h a (by simp [hs])
        refine hrest.execStatement (fun _ => ?_) hstep
        simp only [hstage, Stage.popsOnly, List.any_cons, Bool.not_or, Bool.and_eq_true] at ha ⊢
        exact ha.2
  case reasoning ucErr =>
    obtain rfl := Option.some.inj hstep
    exact hrest.reason ucErr
  case exitingImage args => exact hrest.exitImage hstep
  case longJumping record =>
    obtain ⟨id, -, hstep⟩ := Option.bind_eq_some_iff.mp hstep
    obtain ⟨⟨caller, rest'⟩, hunwind, hstep⟩ := Option.bind_eq_some_iff.mp hstep
    obtain rfl := Option.some.inj hstep
    obtain ⟨pre, hpre⟩ := append_of_unwindToRun hunwind
    rw [hpre] at h
    exact h.of_append.of_run.run rfl
  case checking value =>
    split at hstep
    · obtain ⟨s, -, hstep⟩ := Option.bind_eq_some_iff.mp hstep
      obtain rfl := Option.some.inj hstep
      exact hrest.run rfl
    · obtain rfl := Option.some.inj hstep
      exact hrest.run rfl
  case freeingLeaked value fromContext toContext =>
    split at hstep
    · obtain rfl := Option.some.inj hstep
      exact hrest.run rfl
    · obtain ⟨j, -, hstep⟩ := Option.bind_eq_some_iff.mp hstep
      obtain rfl := Option.some.inj hstep
      exact hrest.run rfl
  case finished ret =>
    obtain rfl := Option.some.inj hstep
    exact hrest.run (by split <;> rfl)
  case returned =>
    obtain rfl := Option.some.inj hstep
    exact hrest
  case imageExited =>
    obtain ⟨s, -, hstep⟩ := Option.bind_eq_some_iff.mp hstep
    obtain rfl := Option.some.inj hstep
    exact hrest.run rfl
  case freeingExited fromContext toContext =>
    split at hstep
    · obtain rfl := Option.some.inj hstep
      exact hrest.run rfl
    · obtain ⟨j, -, hstep⟩ := Option.bind_eq_some_iff.mp hstep
      obtain rfl := Option.some.inj hstep
      exact hrest.run rfl
  case exitReturned status =>
    obtain rfl := Option.some.inj hstep
    exact hrest
  all_goals
    obtain rfl := Option.some.inj hstep
    exact hrest.run rfl

/-- The step lemma: `EmuThunkPost` only pops, whatever else runs. -/
theorem PopsOnly.step (h : PopsOnly m.stack) {action : Action}
    (hstep : Interleaving.step cfg m action = some m') : PopsOnly m'.stack := by
  unfold Interleaving.step at hstep
  split at hstep
  case h_1 a rest hs => exact h.advance hs hstep
  case h_2 regs memory ucErr a rest hs =>
    rw [hs] at h
    split at hstep
    · obtain rfl := Option.some.inj hstep
      exact h.of_run.run rfl
    · cases hstep
  case h_3 r =>
    split at hstep
    · obtain rfl := Option.some.inj hstep
      exact h
    · cases hstep
  case h_4 =>
    split at hstep
    · obtain rfl := Option.some.inj hstep
      exact h
    · cases hstep
  case h_5 cpu programCounter args fp id rest hs =>
    split at hstep
    · obtain rfl := Option.some.inj hstep
      unfold Machine.runFunc
      split
      · exact h
      · exact h.run rfl
    · cases hstep
  case h_6 imageHandle systemTable loadedImage fp id rest hs =>
    split at hstep
    · unfold Machine.runImage at hstep
      split at hstep
      · obtain rfl := Option.some.inj hstep
        exact h
      · split at hstep
        · cases hstep
        · split at hstep
          · obtain rfl := Option.some.inj hstep
            exact h
          · obtain rfl := Option.some.inj hstep
            exact h.run rfl
    · cases hstep
  case h_7 memory id rest hs =>
    obtain rfl := Option.some.inj hstep
    exact h
  case h_8 id rest hs =>
    obtain rfl := Option.some.inj hstep
    exact h
  case h_9 rest hs =>
    obtain rfl := Option.some.inj hstep
    rw [hs] at h
    exact h
  case h_10 value id f rest hs =>
    obtain rfl := Option.some.inj hstep
    rw [hs] at h
    have h : PopsOnly (f :: rest) := h
    unfold Machine.returnTo
    split
    · rename_i a rest' hframes
      rw [hframes] at h
      split
      · exact h.of_run.run rfl
      · exact h.of_run.run rfl
      · exact h
    · exact h
  case h_11 id id' rest hs =>
    obtain ⟨stack, hunwind, rfl⟩ := Option.map_eq_some_iff.mp hstep
    obtain ⟨pre, hpre⟩ := append_of_unwindToNative hunwind
    rw [hpre] at h
    exact h.of_append
  case h_12 => cases hstep

end

section

variable {cfg : Config} {m m' : Machine} {a : Activation} {rest : List Frame} {action : Action}

/-- The words that a run on whose engine a function is running stores are in the
home zone of the call that it is making. -/
def StoresHome (cfg : Config) (m m' : Machine) (a : Activation) (st : Store) : Prop :=
  (∃ ucErr, a.stage = .reasoning ucErr ∧
    cpuExitReason cfg ucErr (m.emu.ue a.context.cpu a.context.cpu.programCounterReg) =
      .callToNative) ∧
  st.id = a.id ∧ st.cpu = a.context.cpu ∧ a.context.cpu = .x64 ∧
    ∃ i, 1 ≤ i ∧ i ≤ 4 ∧ st.address = m'.emu.ue .x64 .rsp + BitVec.ofNat 64 (8 * i)

/-- A native call stores its arguments in the home zone of its own frame. -/
theorem storesHome_callNative {ucErr : UcErr} {s : State} (ha : a.stage = .reasoning ucErr)
    (hreason : cpuExitReason cfg ucErr (m.emu.ue a.context.cpu a.context.cpu.programCounterReg) =
      .callToNative) (hue : s.ue = m.emu.ue) {programCounter : UINT64}
    (hm' : m' = m.callNative cfg a rest programCounter s) :
    ∃ new, m'.stores = new ++ m.stores ∧ ∀ st ∈ new, StoresHome cfg m m' a st := by
  have hregs : m'.emu.ue = m.emu.ue := by
    rw [hm']
    simp only [Machine.callNative]
    generalize hr : nativeThunkEnter cfg a.context.cpu programCounter
      ⟨s.ue a.context.cpu, s.memory⟩ = r
    have hsame : r.2.regs = s.ue a.context.cpu := hr ▸ nativeThunkEnter_regs ..
    split <;> simp [Machine.goto, hsame, hue]
  refine ⟨((Machine.homeZone cfg a.context.cpu programCounter (s.ue a.context.cpu)).map
    fun address => ⟨a.id, a.context.cpu, address⟩).reverse, by rw [hm']; rfl, fun st hst => ?_⟩
  obtain ⟨address, haddress, rfl⟩ := List.mem_map.mp (List.mem_reverse.mp hst)
  obtain ⟨hcpu, i, hi, hi', rfl⟩ := mem_homeZone haddress
  refine ⟨⟨ucErr, ha, hreason⟩, rfl, rfl, hcpu, i, hi, hi', ?_⟩
  rw [hregs, ← hue, hcpu]
  rfl

/-- Of the statements of a run on whose engine a function is running, only a call stores words. -/
theorem storesHome_advance (hquiet : PopsOnly m.stack) (hs : m.stack = .run a :: rest)
    (ha : a.stage.unfinished = true) (hstep : m.advance cfg a rest = some m') :
    ∃ new, m'.stores = new ++ m.stores ∧ ∀ st ∈ new, StoresHome cfg m m' a st := by
  have hnone {m' : Machine} (h : m'.stores = m.stores) :
      ∃ new, m'.stores = new ++ m.stores ∧ ∀ st ∈ new, StoresHome cfg m m' a st := ⟨[], h, nofun⟩
  cases hstage : a.stage <;> rw [hstage] at ha <;> cases ha <;> simp only [Machine.advance,
    hstage] at hstep
  case emulating => cases hstep
  case calling => cases hstep
  case reasoning ucErr =>
    obtain rfl := Option.some.inj hstep
    simp only [Machine.reason]
    split
    · exact hnone rfl
    · rename_i hreason
      exact storesHome_callNative hstage hreason (by rw [State.assert_eq]) rfl
    · exact hnone rfl
    · exact hnone rfl
  case exitingImage args =>
    refine hnone ?_
    simp only [Machine.exitImage] at hstep
    split at hstep
    · obtain rfl := Option.some.inj hstep
      rfl
    · obtain ⟨context, -, hstep⟩ := Option.bind_eq_some_iff.mp hstep
      split at hstep
      · obtain rfl := Option.some.inj hstep
        rfl
      · split at hstep <;> (obtain rfl := Option.some.inj hstep; rfl)
  case longJumping record =>
    obtain ⟨id, -, hstep⟩ := Option.bind_eq_some_iff.mp hstep
    obtain ⟨⟨caller, rest'⟩, -, hstep⟩ := Option.bind_eq_some_iff.mp hstep
    obtain rfl := Option.some.inj hstep
    exact hnone rfl
  case checking value =>
    split at hstep
    · obtain ⟨s, -, hstep⟩ := Option.bind_eq_some_iff.mp hstep
      obtain rfl := Option.some.inj hstep
      exact hnone rfl
    · obtain rfl := Option.some.inj hstep
      exact hnone rfl
  case freeingLeaked value fromContext toContext =>
    split at hstep
    · obtain rfl := Option.some.inj hstep
      exact hnone rfl
    · obtain ⟨j, -, hstep⟩ := Option.bind_eq_some_iff.mp hstep
      obtain rfl := Option.some.inj hstep
      exact hnone rfl
  case cleaningUp rsp stmts =>
    cases stmts with
    | nil =>
        obtain rfl := Option.some.inj hstep
        exact hnone rfl
    | cons st stmts =>
        have hpops := hquiet a (by simp [hs])
        simp only [hstage, Stage.popsOnly, List.any_cons, Bool.not_or, Bool.and_eq_true] at hpops
        simp only [Machine.execStatement] at hstep
        split at hstep
        · cases hstep
        · obtain rfl := Option.some.inj hstep
          cases st with
          | store val => simp at hpops
          | _ => exact hnone rfl
  all_goals
    obtain rfl := Option.some.inj hstep
    exact hnone rfl

/-- Whatever happens next when a function of the run `a` is running or has called out. -/
theorem storesHome_step (hquiet : PopsOnly m.stack) (hs : m.stack = .run a :: rest)
    (ha : a.stage.unfinished = true) (hstep : step cfg m action = some m') :
    ∃ new, m'.stores = new ++ m.stores ∧ ∀ st ∈ new, StoresHome cfg m m' a st := by
  cases action with
  | advance =>
      simp only [step, hs] at hstep
      exact storesHome_advance hquiet hs ha hstep
  | emulate regs memory ucErr =>
      obtain ⟨-, rfl⟩ := emulate_eq_some hs hstep
      exact ⟨[], rfl, by simp⟩
  | request | notify =>
      simp only [step] at hstep
      split at hstep
      · obtain rfl := Option.some.inj hstep
        exact ⟨[], rfl, by simp⟩
      · cases hstep
  | _ => simp [step, hs] at hstep

/-! ## the property -/

/-- A native function, or a notification function, runs while the function of the
run `a` is running, and the chain is in order, with the context of `a` on it. -/
structure Suspended (m : Machine) (a : Activation) : Prop where
  called : ∃ id rest, m.stack = .native id :: .run a :: rest
  unfinished : a.stage.unfinished = true
  chained : ∃ chain, Linked m.emu chain ∧ a.context ∈ chain

/-- Nested runs keep off a suspended frame, and a run itself stores nothing above
its stack pointer but the home zone of the call that it is making. -/
structure KeepsOff (cfg : Config) (m : Machine) : Prop where
  nested : ∀ a, Suspended m a → ∀ bs m', Run (step cfg) (Inside cfg m.stack) m bs m' →
    ∃ new, m'.stores = new ++ m.stores ∧ ∀ st ∈ new, st.cpu = a.context.cpu →
      st.address.toNat + 8 ≤ (m.emu.ue a.context.cpu a.context.cpu.stackReg).toNat - 128
  returned : ∀ a, Suspended m a → ∀ bs m', Run (step cfg) (Inside cfg m.stack) m bs m' →
    ∀ pre, m'.stack = pre ++ m.stack → runsOn a.context.cpu (activations pre) = [] →
      m'.emu.ue a.context.cpu = m.emu.ue a.context.cpu
  own : ∀ a rest, m.stack = .run a :: rest → a.stage.unfinished = true → ∀ action m',
    step cfg m action = some m' →
      ∃ new, m'.stores = new ++ m.stores ∧ ∀ st ∈ new, StoresHome cfg m m' a st

/-- Whether a step long-jumps shows in the frames above the native one. -/
theorem longJumps_onto (m : Machine) (id : Nat) (below below' : List Frame) (action : Action) :
    longJumps (m.onto (.native id :: below')) action = longJumps
      (m.onto (.native id :: below)) action := by
  cases action with
  | advance =>
      cases hs : m.stack with
      | nil => simp [longJumps, Machine.onto, hs]
      | cons f pre => cases f <;> simp [longJumps, Machine.onto, hs]
  | _ => rfl

/-- Whether emulated code abides does not depend on the frames below. -/
theorem Abides.onto {id : Nat} {below below' : List Frame}
    (h : Abides cfg (m.onto (.native id :: below))) :
    Abides cfg (m.onto (.native id :: below')) := by
  intro a rest ucErr hs hstage
  have htop : m.stack ++ .native id :: below' = .run a :: rest := hs
  cases hm : m.stack with
  | nil => simp [hm] at htop
  | cons f pre =>
      rw [hm, List.cons_append] at htop
      obtain ⟨rfl, -⟩ := List.cons.inj htop
      exact h a (pre ++ .native id :: below) ucErr (by simp [Machine.onto, hm]) hstage

/-- What is nested inside a suspended run is sheltered. -/
theorem sheltered_of_run (hmasked : Masked m) (horphans : cfg.checkOrphanContexts = false)
    (ha : Suspended m a) {bs : List Action} (h : Run (step cfg) (Inside cfg m.stack) m bs m') :
    ∃ (m₁ : Machine) (B' : List Frame), m' = m₁.onto m.stack ∧
      Sheltered cfg m.emu.initialState a.context.cpu m B' (m₁.onto B') := by
  obtain ⟨⟨id, rest, hs⟩, -, chain, hlinked, hchain⟩ := ha
  let stand := (standIns a.fp chain).map Frame.run
  have hfp (fp : Nat) (hfits : fpFits fp (.run a :: rest) = true) : fpFits fp stand = true := by
    simp only [fpFits, activations_run, List.all_cons, Bool.and_eq_true, decide_eq_true_eq] at hfits
    refine List.all_eq_true.mpr fun b hb => decide_eq_true ?_
    rw [activations_map_run] at hb
    exact hfits.1.trans_le (stage_of_mem_standIns hb).2
  have hstep (t : Machine) (action : Action) (t' u : Machine)
      (hR : ∃ m₁ : Machine, t = m₁.onto m.stack ∧ u = m₁.onto (.native id :: stand))
      (hinside : Inside cfg m.stack t action) (htstep : step cfg t action = some t') :
      ∃ u', Inside cfg (.native id :: stand) u action ∧ step cfg u action = some u' ∧
        ∃ m₁ : Machine, t' = m₁.onto m.stack ∧ u' = m₁.onto (.native id :: stand) := by
    obtain ⟨m₁, rfl, rfl⟩ := hR
    rw [hs] at hinside htstep
    obtain ⟨hlong, hinside⟩ := hinside
    obtain ⟨hB, habides⟩ := hinside t' htstep
    obtain ⟨m₂, rfl, hustep⟩ := step_onto hfp hlong htstep hB
    refine ⟨_, ⟨by rwa [longJumps_onto _ id (.run a :: rest)], fun u' hu' => ?_⟩, hustep, m₂, by
      rw [hs], rfl⟩
    obtain rfl := Option.some.inj (hustep.symm.trans hu')
    exact ⟨List.suffix_append .., habides.onto⟩
  obtain ⟨u, hrun, m₁, rfl, rfl⟩ := h.simulate (t := { m with stack := .native id :: stand })
    hstep ⟨{ m with stack := [] }, rfl, rfl⟩
  refine ⟨m₁, .native id :: stand, rfl, ?_⟩
  have hbelow : ∃ b ∈ activations (.native id :: stand),
      b.context.cpu = a.context.cpu ∧ b.stage.counted = true := by
    rw [activations_native, activations_map_run]
    rw [← map_context_standIns a.fp chain] at hchain
    obtain ⟨b, hb, hcontext⟩ := List.mem_map.mp hchain
    exact ⟨b, hb, by rw [hcontext], by rw [(stage_of_mem_standIns hb).1]; rfl⟩
  have hinit : Sheltered cfg m.emu.initialState a.context.cpu m (.native id :: stand)
      { m with stack := .native id :: stand } :=
    ⟨orderly_standIns hmasked hs hlinked horphans a.fp, rfl, ⟨[], rfl, rfl⟩, [], rfl, nofun⟩
  exact hrun.invariant (fun _ _ _ ht hinside hstep => ht.step hbelow hinside hstep) hinit

/-- The chain is in order as long as the assertions about it hold, whoever long-jumps. -/
theorem suspended_of_run {p : Platform} {as : List Action} {id : Nat}
    (horphans : cfg.checkOrphanContexts = false)
    (h : Run (step cfg) (fun m action => AssertsHold cfg m action ∧ ExitsOnChain m action)
      (initial p) as m)
    (hs : m.stack = .native id :: .run a :: rest) (ha : a.stage.unfinished = true) :
    Suspended m a := by
  obtain ⟨chain, off, hleaky⟩ := leaks_of_run horphans h
  have honChain : a.stage.onChain = true := by
    revert ha
    cases a.stage <;> simp [Stage.unfinished, Stage.onChain]
  have hlive := hleaky.live
  rw [hs, activations_native, activations_run, liveContexts_cons_of_onChain honChain] at hlive
  exact ⟨⟨id, rest, hs⟩, ha, chain, hleaky.linked, hlive.subset List.mem_cons_self⟩

/-- They hold as long as nobody long-jumps. -/
theorem suspended_of_straight {p : Platform} {as : List Action} {id : Nat}
    (h : Run (step cfg) (fun m action => longJumps m action = false) (initial p) as m)
    (hs : m.stack = .native id :: .run a :: rest) (ha : a.stage.unfinished = true) :
    Suspended m a := by
  refine ⟨⟨id, rest, hs⟩, ha, _, (orderly_of_run (fun _ _ hC => hC) h).tidy.linked, ?_⟩
  have hcounted : a.stage.counted = true := by
    revert ha
    cases a.stage <;> simp [Stage.unfinished, Stage.counted]
  rw [hs, activations_native, activations_run, chainOf_cons_of_counted hcounted]
  exact List.mem_cons_self

end

/-- In every run, whoever long-jumps, and whatever the emulated functions do
otherwise, nested runs keep off a suspended frame, and return with the engine as
it was. -/
theorem keepsOff_of_run (cfg : Config) (horphans : cfg.checkOrphanContexts = false) (p : Platform)
    (as : List Action) (m : Machine) (h : Run (step cfg) (fun _ _ => True) (initial p) as m) :
    KeepsOff cfg m := by
  have hmasked : Masked m := h.invariant (fun _ _ _ hm _ hstep => hm.step hstep) (masked_initial p)
  have hpops : PopsOnly m.stack :=
    h.invariant (I := fun m => PopsOnly m.stack) (fun _ _ _ hm _ hstep => hm.step hstep)
      fun _ hb => by cases hb
  constructor
  · intro a ha bs m' hrun
    obtain ⟨m₁, B', rfl, hsheltered⟩ := sheltered_of_run hmasked horphans ha hrun
    exact hsheltered.stores
  · intro a ha bs m' hrun pre hpre hnone
    obtain ⟨m₁, B', rfl, hsheltered⟩ := sheltered_of_run hmasked horphans ha hrun
    obtain rfl : m₁.stack = pre := List.append_cancel_right hpre
    obtain ⟨pre, hs, hheld⟩ := hsheltered.held
    obtain rfl : m₁.stack = pre := List.append_cancel_right hs
    rw [holders, hnone] at hheld
    exact hheld
  · intro a rest hs ha action m' hstep
    exact storesHome_step hpops hs ha hstep

/-- An AArch64 function is stopped after a while, and an event is delivered. -/
def stoppedForEvent : List Action :=
  [.runFunc .aarch64 0x20400 (fun _ => 0) 100] ++ advances 41 ++
    [.emulate (fun _ => 0x71080000) ⟨fun _ => 0, []⟩ .ok, .advance, .notify]

/-- The innermost run when other code runs above it. -/
def suspendedRun (m : Machine) : Option Activation :=
  match m.stack with
  | .native _ :: .run a :: _ => if a.stage.unfinished then some a else none
  | _ => none

/-- The computed check finds a run that is suspended. -/
theorem suspended_of_suspendedRun {cfg : Config} {p : Platform} {as : List Action} {m : Machine}
    {a : Activation} (h : Run (step cfg) (fun m action => longJumps m action = false)
      (initial p) as m)
    (ha : suspendedRun m = some a) : Suspended m a := by
  unfold suspendedRun at ha
  split at ha
  · rename_i id b rest hs
    split at ha
    · rename_i hunfinished
      obtain rfl := Option.some.inj ha
      exact suspended_of_straight h hs hunfinished
    · cases ha
  · cases ha

/-- An AArch64 function is stopped for an event, whose notification runs another one. -/
theorem keepsOff_of_run_stoppedForEvent :
    ∃ m a, Run (step riscvConfig) (fun _ _ => True) (initial examplePlatform) stoppedForEvent m ∧
      Suspended m a ∧ m.emu.ue .aarch64 .sp = 0x71080000 ∧ KeepsOff riscvConfig m := by
  have hvalues : (exec (step riscvConfig) (fun m action => longJumps m action = false)
      (initial examplePlatform) stoppedForEvent).map
        (fun m => ((suspendedRun m).isSome, m.emu.ue .aarch64 .sp)) = some (true, 0x71080000) := by
        decide
  obtain ⟨m, hm, hboth⟩ := Option.map_eq_some_iff.mp hvalues
  obtain ⟨hsome, hsp⟩ := Prod.mk.inj hboth
  obtain ⟨a, ha⟩ := Option.isSome_iff_exists.mp hsome
  have hrun := Run.of_exec hm
  have hany := hrun.mono (D := fun _ _ => True) fun _ _ _ => trivial
  exact ⟨m, a, hany, suspended_of_suspendedRun hrun ha, hsp,
    keepsOff_of_run riscvConfig rfl examplePlatform stoppedForEvent m hany⟩

end Interleaving

end MultiArchUefi
