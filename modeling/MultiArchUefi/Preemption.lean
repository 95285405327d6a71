import MultiArchUefi.EntryStack

/-!
# MultiArchUefi.Preemption

A run that an event notification starts, anywhere between two statements of
another one, pushes from a stack pointer that is in use.

`CpuRunCtxOnPrivateStack` looks at the number of contexts of its engine, and
keeps off the stack of an older run when there is one.  But a context is counted
before its run has set the engine up, and still counted when its function has
finished, and in between the engine has whatever has been left there.
`findsCaller` says when the older runs are not in one of these windows.
-/

namespace MultiArchUefi

open Transition Handover

namespace Interleaving

/-! ## the property -/

/-- The run has been set up by `EmuThunkPre`, and its function has not finished. -/
def Stage.unfinished : Stage → Bool
  | .looping | .locked | .emulating | .stopped _ | .reasoning _ | .calling | .exitingImage _
  | .longJumping _
  | .checking _ | .freeingLeaked .. | .resuming _ | .cleaningUp .. => true
  | _ => false

/-- A register is written. -/
def Statement.isRegWrite : Statement → Bool
  | .regWrite .. => true
  | _ => false

/-- `EmuThunkPre` has not pushed anything yet. -/
def BeforePushes (cfg : Config) (cpu : CpuId) (stmts : List Statement) : Prop :=
  ∃ args written, thunkPre cfg.returnToNativeMagic cpu args = written ++ stmts ∧
    ∀ st ∈ written, st.isRegWrite = true

/-- `EmuThunkPre` of the innermost run pushes from the stack pointer of the
initial state, or from one that is at least 128 bytes below that of an older run
of its engine that has been set up and has not finished. -/
def StartsValid (cfg : Config) (m : Machine) : Prop :=
  ∀ a rest, m.stack = .run a :: rest → ∀ rsp stmts, a.stage = .settingUp rsp stmts →
    BeforePushes cfg a.context.cpu stmts →
    let cpu := a.context.cpu
    let sp := m.emu.ue cpu cpu.stackReg
    sp = m.emu.initialState cpu cpu.stackReg ∨
      ∃ b ∈ activations rest, b.context.cpu = cpu ∧ b.stage.unfinished = true ∧
        sp.toNat + 128 ≤ b.sp.toNat

/-! ## the condition -/

/-- The function has finished, and the engine has not been given back. -/
def Stage.finishing : Stage → Bool
  | .finished _ | .restoring => true
  | _ => false

/-- The stack pointer `sp`, which the older runs of the engine have left, is one
that an unfinished run uses: of the runs that have begun to use the engine and
not given it back, the innermost is unfinished, or it has finished and has left
the stack pointer where an unfinished one had it, or below. -/
def findsCaller (sp : UINT64) : List Activation → Bool
  | [] => false
  | b :: older =>
      if b.stage.unfinished then true
      else if b.stage.finishing then older.any fun c => c.stage.unfinished && sp.toNat ≤ c.sp.toNat
      else findsCaller sp older

/-- A run that is about to find another context of its engine finds a stack
pointer that an unfinished run uses, and below it room for the red zone and for
what `EmuThunkPre` pushes. -/
def decidesWell (m : Machine) : Bool :=
  match m.stack with
  | .run a :: rest =>
      let cpu := a.context.cpu
      let sp := m.emu.ue cpu cpu.stackReg
      match a.stage with
      | .deciding =>
          m.emu.contexts cpu ≤ 1 ||
            (128 + frameSize cpu ≤ sp.toNat && findsCaller sp (runsOn cpu (activations rest)))
      | _ => true
  | _ => true

/-- Nobody long-jumps, and whoever decides decides well. -/
def sheltered (m : Machine) (action : Action) : Bool :=
  !longJumps m action &&
    match action with
    | .advance => decidesWell m
    | _ => true

/-! ## the invariant -/

/-- What a run has found when it has decided to save its engine. -/
def Shelter (cpu : CpuId) (saved : RegFile) (older : List (Activation × Phase RegFile)) : Prop :=
  128 + frameSize cpu ≤ (saved cpu.stackReg).toNat ∧
    findsCaller (saved cpu.stackReg) (older.map Prod.fst) = true

/-- The holders of an engine are the runs on it. -/
theorem map_fst_holders (cpu : CpuId) (s : State) (l : List Activation) :
    (holders cpu s l).map Prod.fst = runsOn cpu l := by
  rw [holders, List.map_map]
  exact List.map_id _

/-- With room below the saved stack pointer, setting up only moves it down. -/
theorem SettingUp.le {cpu : CpuId} {initialState saved regs : RegFile} {rsp : UINT64}
    {stmts : List Statement}
    (h : SettingUp cpu (entryStart cpu initialState (some saved)) regs rsp stmts)
    (hroom : 128 + frameSize cpu ≤ (saved cpu.stackReg).toNat) :
    (regs cpu.stackReg).toNat ≤ (saved cpu.stackReg).toNat := by
  have hbalance := h.balance
  have hdown := h.down_le
  simp only [entryStart, SYSV_X64_ABI_REDZONE] at hbalance
  generalize regs cpu.stackReg = sp at hbalance ⊢
  generalize saved cpu.stackReg = start at hbalance hroom ⊢
  generalize down stmts = rest at hbalance hdown
  have hsize : frameSize cpu ≤ 136 := by cases cpu <;> decide
  generalize frameSize cpu = size at *
  bv_omega

/-- A run that is neither unfinished nor finishing has not set its engine up, or
has nothing to do with it. -/
theorem Stage.phase_cases {stage : Stage} (hunfinished : stage.unfinished = false)
    (hfinishing : stage.finishing = false) (v : RegFile) (saved : Bool) :
    stage.phase v saved = .apart ∨ stage.phase v saved = .asking ∨
      stage.phase v saved = .keeping v ∨
      stage.phase v saved = .starting ∨ ∃ rsp stmts, stage = .settingUp rsp stmts := by
  cases stage <;> simp_all [Stage.unfinished, Stage.finishing, Stage.phase]

/-- A run that is not finished holds its engine, with what it has saved. -/
theorem Stage.phase_of_unfinished {stage : Stage} (h : stage.unfinished = true) (v : RegFile)
    (saved : Bool) :
    stage.phase v saved = .holding (if saved then some v else none) := by
  cases stage <;> first | rfl | cases h

/-- Where the older runs have been found well, one of them uses the stack pointer. -/
theorem exists_unfinished {initialState : CpuId → RegFile} {cpu : CpuId}
    {base : RegFile → Prop} {s : State} {l : List Activation}
    (hcpu : ∀ b ∈ l, b.context.cpu = cpu) {p : RegFile}
    (hheld : Held (Engaged initialState) (Shelter cpu) base p (l.map fun a => (a, a.phase s)))
    (hfinds : findsCaller (p cpu.stackReg) l = true) :
    ∃ b ∈ l, b.stage.unfinished = true ∧ (p cpu.stackReg).toNat ≤ b.sp.toNat := by
  induction l generalizing p with
  | nil => cases hfinds
  | cons b l ih =>
      have hl : ∀ c ∈ l, c.context.cpu = cpu := fun c hc => hcpu c (List.mem_cons_of_mem _ hc)
      have hb : b.context.cpu = cpu := hcpu b List.mem_cons_self
      have hskip {q : RegFile} (hq : (p cpu.stackReg).toNat ≤ (q cpu.stackReg).toNat)
          (hheld : Held (Engaged initialState) (Shelter cpu) base q (l.map fun a => (a, a.phase s)))
          (hfinds : findsCaller (q cpu.stackReg) l = true) :
          ∃ c ∈ b :: l, c.stage.unfinished = true ∧ (p cpu.stackReg).toNat ≤ c.sp.toNat := by
        obtain ⟨c, hc, hunfinished, hle⟩ := ih hl hheld hfinds
        exact ⟨c, List.mem_cons_of_mem _ hc, hunfinished, hq.trans hle⟩
      rw [List.map_cons] at hheld
      rw [findsCaller] at hfinds
      cases hunfinished : b.stage.unfinished with
      | true =>
          rw [Activation.phase, Stage.phase_of_unfinished hunfinished] at hheld
          have hsp : b.sp = p cpu.stackReg := by
            rw [← hb]
            split at hheld
            · exact hheld.1.sp
            · exact hheld.1.sp
          exact ⟨b, List.mem_cons_self, hunfinished, by rw [hsp]⟩
      | false =>
          rw [hunfinished, if_neg Bool.false_ne_true] at hfinds
          cases hfinishing : b.stage.finishing with
          | true =>
              rw [hfinishing, if_pos rfl] at hfinds
              obtain ⟨c, hc, hboth⟩ := List.any_eq_true.mp hfinds
              rw [Bool.and_eq_true, decide_eq_true_eq] at hboth
              exact ⟨c, List.mem_cons_of_mem _ hc, hboth⟩
          | false =>
              rw [hfinishing, if_neg Bool.false_ne_true] at hfinds
              rw [Activation.phase] at hheld
              rcases Stage.phase_cases hunfinished hfinishing (s.context b.context).prevUcContext
                (s.context b.context).haveSaved
                with hphase | hphase | hphase | hphase | ⟨rsp, stmts, hstage⟩
              · rw [hphase] at hheld
                exact hskip le_rfl hheld hfinds
              · rw [hphase] at hheld
                exact hskip le_rfl hheld.2 hfinds
              · rw [hphase] at hheld
                exact hskip le_rfl hheld.2.2 hfinds
              · rw [hphase] at hheld
                exact hskip le_rfl (hheld p) hfinds
              · rw [hstage] at hheld
                simp only [Stage.phase] at hheld
                split at hheld
                · obtain ⟨hengaged, ⟨hroom, hfound⟩, hheld⟩ := hheld
                  have hle := (hengaged.settingUp rsp stmts hstage).le (hb ▸ hroom)
                  refine hskip (hb ▸ hle) hheld ?_
                  simpa [Function.comp_def] using hfound
                · exact hskip le_rfl (hheld.2 p) hfinds

/-- The books are in order, and whatever the engines have been used for and left
in the middle of is known. -/
structure Preemptible (cfg : Config) (init : CpuId → RegFile) (m : Machine) : Prop where
  orderly : Orderly cfg m
  initialState : m.emu.initialState = init
  held : ∀ cpu, Held (Engaged init) (Shelter cpu) (fun _ => True) (m.emu.ue cpu)
    (holders cpu m.emu (activations m.stack))

namespace Preemptible

variable {cfg : Config} {init : CpuId → RegFile} {m m' : Machine} {action : Action}

/-- Sheltered steps take no long jump. -/
theorem straight_of_sheltered (h : sheltered m action = true) : Straight m action := by
  simp only [sheltered, Bool.and_eq_true, Bool.not_eq_true'] at h
  exact h.1

/-- The step lemma. -/
theorem step (h : Preemptible cfg init m) (hsheltered : sheltered m action = true)
    (hstep : Interleaving.step cfg m action = some m') : Preemptible cfg init m' := by
  have hlong := straight_of_sheltered hsheltered
  refine ⟨h.orderly.step hlong hstep, ?_, fun cpu => ?_⟩
  · exact (h.orderly.tidy.step h.orderly.masked hlong hstep).initialState.trans h.initialState
  · have hs : m.stack = m.stack ++ [] := (List.append_nil _).symm
    have hall : ∃ pre, m'.stack = pre ++ [] ∧ Held (Engaged init) (Shelter cpu) (fun _ => True)
      (m'.emu.ue cpu)
        (holders cpu m'.emu (activations pre)) := by
      refine h.orderly.held_step hlong hstep hs List.nil_suffix (.inl fun _ => trivial)
        (fun a rest hadvance htop hcpu hdeciding hcontexts _ => ?_) (fun a v l args hcpu _ => ?_)
        (fun a args hcpu => ?_) (fun a a' v l stores _ hcpu huses _ hengaged => ?_) (h.held cpu)
      · rw [List.append_nil] at htop
        simp only [hadvance, sheltered, Bool.and_eq_true] at hsheltered
        have hwell := hsheltered.2
        simp only [decidesWell, htop, hdeciding, hcpu, Bool.or_eq_true, Bool.and_eq_true,
          decide_eq_true_eq] at hwell
        have hfound := hwell.resolve_left (not_le.mpr hcontexts)
        rwa [Shelter, map_fst_holders]
      · exact hcpu ▸ engaged_take init _ a v args
      · rw [h.initialState]
        exact hcpu ▸ engaged_begin init _ a args
      · exact huses.engaged hengaged
    obtain ⟨pre, hpre, hheld⟩ := hall
    rwa [show m'.stack = pre by simpa using hpre]

/-- The registers that `EmuThunkPre` writes first do not move the stack pointer. -/
theorem down_of_beforePushes {cpu : CpuId} {stmts : List Statement}
    (h : BeforePushes cfg cpu stmts) :
    down stmts = frameSize cpu := by
  obtain ⟨args, written, heq, hwritten⟩ := h
  have hzero : down written = 0 := by
    clear heq
    induction written with
    | nil => rfl
    | cons st written ih =>
        have hst := hwritten st List.mem_cons_self
        cases st with
        | regWrite r val =>
            simpa [down, Statement.move] using ih fun st hst => hwritten st
              (List.mem_cons_of_mem _ hst)
        | _ => cases hst
  have hdown := down_thunkPre cfg.returnToNativeMagic cpu args
  rw [heq, down_append, hzero, Nat.zero_add] at hdown
  exact hdown

theorem startsValid (h : Preemptible cfg init m) : StartsValid cfg m := by
  intro a rest hs rsp stmts hstage hbefore
  have hheld := h.held a.context.cpu
  rw [hs, activations_run, holders_cons_self rfl, Activation.phase_of hstage] at hheld
  have hdown := down_of_beforePushes hbefore
  simp only [Stage.phase] at hheld
  split at hheld
  · -- the red zone is below the stack pointer that has been saved
    obtain ⟨hengaged, ⟨hroom, hfound⟩, hheld⟩ := hheld
    have hbalance := (hengaged.settingUp rsp stmts hstage).balance
    rw [hdown, BitVec.add_left_inj] at hbalance
    have hruns : ∀ b ∈ runsOn a.context.cpu (activations rest), b.context.cpu = a.context.cpu :=
      fun b hb =>
      of_decide_eq_true (List.mem_filter.mp hb).2
    obtain ⟨b, hb, hunfinished, hle⟩ := exists_unfinished hruns hheld (map_fst_holders .. ▸ hfound)
    obtain ⟨hb, hcpu⟩ := List.mem_filter.mp hb
    refine .inr ⟨b, hb, of_decide_eq_true hcpu, hunfinished, ?_⟩
    rw [hbalance]
    simp only [entryStart, SYSV_X64_ABI_REDZONE]
    bv_omega
  · have hbalance := (hheld.1.settingUp rsp stmts hstage).balance
    rw [hdown, BitVec.add_left_inj] at hbalance
    rw [h.initialState]
    exact .inl hbalance

end Preemptible

/-! ## whole runs -/

/-- In every run in which nobody long-jumps and every run that finds another
context of its engine decides well, `EmuThunkPre` pushes from a valid stack
pointer in every state reached, wherever notifications are delivered, whatever
runs they start, and however earlier emulation has failed. -/
theorem startsValid_of_run (cfg : Config) (p : Platform) (as : List Action) (m : Machine)
    (h : Run (step cfg) (fun m action => sheltered m action = true) (initial p) as m) :
    StartsValid cfg m := by
  have hinit : Preemptible cfg (cpuInit p).initialState (initial p) :=
    ⟨orderly_initial cfg p, rfl, fun _ => trivial⟩
  have hinv : Preemptible cfg (cpuInit p).initialState m :=
    h.invariant (fun _ _ _ hm hc hstep => hm.step hc hstep) hinit
  exact hinv.startsValid

/-- An AArch64 function is stopped after a while, and an event is delivered that
runs another one. -/
def preemptedOnTimeout : List Action :=
  [.runFunc .aarch64 0x20400 (fun _ => 0) 100] ++ advances 41 ++
    [.emulate (fun _ => 0x71080000) ⟨fun _ => 0, []⟩ .ok, .advance, .notify,
      .runFunc .aarch64 0x20800 (fun _ => 0) 50] ++ advances 8

/-- A notification is delivered while an emulation ends with a timeout. -/
theorem startsValid_of_run_onTimeout :
    ∃ m, exec (step riscvConfig) (fun m action => sheltered m action = true)
      (initial examplePlatform)
      preemptedOnTimeout = some m ∧ m.emu.ue .aarch64 .sp = 0x7107ff80 ∧
      StartsValid riscvConfig m := by
  have hvalues : (exec (step riscvConfig) (fun m action => sheltered m action = true)
      (initial examplePlatform) preemptedOnTimeout).map (fun m => m.emu.ue .aarch64 .sp) =
      some 0x7107ff80 := by decide
  obtain ⟨m, hm, hsp⟩ := Option.map_eq_some_iff.mp hvalues
  exact ⟨m, hm, hsp, startsValid_of_run _ _ _ _ (.of_exec hm)⟩

/-- `EmuThunkPre` of the innermost run is about to start from another stack
pointer than the initial one, and no older run is unfinished. -/
def startsAstray (cfg : Config) (m : Machine) : Bool :=
  match m.stack with
  | .run a :: rest =>
      let cpu := a.context.cpu
      match a.stage with
      | .settingUp _ stmts =>
          stmts = thunkPre cfg.returnToNativeMagic cpu (m.emu.context a.context).args &&
            m.emu.ue cpu cpu.stackReg ≠ m.emu.initialState cpu cpu.stackReg &&
            (activations rest).all fun b => !b.stage.unfinished
      | _ => false
  | _ => false

/-- The computed check finds a start with a stack that is not valid. -/
theorem not_startsValid {cfg : Config} {m : Machine} (h : startsAstray cfg m = true) :
    ¬StartsValid cfg m := by
  intro hvalid
  unfold startsAstray at h
  split at h
  · rename_i a rest hs
    split at h
    · rename_i rsp stmts hstage
      simp only [Bool.and_eq_true, decide_eq_true_eq, List.all_eq_true, Bool.not_eq_true'] at h
      obtain ⟨⟨hstmts, hsp⟩, hnone⟩ := h
      have hbefore : BeforePushes cfg a.context.cpu stmts :=
        ⟨(m.emu.context a.context).args, [], hstmts.symm, nofun⟩
      rcases hvalid a rest hs rsp stmts hstage hbefore with hinit | ⟨b, hb, -, hunfinished, -⟩
      · exact hsp hinit
      · rw [hnone b hb] at hunfinished
        cases hunfinished
    · cases h
  · cases h

/-- The emulation of a function fails, and leaves its engine's stack pointer
somewhere.  When the next function has been entered, and its run has not looked
at the number of contexts yet, an event is delivered that runs another one. -/
def preemptedBeforeDecision : List Action :=
  [.runFunc .aarch64 0x20400 (fun _ => 0) 100] ++ advances 41 ++
    [.emulate (fun _ => 0x413000) ⟨fun _ => 0, []⟩ (.other 1)] ++ advances 6 ++
    [.runFunc .aarch64 0x20400 (fun _ => 0) 100] ++ advances 2 ++
    [.notify, .runFunc .aarch64 0x20800 (fun _ => 0) 50] ++ advances 8

/-- The notification's run finds the context of the other one, and pushes below
what the failed emulation has left. -/
theorem preemptedBeforeDecision_startsAstray :
    ∃ m, Run (step riscvConfig) (fun m action => longJumps m action = false)
      (initial examplePlatform)
      preemptedBeforeDecision m ∧ ¬StartsValid riscvConfig m := by
  have hvalues : (exec (step riscvConfig) (fun m action => longJumps m action = false)
      (initial examplePlatform) preemptedBeforeDecision).map (startsAstray riscvConfig) =
      some true := by decide
  obtain ⟨m, hm, hastray⟩ := Option.map_eq_some_iff.mp hvalues
  exact ⟨m, .of_exec hm, not_startsValid hastray⟩

end Interleaving

end MultiArchUefi
