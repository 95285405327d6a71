import MultiArchUefi.Orderly
import MultiArchUefi.Lib.Handover

/-!
# MultiArchUefi.Turns

What one step does to the runs, as long as nobody long-jumps.

`Effect` says which run comes, goes or goes on, and `Turn` what a run that goes
on does with its engine: nothing, take it over with or without saving it, use it
(`Uses`), or give it back.  For the registers of one engine that is a step of
`Handover`, with the runs of the engine as the holders.  `Orderly` is what every
such step keeps.
-/

namespace MultiArchUefi

open Transition Chain Handover

namespace Interleaving

/-! ## holders of an engine -/

/-- How far a run is with its engine, from what its context has saved. -/
def Stage.phase (prevUcContext : RegFile) (haveSaved : Bool) : Stage → Phase RegFile
  | .entering | .entered | .freeingOrphans _ | .deciding => .apart
  | .saving => .asking
  | .flagging => .keeping prevUcContext
  | .initializing => .starting
  | .unflagging | .leaving | .left | .returned => .apart
  | .imageExited | .freeingExited .. | .callingExit | .exitReturned _ => .apart
  | _ => .holding (if haveSaved then some prevUcContext else none)

namespace Activation

def cpu (a : Activation) : CpuId := a.context.cpu

def phase (s : State) (a : Activation) : Phase RegFile :=
  a.stage.phase (s.context a.context).prevUcContext (s.context a.context).haveSaved

theorem phase_of {s : State} {a : Activation} {stage : Stage} (h : a.stage = stage) :
    a.phase s = stage.phase (s.context a.context).prevUcContext
      (s.context a.context).haveSaved := by
  rw [phase, h]

theorem phase_congr {s s' : State} {a : Activation}
    (h : s'.context a.context = s.context a.context) :
    a.phase s' = a.phase s := by
  rw [phase, phase, h]

end Activation

/-- The runs of the engine among `l`. -/
def runsOn (cpu : CpuId) (l : List Activation) : List Activation :=
  l.filter fun a => a.context.cpu = cpu

/-- The runs of the engine among `l`, and how far they are. -/
def holders (cpu : CpuId) (s : State) (l : List Activation) : List (Activation × Phase RegFile) :=
  (runsOn cpu l).map fun a => (a, a.phase s)

@[simp] theorem holders_nil (cpu : CpuId) (s : State) : holders cpu s [] = [] := rfl

theorem holders_cons_self {cpu : CpuId} {a : Activation} (h : a.context.cpu = cpu) (s : State)
    (l : List Activation) : holders cpu s (a :: l) = (a, a.phase s) :: holders cpu s l := by
  simp [holders, runsOn, h]

theorem holders_cons_of_ne {cpu : CpuId} {a : Activation} (h : a.context.cpu ≠ cpu) (s : State)
    (l : List Activation) : holders cpu s (a :: l) = holders cpu s l := by
  simp [holders, runsOn, h]

theorem holders_congr {cpu : CpuId} {s s' : State} {l : List Activation}
    (h : ∀ a ∈ l, s'.context a.context = s.context a.context) :
    holders cpu s' l = holders cpu s l := by
  refine List.map_congr_left fun a ha => ?_
  rw [Activation.phase_congr (h a (List.mem_filter.mp ha).1)]

/-! ## turns -/

/-- The next stage of a run that leaves its engine as it is. -/
inductive Next (cfg : Config) (cpu : CpuId) (regs : RegFile) : Stage → Stage → Prop
  | lock : Next cfg cpu regs .looping .locked
  | emulate : Next cfg cpu regs .locked .emulating
  | unlock {ucErr : UcErr} : Next cfg cpu regs (.stopped ucErr) (.reasoning ucErr)
  | again {ucErr : UcErr} (h : cpuExitReason cfg ucErr (regs cpu.programCounterReg) = .none) :
      Next cfg cpu regs (.reasoning ucErr) .looping
  | fail {ucErr : UcErr} {ret : UINT64}
      (h : cpuExitReason cfg ucErr (regs cpu.programCounterReg) = .failedEmu) :
      Next cfg cpu regs (.reasoning ucErr) (.finished ret)
  | return {ucErr : UcErr}
      (h : cpuExitReason cfg ucErr (regs cpu.programCounterReg) = .returnToNative) :
      Next cfg cpu regs (.reasoning ucErr) (.cleaningUp 0 (thunkPost cpu))
  | refuse {args : Args} {value : UINT64} : Next cfg cpu regs (.exitingImage args) (.checking value)
  | exit {args : Args} {record : RecordId} :
      Next cfg cpu regs (.exitingImage args) (.longJumping record)
  | check {value : UINT64} : Next cfg cpu regs (.checking value) (.resuming value)
  | clean {rsp ret : UINT64} : Next cfg cpu regs (.cleaningUp rsp []) (.finished ret)
  | restore {ret : UINT64} : Next cfg cpu regs (.finished ret) .restoring

/-- Where a native call can lead. -/
inductive Called : Stage → Prop
  | unsupported {value : UINT64} : Called (.checking value)
  | exit {args : Args} : Called (.exitingImage args)
  | away : Called .calling

/-- How the run `a` uses its engine, with the registers going from `regs` to
`regs'`, and the words that are stored on the way. -/
inductive Uses (cfg : Config) (a : Activation) (regs : RegFile) :
    Activation → RegFile → List Store → Prop
  | next {stage : Stage} {programCounter : UINT64} (h : Next cfg a.context.cpu regs a.stage stage) :
      Uses cfg a regs
        { a with
          stage := stage
          programCounter := programCounter
          sp := regs a.context.cpu.stackReg }
        regs []
  | returned {value : UINT64} (h : a.stage = .calling) :
      Uses cfg a regs { a with stage := .checking value } regs []
  | setUp {rsp : UINT64} {st : Statement} {stmts : List Statement} {memory : WordMemory.Memory}
      {r : UINT64 × Engine} (h : a.stage = .settingUp rsp (st :: stmts))
      (hf : st.faults rsp = false) (hexec : st.exec a.context.cpu (rsp, ⟨regs, memory⟩) = r) :
      Uses cfg a regs
        { a with stage := .settingUp r.1 stmts, sp := r.2.regs a.context.cpu.stackReg }
        r.2.regs (Machine.storesOf a rsp st)
  | start {rsp programCounter : UINT64} (h : a.stage = .settingUp rsp []) :
      Uses cfg a regs
        { a with
          stage := .looping, programCounter := programCounter, entrySp :=
            regs a.context.cpu.stackReg
          sp := regs a.context.cpu.stackReg }
        regs []
  | emulated {regs' : RegFile} {ucErr : UcErr} (h : a.stage = .emulating) :
      Uses cfg a regs { a with stage := .stopped ucErr, sp := regs' a.context.cpu.stackReg } regs'
        []
  | call {ucErr : UcErr} {stage : Stage} {stored : List Store} (h : a.stage = .reasoning ucErr)
      (hreason : cpuExitReason cfg ucErr (regs a.context.cpu.programCounterReg) = .callToNative)
      (hstage : Called stage)
      (hstored : ∀ st ∈ stored, st.id = a.id ∧ st.cpu = a.context.cpu ∧
        st.address ∈ Machine.homeZone cfg a.context.cpu
          (regs a.context.cpu.programCounterReg) regs) :
      Uses cfg a regs { a with stage := stage, sp := regs a.context.cpu.stackReg } regs stored
  | resume {value : UINT64} {memory : WordMemory.Memory} {r : UINT64 × Engine}
      (h : a.stage = .resuming value)
      (hleave : nativeThunkLeave a.context.cpu value ⟨regs, memory⟩ = r) :
      Uses cfg a regs
        { a with stage := .looping, programCounter := r.1, sp := r.2.regs a.context.cpu.stackReg }
        r.2.regs []
  | cleanUp {rsp : UINT64} {st : Statement} {stmts : List Statement} {memory : WordMemory.Memory}
      {r : UINT64 × Engine} (h : a.stage = .cleaningUp rsp (st :: stmts))
      (hf : st.faults rsp = false) (hexec : st.exec a.context.cpu (rsp, ⟨regs, memory⟩) = r) :
      Uses cfg a regs
        { a with stage := .cleaningUp r.1 stmts, sp := r.2.regs a.context.cpu.stackReg }
        r.2.regs (Machine.storesOf a rsp st)

/-- What the run `a`, which becomes `a'`, does with its engine when the driver
goes from `s` to `s'`. -/
inductive Turn (cfg : Config) (s : State) (a : Activation) (s' : State) :
    Activation → List Store → Prop
  | apart {a' : Activation} (h : a.phase s = .apart) (h' : a'.phase s' = .apart)
      (hue : s'.ue = s.ue) :
      Turn cfg s a s' a' []
  | ask {a' : Activation} (h : a.stage = .deciding) (hcontexts : s.contexts a.context.cpu > 1)
      (h' : a'.stage = .saving) (hue : s'.ue = s.ue) : Turn cfg s a s' a' []
  | start {a' : Activation} (h : a.stage = .deciding) (hcontexts : ¬s.contexts a.context.cpu > 1)
      (h' : a'.stage = .initializing) (hue : s'.ue = s.ue) : Turn cfg s a s' a' []
  | keep {a' : Activation} (h : a.stage = .saving)
      (h' : a'.phase s' = .keeping (s.ue a.context.cpu)) (hue : s'.ue = s.ue) :
      Turn cfg s a s' a' []
  | take {args : Args} {v : RegFile} (h : a.phase s = .keeping v)
      (h' : (s'.context a.context).haveSaved = true ∧ (s'.context a.context).prevUcContext = v)
      (hue : s'.ue = s.ue) :
      Turn cfg s a s'
        { a with
          stage := .settingUp 0
            (stackPushRedZone ++ thunkPre cfg.returnToNativeMagic a.context.cpu args)
          sp := s.ue a.context.cpu a.context.cpu.stackReg } []
  | begin {args : Args} (h : a.stage = .initializing)
      (h' : (s'.context a.context).haveSaved = false)
      (hue : s'.ue = Function.update s.ue a.context.cpu (s.initialState a.context.cpu)) :
      Turn cfg s a s'
        { a with
          stage := .settingUp 0 (thunkPre cfg.returnToNativeMagic a.context.cpu args)
          sp := s.initialState a.context.cpu a.context.cpu.stackReg } []
  | use {a' : Activation} {v : Option RegFile} {stores : List Store} (h : a.phase s = .holding v)
      (h' : a'.phase s' = .holding v) (hue : ∀ cpu, cpu ≠ a.context.cpu → s'.ue cpu = s.ue cpu)
      (huses : Uses cfg a (s.ue a.context.cpu) a' (s'.ue a.context.cpu) stores) :
      Turn cfg s a s' a' stores
  | giveBack {a' : Activation} {v : RegFile} (h : a.phase s = .holding (some v))
      (h' : a'.phase s' = .apart) (hue : s'.ue = Function.update s.ue a.context.cpu v) :
      Turn cfg s a s' a' []
  | quit {a' : Activation} (h : a.phase s = .holding none) (h' : a'.phase s' = .apart)
      (hue : s'.ue = s.ue) :
      Turn cfg s a s' a' []

/-- What one step can do to the runs. -/
inductive Effect (cfg : Config) (m : Machine) (action : Action) (m' : Machine) : Prop
  /-- Other code goes on, is called or returns. -/
  | still (hl : activations m'.stack = activations m.stack)
      (hcontext : m'.emu.context = m.emu.context) (hue : m'.emu.ue = m.emu.ue)
      (hstores : m'.stores = m.stores)
  | push {a : Activation} (hs : m'.stack = .run a :: m.stack) (ha : a.stage = .entering)
      (hother : ∀ b ∈ activations m.stack, m'.emu.context b.context = m.emu.context b.context)
      (hue : m'.emu.ue = m.emu.ue) (hstores : m'.stores = m.stores)
  | pop {a : Activation} {rest : List Frame} (hs : m.stack = .run a :: rest)
      (ha : a.stage = .returned) (hs' : m'.stack = rest) (hcontext : m'.emu.context = m.emu.context)
      (hue : m'.emu.ue = m.emu.ue) (hstores : m'.stores = m.stores)
  | go {a a' : Activation} {above above' rest : List Frame} {stores : List Store}
      (hs : m.stack = above ++ .run a :: rest) (hs' : m'.stack = above' ++ .run a' :: rest)
      (habove : activations above = []) (habove' : activations above' = [])
      (hdecides : a.stage = .deciding → action = .advance ∧ above = [])
      (hstage : a'.stage ≠ a.stage) (hctx : a'.context = a.context)
      (hother : ∀ k, k ≠ a.context → m'.emu.context k = m.emu.context k)
      (hturn : Turn cfg m.emu a m'.emu a' stores) (hstores : m'.stores = stores ++ m.stores)

/-! ## the innermost run goes on -/

/-- The run is somewhere between taking its engine over and giving it back. -/
def Stage.busy : Stage → Bool
  | .settingUp .. | .looping | .locked | .emulating | .stopped _ | .reasoning _ | .calling
  | .exitingImage _
  | .longJumping _ | .checking _ | .resuming _ | .cleaningUp .. | .finished _ => true
  | _ => false

namespace Stage

variable {stage : Stage}

theorem counted_of_busy (h : stage.busy = true) : stage.counted = true := by
  cases stage <;> first | rfl | cases h

theorem straight_of_busy (h : stage.busy = true) : stage.straight = true := by
  cases stage <;> first | rfl | cases h

theorem marked_of_busy (h : stage.busy = true) : stage.marked = true := by
  cases stage <;> first | rfl | cases h

theorem flagsFit_of_busy (h : stage.busy = true) {flags : UINT64}
    (hflags : flags = 0 ∨ flags = CRC_HAVE_SAVED_UC_CONTEXT) : stage.FlagsFit flags := by
  cases stage <;> first | exact hflags | cases h

theorem phase_of_busy (h : stage.busy = true) (prevUcContext : RegFile) (haveSaved : Bool) :
    stage.phase prevUcContext haveSaved = .holding
      (if haveSaved then some prevUcContext else none) := by
  cases stage <;> first | rfl | cases h

end Stage

/-- What the step from `m` to `m'` keeps, and what it does. -/
structure Outcome (cfg : Config) (m : Machine) (action : Action) (m' : Machine) : Prop where
  tidy : Tidy cfg m'.emu (activations m'.stack)
  effect : Effect cfg m action m'
  initialState : m'.emu.initialState = m.emu.initialState

namespace Tidy

variable {cfg : Config} {m m' : Machine} {action : Action} {a a' : Activation}
  {above above' rest : List Frame} {stores : List Store}

theorem go (h : Tidy cfg m.emu (activations m.stack)) (hs : m.stack = above ++ .run a :: rest)
    (hs' : m'.stack = above' ++ .run a' :: rest) (habove : activations above = [])
    (habove' : activations above' = [])
    (hdecides : a.stage = .deciding → action = .advance ∧ above = []) (hstage : a'.stage ≠ a.stage)
    (hctx : a'.context = a.context) (hfp : a'.fp = a.fp) (hc : a'.stage.counted = a.stage.counted)
    (ho : OwnChange a.context m.emu m'.emu)
    (hflags : a'.stage.FlagsFit (m'.emu.context a.context).flags)
    (hstraight : a'.stage.straight = true)
    (hcookie : cfg.checkOrphanContexts = true → a'.stage.marked = true →
      (m'.emu.context a.context).leakCookie = a.fp)
    (hturn : Turn cfg m.emu a m'.emu a' stores) (hstores : m'.stores = stores ++ m.stores) :
    Outcome cfg m action m' := by
  have hl : activations m.stack = a :: activations rest := by simp [hs, habove]
  have hl' : activations m'.stack = a' :: activations rest := by simp [hs', habove']
  rw [hl] at h
  refine ⟨?_, .go hs hs' habove habove' hdecides hstage hctx ho.other hturn hstores,
    ho.initialState⟩
  rw [hl']
  exact h.own ho hctx hfp hc hflags hstraight hcookie

/-- A run that has its engine goes on, and nothing in the books changes. -/
theorem use (h : Tidy cfg m.emu (activations m.stack)) (hs : m.stack = above ++ .run a :: rest)
    (hs' : m'.stack = above' ++ .run a' :: rest) (habove : activations above = [])
    (habove' : activations above' = []) (hstage : a'.stage ≠ a.stage)
    (hctx : a'.context = a.context) (hfp : a'.fp = a.fp) (hbusy : a.stage.busy = true)
    (hbusy' : a'.stage.busy = true) (hsame : SameBooks m.emu m'.emu)
    (hue : ∀ cpu, cpu ≠ a.context.cpu → m'.emu.ue cpu = m.emu.ue cpu)
    (huses : Uses cfg a (m.emu.ue a.context.cpu) a' (m'.emu.ue a.context.cpu) stores)
    (hstores : m'.stores = stores ++ m.stores) : Outcome cfg m action m' := by
  have ha : a ∈ activations m.stack := by simp [hs]
  have hphase : a.phase m.emu = .holding (if (m.emu.context a.context).haveSaved then
      some (m.emu.context a.context).prevUcContext else none) := Stage.phase_of_busy hbusy _ _
  have hdecides : a.stage = .deciding → action = .advance ∧ above = [] := fun hd => by
    rw [hd] at hbusy
    cases hbusy
  refine h.go hs hs' habove habove' hdecides hstage hctx hfp ?_ (.of_sameBooks hsame _) ?_
    (Stage.straight_of_busy hbusy') (fun hcfg _ => ?_) (.use hphase ?_ hue huses) hstores
  · rw [Stage.counted_of_busy hbusy, Stage.counted_of_busy hbusy']
  · rw [hsame.context]
    exact Stage.flagsFit_of_busy hbusy' (h.flags a ha).cases
  · rw [hsame.context]
    exact h.cookies hcfg a ha (Stage.marked_of_busy hbusy)
  · rw [Activation.phase, hctx, hsame.context]
    exact Stage.phase_of_busy hbusy' _ _

/-- Other code goes on, is called or returns. -/
theorem still (h : Tidy cfg m.emu (activations m.stack))
    (hl : activations m'.stack = activations m.stack) (hsame : SameBooks m.emu m'.emu)
    (hue : m'.emu.ue = m.emu.ue) (hstores : m'.stores = m.stores) :
    Outcome cfg m action m' where
  tidy := by
    rw [hl]
    exact h.sameBooks hsame
  effect := .still hl hsame.context hue hstores
  initialState := hsame.initialState

theorem useTop (h : Tidy cfg m.emu (activations m.stack)) (hs : m.stack = .run a :: rest)
    (hs' : m'.stack = .run a' :: rest) (hstage : a'.stage ≠ a.stage) (hctx : a'.context = a.context)
    (hfp : a'.fp = a.fp) (hbusy : a.stage.busy = true) (hbusy' : a'.stage.busy = true)
    (hsame : SameBooks m.emu m'.emu)
    (hue : ∀ cpu, cpu ≠ a.context.cpu → m'.emu.ue cpu = m.emu.ue cpu)
    (huses : Uses cfg a (m.emu.ue a.context.cpu) a' (m'.emu.ue a.context.cpu) stores)
    (hstores : m'.stores = stores ++ m.stores) : Outcome cfg m action m' :=
  have hs₀ : m.stack = [] ++ .run a :: rest := hs
  have hs₀' : m'.stack = [] ++ .run a' :: rest := hs'
  h.use hs₀ hs₀' rfl rfl hstage hctx hfp hbusy hbusy' hsame hue huses hstores

/-- A statement of `CpuStackPushRedZone` or of a thunk. -/
theorem execStatement (h : Tidy cfg m.emu (activations m.stack)) (hs : m.stack = .run a :: rest)
    {stage : UINT64 → Stage} {rsp : UINT64} {st : Statement} (hbusy : a.stage.busy = true)
    (hbusy' : ∀ rsp, (stage rsp).busy = true) (hstage : ∀ rsp, stage rsp ≠ a.stage)
    (huses : ∀ r : UINT64 × Engine, st.faults rsp = false →
      st.exec a.context.cpu (rsp, ⟨m.emu.ue a.context.cpu, m.emu.memory⟩) = r →
      Uses cfg a (m.emu.ue a.context.cpu)
        { a with stage := stage r.1, sp := r.2.regs a.context.cpu.stackReg } r.2.regs
        (Machine.storesOf a rsp st))
    (hstep : m.execStatement a rest stage rsp st = some m') : Outcome cfg m action m' := by
  simp only [Machine.execStatement] at hstep
  split at hstep
  · cases hstep
  · rename_i hf
    obtain rfl := Option.some.inj hstep
    have hregs := huses _ (Bool.eq_false_iff.mpr hf) rfl
    refine h.useTop hs rfl (hstage _) rfl rfl hbusy (hbusy' _) (SameBooks.setEngines _ _ _)
      (fun cpu hcpu => ?_)
      ?_ rfl
    · exact Function.update_of_ne hcpu ..
    · simpa only [Machine.goto, Function.update_self] using hregs

/-- `NativeThunk`, up to the call. -/
theorem callNative (h : Tidy cfg m.emu (activations m.stack)) (hs : m.stack = .run a :: rest)
    {ucErr : UcErr} (ha : a.stage = .reasoning ucErr)
    (hreason : cpuExitReason cfg ucErr (m.emu.ue a.context.cpu a.context.cpu.programCounterReg) =
      .callToNative)
    {s : State} (hsame : SameBooks m.emu s) (hue : s.ue = m.emu.ue) :
    Outcome cfg m action
      (m.callNative cfg a rest (m.emu.ue a.context.cpu a.context.cpu.programCounterReg) s) := by
  generalize hpc : m.emu.ue a.context.cpu a.context.cpu.programCounterReg =
    programCounter at hreason
  let e := (nativeThunkEnter cfg a.context.cpu programCounter ⟨s.ue a.context.cpu, s.memory⟩).2
  let s' : State := { s with ue := Function.update s.ue a.context.cpu e.regs, memory := e.memory }
  have hregs : s'.ue = m.emu.ue := by
    have : e.regs = s.ue a.context.cpu := nativeThunkEnter_regs ..
    show Function.update s.ue a.context.cpu e.regs = m.emu.ue
    rw [this, Function.update_eq_self, hue]
  have hsame' : SameBooks m.emu s' := hsame.trans (SameBooks.setEngines s _ _)
  have hbusy : a.stage.busy = true := by rw [ha]; rfl
  let stored := ((Machine.homeZone cfg a.context.cpu programCounter (s.ue a.context.cpu)).map
    fun address => (⟨a.id, a.context.cpu, address⟩ : Store)).reverse
  have hstored : ∀ st ∈ stored, st.id = a.id ∧ st.cpu = a.context.cpu ∧
      st.address ∈ Machine.homeZone cfg a.context.cpu
        (m.emu.ue a.context.cpu a.context.cpu.programCounterReg) (m.emu.ue a.context.cpu) := by
    intro st hst
    obtain ⟨address, haddress, rfl⟩ := List.mem_map.mp (List.mem_reverse.mp hst)
    rw [hpc, ← hue]
    exact ⟨rfl, rfl, haddress⟩
  -- with whatever native frames on top
  have hcalled {m' : Machine} (b : List Frame) (hb : activations b = []) {stage : Stage}
      (hstage : Called stage)
      (hs' : m'.stack = b ++
        .run { a with stage := stage, sp := s'.ue a.context.cpu a.context.cpu.stackReg } :: rest)
      (hemu : m'.emu = s') (hstores : m'.stores = stored ++ m.stores) :
      Outcome cfg m action m' := by
    have hs₀ : m.stack = [] ++ .run a :: rest := hs
    refine h.use hs₀ hs' rfl hb ?_ rfl rfl hbusy ?_ ?_ (fun cpu _ => ?_) ?_ hstores
    · rw [ha]
      cases hstage <;> nofun
    · cases hstage <;> rfl
    · rw [hemu]
      exact hsame'
    · rw [hemu, hregs]
    · rw [hemu, hregs]
      exact .call ha (hpc ▸ hreason) hstage hstored
  simp only [Machine.callNative]
  split
  · exact hcalled [] rfl .unsupported rfl rfl rfl
  · exact hcalled [] rfl .exit rfl rfl rfl
  · exact hcalled [.native m.nextId] rfl .away rfl rfl rfl

/-- `CpuRunCtxInternal` decides how to go on. -/
theorem reason (h : Tidy cfg m.emu (activations m.stack)) (hs : m.stack = .run a :: rest)
    {ucErr : UcErr} (ha : a.stage = .reasoning ucErr) :
    Outcome cfg m action (m.reason cfg a rest ucErr) := by
  have hbusy : a.stage.busy = true := by rw [ha]; rfl
  let programCounter := m.emu.ue a.context.cpu a.context.cpu.programCounterReg
  let s := m.emu.assert .programCounterNotNull (ucErr = .ok → programCounter ≠ 0)
  have hsame : SameBooks m.emu s := .assert m.emu rfl (by decide) _
  have hue : s.ue = m.emu.ue := by
    rw [show s = _ from State.assert_eq ..]
  have hgo {b : Activation} {stage : Stage} (hb : b = { a with programCounter := b.programCounter })
      (hbusy' : stage.busy = true) (hne : stage ≠ .reasoning ucErr)
      (hnext : Next cfg a.context.cpu (m.emu.ue a.context.cpu) a.stage stage) :
      Outcome cfg m action (m.goto b rest stage s) := by
    rw [hb]
    refine h.useTop hs rfl (by rwa [ha]) rfl rfl hbusy hbusy' hsame
      (fun cpu _ => by rw [Machine.goto, hue]) ?_ (List.nil_append _).symm
    simp only [Machine.goto, hue]
    exact .next hnext
  simp only [Machine.reason]
  split
  case h_1 hreason => exact hgo rfl rfl (by simp) (by rw [ha]; exact .again hreason)
  case h_2 hreason => exact h.callNative hs ha hreason hsame hue
  case h_3 hreason => exact hgo rfl rfl (by simp) (by rw [ha]; exact .return hreason)
  case h_4 hreason => exact hgo rfl rfl (by simp) (by rw [ha]; exact .fail hreason)

/-- `CpuExitImage`, up to its long jump. -/
theorem exitImage (h : Tidy cfg m.emu (activations m.stack))
    (hs : m.stack = .run a :: rest) {args : Args} (ha : a.stage = .exitingImage args)
    (hstep : m.exitImage a rest args = some m') : Outcome cfg m action m' := by
  have hbusy : a.stage.busy = true := by rw [ha]; rfl
  have hgo {stage : Stage} {s : State} (hbusy' : stage.busy = true)
      (hne : stage ≠ .exitingImage args)
      (hnext : Next cfg a.context.cpu (m.emu.ue a.context.cpu) (.exitingImage args) stage)
      (hsame : SameBooks m.emu s) (hue : s.ue = m.emu.ue) :
      Outcome cfg m action (m.goto a rest stage s) := by
    refine h.useTop hs rfl (by rwa [ha]) rfl rfl hbusy hbusy' hsame
      (fun cpu _ => by rw [Machine.goto, hue]) ?_ (List.nil_append _).symm
    simp only [Machine.goto, hue]
    exact .next (by rwa [ha])
  simp only [Machine.exitImage] at hstep
  split at hstep
  · obtain rfl := Option.some.inj hstep
    exact hgo rfl (by simp) .refuse (.refl _) rfl
  · rename_i record _
    obtain ⟨context, -, hstep⟩ := Option.bind_eq_some_iff.mp hstep
    have hquiet : Quiet m.emu
        ((m.emu.criticalBegin.assert .imageContext (context ≠ none)).criticalEnd) :=
      imageSection_quiet context m.emu
    split at hstep
    · obtain rfl := Option.some.inj hstep
      exact hgo rfl (by simp) .refuse hquiet.toSameBooks hquiet.ue
    · split at hstep
      · obtain rfl := Option.some.inj hstep
        exact hgo rfl (by simp) .refuse hquiet.toSameBooks hquiet.ue
      · obtain rfl := Option.some.inj hstep
        exact hgo rfl (by simp) .exit
          (hquiet.toSameBooks.trans (SameBooks.setImageExit _ record args)) hquiet.ue

/-- The innermost run goes on to `stage`, when it does not have its engine, or
takes it over, or gives it back. -/
theorem goTop (h : Tidy cfg m.emu (activations m.stack)) (hs : m.stack = .run a :: rest)
    {stage : Stage} {s : State} (hstage : stage ≠ a.stage) (hc : stage.counted = a.stage.counted)
    (ho : OwnChange a.context m.emu s) (hflags : stage.FlagsFit (s.context a.context).flags)
    (hstraight : stage.straight = true)
    (hcookie : cfg.checkOrphanContexts = true → stage.marked = true →
      (s.context a.context).leakCookie = a.fp)
    (hturn : Turn cfg m.emu a s
      { a with stage := stage, sp := s.ue a.context.cpu a.context.cpu.stackReg } []) :
    Outcome cfg m .advance (m.goto a rest stage s) :=
  have hs₀ : m.stack = [] ++ .run a :: rest := hs
  have hs₀' : (m.goto a rest stage s).stack = [] ++
      .run { a with stage := stage, sp := s.ue a.context.cpu a.context.cpu.stackReg } :: rest := rfl
  h.go hs₀ hs₀' rfl rfl
    (fun _ => ⟨rfl, rfl⟩) hstage rfl rfl hc ho hflags hstraight hcookie hturn rfl

theorem enterTop (h : Tidy cfg m.emu (activations m.stack)) (hs : m.stack = .run a :: rest)
    (ha : a.stage = .entering) :
    Outcome cfg m .advance (m.goto a rest .entered (cpuEnterCritical a.context m.emu)) where
  tidy := by
    rw [hs] at h
    exact h.enter ha rfl rfl rfl
  effect := by
    have hs₀ : m.stack = [] ++ .run a :: rest := hs
    have hs₀' : (m.goto a rest .entered (cpuEnterCritical a.context m.emu)).stack = [] ++ _ := rfl
    refine .go hs₀ hs₀' rfl rfl (fun _ => ⟨rfl, rfl⟩) (by simp [ha]) rfl (fun k hk => ?_)
      (.apart ?_ rfl rfl) rfl
    · exact Function.update_of_ne hk ..
    · exact Activation.phase_of ha
  initialState := rfl

theorem leaveTop (h : Tidy cfg m.emu (activations m.stack)) (hs : m.stack = .run a :: rest)
    (ha : a.stage = .leaving) :
    Outcome cfg m .advance (m.goto a rest .left (cpuLeaveCritical a.context m.emu)) := by
  have hl : Tidy cfg m.emu (a :: activations rest) := by rwa [hs] at h
  have htop : m.emu.mTopContext = some a.context := by
    have := hl.linked.seg
    rw [chainOf_cons_of_counted (by rw [ha]; rfl)] at this
    exact this.1
  obtain ⟨asserts, heq, -, -⟩ := cpuLeaveCritical_eq htop
  have hcontext : (cpuLeaveCritical a.context m.emu).context = m.emu.context := by rw [heq]
  have hue : (cpuLeaveCritical a.context m.emu).ue = m.emu.ue := by rw [heq]
  have hs₀ : m.stack = [] ++ .run a :: rest := hs
  refine ⟨hl.leave ha rfl rfl rfl, ?_, by rw [Machine.goto, heq]⟩
  have hs₀' : (m.goto a rest .left (cpuLeaveCritical a.context m.emu)).stack = [] ++ _ := rfl
  refine .go hs₀ hs₀' rfl rfl (fun _ => ⟨rfl, rfl⟩) (by simp [ha]) rfl (fun k _ => ?_)
    (.apart ?_ rfl hue) rfl
  · rw [Machine.goto, hcontext]
  · exact Activation.phase_of ha

/-- There are no orphans: every older run lies above the new one. -/
theorem detect (h : Tidy cfg m.emu (activations m.stack)) (hmasked : Masked m)
    (hs : m.stack = .run a :: rest) (ha : a.stage = .entered)
    (hcfg : cfg.checkOrphanContexts = true) :
    ∃ s, cpuDetectOrphanContexts a.context a.fp m.emu = some (none, s) ∧
      OwnChange a.context m.emu s ∧
      (s.context a.context).flags = (m.emu.context a.context).flags ∧
      (s.context a.context).leakCookie = a.fp ∧ s.ue = m.emu.ue := by
  rw [hs, activations_run] at h
  have hlinked : Linked m.emu (a.context :: ([] ++ chainOf (activations rest))) := by
    have := h.linked
    rwa [chainOf_cons_of_counted (by rw [ha]; rfl)] at this
  have hrest : ∀ j ∈ (chainOf (activations rest)).head?, a.fp < (m.emu.context j).leakCookie := by
    intro j hj
    obtain ⟨b, hb, hcounted, rfl⟩ := mem_map_of_mem_chainOf (List.mem_of_mem_head? hj)
    have hdepth : b.stage.depth = 0 := by
      obtain ⟨f, hf, hfb⟩ := List.mem_filterMap.mp hb
      have := hmasked.rest_depth hs f hf
      cases f <;> simp_all [Frame.run?, Frame.depth]
    have hmarked : b.stage.marked = true := by
      cases hstage : b.stage <;> simp_all [Stage.depth, Stage.counted, Stage.marked]
    rw [h.cookies hcfg b (List.mem_cons_of_mem _ hb) hmarked]
    exact (List.pairwise_cons.mp h.fps).1 b hb
  have hspec := cpuDetectOrphanContexts_spec hlinked (by simp) hrest (by simp)
  refine ⟨_, hspec, ⟨rfl, ?_, rfl, rfl, fun j hj => ?_, ?_, fun _ hb _ => hb⟩, ?_, ?_, rfl⟩
  · simp
  · exact unlinked_of_not_mem hj (by simp) ..
  · simp only [unlinked_self]
    exact (hlinked.seg.2).eq_ptr.symm
  · simp only [unlinked_self]
  · simp only [unlinked_self]

/-- Nothing in the books changes, and the run does not have its engine before or after. -/
theorem apartTop (h : Tidy cfg m.emu (activations m.stack)) (hs : m.stack = .run a :: rest)
    {stage : Stage} {s : State} (hstage : stage ≠ a.stage) (hc : stage.counted = a.stage.counted)
    (hsame : SameBooks m.emu s) (hue : s.ue = m.emu.ue)
    (hflags : stage.FlagsFit (m.emu.context a.context).flags) (hstraight : stage.straight = true)
    (hmarked : stage.marked = true → a.stage.marked = true) (hphase : a.phase m.emu = .apart)
    (hphase' : ∀ v saved, stage.phase v saved = .apart) :
    Outcome cfg m .advance (m.goto a rest stage s) := by
  have ha : a ∈ activations m.stack := by simp [hs]
  refine h.goTop hs hstage hc (.of_sameBooks hsame _) ?_ hstraight (fun hcfg hm => ?_)
    (.apart hphase (hphase' _ _) hue)
  · rwa [hsame.context]
  · rw [hsame.context]
    exact h.cookies hcfg a ha (hmarked hm)

/-- What the flags of the innermost run's context can be. -/
theorem flagsFit (h : Tidy cfg m.emu (activations m.stack)) (hs : m.stack = .run a :: rest)
    {stage : Stage} (ha : a.stage = stage) : stage.FlagsFit (m.emu.context a.context).flags :=
  ha ▸ h.flags a (by simp [hs])

theorem cookie (h : Tidy cfg m.emu (activations m.stack)) (hs : m.stack = .run a :: rest)
    (hcfg : cfg.checkOrphanContexts = true) (hmarked : a.stage.marked = true) :
    (m.emu.context a.context).leakCookie = a.fp :=
  h.cookies hcfg a (by simp [hs]) hmarked

/-- The section that `CpuEnterCritical` has opened is closed. -/
theorem enteredTop (h : Tidy cfg m.emu (activations m.stack)) (hmasked : Masked m)
    (hs : m.stack = .run a :: rest) (ha : a.stage = .entered)
    (hstep : m.advance cfg a rest = some m') : Outcome cfg m .advance m' := by
  have hzero : (m.emu.context a.context).flags = 0 := h.flagsFit hs ha
  have hphase := Activation.phase_of (s := m.emu) ha
  have hend (s : State) : OwnChange a.context s s.criticalEnd := .of_sameBooks (.criticalEnd s) _
  simp only [Machine.advance, ha] at hstep
  split at hstep
  case isTrue hcfg =>
    obtain ⟨s', hdetect, ho, hf, hc, hue⟩ := h.detect hmasked hs ha hcfg
    rw [hdetect] at hstep
    obtain rfl := Option.some.inj hstep
    have hcontext : s'.criticalEnd.context = s'.context := by rw [State.criticalEnd_eq]
    have hue' : s'.criticalEnd.ue = m.emu.ue := by rw [State.criticalEnd_eq, hue]
    refine h.goTop hs (by simp [ha]) (by rw [ha]; rfl) (ho.trans (hend s')) ?_ rfl
      (fun _ _ => ?_) (.apart hphase rfl hue')
    · rw [hcontext, hf]
      exact hzero
    · rw [hcontext, hc]
  case isFalse hcfg =>
    obtain rfl := Option.some.inj hstep
    have hcontext : m.emu.criticalEnd.context = m.emu.context := by rw [State.criticalEnd_eq]
    refine h.goTop hs (by simp [ha]) (by rw [ha]; rfl) (hend _) ?_ rfl
      (fun hcfg' => absurd hcfg' hcfg) (.apart hphase rfl (by rw [State.criticalEnd_eq]))
    rw [hcontext]
    exact hzero

/-- There is no orphan to free. -/
theorem freeingOrphansTop (h : Tidy cfg m.emu (activations m.stack)) (hs : m.stack = .run a :: rest)
    {orphan : Option CtxId} (ha : a.stage = .freeingOrphans orphan)
    (hstep : m.advance cfg a rest = some m') : Outcome cfg m .advance m' := by
  cases orphan with
  | none =>
      simp only [Machine.advance, ha] at hstep
      obtain rfl := Option.some.inj hstep
      have hzero : (m.emu.context a.context).flags = 0 := h.flagsFit hs ha
      exact h.apartTop hs (by simp [ha]) (by rw [ha]; rfl) (.refl _) rfl hzero rfl
        (fun _ => by rw [ha]; rfl) (Activation.phase_of ha) fun _ _ => rfl
  | some j =>
      have hstraight := h.straight a (by simp [hs])
      rw [ha] at hstraight
      cases hstraight

/-- `if (Cpu->Contexts > 1)`. -/
theorem decidingTop (h : Tidy cfg m.emu (activations m.stack)) (hs : m.stack = .run a :: rest)
    (ha : a.stage = .deciding) (hstep : m.advance cfg a rest = some m') :
    Outcome cfg m .advance m' := by
  have hzero : (m.emu.context a.context).flags = 0 := h.flagsFit hs ha
  have hcookie (hcfg : cfg.checkOrphanContexts = true) := h.cookie hs hcfg (by rw [ha]; rfl)
  simp only [Machine.advance, ha] at hstep
  obtain rfl := Option.some.inj hstep
  by_cases hcontexts : m.emu.contexts a.context.cpu > 1
  · rw [if_pos hcontexts]
    exact h.goTop hs (by simp [ha]) (by rw [ha]; rfl) (.of_sameBooks (.refl _) _) hzero rfl
      (fun hcfg _ => hcookie hcfg) (.ask ha hcontexts rfl rfl)
  · rw [if_neg hcontexts]
    exact h.goTop hs (by simp [ha]) (by rw [ha]; rfl) (.of_sameBooks (.refl _) _) hzero rfl
      (fun hcfg _ => hcookie hcfg) (.start ha hcontexts rfl rfl)

/-- The engine is saved in the context. -/
theorem savingTop (h : Tidy cfg m.emu (activations m.stack)) (hs : m.stack = .run a :: rest)
    (ha : a.stage = .saving) (hstep : m.advance cfg a rest = some m') :
    Outcome cfg m .advance m' := by
  have hzero : (m.emu.context a.context).flags = 0 := h.flagsFit hs ha
  simp only [Machine.advance, ha] at hstep
  obtain rfl := Option.some.inj hstep
  refine h.goTop hs (by simp [ha]) (by rw [ha]; rfl) (.modifyContext _ ?_ _) ?_ rfl
    (fun hcfg _ => ?_) (.keep ha ?_ rfl)
  · exact fun _ => rfl
  · simp [State.modifyContext, hzero, Stage.FlagsFit]
  · simpa [State.modifyContext] using h.cookie hs hcfg (by rw [ha]; rfl)
  · simp [Activation.phase, Stage.phase, State.modifyContext]

/-- The context is marked as one that has saved its engine, and takes it over. -/
theorem flaggingTop (h : Tidy cfg m.emu (activations m.stack)) (hs : m.stack = .run a :: rest)
    (ha : a.stage = .flagging) (hstep : m.advance cfg a rest = some m') :
    Outcome cfg m .advance m' := by
  have hzero : (m.emu.context a.context).flags = 0 := h.flagsFit hs ha
  simp only [Machine.advance, ha] at hstep
  obtain rfl := Option.some.inj hstep
  refine h.goTop hs (by simp [ha]) (by rw [ha]; rfl) (.modifyContext _ ?_ _) ?_ rfl
    (fun hcfg _ => ?_) (.take (Activation.phase_of ha) ?_ rfl)
  · exact fun _ => rfl
  · simp [State.modifyContext, hzero, Stage.FlagsFit]
  · simpa [State.modifyContext] using h.cookie hs hcfg (by rw [ha]; rfl)
  · simp only [State.modifyContext, Function.update_self, CpuRunContext.haveSaved, hzero]
    exact ⟨by decide, trivial⟩

/-- The engine starts from its initial state. -/
theorem initializingTop (h : Tidy cfg m.emu (activations m.stack)) (hs : m.stack = .run a :: rest)
    (ha : a.stage = .initializing) (hstep : m.advance cfg a rest = some m') :
    Outcome cfg m .advance m' := by
  have hzero : (m.emu.context a.context).flags = 0 := h.flagsFit hs ha
  simp only [Machine.advance, ha] at hstep
  obtain rfl := Option.some.inj hstep
  have ho : OwnChange a.context m.emu { m.emu with
      ue := Function.update m.emu.ue a.context.cpu (m.emu.initialState a.context.cpu) } :=
    .of_sameBooks (.setEngines _ _ _) _
  refine h.goTop hs (by simp [ha]) (by rw [ha]; rfl) ho (.inl hzero) rfl
    (fun hcfg _ => h.cookie hs hcfg (by rw [ha]; rfl)) ?_
  simp only [Function.update_self]
  exact .begin ha (by simp [CpuRunContext.haveSaved, hzero]) rfl

/-- The next statement that sets the engine up, or the function is entered. -/
theorem settingUpTop (h : Tidy cfg m.emu (activations m.stack)) (hs : m.stack = .run a :: rest)
    {rsp : UINT64} {stmts : List Statement} (ha : a.stage = .settingUp rsp stmts)
    (hstep : m.advance cfg a rest = some m') : Outcome cfg m .advance m' := by
  cases stmts with
  | nil =>
      simp only [Machine.advance, ha] at hstep
      obtain rfl := Option.some.inj hstep
      exact h.useTop hs rfl (by simp [ha]) rfl rfl (by rw [ha]; rfl) rfl (.refl _)
        (fun _ _ => rfl) (.start ha) (List.nil_append _).symm
  | cons st stmts =>
      simp only [Machine.advance, ha] at hstep
      exact h.execStatement hs (by rw [ha]; rfl) (fun _ => rfl)
        (fun _ => by rw [ha]; simp) (fun r hf hr => .setUp ha hf hr) hstep

/-- The next statement of `EmuThunkPost`, or the result is read. -/
theorem cleaningUpTop (h : Tidy cfg m.emu (activations m.stack)) (hs : m.stack = .run a :: rest)
    {rsp : UINT64} {stmts : List Statement} (ha : a.stage = .cleaningUp rsp stmts)
    (hstep : m.advance cfg a rest = some m') : Outcome cfg m .advance m' := by
  cases stmts with
  | nil =>
      simp only [Machine.advance, ha] at hstep
      obtain rfl := Option.some.inj hstep
      exact h.useTop hs rfl (by simp [ha]) rfl rfl (by rw [ha]; rfl) rfl (.refl _)
        (fun _ _ => rfl) (.next (by rw [ha]; exact .clean)) (List.nil_append _).symm
  | cons st stmts =>
      simp only [Machine.advance, ha] at hstep
      exact h.execStatement hs (by rw [ha]; rfl) (fun _ => rfl)
        (fun _ => by rw [ha]; simp) (fun r hf hr => .cleanUp ha hf hr) hstep

/-- The section around `uc_emu_start` is closed. -/
theorem stoppedTop (h : Tidy cfg m.emu (activations m.stack)) (hs : m.stack = .run a :: rest)
    {ucErr : UcErr} (ha : a.stage = .stopped ucErr) (hstep : m.advance cfg a rest = some m') :
    Outcome cfg m .advance m' := by
  simp only [Machine.advance, ha] at hstep
  obtain rfl := Option.some.inj hstep
  have hsame : SameBooks m.emu (m.emu.assert .interruptsDisabled
      (m.emu.interrupts.interruptState = false)).criticalEnd :=
    (SameBooks.assert _ rfl (by decide) _).trans (.criticalEnd _)
  have hue : (m.emu.assert .interruptsDisabled
      (m.emu.interrupts.interruptState = false)).criticalEnd.ue = m.emu.ue := by
    rw [State.criticalEnd_eq, State.assert_eq]
  refine h.useTop hs rfl (by simp [ha]) rfl rfl (by rw [ha]; rfl) rfl hsame
    (fun _ _ => by rw [Machine.goto, hue]) ?_ (List.nil_append _).symm
  simp only [Machine.goto, hue]
  exact .next (by rw [ha]; exact .unlock)

/-- No context has been leaked: every newer run has been left. -/
theorem checkingTop (h : Tidy cfg m.emu (activations m.stack)) (hs : m.stack = .run a :: rest)
    {value : UINT64} (ha : a.stage = .checking value) (hstep : m.advance cfg a rest = some m') :
    Outcome cfg m .advance m' := by
  have htop : m.emu.mTopContext = some a.context := by
    have := h.linked.seg
    rw [hs, activations_run, chainOf_cons_of_counted (by rw [ha]; rfl)] at this
    exact this.1
  simp only [Machine.advance, ha] at hstep
  rw [if_neg (not_not.mpr htop)] at hstep
  obtain rfl := Option.some.inj hstep
  exact h.useTop hs rfl (by simp [ha]) rfl rfl (by rw [ha]; rfl) rfl (.refl _)
    (fun _ _ => rfl) (.next (by rw [ha]; exact .check)) (List.nil_append _).symm

/-- `NativeThunk` writes its result. -/
theorem resumingTop (h : Tidy cfg m.emu (activations m.stack)) (hs : m.stack = .run a :: rest)
    {value : UINT64} (ha : a.stage = .resuming value) (hstep : m.advance cfg a rest = some m') :
    Outcome cfg m .advance m' := by
  simp only [Machine.advance, ha] at hstep
  obtain rfl := Option.some.inj hstep
  have huses : Uses cfg a (m.emu.ue a.context.cpu) _ _ [] := .resume ha
    (rfl : nativeThunkLeave a.context.cpu value ⟨m.emu.ue a.context.cpu, m.emu.memory⟩ = _)
  refine h.useTop hs rfl (by simp [ha]) rfl rfl (by rw [ha]; rfl) rfl (.setEngines _ _ _)
    (fun cpu hcpu => Function.update_of_ne hcpu ..) ?_ (List.nil_append _).symm
  simpa only [Machine.goto, Function.update_self] using huses

/-- `Context->Ret` is set; the engine is given back if it has been saved. -/
theorem finishedTop (h : Tidy cfg m.emu (activations m.stack)) (hs : m.stack = .run a :: rest)
    {ret : UINT64} (ha : a.stage = .finished ret) (hstep : m.advance cfg a rest = some m') :
    Outcome cfg m .advance m' := by
  have hflags := h.flagsFit hs ha
  have hcookie (hcfg : cfg.checkOrphanContexts = true) := h.cookie hs hcfg (by rw [ha]; rfl)
  simp only [Machine.advance, ha] at hstep
  obtain rfl := Option.some.inj hstep
  have hcontext : (m.emu.setRet a.context ret).context a.context =
      { m.emu.context a.context with ret := ret } := by simp [State.setRet, State.modifyContext]
  have ho : OwnChange a.context m.emu (m.emu.setRet a.context ret) := by
    refine .modifyContext _ ?_ _
    exact fun _ => rfl
  have hphase := Activation.phase_of (s := m.emu) ha
  rw [hcontext]
  cases hsaved : (m.emu.context a.context).haveSaved with
  | true =>
      have hset : (m.emu.context a.context).flags = CRC_HAVE_SAVED_UC_CONTEXT := by
        rcases hflags with hzero | hset
        · simp [CpuRunContext.haveSaved, hzero] at hsaved
        · exact hset
      rw [if_pos (by exact hsaved)]
      refine h.goTop hs (by simp [ha]) (by rw [ha]; rfl) ho ?_ rfl (fun hcfg _ => ?_)
        (.use hphase ?_ (fun _ _ => rfl) (.next (by rw [ha]; exact .restore)))
      · rw [hcontext]
        exact hset
      · rw [hcontext]
        exact hcookie hcfg
      · rw [Activation.phase, hcontext]
        rfl
  | false =>
      have hzero : (m.emu.context a.context).flags = 0 := by
        rcases hflags with hzero | hset
        · exact hzero
        · rw [CpuRunContext.haveSaved, hset] at hsaved
          exact absurd hsaved (by decide)
      rw [if_neg (by simp [CpuRunContext.haveSaved, hzero])]
      refine h.goTop hs (by simp [ha]) (by rw [ha]; rfl) ho ?_ rfl (fun hcfg _ => ?_)
        (.quit ?_ rfl rfl)
      · rw [hcontext]
        exact hzero
      · rw [hcontext]
        exact hcookie hcfg
      · rw [hphase, hsaved]
        rfl

/-- The engine gets back what the context has saved. -/
theorem restoringTop (h : Tidy cfg m.emu (activations m.stack)) (hs : m.stack = .run a :: rest)
    (ha : a.stage = .restoring) (hstep : m.advance cfg a rest = some m') :
    Outcome cfg m .advance m' := by
  have hset : (m.emu.context a.context).flags = CRC_HAVE_SAVED_UC_CONTEXT := h.flagsFit hs ha
  simp only [Machine.advance, ha] at hstep
  obtain rfl := Option.some.inj hstep
  have ho : OwnChange a.context m.emu { m.emu with
      ue := Function.update m.emu.ue a.context.cpu (m.emu.context a.context).prevUcContext } :=
    .of_sameBooks (.setEngines _ _ _) _
  refine h.goTop hs (by simp [ha]) (by rw [ha]; rfl) ho hset rfl
    (fun hcfg _ => h.cookie hs hcfg (by rw [ha]; rfl)) (.giveBack ?_ rfl rfl)
  have hsaved : (m.emu.context a.context).haveSaved = true := by
    simp [CpuRunContext.haveSaved, hset]; decide
  rw [Activation.phase_of ha, hsaved]
  rfl

theorem unflaggingTop (h : Tidy cfg m.emu (activations m.stack)) (hs : m.stack = .run a :: rest)
    (ha : a.stage = .unflagging) (hstep : m.advance cfg a rest = some m') :
    Outcome cfg m .advance m' := by
  have hset : (m.emu.context a.context).flags = CRC_HAVE_SAVED_UC_CONTEXT := h.flagsFit hs ha
  simp only [Machine.advance, ha] at hstep
  obtain rfl := Option.some.inj hstep
  refine h.goTop hs (by simp [ha]) (by rw [ha]; rfl) (.modifyContext _ ?_ _) ?_ rfl
    (fun hcfg _ => ?_) (.apart (Activation.phase_of ha) rfl rfl)
  · exact fun _ => rfl
  · simp [State.modifyContext, hset, Stage.FlagsFit]
  · simpa [State.modifyContext] using h.cookie hs hcfg (by rw [ha]; rfl)

/-- `CpuFreeContext` of a run that returns. -/
theorem returnedTop (h : Tidy cfg m.emu (activations m.stack)) (hs : m.stack = .run a :: rest)
    (ha : a.stage = .returned) (hstep : m.advance cfg a rest = some m') :
    Outcome cfg m .advance m' := by
  simp only [Machine.advance, ha] at hstep
  obtain rfl := Option.some.inj hstep
  have hfree : (cpuFreeContext a.context m.emu).context = m.emu.context ∧
      (cpuFreeContext a.context m.emu).ue = m.emu.ue ∧
      (cpuFreeContext a.context m.emu).initialState = m.emu.initialState := by
    simp [cpuFreeContext, State.assert_eq]
  refine ⟨?_, .pop hs ha rfl hfree.1 hfree.2.1 rfl, hfree.2.2⟩
  rw [hs] at h
  exact h.pop ha

/-- One statement of the innermost run. -/
theorem advance (h : Tidy cfg m.emu (activations m.stack)) (hmasked : Masked m)
    (hs : m.stack = .run a :: rest) (hlong : longJumps m .advance = false)
    (hstep : m.advance cfg a rest = some m') : Outcome cfg m .advance m' := by
  have hstraight := h.straight a (by simp [hs])
  have hfull := hstep
  cases hstage : a.stage <;> simp only [Machine.advance, hstage] at hstep
  case emulating | calling | callingExit => cases hstep
  case freeingLeaked | imageExited | freeingExited | exitReturned =>
    rw [hstage] at hstraight
    cases hstraight
  case longJumping => simp [longJumps, hs, hstage] at hlong
  case entering =>
    obtain rfl := Option.some.inj hstep
    exact h.enterTop hs hstage
  case entered => exact h.enteredTop hmasked hs hstage hfull
  case freeingOrphans => exact h.freeingOrphansTop hs hstage hfull
  case deciding => exact h.decidingTop hs hstage hfull
  case saving => exact h.savingTop hs hstage hfull
  case flagging => exact h.flaggingTop hs hstage hfull
  case initializing => exact h.initializingTop hs hstage hfull
  case settingUp => exact h.settingUpTop hs hstage hfull
  case looping =>
    obtain rfl := Option.some.inj hstep
    exact h.useTop hs rfl (by simp [hstage]) rfl rfl (by rw [hstage]; rfl) rfl (.criticalBegin _)
      (fun _ _ => rfl) (.next (by rw [hstage]; exact .lock)) (List.nil_append _).symm
  case locked =>
    obtain rfl := Option.some.inj hstep
    exact h.useTop hs rfl (by simp [hstage]) rfl rfl (by rw [hstage]; rfl) rfl (.refl _)
      (fun _ _ => rfl) (.next (by rw [hstage]; exact .emulate)) (List.nil_append _).symm
  case stopped => exact h.stoppedTop hs hstage hfull
  case reasoning ucErr =>
    obtain rfl := Option.some.inj hstep
    exact h.reason hs hstage
  case exitingImage args => exact h.exitImage hs hstage hstep
  case checking => exact h.checkingTop hs hstage hfull
  case resuming => exact h.resumingTop hs hstage hfull
  case cleaningUp => exact h.cleaningUpTop hs hstage hfull
  case finished => exact h.finishedTop hs hstage hfull
  case restoring => exact h.restoringTop hs hstage hfull
  case unflagging => exact h.unflaggingTop hs hstage hfull
  case leaving =>
    obtain rfl := Option.some.inj hstep
    exact h.leaveTop hs hstage
  case left =>
    obtain rfl := Option.some.inj hstep
    have hzero : (m.emu.context a.context).flags = 0 := h.flagsFit hs hstage
    exact h.apartTop hs (by simp [hstage]) (by rw [hstage]; rfl) (.criticalEnd _)
      (by rw [State.criticalEnd_eq]) hzero rfl (fun hmarked => by cases hmarked)
      (Activation.phase_of hstage) fun _ _ => rfl
  case returned => exact h.returnedTop hs hstage hfull

/-! ## other code -/

/-- `CpuRunFunc` or `CpuRunImage` has filled its context in. -/
theorem runCtx (h : Tidy cfg m.emu (activations m.stack)) {cpu : CpuId} {k : CtxId}
    {image : Option RecordId} {fp : Nat} {s s' : State}
    (halloc : cpuAllocContext cpu m.emu = some (k, s)) (ho : OwnChange k s s')
    (hflags : (s'.context k).flags = (s.context k).flags) (hue : s'.ue = s.ue)
    (hfp : fpFits fp m.stack = true) : Outcome cfg m action (m.runCtx k image fp s') := by
  have hbelow : ∀ b ∈ activations m.stack, fp < b.fp :=
    fun b hb => of_decide_eq_true (List.all_eq_true.mp hfp b hb)
  let a : Activation := ⟨m.nextId, fp, k, image, 0, .entering, 0, s'.ue k.cpu k.cpu.stackReg⟩
  have htidy : Tidy cfg s' (a :: activations m.stack) := h.push halloc ho hflags rfl hbelow
  obtain ⟨-, pool, -, rfl⟩ := cpuAllocContext_eq_some halloc
  refine ⟨htidy, .push rfl rfl (fun b hb => ?_) hue rfl, ho.initialState⟩
  have hne : b.context ≠ k := htidy.not_mem b hb
  exact (ho.other _ hne).trans (Function.update_of_ne hne ..)

theorem runFunc (h : Tidy cfg m.emu (activations m.stack)) (cpu : CpuId)
    (programCounter : UINT64) (args : Args) {fp : Nat} (hfp : fpFits fp m.stack = true) :
    Outcome cfg m action (m.runFunc cpu programCounter args fp) := by
  unfold Machine.runFunc
  split
  · exact h.still rfl (.refl _) rfl rfl
  · rename_i k s halloc
    refine h.runCtx halloc (.modifyContext _ ?_ _) ?_ rfl hfp
    · exact fun _ => rfl
    · simp [State.modifyContext]

theorem runImage (h : Tidy cfg m.emu (activations m.stack)) {imageHandle systemTable : UINT64}
    {loadedImage : Except UINT64 UINT64} {fp : Nat} (hfp : fpFits fp m.stack = true)
    (hstep : m.runImage imageHandle systemTable loadedImage fp = some m') :
    Outcome cfg m action m' := by
  unfold Machine.runImage at hstep
  split at hstep
  · obtain rfl := Option.some.inj hstep
    exact h.still rfl (.refl _) rfl rfl
  · split at hstep
    · cases hstep
    · split at hstep
      · obtain rfl := Option.some.inj hstep
        have hue : (m.emu.assert .contextNotNull False).ue = m.emu.ue := by rw [State.assert_eq]
        exact h.still rfl (SameBooks.assert (a := .contextNotNull) m.emu rfl (by decide) False) hue
          rfl
      · rename_i k s halloc
        obtain rfl := Option.some.inj hstep
        refine h.runCtx halloc ⟨rfl, rfl, rfl, rfl, fun j hj => ?_, ?_, fun _ hb _ => hb⟩ ?_ rfl hfp
        · exact Function.update_of_ne hj ..
        · simp [State.modifyContext, State.modifyRecord]
        · simp [State.modifyContext, State.modifyRecord]

/-- One step in which nobody long-jumps. -/
theorem step (h : Tidy cfg m.emu (activations m.stack)) (hmasked : Masked m)
    (hlong : longJumps m action = false) (hstep : Interleaving.step cfg m action = some m') :
    Outcome cfg m action m' := by
  unfold Interleaving.step at hstep
  split at hstep
  case h_1 a rest hs => exact h.advance hmasked hs hlong hstep
  case h_2 regs memory ucErr a rest hs =>
    split at hstep
    · rename_i ha
      obtain rfl := Option.some.inj hstep
      have huses : Uses cfg a (m.emu.ue a.context.cpu)
          { a with stage := .stopped ucErr, sp := regs a.context.cpu.stackReg } regs [] :=
          .emulated ha
      refine h.useTop hs rfl (by simp [ha]) rfl rfl (by rw [ha]; rfl) rfl (.setEngines _ _ _)
        (fun cpu hcpu => Function.update_of_ne hcpu ..) ?_ (List.nil_append _).symm
      simpa only [Machine.goto, Function.update_self] using huses
    · cases hstep
  case h_3 r =>
    split at hstep
    · obtain rfl := Option.some.inj hstep
      exact h.still rfl ⟨rfl, rfl, rfl, rfl, rfl, rfl, rfl, fun _ ha _ => ha, id⟩ rfl rfl
    · cases hstep
  case h_4 =>
    split at hstep
    · obtain rfl := Option.some.inj hstep
      exact h.still rfl (.refl _) rfl rfl
    · cases hstep
  case h_5 cpu programCounter args fp id rest hs =>
    split at hstep
    · rename_i hfp
      obtain rfl := Option.some.inj hstep
      exact h.runFunc cpu programCounter args hfp
    · cases hstep
  case h_6 imageHandle systemTable loadedImage fp id rest hs =>
    split at hstep
    · rename_i hfp
      exact h.runImage hfp hstep
    · cases hstep
  case h_7 memory id rest hs =>
    obtain rfl := Option.some.inj hstep
    exact h.still rfl (.setEngines _ _ _) rfl rfl
  case h_8 id rest hs =>
    obtain rfl := Option.some.inj hstep
    exact h.still rfl (.criticalBegin _) rfl rfl
  case h_9 rest hs =>
    obtain rfl := Option.some.inj hstep
    exact h.still (by rw [hs]; rfl) (.criticalEnd _) (by rw [State.criticalEnd_eq]) rfl
  case h_10 value id f rest hs =>
    obtain rfl := Option.some.inj hstep
    unfold Machine.returnTo
    split
    case h_1 a rest' hframes =>
      obtain ⟨rfl, rfl⟩ := List.cons.inj hframes
      have ha : a ∈ activations m.stack := by simp [hs]
      have hs₀ : m.stack = [.native id] ++ .run a :: rest := hs
      split
      case h_1 hstage =>
        have hs₀' : .run { a with stage := .checking value } :: rest =
            [] ++ .run { a with stage := .checking value } :: rest := rfl
        exact h.use hs₀ hs₀' rfl rfl (by simp [hstage]) rfl rfl (by rw [hstage]; rfl) rfl (.refl _)
          (fun _ _ => rfl) (.returned hstage) (List.nil_append _).symm
      case h_2 hstage =>
        have := h.straight a ha
        rw [hstage] at this
        cases this
      case h_3 => exact h.still (by rw [hs]; rfl) (.refl _) rfl rfl
    case h_2 => exact h.still (by rw [hs]; rfl) (.refl _) rfl rfl
  case h_11 id id' rest hs => simp [longJumps] at hlong
  case h_12 => cases hstep

end Tidy

/-! ## whole runs -/

/-- The books are in order, and only the innermost frame has a section open. -/
structure Orderly (cfg : Config) (m : Machine) : Prop where
  masked : Masked m
  tidy : Tidy cfg m.emu (activations m.stack)

theorem Orderly.step {cfg : Config} {m m' : Machine} {action : Action} (h : Orderly cfg m)
    (hlong : Straight m action) (hstep : Interleaving.step cfg m action = some m') :
    Orderly cfg m' :=
  ⟨h.masked.step hstep, (h.tidy.step h.masked hlong hstep).tidy⟩

theorem orderly_initial (cfg : Config) (p : Platform) : Orderly cfg (initial p) where
  masked := masked_initial p
  tidy := by
    have hnil : activations (initial p).stack = [] := rfl
    rw [hnil]
    exact ⟨linked_initial p, List.nodup_nil, by simp, by simp, by simp, by simp, by simp, .nil⟩

theorem orderly_of_run {cfg : Config} {p : Platform} {C : Machine → Action → Prop}
    {as : List Action} {m : Machine} (hC : ∀ m action, C m action → Straight m action)
    (h : Run (step cfg) C (initial p) as m) : Orderly cfg m :=
  h.invariant (fun _ _ _ hm hc hstep => hm.step (hC _ _ hc) hstep) (orderly_initial cfg p)

/-! ## handing an engine over -/

theorem Stage.phase_of_not_counted {stage : Stage} (h : stage.counted = false) (v : RegFile)
    (saved : Bool) :
    stage.phase v saved = .apart := by
  cases stage <;> first | rfl | cases h

/-- A run that finds no second context of its engine finds no holder of it. -/
theorem Tidy.alone {cfg : Config} {s : State} {a : Activation} {l : List Activation}
    (h : Tidy cfg s (a :: l)) (ha : a.stage.counted = true)
    (hcontexts : ¬s.contexts a.context.cpu > 1) :
    ∀ b ∈ l, b.context.cpu = a.context.cpu → b.stage.counted = false := by
  intro b hb hcpu
  by_contra hcounted
  rw [Bool.not_eq_false] at hcounted
  have hmem : b.context ∈ chainOf l := List.mem_map.mpr ⟨b, List.mem_filter.mpr ⟨hb, hcounted⟩, rfl⟩
  have hpos : 0 < (chainOf l).countP fun k => k.cpu = a.context.cpu :=
    List.countP_pos_iff.mpr ⟨b.context, hmem, by simp [hcpu]⟩
  have hcount := h.linked.counted a.context.cpu
  rw [chainOf_cons_of_counted ha, countP_cons_cpu, if_pos rfl] at hcount
  omega

/-- Only the engine of the run is touched. -/
theorem Turn.ue_of_ne {cfg : Config} {s s' : State} {a a' : Activation} {stores : List Store}
    (h : Turn cfg s a s' a' stores) {cpu : CpuId} (hcpu : cpu ≠ a.context.cpu) :
    s'.ue cpu = s.ue cpu := by
  cases h with
  | apart _ _ hue | ask _ _ _ hue | start _ _ _ hue | keep _ _ hue | take _ _ hue | quit _ _ hue =>
      rw [hue]
  | begin _ _ hue | giveBack _ _ hue =>
      rw [hue]
      exact Function.update_of_ne hcpu ..
  | use _ _ hue _ => exact hue cpu hcpu

section

variable {cfg : Config} {R : Activation → Option RegFile → RegFile → Prop}
  {D : RegFile → List (Activation × Phase RegFile) → Prop} {base : RegFile → Prop}

/-- A turn of the innermost run of an engine is a step of the holders. -/
theorem Turn.handover {s s' : State} {a a' : Activation} {stores : List Store}
    {l : List (Activation × Phase RegFile)} (h : Turn cfg s a s' a' stores)
    (hctx : a'.context = a.context)
    (hask : a.stage = .deciding → s.contexts a.context.cpu > 1 → D (s.ue a.context.cpu) l)
    (hstart : a.stage = .deciding → ¬s.contexts a.context.cpu > 1 →
      (∀ e ∈ l, e.2 = .apart) ∧ ∀ p, base p)
    (htake : ∀ (v : RegFile) (args : Args), D v l → R
      { a with
        stage := .settingUp 0
          (stackPushRedZone ++ thunkPre cfg.returnToNativeMagic a.context.cpu args)
        sp := v a.context.cpu.stackReg } (some v) v)
    (hbegin : ∀ args : Args, R
      { a with
        stage := .settingUp 0 (thunkPre cfg.returnToNativeMagic a.context.cpu args)
        sp := s.initialState a.context.cpu a.context.cpu.stackReg } none
          (s.initialState a.context.cpu))
    (huse : ∀ v : Option RegFile, Uses cfg a (s.ue a.context.cpu) a' (s'.ue a.context.cpu) stores →
      (∀ q, v = some q → D q l) → R a v (s.ue a.context.cpu) → R a' v (s'.ue a.context.cpu))
    (hheld : Held R D base (s.ue a.context.cpu) ((a, a.phase s) :: l)) :
    Held R D base (s'.ue a.context.cpu) ((a', a'.phase s') :: l) := by
  refine hheld.step ?_
  cases h with
  | apart h h' hue =>
      rw [h, h', hue]
      exact .move
  | ask h hcontexts h' hue =>
      rw [Activation.phase_of h, Activation.phase_of h', hue]
      exact .ask (hask h hcontexts)
  | start h hcontexts h' hue =>
      obtain ⟨hl, hbase⟩ := hstart h hcontexts
      rw [Activation.phase_of h, Activation.phase_of h', hue]
      exact .start hl hbase
  | keep h h' hue =>
      rw [Activation.phase_of h, h', hue]
      exact .keep
  | @take args v h h' hue =>
      -- the engine still has what has been saved
      obtain ⟨rfl, -, -⟩ : v = s.ue a.context.cpu ∧ _ ∧ _ := by rwa [h] at hheld
      have hphase : Activation.phase s' { a with
          stage := .settingUp 0
            (stackPushRedZone ++ thunkPre cfg.returnToNativeMagic a.context.cpu args)
          sp := s.ue a.context.cpu a.context.cpu.stackReg } = .holding
            (some (s.ue a.context.cpu)) := by
        simp [Activation.phase, Stage.phase, h'.1, h'.2]
      rw [h, hphase, hue]
      exact .take (htake _ args)
  | @begin args h h' hue =>
      have hphase : Activation.phase s' { a with
          stage := .settingUp 0 (thunkPre cfg.returnToNativeMagic a.context.cpu args)
          sp := s.initialState a.context.cpu a.context.cpu.stackReg } = .holding none := by
        simp [Activation.phase, Stage.phase, h']
      rw [Activation.phase_of h, hphase, hue, Function.update_self]
      exact .begin (hbegin args)
  | use h h' hue huses =>
      rw [h, h']
      exact .hold fun hD hR => huse _ huses hD hR
  | giveBack h h' hue =>
      rw [h, h', hue, Function.update_self]
      exact .giveBack
  | quit h h' hue =>
      rw [h, h', hue]
      exact .quit

/-- Frames below two different ones are below both of them. -/
theorem suffix_rest {above above' rest B : List Frame} {f f' : Frame} (hne : f ≠ f')
    (h : B <:+ above ++ f :: rest) (h' : B <:+ above' ++ f' :: rest) : B <:+ rest := by
  have hrest : rest <:+ above ++ f :: rest :=
    (List.suffix_cons f rest).trans (List.suffix_append ..)
  by_cases hlen : B.length ≤ rest.length
  · exact List.suffix_of_suffix_length_le h hrest hlen
  · have hf : f :: rest <:+ B :=
      List.suffix_of_suffix_length_le (List.suffix_append ..) h (by rw [List.length_cons]; omega)
    have hf' : f' :: rest <:+ B :=
      List.suffix_of_suffix_length_le (List.suffix_append ..) h' (by rw [List.length_cons]; omega)
    have heq := (List.suffix_of_suffix_length_le hf hf' (by simp)).eq_of_length (by simp)
    exact absurd (List.cons.inj heq).1 hne

/-- One step above the frames `B`, for one engine. -/
theorem Orderly.held_step {m m' : Machine} {action : Action} (h : Orderly cfg m)
    (hlong : Straight m action) (hstep : Interleaving.step cfg m action = some m')
    {pre B : List Frame} (hs : m.stack = pre ++ B) (hB : B <:+ m'.stack) {cpu : CpuId}
    (hbase : (∀ p, base p) ∨ ∃ b ∈ activations B, b.context.cpu = cpu ∧ b.stage.counted = true)
    (hask : ∀ a rest, action = .advance → m.stack = .run a :: (rest ++ B) → a.context.cpu = cpu →
      a.stage = .deciding → m.emu.contexts cpu > 1 →
      Held R D base (m.emu.ue cpu) (holders cpu m.emu (activations rest)) →
      D (m.emu.ue cpu) (holders cpu m.emu (activations rest)))
    (htake : ∀ (a : Activation) (v : RegFile) (l : List (Activation × Phase RegFile)) (args : Args),
      a.context.cpu = cpu → D v l → R
        { a with
          stage := .settingUp 0 (stackPushRedZone ++ thunkPre cfg.returnToNativeMagic cpu args)
          sp := v cpu.stackReg } (some v) v)
    (hbegin : ∀ (a : Activation) (args : Args), a.context.cpu = cpu → R
      { a with
        stage := .settingUp 0 (thunkPre cfg.returnToNativeMagic cpu args)
        sp := m.emu.initialState cpu cpu.stackReg } none (m.emu.initialState cpu))
    (huse : ∀ (a a' : Activation) (v : Option RegFile) (l : List (Activation × Phase RegFile))
      (stores : List Store), a' ∈ activations m'.stack → a.context.cpu = cpu →
      Uses cfg a (m.emu.ue cpu) a' (m'.emu.ue cpu) stores → (∀ q, v = some q → D q l) →
      R a v (m.emu.ue cpu) → R a' v (m'.emu.ue cpu))
    (hheld : Held R D base (m.emu.ue cpu) (holders cpu m.emu (activations pre))) :
    ∃ pre', m'.stack = pre' ++ B ∧
      Held R D base (m'.emu.ue cpu) (holders cpu m'.emu (activations pre')) := by
  obtain ⟨htidy, heffect, -⟩ := h.tidy.step h.masked hlong hstep
  obtain ⟨pre', hs'⟩ := hB
  refine ⟨pre', hs'.symm, ?_⟩
  cases heffect with
  | still hl hcontext hue =>
      have hpre : activations pre' = activations pre := by
        rw [← hs', hs, activations_append, activations_append] at hl
        exact List.append_cancel_right hl
      have hl : holders cpu m'.emu (activations pre) = holders cpu m.emu (activations pre) :=
        holders_congr fun b _ => by rw [hcontext]
      rw [hpre, hue, hl]
      exact hheld
  | @push a hpush ha hother hue =>
      have hpre : pre' = .run a :: pre := by
        rw [hpush, hs, ← List.cons_append] at hs'
        exact List.append_cancel_right hs'
      have hl : holders cpu m'.emu (activations pre) = holders cpu m.emu (activations pre) :=
        holders_congr fun b hb => hother b
          (by rw [hs, activations_append]; exact List.mem_append_left _ hb)
      rw [hpre, activations_run, hue]
      by_cases hcpu : a.context.cpu = cpu
      · rw [holders_cons_self hcpu, Activation.phase_of ha, hl]
        exact hheld
      · rw [holders_cons_of_ne hcpu, hl]
        exact hheld
  | @pop a rest hpop ha hrest hcontext hue =>
      have hpre : pre = .run a :: pre' := by
        rw [hrest] at hs'
        rw [hpop, ← hs', ← List.cons_append] at hs
        exact (List.append_cancel_right hs).symm
      rw [hpre, activations_run] at hheld
      have hl : holders cpu m'.emu (activations pre') = holders cpu m.emu (activations pre') :=
        holders_congr fun b _ => by rw [hcontext]
      rw [hue, hl]
      by_cases hcpu : a.context.cpu = cpu
      · rwa [holders_cons_self hcpu, Activation.phase_of ha] at hheld
      · rwa [holders_cons_of_ne hcpu] at hheld
  | @go a a' above above' rest stores hgo hgo' habove habove' hdecides hstage hctx hother hturn =>
      have hne : Frame.run a ≠ .run a' :=
        fun heq => hstage (congrArg Activation.stage (Frame.run.inj heq).symm)
      have hB : B <:+ above ++ .run a :: rest := ⟨pre, hs.symm.trans hgo⟩
      have hB' : B <:+ above' ++ .run a' :: rest := ⟨pre', hs'.trans hgo'⟩
      obtain ⟨rest, rfl⟩ := suffix_rest hne hB hB'
      obtain rfl : pre = above ++ .run a :: rest := by
        rw [hgo] at hs
        exact (List.append_cancel_right (by simpa using hs)).symm
      obtain rfl : pre' = above' ++ .run a' :: rest := by
        rw [hgo'] at hs'
        exact List.append_cancel_right (by simpa using hs')
      have hactivations : activations m.stack = a :: (activations rest ++ activations B) := by
        rw [hgo]
        simp [habove]
      have htop := h.tidy
      rw [hactivations] at htop
      have hl : holders cpu m'.emu (activations rest) = holders cpu m.emu (activations rest) :=
        holders_congr fun b hb => hother _ (htop.not_mem b (List.mem_append_left _ hb))
      simp only [activations_append, activations_run, habove, habove', List.nil_append] at hheld ⊢
      by_cases hcpu : a.context.cpu = cpu
      · subst hcpu
        rw [holders_cons_self rfl] at hheld
        rw [holders_cons_self (by rw [hctx]), hl]
        refine hturn.handover hctx (fun hd hc => ?_) (fun hd hc => ?_) (fun v args hD => ?_)
          (fun args => ?_) (fun v hu hD hR => ?_) hheld
        · obtain ⟨rfl, rfl⟩ := hdecides hd
          rw [Activation.phase_of hd] at hheld
          exact hask a rest rfl hgo rfl hd hc hheld
        · have halone := htop.alone (by rw [hd]; rfl) hc
          constructor
          · intro e he
            obtain ⟨b, hb, rfl⟩ := List.mem_map.mp he
            obtain ⟨hb, hbcpu⟩ := List.mem_filter.mp hb
            exact Stage.phase_of_not_counted
              (halone b (List.mem_append_left _ hb) (of_decide_eq_true hbcpu)) ..
          · refine hbase.resolve_right fun ⟨b, hb, hbcpu, hcounted⟩ => ?_
            have := halone b (List.mem_append_right _ hb) hbcpu
            rw [this] at hcounted
            cases hcounted
        · exact htake a v _ args rfl hD
        · exact hbegin a args rfl
        · exact huse a a' v _ stores (by simp [hgo']) rfl hu hD hR
      · rw [holders_cons_of_ne hcpu] at hheld
        rw [holders_cons_of_ne (by rwa [hctx]), hl, hturn.ue_of_ne (Ne.symm hcpu)]
        exact hheld

/-- The frames `B` stay, and so a step stores words only for the innermost run above them. -/
theorem Orderly.stores_step {m m' : Machine} {action : Action} (h : Orderly cfg m)
    (hlong : Straight m action) (hstep : Interleaving.step cfg m action = some m')
    {pre B : List Frame} (hs : m.stack = pre ++ B) (hB : B <:+ m'.stack) :
    m'.stores = m.stores ∨ ∃ a older a' v stores, activations pre = a :: older ∧
      a.phase m.emu = .holding v ∧
      Uses cfg a (m.emu.ue a.context.cpu) a' (m'.emu.ue a.context.cpu) stores ∧
      m'.stores = stores ++ m.stores := by
  cases (h.tidy.step h.masked hlong hstep).effect with
  | still _ _ _ hstores => exact .inl hstores
  | push _ _ _ _ hstores => exact .inl hstores
  | pop _ _ _ _ _ hstores => exact .inl hstores
  | @go a a' above above' rest stores hgo hgo' habove _ _ hstage _ _ hturn hstores =>
      have hne : Frame.run a ≠ .run a' :=
        fun heq => hstage (congrArg Activation.stage (Frame.run.inj heq).symm)
      have hBgo : B <:+ above ++ .run a :: rest := ⟨pre, hs.symm.trans hgo⟩
      obtain ⟨older, rfl⟩ := suffix_rest hne hBgo (hgo' ▸ hB)
      obtain rfl : pre = above ++ .run a :: older := by
        rw [hgo] at hs
        exact (List.append_cancel_right (by simpa using hs)).symm
      cases hturn with
      | use hphase _ _ huses =>
          exact .inr ⟨a, activations older, a', _, stores, by simp [habove], hphase, huses, hstores⟩
      | _ => exact .inl hstores

/-- Words are stored for the run itself. -/
theorem Uses.stores_of {a a' : Activation} {regs regs' : RegFile} {stores : List Store}
    (h : Uses cfg a regs a' regs' stores) :
    ∀ st ∈ stores, st.id = a.id ∧ st.cpu = a.context.cpu := by
  cases h with
  | next _ | returned _ | start _ | emulated _ | resume _ _ => exact nofun
  | @setUp rsp st stmts memory r _ _ _ => cases st <;> simp [Machine.storesOf]
  | @cleanUp rsp st stmts memory r _ _ _ => cases st <;> simp [Machine.storesOf]
  | call _ _ _ hstored => exact fun st hst => ⟨(hstored st hst).1, (hstored st hst).2.1⟩

end

end Interleaving

end MultiArchUefi
