import MultiArchUefi.Invariant

/-!
# MultiArchUefi.Moves

A step of the system is a sequence of a few kinds of moves on the globals, the
native stack and the chain.  Whatever has to be kept by all steps needs to be
looked at once for each kind of move.

Well-kept books are what makes a step such a sequence, and are kept by every
move themselves.
-/

namespace MultiArchUefi

open Chain Nesting Relation

/-! ## what the action says -/

/-- The engine of the context that the action enters, and its frame address. -/
def Action.callee (sys : System) : Action → Option (CpuId × Nat)
  | .runFunc cpu _ _ fp => some (cpu, fp)
  | .runImage _ _ (.ok imageBase) fp =>
      (imageFindByAddress sys.emu.images imageBase).map fun record =>
        ((sys.emu.images.record record).cpu, fp)
  | _ => none

/-- The registered image that the action starts. -/
def Action.image (sys : System) : Action → Option RecordId
  | .runImage _ _ (.ok imageBase) _ => imageFindByAddress sys.emu.images imageBase
  | _ => none

/-- The activation that makes a native call, and the registers it calls with. -/
def Action.calling (cfg : Config) (sys : System) : Action → Option (Activation × RegFile)
  | .emulate regs _ ucErr =>
      match sys.stack with
      | .run a :: _ =>
          if cpuExitReason cfg ucErr (regs a.context.cpu.programCounterReg) = .callToNative then
            some (a, regs)
          else none
      | _ => none
  | _ => none

instance (cfg : Config) (a : Activation) (regs : RegFile) (ucErr : UcErr) :
    Decidable (EndsRun cfg a regs ucErr) := inferInstanceAs (Decidable (_ ∨ _))

/-- The activation whose emulated function the action brings to its end. -/
def Action.finishing (cfg : Config) (sys : System) : Action → Option Activation
  | .emulate regs _ ucErr =>
      match sys.stack with
      | .run a :: _ => if EndsRun cfg a regs ucErr then some a else none
      | _ => none
  | _ => none

/-- The orphans that the action drops are of the new context's engine. -/
def DropsOwnEngine (cfg : Config) (sys : System) (action : Action) : Prop :=
  ∀ c ∈ action.callee sys, ∀ j ∈ orphans cfg sys.emu c.2 sys.emu.chain, j.cpu = c.1

instance (cfg : Config) (sys : System) (action : Action) :
    Decidable (DropsOwnEngine cfg sys action) :=
  inferInstanceAs (Decidable (∀ c ∈ action.callee sys, _))

/-- With a private stack, only the context that switched to it comes to its end. -/
def FinishesSwitched (cfg : Config) (sys : System) (action : Action) : Prop :=
  ∀ a ∈ action.finishing cfg sys, cfg.onPrivateStack = true → a.switched = true

instance (cfg : Config) (sys : System) (action : Action) :
    Decidable (FinishesSwitched cfg sys action) :=
  inferInstanceAs (Decidable (∀ a ∈ action.finishing cfg sys, _))

/-- Emulated code does not call `gBS->Exit`. -/
def NoExit (cfg : Config) (sys : System) (action : Action) : Prop :=
  ∀ c ∈ action.calling cfg sys,
    nativeValidateSupportedCall cfg (c.2 c.1.context.cpu.programCounterReg) ≠ .cpuExitImage

instance (cfg : Config) (sys : System) (action : Action) : Decidable (NoExit cfg sys action) :=
  inferInstanceAs (Decidable (∀ c ∈ action.calling cfg sys, _))

/-- The action drops no orphan of another engine than the new context's, and
with a private stack it finishes no other context than the one that switched. -/
def Accountable (cfg : Config) (sys : System) (action : Action) : Prop :=
  DropsOwnEngine cfg sys action ∧ FinishesSwitched cfg sys action

instance (cfg : Config) (sys : System) (action : Action) : Decidable (Accountable cfg sys action) :=
  inferInstanceAs (Decidable (_ ∧ _))

/-! ## books -/

/-- The globals, the native stack and the contexts on the chain. -/
structure Books where
  emu : State
  stack : List Frame
  chain : List CtxId

/-- The books of a system. -/
def System.books (sys : System) (chain : List CtxId) : Books := ⟨sys.emu, sys.stack, chain⟩

/-- The books are in order, and emulated code runs in the newest context. -/
structure Accounted (cfg : Config) (b : Books) : Prop extends
    Booked cfg b.emu b.stack b.chain where
  top : ∀ a rest, b.stack = .run a :: rest → b.chain.head? = some a.context

namespace Accounted

variable {cfg : Config} {s : State} {stack rest : List Frame} {chain : List CtxId} {a : Activation}

theorem of_native {id : Nat} (h : Booked cfg s (.native id :: rest) chain) :
    Accounted cfg ⟨s, .native id :: rest, chain⟩ :=
  ⟨h, fun _ _ hrun => nomatch hrun⟩

theorem of_run {l : List CtxId} (h : Booked cfg s (.run a :: rest) (a.context :: l)) :
    Accounted cfg ⟨s, .run a :: rest, a.context :: l⟩ := by
  refine ⟨h, fun b rest' hrun => ?_⟩
  rw [Frame.run.inj (List.cons.inj hrun).1]
  rfl

/-- Emulated code runs in the newest context. -/
theorem chain_eq_cons (h : Accounted cfg ⟨s, .run a :: rest, chain⟩) :
    ∃ l, chain = a.context :: l :=
  List.head?_eq_some_iff.mp (h.top a rest rfl)

end Accounted

/-! ## moves -/

/-- The moves that a step of `sys` with `action` is made of. -/
inductive Move (cfg : Config) (sys : System) (action : Action) : Books → Books → Prop where
  /-- Nothing the books are about happens. -/
  | quiet {s s' : State} (stack : List Frame) (chain : List CtxId) (h : Quiet s s') :
      Move cfg sys action ⟨s, stack, chain⟩ ⟨s', stack, chain⟩
  /-- Frames are left for a native one, those of activations by a long jump only. -/
  | left (s : State) (frames : List Frame) (id : Nat) (rest : List Frame) (chain : List CtxId)
      (h : activations frames = [] ∨ sys.stack = frames ++ .native id :: rest ∧
        ∃ n, action = .longJump n ∧ unwindToNative n sys.stack = some (.native id :: rest))
      (htop : ∀ a frames', frames ≠ .run a :: frames') :
      Move cfg sys action ⟨s, frames ++ .native id :: rest, chain⟩ ⟨s, .native id :: rest, chain⟩
  /-- A new context is entered. -/
  | entered {k : CtxId} {image : Option RecordId} {fp : Nat} {s s' : State} {id : Nat}
      {rest : List Frame} {chain : List CtxId} (hstack : sys.stack = .native id :: rest)
      (hcallee : action.callee sys = some (k.cpu, fp)) (haction : action.image sys = image)
      (hfp : fpFits fp sys.stack = true) (hpool : sys.emu.runContextAlloc k.cpu ≠ [])
      (hs : Allocated k chain sys.emu s) (himage : (s.context k).imageRecord = image)
      (hbuffer : ∀ r, s.jumpBuffer r = if image = some r then some sys.nextId
        else sys.emu.jumpBuffer r)
      (hentered : Entered cfg k fp (kept cfg sys.emu fp chain) s s')
      (ho : s'.mOriginalStack =
        (if sys.switches cfg then some sys.nextId else none).or s.mOriginalStack) :
      Move cfg sys action (sys.books chain)
        ⟨s', .run (sys.activation cfg k image fp s') :: sys.stack, k :: kept cfg sys.emu fp chain⟩
  /-- The running activation changes its engine, or its thunk does. -/
  | emulated {s s' : State} {a : Activation} {rest : List Frame} {l : List CtxId}
      (programCounter : UINT64) (regs : RegFile) (h : SameBooks s s')
      (hue : s'.ue = Function.update s.ue a.context.cpu regs) :
      Move cfg sys action ⟨s, .run a :: rest, a.context :: l⟩
        ⟨s', .run { a with programCounter := programCounter } :: rest, a.context :: l⟩
  /-- The running activation calls native code. -/
  | called {s : State} {a b : Activation} {rest : List Frame} {l : List CtxId} (id : Nat)
      (hcalling : action.calling cfg sys = some (b, s.ue a.context.cpu))
      (hb : b.context = a.context ∧ b.entrySp = a.entrySp) :
      Move cfg sys action ⟨s, .run a :: rest, a.context :: l⟩
        ⟨s, .native id :: .run { a with atCall := s.ue a.context.cpu } :: rest, a.context :: l⟩
  /-- Native code has returned to its thunk, and what it left on the chain is popped. -/
  | compressed (s : State) (id : Nat) (a : Activation) (rest : List Frame) (pre post : List CtxId) :
      Move cfg sys action ⟨s, .native id :: .run a :: rest, pre ++ a.context :: post⟩
        ⟨s.compressed pre a.context, .run a :: rest, a.context :: post⟩
  /-- The running activation returns to its caller. -/
  | finished (s : State) (a : Activation) (id : Nat) (rest : List Frame)
      (l : List CtxId) (ret : UINT64) (hswitch : cfg.onPrivateStack = true → a.switched = true) :
      Move cfg sys action ⟨s, .run a :: .native id :: rest, a.context :: l⟩
        ⟨(s.setRet a.context ret).popped [a.context] (ptr l none), .native id :: rest, l⟩
  /-- An image exits, and with it all that it called. -/
  | exited (s : State) (id id' : Nat) (frames : List Frame) (a : Activation) (rest : List Frame)
      (pre post : List CtxId) (himage : a.image ≠ none) :
      Move cfg sys action ⟨s, .native id :: (frames ++ .run a :: rest), pre ++ a.context :: post⟩
        ⟨s.popped (pre ++ [a.context]) (ptr post none), .native id' :: .exiting a.id :: rest, post⟩

/-- The moves of one step. -/
abbrev Moves (cfg : Config) (sys : System) (action : Action) : Books → Books → Prop :=
  ReflTransGen (Move cfg sys action)

variable {cfg : Config} {sys sys' : System} {action : Action} {chain : List CtxId} {a : Activation}
  {rest : List Frame}

/-- Every move keeps the books in order. -/
theorem Accounted.move {b b' : Books} (h : Accounted cfg b) (hmove : Move cfg sys action b b') :
    Accounted cfg b' := by
  cases hmove with
  | quiet stack chain hquiet => exact ⟨h.toBooked.sameBooks hquiet.toSameBooks, h.top⟩
  | left s frames id rest chain _ _ => exact of_native (h.toBooked.unwind frames)
  | entered hstack _ _ hfp _ hs himage _ hentered ho =>
      exact of_run (a := sys.activation cfg _ _ _ _)
        (h.toBooked.enter hs ⟨_, _, hstack⟩ hfp himage hentered ho)
  | @emulated s s' a rest l programCounter regs hbooks hue =>
      exact of_run (a := { a with programCounter := programCounter })
        ((h.toBooked.sameBooks hbooks).modify programCounter a.atCall)
  | @called s a b rest l id _ _ =>
      obtain ⟨hchained, hlive, hnested⟩ := h.toBooked.modify a.programCounter (s.ue a.context.cpu)
      exact of_native ⟨hchained, hlive, hnested⟩
  | compressed s id a rest pre post =>
      exact of_run ((h.toBooked.unwind [.native id]).compressed)
  | finished s a id rest l ret _ =>
      exact of_native (h.toBooked.finished ret)
  | exited s id id' frames a rest pre post _ =>
      have hbooked : Booked cfg s (.run a :: rest) (pre ++ a.context :: post) :=
        h.toBooked.unwind (.native id :: frames)
      obtain ⟨hchained, hlive, hnested⟩ := hbooked.popped
      exact of_native ⟨hchained, hlive, hbooked.nested.1, hnested⟩

theorem Accounted.moves {b b' : Books} (h : Accounted cfg b) (hmoves : Moves cfg sys action b b') :
    Accounted cfg b' := by
  induction hmoves with
  | refl => exact h
  | tail _ hmove ih => exact ih.move hmove

/-! ## the moves of a step -/

/-- The activation that switched to the private stack is the only one. -/
theorem Live.only_of_switched {s : State} {acts : List Activation}
    (h : Live cfg s chain (a :: acts)) (hcfg : cfg.onPrivateStack = true) (ha : a.switched = true) :
    acts = [] ∧ s.mOriginalStack = some a.id := by
  rcases List.eq_nil_or_concat' acts with rfl | ⟨as, b, rfl⟩
  · exact ⟨rfl, (h.switched hcfg [] a rfl).1⟩
  · have hfalse := (h.switched hcfg (a :: as) b rfl).2.2 a List.mem_cons_self
    rw [ha] at hfalse
    cases hfalse

/-- The thunk of a native call that has returned. -/
theorem moves_resume (sys : System) (action : Action) {sys₁ : System} (id : Nat) {value : UINT64}
    (h : Booked cfg sys₁.emu (.run a :: rest) chain)
    (hresume : sys₁.resume a rest value = some sys') :
    ∃ chain', Moves cfg sys action ⟨sys₁.emu, .native id :: .run a :: rest, chain⟩
      (sys'.books chain') := by
  obtain ⟨pre, post, rfl⟩ := h.split
  rw [resume_eq rest value h.chained] at hresume
  obtain rfl := Option.some.inj hresume
  let s := sys₁.emu.compressed pre a.context
  let e := (nativeThunkLeave a.context.cpu value ⟨s.ue a.context.cpu, s.memory⟩).2
  refine ⟨a.context :: post,
    ReflTransGen.tail (.single (.compressed sys₁.emu id a rest pre post)) ?_⟩
  exact .emulated _ e.regs (.setEngines s _ e.memory) rfl

/-- An image exits while the activation `a` calls native code. -/
theorem moves_exit (sys : System) (action : Action) {sys₁ : System} (n : Nat) {id : Nat}
    (h : Booked cfg sys₁.emu (.run a :: rest) chain) (hstack : sys₁.stack = .run a :: rest)
    (hexit : sys₁.cpuRunImageExit id = some sys') :
    ∃ chain', Moves cfg sys action ⟨sys₁.emu, .native n :: .run a :: rest, chain⟩
      (sys'.books chain') := by
  obtain ⟨⟨b, rest'⟩, hunwind, hexit'⟩ := Option.bind_eq_some_iff.mp hexit
  obtain ⟨record, himage, -⟩ := Option.bind_eq_some_iff.mp hexit'
  obtain ⟨-, frames, hframes⟩ := unwindToRun_eq_some hunwind
  rw [hstack] at hframes
  rw [hframes] at h ⊢
  obtain ⟨pre, post, rfl⟩ := (h.unwind frames).split
  rw [cpuRunImageExit_eq sys₁ hunwind himage h.chained] at hexit
  obtain rfl := Option.some.inj hexit
  exact ⟨post, .single (.exited sys₁.emu n sys₁.nextId frames b rest' pre post (by simp [himage]))⟩

/-- Entering a context that has been allocated for it. -/
theorem cpuRunCtx_spec {k : CtxId} {fp : Nat} {s : State} (image : Option RecordId)
    (hs : Allocated k chain sys.emu s) (hcpu : ∀ j ∈ orphans cfg sys.emu fp chain, j.cpu = k.cpu) :
    ∃ s', sys.cpuRunCtx cfg k image fp s = some (sys.entered cfg k image fp s') ∧
      Entered cfg k fp (kept cfg sys.emu fp chain) s s' ∧
      s'.mOriginalStack = (if sys.switches cfg then some sys.nextId else none).or
        s.mOriginalStack := by
  have hsame := orphans_congr cfg fp hs.older
  obtain ⟨s', hrun, hentered, ho⟩ := cpuRunCtxEnter_spec cfg fp
    (if sys.switches cfg then some sys.nextId else none) hs.chained hs.fresh
    (hsame.1 ▸ hcpu)
  rw [hsame.2] at hentered
  exact ⟨s', by rw [System.cpuRunCtx, hrun]; rfl, hentered, ho⟩

/-- The orphans that the action drops, on a chain whose books are in order. -/
theorem DropsOwnEngine.orphans {cpu : CpuId} {fp : Nat} (h : DropsOwnEngine cfg sys action)
    (hacc : Accounted cfg (sys.books chain)) (hcallee : action.callee sys = some (cpu, fp)) :
    ∀ j ∈ orphans cfg sys.emu fp chain, j.cpu = cpu := by
  have hchain : sys.emu.chain = chain := hacc.chained.chain_eq
  rw [← hchain]
  exact h (cpu, fp) hcallee

theorem step_runFunc {cpu : CpuId} {programCounter : UINT64} {args : Args} {fp : Nat}
    (h : step cfg sys (.runFunc cpu programCounter args fp) = some sys') :
    (∃ id rest, sys.stack = .native id :: rest) ∧ fpFits fp sys.stack = true ∧
      sys.cpuRunFunc cfg cpu programCounter args fp = some sys' := by
  match hstack : sys.stack with
  | .native id :: rest =>
      simp only [step, hstack] at h
      split at h
      · rename_i hfp
        exact ⟨⟨id, rest, rfl⟩, hfp, h⟩
      · cases h
  | [] => simp [step, hstack] at h
  | .run a :: rest => simp [step, hstack] at h
  | .exiting id :: rest => simp [step, hstack] at h

theorem step_runImage {imageHandle systemTable : UINT64}
    {loadedImage : Except UINT64 UINT64} {fp : Nat}
    (h : step cfg sys (.runImage imageHandle systemTable loadedImage fp) = some sys') :
    (∃ id rest, sys.stack = .native id :: rest) ∧ fpFits fp sys.stack = true ∧
      sys.cpuRunImage cfg imageHandle systemTable loadedImage fp = some sys' := by
  match hstack : sys.stack with
  | .native id :: rest =>
      simp only [step, hstack] at h
      split at h
      · rename_i hfp
        exact ⟨⟨id, rest, rfl⟩, hfp, h⟩
      · cases h
  | [] => simp [step, hstack] at h
  | .run a :: rest => simp [step, hstack] at h
  | .exiting id :: rest => simp [step, hstack] at h

/-- A step that calls emulated code. -/
theorem afterRun_of_step {cpu : CpuId} {fp : Nat} (hc : Chained sys.emu chain)
    (hcallee : action.callee sys = some (cpu, fp)) (hstep : step cfg sys action = some sys') :
    (∃ id rest, sys.stack = .native id :: rest) ∧ fpFits fp sys.stack = true ∧
      AfterRun cfg sys chain cpu (action.image sys) fp sys' := by
  cases action with
  | runFunc cpu' programCounter args fp' =>
      obtain ⟨rfl, rfl⟩ := Prod.mk.inj (Option.some.inj hcallee)
      obtain ⟨hnative, hfp, hrun⟩ := step_runFunc hstep
      exact ⟨hnative, hfp, cpuRunFunc_cases hc hrun⟩
  | runImage imageHandle systemTable loadedImage fp' =>
      cases loadedImage with
      | error status => cases hcallee
      | ok imageBase =>
          obtain ⟨hnative, hfp, hrun⟩ := step_runImage hstep
          obtain ⟨record, hrecord, hrun⟩ := cpuRunImage_cases hc hrun
          simp only [Action.callee, hrecord, Option.map_some, Option.some.injEq,
            Prod.mk.injEq] at hcallee
          obtain ⟨rfl, rfl⟩ := hcallee
          refine ⟨hnative, hfp, ?_⟩
          rw [Action.image, hrecord]
          exact hrun
  | _ => cases hcallee

theorem AfterRun.moves {cpu : CpuId} {fp id : Nat} (h : Accounted cfg (sys.books chain))
    (hcallee : action.callee sys = some (cpu, fp)) (hstack : sys.stack = .native id :: rest)
    (hfp : fpFits fp sys.stack = true) (hdrops : DropsOwnEngine cfg sys action)
    (hrun : AfterRun cfg sys chain cpu (action.image sys) fp sys') :
    ∃ chain', Moves cfg sys action (sys.books chain) (sys'.books chain') := by
  cases hrun with
  | failed s ret _ hquiet heq =>
      subst heq
      exact ⟨chain, .single (.quiet sys.stack chain hquiet)⟩
  | entered k s hs hk hpool himage hbuffer heq =>
      subst hk
      obtain ⟨s', hrun, hentered, ho⟩ :=
        cpuRunCtx_spec (action.image sys) hs (hdrops.orphans h hcallee)
      obtain rfl := Option.some.inj (hrun.symm.trans heq)
      exact ⟨k :: kept cfg sys.emu fp chain,
        .single (.entered hstack hcallee rfl hfp hpool hs himage hbuffer hentered ho)⟩

theorem AfterCall.moves {sys₁ : System} {regs : RegFile} {b : Activation} {l : List CtxId}
    (h : Booked cfg sys₁.emu (.run a :: rest) (a.context :: l))
    (hue : sys₁.emu.ue a.context.cpu = regs) (hcalling : action.calling cfg sys = some (b, regs))
    (hb : b.context = a.context ∧ b.entrySp = a.entrySp)
    (hcall : AfterCall sys₁ { a with atCall := regs } rest sys') :
    ∃ chain', Moves cfg sys action ⟨sys₁.emu, .run a :: rest, a.context :: l⟩
      (sys'.books chain') := by
  subst hue
  let called : Activation := { a with atCall := sys₁.emu.ue a.context.cpu }
  have hmove (id : Nat) : Move cfg sys action ⟨sys₁.emu, .run a :: rest, a.context :: l⟩
      ⟨sys₁.emu, .native id :: .run called :: rest, a.context :: l⟩ := .called id hcalling hb
  have hcalled : Booked cfg sys₁.emu (.run called :: rest) (a.context :: l) := h.modify _ _
  cases hcall with
  | called hemu hstack hnext =>
      refine ⟨a.context :: l, .tail (.single (hmove sys₁.nextId)) ?_⟩
      rw [System.books, hstack]
      exact .quiet _ _ hemu
  | resumed sys₂ value hemu hnext hresume =>
      obtain ⟨chain', hmoves⟩ := moves_resume sys action sys₁.nextId
        (hcalled.sameBooks hemu.toSameBooks) hresume
      exact ⟨chain', .head (hmove sys₁.nextId) (.head (.quiet _ _ hemu) hmoves)⟩
  | exited sys₂ id hemu hstack hnext hexit =>
      obtain ⟨chain', hmoves⟩ := moves_exit sys action sys₁.nextId
        (hcalled.sameBooks hemu.toSameBooks) hstack hexit
      exact ⟨chain', .head (hmove sys₁.nextId) (.head (.quiet _ _ hemu) hmoves)⟩

theorem AfterEmulation.moves {regs : RegFile} {memory : WordMemory.Memory} {ucErr : UcErr}
    (h : Accounted cfg (sys.books chain)) (haction : action = .emulate regs memory ucErr)
    (hstack : sys.stack = .run a :: rest) (hfinishes : FinishesSwitched cfg sys action)
    (hemulate : AfterEmulation cfg sys a rest regs ucErr sys') :
    ∃ chain', Moves cfg sys action (sys.books chain) (sys'.books chain') := by
  subst haction
  rw [System.books, hstack] at h ⊢
  obtain ⟨l, rfl⟩ := h.chain_eq_cons
  cases hemulate with
  | runs programCounter hemu hue hstack' hnext =>
      refine ⟨a.context :: l, .single ?_⟩
      rw [System.books, hstack']
      exact .emulated programCounter regs hemu hue
  | ends s ret left hends hemu hue hfin =>
      have hswitch : cfg.onPrivateStack = true → a.switched = true :=
        hfinishes a (by simp [Action.finishing, hstack, hends])
      have hbooked := h.toBooked.sameBooks hemu
      obtain ⟨⟨id, rest', rfl⟩, -⟩ := h.nested
      rw [finish_eq { sys with emu := s } _ ret hbooked.chained fun hcfg =>
        (Live.only_of_switched hbooked.live hcfg (hswitch hcfg)).2] at hfin
      obtain rfl := Option.some.inj hfin
      exact ⟨l, .head (.emulated a.programCounter left hemu hue)
        (.single (.finished s a id rest' l ret hswitch))⟩
  | calls sys₁ hreason hemu hue hnext hcall =>
      obtain ⟨chain', hmoves⟩ : ∃ chain', Moves cfg sys (.emulate regs memory ucErr)
          ⟨sys₁.emu, .run a :: rest, a.context :: l⟩ (sys'.books chain') := AfterCall.moves (b := a)
        (h.toBooked.sameBooks hemu) (by rw [hue, Function.update_self])
        (by simp [Action.calling, hstack, hreason]) ⟨rfl, rfl⟩ hcall
      exact ⟨chain', .head (.emulated a.programCounter regs hemu hue) hmoves⟩

/-- A step is a sequence of moves. -/
theorem Accounted.moves_of_step (h : Accounted cfg (sys.books chain))
    (hC : Accountable cfg sys action) (hstep : step cfg sys action = some sys') :
    ∃ chain', Moves cfg sys action (sys.books chain) (sys'.books chain') := by
  obtain ⟨hdrops, hfinishes⟩ := hC
  have hcalls : ∀ c, action.callee sys = some c →
      ∃ chain', Moves cfg sys action (sys.books chain) (sys'.books chain') := fun c hcallee => by
    obtain ⟨⟨id, rest, hstack⟩, hfp, hrun⟩ := afterRun_of_step h.chained hcallee hstep
    exact hrun.moves h hcallee hstack hfp hdrops
  unfold MultiArchUefi.step at hstep
  split at hstep
  · exact hcalls _ rfl
  · -- `CpuRunImage`
    rename_i loadedImage fp id rest hstack
    split at hstep
    · cases loadedImage with
      | error status =>
          obtain rfl := Option.some.inj hstep
          exact ⟨chain, .refl⟩
      | ok imageBase =>
          obtain ⟨record, hrecord, -⟩ := cpuRunImage_cases h.chained hstep
          exact hcalls ((sys.emu.images.record record).cpu, fp) (by simp [Action.callee, hrecord])
    · cases hstep
  · rename_i hstack
    exact AfterEmulation.moves h rfl hstack hfinishes (cpuRunCtxInternal_cases hstep)
  · -- native code writes memory
    obtain rfl := Option.some.inj hstep
    exact ⟨chain, .single (.quiet _ _ ⟨.setEngines _ _ _, rfl⟩)⟩
  · -- a native function returns
    rename_i id a rest hstack
    rw [System.books, hstack] at h ⊢
    exact moves_resume sys _ id (h.toBooked.unwind [.native id]) hstep
  · -- the native `gBS->Exit` returns
    rename_i value id id' rest hstack
    obtain rfl := Option.some.inj hstep
    rw [System.books, hstack] at h ⊢
    obtain ⟨⟨id'', rest', rfl⟩, -⟩ := h.nested
    refine ⟨chain, .head (.quiet _ _ ⟨.assert _ rfl (by decide) _, ?_⟩)
      (.single (.left _ [.native id, .exiting id'] id'' rest' chain (.inl rfl) (by simp)))⟩
    rw [State.assert_eq]
  · -- a long jump
    rename_i hstack
    obtain ⟨stack, hunwind, rfl⟩ := Option.map_eq_some_iff.mp hstep
    obtain ⟨frames, rest', heq, rfl⟩ := unwindToNative_eq_some hunwind
    have htop : ∀ a frames', frames ≠ .run a :: frames' := fun a frames' hframes => by
      rw [hstack, hframes] at heq
      cases (List.cons.inj heq).1
    have hmove : Move cfg sys _ ⟨sys.emu, frames ++ .native _ :: rest', chain⟩
        ⟨sys.emu, .native _ :: rest', chain⟩ :=
      .left sys.emu frames _ rest' chain (.inr ⟨heq, _, rfl, hunwind⟩) htop
    rw [← heq] at hmove
    exact ⟨chain, .single hmove⟩
  · cases hstep

/-- One step keeps the books in order. -/
theorem Accounted.step (h : Accounted cfg (sys.books chain)) (hC : Accountable cfg sys action)
    (hstep : step cfg sys action = some sys') : ∃ chain', Accounted cfg (sys'.books chain') := by
  obtain ⟨chain', hmoves⟩ := h.moves_of_step hC hstep
  exact ⟨chain', h.moves hmoves⟩

end MultiArchUefi
