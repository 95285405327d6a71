import MultiArchUefi.OneStack
import MultiArchUefi.LiveContexts

/-!
# MultiArchUefi.PrivateStack

Who gets control when a context comes to its end in a `MAU_ON_PRIVATE_STACK`
build.

`CpuRunCtxOnPrivateStack` clears the flag that tells whether a context found its
engine in use, and then decides by it whether to jump back to the original
stack.  So it always does, and only the context that switched to the private
stack finds its own caller there.
-/

namespace MultiArchUefi

open Chain Nesting Transition

/-! ## returning to the caller -/

/-- What `CpuRunCtxInternal` returns when the emulated function of `a` has come
to its end, and the state it leaves. -/
def System.internalReturn (cfg : Config) (sys : System) (a : Activation) (regs : RegFile)
    (memory : WordMemory.Memory) (ucErr : UcErr) : UINT64 × State :=
  let cpu := a.context.cpu
  let s := emulated cpu regs memory ucErr sys.emu
  match cpuExitReason cfg ucErr (s.ue cpu cpu.programCounterReg) with
  | .returnToNative =>
      let s := s.withEngine cpu (emuThunkPost cpu)
      (s.ue cpu cpu.returnValueReg, s)
  | _ => (EFI_UNSUPPORTED, s)

/-- A context that comes to its end returns to its own caller, with the value
computed for it, and jumps to the original stack only if it has left that. -/
def ReturnsToCaller (cfg : Config) (sys : System) (action : Action) : Prop :=
  ∀ regs memory ucErr a rest, action = .emulate regs memory ucErr → sys.stack = .run a :: rest →
    EndsRun cfg a regs ucErr →
    (∃ sys', step cfg sys action = some sys' ∧ sys'.stack = rest ∧
      sys'.trace = .returned a.id (sys.internalReturn cfg a regs memory ucErr).1 :: sys.trace) ∧
    System.jumpsToOriginalStack cfg a.context (cpuRunCtxOnPrivateStackLeave a.context
      (sys.internalReturn cfg a regs memory ucErr).1
      (sys.internalReturn cfg a regs memory ucErr).2) =
        a.switched

variable {cfg : Config} {sys sys' : System} {action : Action} {chain : List CtxId} {a : Activation}
  {rest : List Frame} {regs : RegFile} {memory : WordMemory.Memory} {ucErr : UcErr}

theorem cpuRunCtxInternal_ends (hends : EndsRun cfg a regs ucErr) :
    sys.cpuRunCtxInternal cfg a rest regs memory ucErr =
      System.finish cfg { sys with emu := (sys.internalReturn cfg a regs memory ucErr).2 } a rest
        (sys.internalReturn cfg a regs memory ucErr).1 := by
  obtain ⟨-, hue, -, -⟩ := emulated_spec a.context.cpu regs memory ucErr sys.emu
  have hregs : (System.emulated a.context.cpu regs memory ucErr sys.emu).ue a.context.cpu =
      regs := by
    rw [hue, Function.update_self]
  unfold System.cpuRunCtxInternal System.internalReturn
  rcases hends with hreason | hreason <;> simp only [hregs, hreason]

theorem internalReturn_books :
    SameBooks sys.emu (sys.internalReturn cfg a regs memory ucErr).2 := by
  obtain ⟨hbooks, -⟩ := emulated_spec a.context.cpu regs memory ucErr sys.emu
  unfold System.internalReturn
  simp only
  split
  · exact hbooks.trans (.withEngine _ _ _)
  · exact hbooks

theorem finishing_eq_some (h : action.finishing cfg sys = some a) :
    ∃ regs memory ucErr rest, action = .emulate regs memory ucErr ∧ sys.stack = .run a :: rest ∧
      EndsRun cfg a regs ucErr := by
  unfold Action.finishing at h
  split at h
  · rename_i regs memory ucErr
    split at h
    · rename_i b rest hstack
      split at h
      · rename_i hends
        obtain rfl := Option.some.inj h
        exact ⟨regs, memory, ucErr, rest, rfl, hstack, hends⟩
      · cases h
    · cases h
  · cases h

/-- The books after the emulated function of `a` has come to its end, on the chain there was. -/
theorem chained_internalReturn (regs : RegFile) (memory : WordMemory.Memory) (ucErr : UcErr)
    (h : Accounted cfg (sys.books chain)) (hstack : sys.stack = .run a :: rest) :
    ∃ l, chain = a.context :: l ∧
      Chained (sys.internalReturn cfg a regs memory ucErr).2 (a.context :: l) := by
  simp only [System.books, hstack] at h
  obtain ⟨l, rfl⟩ := h.chain_eq_cons
  exact ⟨l, rfl, internalReturn_books.chained h.chained⟩

/-- The context that switched to the private stack returns to its own caller,
and no other does. -/
theorem returnsToCaller_iff (hprivate : cfg.onPrivateStack = true)
    (h : Accounted cfg (sys.books chain)) :
    ReturnsToCaller cfg sys action ↔ FinishesSwitched cfg sys action := by
  constructor
  · intro hreturns a ha _
    obtain ⟨regs, memory, ucErr, rest, hact, hstack, hends⟩ := finishing_eq_some ha
    obtain ⟨-, hjump⟩ := hreturns regs memory ucErr a rest hact hstack hends
    obtain ⟨l, -, hc⟩ := chained_internalReturn regs memory ucErr h hstack
    rw [jumpsToOriginalStack_leave cfg _ hc.threaded, hprivate] at hjump
    exact hjump.symm
  · rintro hswitch regs memory ucErr a rest rfl hstack hends
    obtain ⟨l, rfl, hc⟩ := chained_internalReturn regs memory ucErr h hstack
    have hswitched : a.switched = true :=
      hswitch a (by simp [Action.finishing, hstack, hends]) hprivate
    have hlive : Live cfg sys.emu (a.context :: l) (a :: activations rest) := by
      have hlive := h.live
      simp only [System.books, hstack] at hlive
      exact hlive
    have ho : (sys.internalReturn cfg a regs memory ucErr).2.mOriginalStack = some a.id :=
      internalReturn_books.mOriginalStack.trans (hlive.only_of_switched hprivate hswitched).2
    have hfinish := finish_eq
      { sys with emu := (sys.internalReturn cfg a regs memory ucErr).2 } rest
      (sys.internalReturn cfg a regs memory ucErr).1 hc fun _ : cfg.onPrivateStack = true => ho
    have hstep : step cfg sys (.emulate regs memory ucErr) = System.finish cfg
        { sys with emu := (sys.internalReturn cfg a regs memory ucErr).2 } a rest
          (sys.internalReturn cfg a regs memory ucErr).1 := by
      simp only [step, hstack, cpuRunCtxInternal_ends hends]
    refine ⟨⟨_, hstep.trans hfinish, rfl, rfl⟩, ?_⟩
    rw [jumpsToOriginalStack_leave cfg _ hc.threaded, hprivate, hswitched]

/-- Control goes to the activation's own caller unless it is a nested one on the private stack. -/
theorem returns_iff_outermost (memory : WordMemory.Memory) (hnum : Numbered sys)
    (h : Accounted cfg (sys.books chain)) (hstack : sys.stack = .run a :: rest)
    (hends : EndsRun cfg a regs ucErr) :
    (∃ sys', step cfg sys (.emulate regs memory ucErr) = some sys' ∧ sys'.stack = rest ∧
      sys'.trace = .returned a.id (sys.internalReturn cfg a regs memory ucErr).1 :: sys.trace) ↔
      (cfg.onPrivateStack = true → activations rest = []) := by
  let ret := (sys.internalReturn cfg a regs memory ucErr).1
  let sys₁ : System := { sys with emu := (sys.internalReturn cfg a regs memory ucErr).2 }
  obtain ⟨l, rfl, hc⟩ := chained_internalReturn regs memory ucErr h hstack
  have hstep : step cfg sys (.emulate regs memory ucErr) = sys₁.finish cfg a rest ret := by
    simp only [step, hstack, cpuRunCtxInternal_ends hends, sys₁, ret]
  have hlive : Live cfg sys.emu (a.context :: l) (a :: activations rest) := by
    simpa [System.books, hstack] using h.live
  constructor
  · rintro ⟨sys', hlast, hrest, -⟩ hprivate
    rcases List.eq_nil_or_concat' (activations rest) with hnone | ⟨as, b, hacts⟩
    · exact hnone
    -- the outermost activation has called `SetJump` last
    have hjump : sys₁.emu.mOriginalStack = some b.id :=
      internalReturn_books.mOriginalStack.trans
        (hlive.switched hprivate (a :: as) b (by rw [hacts, List.cons_append])).1
    have hleave : (cpuRunCtxOnPrivateStackLeave a.context ret sys₁.emu).mOriginalStack =
        some b.id := by
      obtain ⟨asserts, heq, -⟩ := cpuRunCtxOnPrivateStackLeave_eq ret hc.threaded
      rw [heq]
      exact hjump
    rw [hstep, System.finish] at hlast
    simp only [sys₁] at hleave hlast hc
    simp only [jumpsToOriginalStack_leave cfg ret hc.threaded, hprivate, if_true, hleave,
      Option.bind_some] at hlast
    cases hunwind : unwindToRun b.id (.run a :: rest) with
    | none =>
        rw [hunwind] at hlast
        cases hlast
    | some found =>
        obtain ⟨caller, below⟩ := found
        rw [hunwind] at hlast
        obtain rfl := Option.some.inj hlast
        obtain rfl : below = rest := hrest
        obtain ⟨hid, pre, heq⟩ := unwindToRun_eq_some hunwind
        have hpre : pre = [] := by
          have hlength := congrArg List.length heq
          rw [List.length_append, List.length_cons, List.length_cons] at hlength
          exact List.length_eq_zero_iff.mp (by omega)
        rw [hpre, List.nil_append] at heq
        obtain rfl := Frame.run.inj (List.cons.inj heq).1
        -- but that has a smaller number
        have hmem : .run b ∈ below := mem_activations.mp (by simp [hacts])
        have hpair := hnum.1
        rw [hstack, List.map_cons, List.pairwise_cons] at hpair
        exact absurd hid (hpair.1 b.id (List.mem_map_of_mem hmem)).ne'
  · intro houtermost
    have hfinish := finish_eq sys₁ rest ret hc fun hprivate =>
      internalReturn_books.mOriginalStack.trans
        (hlive.switched hprivate [] a (by rw [houtermost hprivate]; rfl)).1
    exact ⟨_, hstep.trans hfinish, rfl, rfl⟩

/-! ## returning once -/

/-- The event is the return of `id`. -/
def Event.returns (id : Nat) : Event → Bool
  | .returned id' _ => id' = id
  | _ => false

/-- How often `id` is on the stack or has returned. -/
def System.account (sys : System) (id : Nat) : Nat :=
  (activations sys.stack).countP (fun a => a.id = id) + sys.trace.countP (Event.returns id)

/-- What a step of calls that nest does to the activations and to the returns. -/
inductive ReturnStep (sys sys' : System) : Prop where
  | quiet (hids : (activations sys'.stack).map (·.id) = (activations sys.stack).map (·.id))
      (htrace : ∀ id, sys'.trace.countP (Event.returns id) = sys.trace.countP (Event.returns id))
      (hnext : sys.nextId ≤ sys'.nextId)
  | entered (a : Activation) (hid : a.id = sys.nextId)
      (hacts : activations sys'.stack = a :: activations sys.stack)
      (htrace : sys'.trace = sys.trace) (hnext : sys'.nextId = sys.nextId + 1)
  | failed (s : State) (ret : UINT64) (h : sys' = System.returned { sys with emu := s } ret)
  | returned (a : Activation) (ret : UINT64)
      (hacts : activations sys.stack = a :: activations sys'.stack)
      (htrace : sys'.trace = .returned a.id ret :: sys.trace) (hnext : sys'.nextId = sys.nextId)

theorem returnStep_cpuRunCtx {k : CtxId} {image : Option RecordId} {fp : Nat} {s : State}
    (h : sys.cpuRunCtx cfg k image fp s = some sys') : ReturnStep sys sys' := by
  obtain ⟨s', -, rfl⟩ := Option.map_eq_some_iff.mp h
  exact .entered _ rfl rfl rfl rfl

/-- A native call, other than to `gBS->Exit`, enters nothing and returns nothing. -/
theorem returnStep_callNative (sys₁ : System) {programCounter : UINT64}
    (hstack : sys.stack = .run a :: rest) (htrace : sys₁.trace = sys.trace)
    (hnext : sys₁.nextId = sys.nextId)
    (hexit : nativeValidateSupportedCall cfg programCounter ≠ .cpuExitImage)
    (h : sys₁.callNative cfg a rest programCounter = some sys') : ReturnStep sys sys' := by
  have hids : (activations sys.stack).map (·.id) = a.id :: (activations rest).map (·.id) := by
    simp [hstack]
  unfold System.callNative at h
  simp only at h
  have hfunc := nativeThunkEnter_func cfg a.context.cpu programCounter
    ⟨sys₁.emu.ue a.context.cpu, sys₁.emu.memory⟩
  split at h
  · obtain ⟨s, -, rfl⟩ := resume_eq_some h
    refine .quiet hids.symm (fun id => ?_) hnext.ge
    simp [System.resumed, System.called, Event.returns, htrace]
  · rename_i hcall
    exact absurd (hfunc.symm.trans hcall) hexit
  · obtain rfl := Option.some.inj h
    refine .quiet hids.symm (fun id => ?_) (hnext.ge.trans (Nat.le_succ _))
    simp [System.called, Event.returns, htrace]

theorem returnStep_emulate (hacc : Accounted cfg (sys.books chain))
    (hstack : sys.stack = .run a :: rest)
    (hswitch : FinishesSwitched cfg sys (.emulate regs memory ucErr))
    (hexit : NoExit cfg sys (.emulate regs memory ucErr))
    (hstep : sys.cpuRunCtxInternal cfg a rest regs memory ucErr = some sys') :
    ReturnStep sys sys' := by
  obtain ⟨hbooks, hue, -, -⟩ := emulated_spec a.context.cpu regs memory ucErr sys.emu
  have hregs : (System.emulated a.context.cpu regs memory ucErr sys.emu).ue a.context.cpu =
      regs := by
    rw [hue, Function.update_self]
  by_cases hends : EndsRun cfg a regs ucErr
  · rw [cpuRunCtxInternal_ends hends] at hstep
    have hbooked := hacc
    simp only [System.books, hstack] at hbooked
    obtain ⟨l, rfl⟩ := hbooked.chain_eq_cons
    have hfinish := finish_eq
      { sys with emu := (sys.internalReturn cfg a regs memory ucErr).2 } rest
      (sys.internalReturn cfg a regs memory ucErr).1
      (internalReturn_books.chained hbooked.chained) fun hcfg => by
        have hswitched := hswitch a (by simp [Action.finishing, hstack, hends]) hcfg
        exact internalReturn_books.mOriginalStack.trans
          (hbooked.live.only_of_switched hcfg hswitched).2
    rw [hfinish] at hstep
    obtain rfl := Option.some.inj hstep
    exact .returned a _ (by simp [hstack]) rfl rfl
  · unfold System.cpuRunCtxInternal at hstep
    simp only [hregs] at hstep
    cases hreason : cpuExitReason cfg ucErr (regs a.context.cpu.programCounterReg) with
    | none =>
        rw [hreason] at hstep
        obtain rfl := Option.some.inj hstep
        exact .quiet (by simp [hstack]) (fun _ => rfl) le_rfl
    | callToNative =>
        rw [hreason] at hstep
        have htarget := hexit (a, regs) (by simp [Action.calling, hstack, hreason])
        exact returnStep_callNative
          { sys with emu := System.emulated a.context.cpu regs memory ucErr sys.emu }
          hstack rfl rfl htarget hstep
    | returnToNative => exact absurd (.inl hreason) hends
    | failedEmu => exact absurd (.inr hreason) hends

/-- A step of calls that nest; there is no `CpuRunImage` whose image has exited. -/
theorem returnStep_of_step (hacc : Accounted cfg (sys.books chain))
    (hnone : ∀ id, .exiting id ∉ sys.stack) (hleaves : LeavesActivations sys action)
    (hswitch : FinishesSwitched cfg sys action) (hexit : NoExit cfg sys action)
    (hstep : step cfg sys action = some sys') : ReturnStep sys sys' := by
  cases action with
  | runFunc cpu programCounter args fp =>
      obtain ⟨-, -, hrun⟩ := step_runFunc hstep
      unfold System.cpuRunFunc at hrun
      split at hrun
      · exact .failed _ _ (Option.some.inj hrun).symm
      · exact returnStep_cpuRunCtx hrun
  | runImage imageHandle systemTable loadedImage fp =>
      obtain ⟨-, -, hrun⟩ := step_runImage hstep
      unfold System.cpuRunImage at hrun
      split at hrun
      · exact .failed _ _ (Option.some.inj hrun).symm
      · split at hrun
        · cases hrun
        · split at hrun
          · exact .failed _ _ (Option.some.inj hrun).symm
          · exact returnStep_cpuRunCtx hrun
  | emulate regs memory ucErr =>
      cases hstack : sys.stack with
      | nil => simp [step, hstack] at hstep
      | cons frame rest =>
          cases frame with
          | native id => simp [step, hstack] at hstep
          | exiting id => simp [step, hstack] at hstep
          | run a =>
              simp only [step, hstack] at hstep
              exact returnStep_emulate hacc hstack hswitch hexit hstep
  | store memory =>
      cases hstack : sys.stack with
      | nil => simp [step, hstack] at hstep
      | cons frame rest =>
          cases frame with
          | run a => simp [step, hstack] at hstep
          | exiting id => simp [step, hstack] at hstep
          | native id =>
              simp only [step, hstack] at hstep
              obtain rfl := Option.some.inj hstep
              exact .quiet (by simp [hstack]) (fun _ => rfl) le_rfl
  | ret value =>
      cases hstack : sys.stack with
      | nil => simp [step, hstack] at hstep
      | cons frame below =>
          cases frame with
          | run a => simp [step, hstack] at hstep
          | exiting id => simp [step, hstack] at hstep
          | native id =>
              cases below with
              | nil => simp [step, hstack] at hstep
              | cons caller rest =>
                  cases caller with
                  | native id' => simp [step, hstack] at hstep
                  | exiting id' => exact absurd (by simp [hstack]) (hnone id')
                  | run a =>
                      simp only [step, hstack] at hstep
                      obtain ⟨s, -, rfl⟩ := resume_eq_some hstep
                      refine .quiet (by simp [hstack, System.resumed]) (fun id => ?_) le_rfl
                      simp [System.resumed, Event.returns]
  | longJump id =>
      cases hstack : sys.stack with
      | nil => simp [step, hstack] at hstep
      | cons frame rest =>
          cases frame with
          | run a => simp [step, hstack] at hstep
          | exiting id' => simp [step, hstack] at hstep
          | native id' =>
              simp only [step, hstack] at hstep
              obtain ⟨stack, hunwind, rfl⟩ := Option.map_eq_some_iff.mp hstep
              rw [← hstack] at hunwind
              have hlength := hleaves stack hunwind
              obtain ⟨frames, -, heq, -⟩ := unwindToNative_eq_some hunwind
              rw [heq, activations_append, List.length_append] at hlength
              have hframes : activations frames = [] := List.length_eq_zero_iff.mp (by omega)
              exact .quiet (by simp [heq, hframes]) (fun _ => rfl) le_rfl

/-- No `CpuRunImage` waits for the native `gBS->Exit`. -/
def NoneExiting (sys : System) : Prop := ∀ id, .exiting id ∉ sys.stack

theorem NoneExiting.step (h : NoneExiting sys) (hstack : StackStep sys sys')
    (hreturn : ReturnStep sys sys') :
    NoneExiting sys' := by
  intro id hid
  cases hstack with
  | unwound frames heq _ => exact h id (by rw [heq]; exact List.mem_append_right _ hid)
  | entered a _ _ heq _ =>
      rw [heq] at hid
      exact h id (by simpa using hid)
  | runs frames a rest programCounter atCall heq heq' _ =>
      rw [heq'] at hid
      exact h id (by rw [heq]; simp at hid; simp [hid])
  | called a rest atCall heq heq' _ =>
      rw [heq'] at hid
      exact h id (by rw [heq]; simp at hid; simp [hid])
  | exited frames a rest heq heq' hnext =>
      -- that step would leave an activation that has not returned
      have hfewer : (activations sys'.stack).length < (activations sys.stack).length := by
        simp [heq, heq']
        omega
      cases hreturn with
      | quiet hids _ _ =>
          have hlength := congrArg List.length hids
          simp only [List.length_map] at hlength
          omega
      | entered b _ hacts _ _ =>
          rw [hacts, List.length_cons] at hfewer
          omega
      | failed s ret hfailed =>
          rw [hfailed] at hfewer
          exact absurd hfewer (Nat.lt_irrefl _)
      | returned b ret _ _ hsame => omega

/-- Nothing is on the stack twice, or returns twice, or does both; and the next
number has not been used. -/
structure Once (sys : System) : Prop where
  noneExiting : NoneExiting sys
  unused : ∀ id, sys.nextId ≤ id → sys.account id = 0
  once : ∀ id, sys.account id ≤ 1

/-- What is on the stack stays on it or returns, and one frame may be new. -/
theorem ReturnStep.account (h : ReturnStep sys sys') :
    (∀ id, sys'.account id = sys.account id) ∧ sys.nextId ≤ sys'.nextId ∨
      (∀ id, sys'.account id = sys.account id + if sys.nextId = id then 1 else 0) ∧
        sys'.nextId = sys.nextId + 1 := by
  cases h with
  | quiet hids htrace hnext =>
      refine .inl ⟨fun id => ?_, hnext⟩
      have hcount := congrArg (List.countP fun i => decide (i = id)) hids
      simp only [List.countP_map, Function.comp_def] at hcount
      rw [System.account, System.account, htrace, hcount]
  | entered a ha hacts htrace hnext =>
      refine .inr ⟨fun id => ?_, hnext⟩
      simp only [System.account, hacts, htrace, List.countP_cons, ha, decide_eq_true_eq]
      omega
  | failed s ret hfailed =>
      refine .inr ⟨fun id => ?_, by rw [hfailed]; rfl⟩
      simp only [hfailed, System.account, System.returned, List.countP_cons, Event.returns,
        decide_eq_true_eq]
      omega
  | returned a ret hacts htrace hnext =>
      refine .inl ⟨fun id => ?_, hnext.ge⟩
      simp only [System.account, hacts, htrace, List.countP_cons, Event.returns, decide_eq_true_eq]
      omega

theorem Once.step (h : Once sys) (hstack : StackStep sys sys') (hreturn : ReturnStep sys sys') :
    Once sys' := by
  refine ⟨h.noneExiting.step hstack hreturn, fun id hid => ?_, fun id => ?_⟩
  · rcases hreturn.account with ⟨hsame, hnext⟩ | ⟨hsucc, hnext⟩
    · exact (hsame id).trans (h.unused id (hnext.trans hid))
    · rw [hsucc, if_neg (by omega), h.unused id (by omega)]
  · have honce := h.once id
    rcases hreturn.account with ⟨hsame, -⟩ | ⟨hsucc, -⟩
    · rw [hsame]
      exact honce
    · rw [hsucc]
      split
      · rename_i hid
        rw [h.unused id hid.le]
      · exact honce

/-! ## runs -/

/-- A step of calls that nest, in a build whose private stack does no harm. -/
def NestsSwitched (cfg : Config) (sys : System) (action : Action) : Prop :=
  (LeavesActivations sys action ∧ FinishesSwitched cfg sys action) ∧ NoExit cfg sys action

instance (cfg : Config) (sys : System) (action : Action) :
    Decidable (NestsSwitched cfg sys action) :=
  inferInstanceAs (Decidable (_ ∧ _))

/-- Everything that is called is on the stack, or has returned once. -/
theorem account_of_run {cfg : Config} {p : Platform} {before after : List Action}
    {sys₁ sys : System} {a : Activation}
    (h₁ : Run (step cfg) (NestsSwitched cfg) (initial p) before sys₁)
    (ha : a ∈ activations sys₁.stack) (h : Run (step cfg) (NestsSwitched cfg) sys₁ after sys) :
    sys.account a.id = 1 := by
  let I : System → Prop := fun sys =>
    (∃ chain, Sound cfg (sys.books chain) ∧ AllLive (sys.books chain)) ∧ Once sys
  have hstep : ∀ t action u, I t → NestsSwitched cfg t action → step cfg t action = some u →
      I u ∧ ReturnStep t u := by
    rintro t action u ⟨hlive, honce⟩ ⟨⟨hleaves, hswitch⟩, hexit⟩ hstep
    have ⟨chain, hsound, _⟩ := hlive
    have hreturn := returnStep_of_step hsound.toAccounted honce.noneExiting hleaves
      hswitch hexit hstep
    exact ⟨⟨AllLive.step_of_sound hlive hleaves hswitch hstep,
      honce.step (step_stack hstep) hreturn⟩, hreturn⟩
  have hI : I sys₁ := h₁.invariant (fun t action u hI hC hs => (hstep t action u hI hC hs).1)
    ⟨AllLive.initial cfg p, by simp [NoneExiting, initial], fun _ _ => rfl, fun _ => Nat.zero_le _⟩
  have hone : sys₁.account a.id = 1 := by
    have hpos : 0 < (activations sys₁.stack).countP (fun b => b.id = a.id) :=
      List.countP_pos_iff.mpr ⟨a, ha, by simp⟩
    have hle := hI.2.once a.id
    unfold System.account at hle ⊢
    omega
  have hlt : a.id < sys₁.nextId := by
    refine Nat.lt_of_not_le fun hle => ?_
    rw [hI.2.unused a.id hle] at hone
    cases hone
  refine (h.invariant (I := fun t => I t ∧ t.account a.id = 1 ∧ a.id < t.nextId)
    (fun t action u ht hC hs => ?_) ⟨hI, hone, hlt⟩).2.1
  obtain ⟨hIt, honet, hltt⟩ := ht
  obtain ⟨hIu, hreturn⟩ := hstep t action u hIt hC hs
  rcases hreturn.account with ⟨hsame, hnext⟩ | ⟨hsucc, hnext⟩
  · exact ⟨hIu, (hsame a.id).trans honet, by omega⟩
  · exact ⟨hIu, by rw [hsucc, if_neg (by omega)]; exact honet, by omega⟩

/-- The build without a private stack takes the same steps, with the same results. -/
theorem oneStack_of_run {cfg : Config} {p : Platform} {actions : List Action} {sys : System}
    (h : Run (step cfg) (fun sys action => LeavesActivations sys action ∧
      FinishesSwitched cfg sys action)
      (initial p) actions sys) :
    Run (step cfg.oneStack) (fun _ _ => True) (initial p) actions sys.oneStack := by
  obtain ⟨t, hrun, -, rfl⟩ : ∃ t, Run (step cfg.oneStack) (fun _ _ => True) (initial p) actions t ∧
      (∃ chain, Sound cfg (sys.books chain) ∧ AllLive (sys.books chain)) ∧ t = sys.oneStack := by
    refine h.simulate
      (R := fun sys t => (∃ chain, Sound cfg (sys.books chain) ∧ AllLive (sys.books chain)) ∧
        t = sys.oneStack)
      (fun sys action sys' t hR hC hstep => ?_) ⟨AllLive.initial cfg p, rfl⟩
    obtain ⟨hlive, rfl⟩ := hR
    have ⟨chain, hsound, _⟩ := hlive
    refine ⟨sys'.oneStack, trivial, ?_, AllLive.step_of_sound hlive hC.1 hC.2 hstep, rfl⟩
    rw [step_oneStack hsound.toAccounted hC.2, hstep]
    rfl
  exact hrun

/-- In a run without long jumps out of emulated code every context returns to its
own caller exactly as long as only the context that switched to the private
stack comes to its end.  Then every call returns once at most, is on the stack
until it does, and all results are those of the build without a private stack. -/
theorem returnsToCaller_of_run (cfg : Config) (hprivate : cfg.onPrivateStack = true) (p : Platform)
    (actions : List Action) (sys : System) :
    (Run (step cfg) (fun sys action => LeavesActivations sys action ∧
      ReturnsToCaller cfg sys action)
        (initial p) actions sys ↔
      Run (step cfg) (fun sys action => LeavesActivations sys action ∧
        FinishesSwitched cfg sys action)
        (initial p) actions sys) ∧
    (Run (step cfg) (fun sys action => LeavesActivations sys action ∧
      FinishesSwitched cfg sys action)
        (initial p) actions sys →
      ∃ sys', Run (step cfg.oneStack) (fun _ _ => True) (initial p) actions sys' ∧
      sys'.trace = sys.trace) ∧
    ∀ before after sys₁ a, actions = before ++ after →
      Run (step cfg) (NestsSwitched cfg) (initial p) before sys₁ → a ∈ activations sys₁.stack →
      Run (step cfg) (NestsSwitched cfg) sys₁ after sys →
      (activations sys.stack).countP (fun b => b.id = a.id) + sys.trace.countP
      (Event.returns a.id) = 1 := by
  refine ⟨Run.congr (I := fun sys => ∃ chain, Sound cfg (sys.books chain) ∧
    AllLive (sys.books chain))
    (fun t action u hlive hC hstep => AllLive.step_of_sound hlive hC.1 hC.2 hstep) ?_
    (AllLive.initial cfg p), fun h => ⟨sys.oneStack, oneStack_of_run h, rfl⟩,
    fun before after sys₁ a _ h₁ ha h => account_of_run h₁ ha h⟩
  rintro t action u ⟨chain, hsound, -⟩ _
  exact and_congr_right fun _ => returnsToCaller_iff hprivate hsound.toAccounted

/-- A build that runs emulated code on a private stack. -/
def privateConfig : Config := { riscvConfig with onPrivateStack := true }

/-- The only context, which has called native code, fails. -/
theorem returnsToCaller_of_run_outermost :
    ∃ sys, Run (step privateConfig)
        (fun sys action => LeavesActivations sys action ∧ ReturnsToCaller privateConfig sys action)
        (initial examplePlatform) [.runFunc .x64 0x10400 (fun _ => 0) 100, callOut .x64, .ret 7,
          .emulate (fun _ => 0) ⟨fun _ => 0, []⟩ (.other 10)] sys ∧
      sys.trace.head? = some (.returned 1 EFI_UNSUPPORTED) := by
  obtain ⟨sys, hexec, htrace⟩ : ∃ sys,
      exec (step privateConfig) (fun sys action => LeavesActivations sys action ∧
        FinishesSwitched privateConfig sys action) (initial examplePlatform)
        [.runFunc .x64 0x10400 (fun _ => 0) 100, callOut .x64, .ret 7,
          .emulate (fun _ => 0) ⟨fun _ => 0, []⟩ (.other 10)] = some sys ∧
      sys.trace.head? = some (.returned 1 EFI_UNSUPPORTED) :=
    ⟨_, rfl, rfl⟩
  have hreturns := returnsToCaller_of_run privateConfig rfl examplePlatform
    [.runFunc .x64 0x10400 (fun _ => 0) 100, callOut .x64, .ret 7,
      .emulate (fun _ => 0) ⟨fun _ => 0, []⟩ (.other 10)] sys
  exact ⟨sys, hreturns.1.mpr (.of_exec hexec), htrace⟩

/-- Native code called by an x64 function calls an AArch64 function. -/
def nestedCall : List Action :=
  [.runFunc .x64 0x10400 (fun _ => 0) 100, callOut .x64, .runFunc .aarch64 0x20400 (fun _ => 0) 90]

/-- When that fails, control goes to the caller of the x64 function, which gets
a result that nobody has computed. -/
theorem nestedCall_returns_to_outermost :
    ∃ sys sys' sys'', Run (step privateConfig)
        (fun sys action => LeavesActivations sys action ∧ NoExit privateConfig sys action)
        (initial examplePlatform) nestedCall sys ∧
      step privateConfig sys (.emulate (fun _ => 0) ⟨fun _ => 0, []⟩ (.other 10)) = some sys' ∧
      ¬ ReturnsToCaller privateConfig sys (.emulate (fun _ => 0) ⟨fun _ => 0, []⟩ (.other 10)) ∧
      sys'.stack = [.native 0] ∧ sys'.trace.head? = some (.returned 1 0) ∧
      Run (step riscvConfig)
        (fun sys action => LeavesActivations sys action ∧ NoExit riscvConfig sys action)
        (initial examplePlatform)
        (nestedCall ++ [.emulate (fun _ => 0) ⟨fun _ => 0, []⟩ (.other 10)]) sys'' ∧
      sys''.trace.head? = some (.returned 3 EFI_UNSUPPORTED) := by
  obtain ⟨sys, a, below, sys', sys'', hexec, hstack, hcontext, hstep, hstack', htrace',
    hexec'', htrace''⟩ :
      ∃ sys a below sys' sys'', exec (step privateConfig)
        (fun sys action => LeavesActivations sys action ∧ NoExit privateConfig sys action)
        (initial examplePlatform) nestedCall = some sys ∧
      sys.stack = .run a :: .native 2 :: below ∧ a.context = ⟨.aarch64, 0⟩ ∧
      step privateConfig sys (.emulate (fun _ => 0) ⟨fun _ => 0, []⟩ (.other 10)) = some sys' ∧
      sys'.stack = [.native 0] ∧ sys'.trace.head? = some (.returned 1 0) ∧
      exec (step riscvConfig)
        (fun sys action => LeavesActivations sys action ∧ NoExit riscvConfig sys action)
        (initial examplePlatform)
        (nestedCall ++ [.emulate (fun _ => 0) ⟨fun _ => 0, []⟩ (.other 10)]) = some sys'' ∧
      sys''.trace.head? = some (.returned 3 EFI_UNSUPPORTED) :=
    ⟨_, _, _, _, _, rfl, rfl, rfl, rfl, rfl, rfl, rfl, rfl⟩
  refine ⟨sys, sys', sys'', .of_exec hexec, hstep, fun hreturns => ?_, hstack', htrace',
    .of_exec hexec'', htrace''⟩
  have hends : EndsRun privateConfig a (fun _ => 0) (.other 10) := by
    unfold EndsRun
    rw [hcontext]
    decide
  obtain ⟨⟨u, hu, hrest, -⟩, -⟩ := hreturns _ _ _ a _ rfl hstack hends
  obtain rfl := Option.some.inj (hstep.symm.trans hu)
  rw [hstack'] at hrest
  cases hrest

end MultiArchUefi
