import MultiArchUefi.EntryFrame
import MultiArchUefi.Resumption

/-!
# MultiArchUefi.CallStack

What the driver is for: calls between native and emulated code that nest like
any other calls.  There are no engines and no contexts here.  Emulated code has
its registers to itself, a native call gives them back, and a call returns to
its caller.

The driver implements this in every build, as long as it drops no orphan that is
needed, no pool runs out, and emulated code does not call `gBS->Exit`.
-/

namespace MultiArchUefi

open Transition

/-! ## calls -/

/-- A call of emulated code: `cpu` runs it, `atCall` is what it called out with. -/
structure Call where
  id : Nat
  fp : Nat
  cpu : CpuId
  image : Option RecordId
  atCall : RegFile

inductive CallFrame where
  | native (id : Nat)
  | run (a : Call)
  | exiting (id : Nat)

/-- The calls that are going on.  While emulated code runs, it decides what the
`memory` is. -/
structure CallStack where
  memory : Option WordMemory.Memory
  images : Images
  stack : List CallFrame
  nextId : Nat
  trace : List Event

/-- The image `record` is about to start, in the frame `id`. -/
def Images.started (record : RecordId) (imageHandle : UINT64) (id : Nat) (images : Images) :
    Images :=
  { images with
    record := Function.update images.record record
      { images.record record with imageHandle := imageHandle, imageExitJumpBuffer := some id } }

namespace CallStack

def fits (fp : Nat) (stack : List CallFrame) : Bool :=
  stack.all fun f =>
    match f with
    | .run a => decide (fp < a.fp)
    | _ => true

def unwindTo (id : Nat) : List CallFrame → Option (List CallFrame)
  | [] => none
  | .native id' :: rest => if id' = id then some (.native id' :: rest) else unwindTo id rest
  | .run _ :: rest => unwindTo id rest
  | .exiting _ :: rest => unwindTo id rest

/-- Emulated code is called. -/
def enter (c : CallStack) (cpu : CpuId) (image : Option RecordId) (fp : Nat) : CallStack :=
  { c with
    memory := none
    stack := .run ⟨c.nextId, fp, cpu, image, fun _ => 0⟩ :: c.stack
    nextId := c.nextId + 1 }

/-- The call `a`, on top of `rest`, returns. -/
def leave (c : CallStack) (a : Call) (rest : List CallFrame) (ret : UINT64)
    (memory : WordMemory.Memory) : CallStack :=
  { c with memory := some memory, stack := rest, trace := .returned a.id ret :: c.trace }

/-- The call `a` calls native code with `regs`. -/
def call (cfg : Config) (c : CallStack) (a : Call) (rest : List CallFrame) (regs : RegFile)
    (memory : WordMemory.Memory) : Option CallStack :=
  let (call, e) := nativeThunkEnter cfg a.cpu (regs a.cpu.programCounterReg) ⟨regs, memory⟩
  let a := { a with atCall := regs }
  let trace := .called a.id call :: c.trace
  match call.func with
  | .nativeUnsupported =>
      some { c with memory := none, stack := .run a :: rest, trace := .resumed a.id regs :: trace }
  | .cpuExitImage => none
  | _ =>
      some { c with
        memory := some e.memory
        stack := .native c.nextId :: .run a :: rest
        nextId := c.nextId + 1
        trace := trace }

/-- One step of calls that nest. -/
def step (cfg : Config) (c : CallStack) (action : Action) : Option CallStack :=
  match action, c.stack with
  | .runFunc cpu _ _ fp, .native _ :: _ =>
      if fits fp c.stack then some (c.enter cpu none fp) else none
  | .runImage imageHandle _ loadedImage fp, .native _ :: _ =>
      if fits fp c.stack then
        match loadedImage with
        | .error status =>
            some { c with nextId := c.nextId + 1, trace := .returned c.nextId status :: c.trace }
        | .ok imageBase =>
            (imageFindByAddress c.images imageBase).map fun record =>
              { c with images := c.images.started record imageHandle c.nextId }.enter
                (c.images.record record).cpu (some record) fp
      else none
  | .emulate regs memory ucErr, .run a :: rest =>
      match cpuExitReason cfg ucErr (regs a.cpu.programCounterReg) with
      | .none => some c
      | .callToNative => c.call cfg a rest regs memory
      | .returnToNative =>
          some (c.leave a rest (regs a.cpu.returnValueReg)
            (emuThunkPost a.cpu ⟨regs, memory⟩).memory)
      | .failedEmu => some (c.leave a rest EFI_UNSUPPORTED memory)
  | .store memory, .native _ :: _ => some { c with memory := some memory }
  | .ret _, .native _ :: .run a :: rest =>
      some { c with
        memory := none
        stack := .run a :: rest
        trace := .resumed a.id a.atCall :: c.trace }
  | .ret value, .native _ :: .exiting id :: rest =>
      some { c with stack := rest, trace := .returned id value :: c.trace }
  | .longJump id, .native _ :: _ => (unwindTo id c.stack).map fun stack => { c with stack := stack }
  | _, _ => none

section

variable {cfg : Config} {c : CallStack} {id : Nat} {a : Call} {rest : List CallFrame}

/-- The abstract step of `CpuRunFunc`. -/
theorem step_runFunc {cpu : CpuId} {programCounter : UINT64} {args : Args} {fp : Nat}
    (h : c.stack = .native id :: rest) :
    step cfg c (.runFunc cpu programCounter args fp) =
      if fits fp c.stack then some (c.enter cpu none fp) else none := by
  cases c
  cases h
  rfl

/-- The abstract step of `CpuRunImage`, whose image may not be found. -/
theorem step_runImage {imageHandle systemTable : UINT64}
    {loadedImage : Except UINT64 UINT64} {fp : Nat} (h : c.stack = .native id :: rest) :
    step cfg c (.runImage imageHandle systemTable loadedImage fp) =
      if fits fp c.stack then
        match loadedImage with
        | .error status =>
            some { c with nextId := c.nextId + 1, trace := .returned c.nextId status :: c.trace }
        | .ok imageBase =>
            (imageFindByAddress c.images imageBase).map fun record =>
              { c with images := c.images.started record imageHandle c.nextId }.enter
                (c.images.record record).cpu (some record) fp
      else none := by
  cases c
  cases h
  rfl

/-- The abstract step of emulation: go on, call, or return. -/
theorem step_emulate {regs : RegFile} {memory : WordMemory.Memory} {ucErr : UcErr}
    (h : c.stack = .run a :: rest) :
    step cfg c (.emulate regs memory ucErr) =
      match cpuExitReason cfg ucErr (regs a.cpu.programCounterReg) with
      | .none => some c
      | .callToNative => c.call cfg a rest regs memory
      | .returnToNative =>
          some (c.leave a rest (regs a.cpu.returnValueReg)
            (emuThunkPost a.cpu ⟨regs, memory⟩).memory)
      | .failedEmu => some (c.leave a rest EFI_UNSUPPORTED memory) := by
  cases c
  cases h
  rfl

/-- The abstract step of a native function that returns to emulated code. -/
theorem step_ret_run {value : UINT64} (h : c.stack = .native id :: .run a :: rest) :
    step cfg c (.ret value) =
      some { c with
        memory := none
        stack := .run a :: rest
        trace := .resumed a.id a.atCall :: c.trace } := by
  cases c
  cases h
  rfl

/-- The abstract step of `gBS->Exit` returning to the `CpuRunImage` behind it. -/
theorem step_ret_exiting {value : UINT64} {id' : Nat}
    (h : c.stack = .native id :: .exiting id' :: rest) :
    step cfg c (.ret value) = some
      { c with stack := rest, trace := .returned id' value :: c.trace } := by
  cases c
  cases h
  rfl

/-- The abstract step of a long jump. -/
theorem step_longJump {id' : Nat} (h : c.stack = .native id :: rest) :
    step cfg c (.longJump id') = (unwindTo id' c.stack).map fun stack =>
      { c with stack := stack } := by
  cases c
  cases h
  rfl

end

end CallStack

/-! ## the calls of a system -/

def Activation.call (a : Activation) : Call := ⟨a.id, a.fp, a.context.cpu, a.image, a.atCall⟩

def Frame.call : Frame → CallFrame
  | .native id => .native id
  | .run a => .run a.call
  | .exiting id => .exiting id

def System.calls (sys : System) : CallStack where
  memory := if (runningOn sys.stack).isSome then none else some sys.emu.memory
  images := sys.emu.images
  stack := sys.stack.map Frame.call
  nextId := sys.nextId
  trace := sys.trace

theorem fits_call (fp : Nat) (stack : List Frame) :
    CallStack.fits fp (stack.map Frame.call) = fpFits fp stack := by
  induction stack with
  | nil => rfl
  | cons f stack ih =>
      cases f <;> simp_all [CallStack.fits, fpFits, Frame.call, Activation.call]

/-- Both levels unwind to the same frame. -/
theorem unwindTo_call (id : Nat) (stack : List Frame) :
    CallStack.unwindTo id (stack.map Frame.call) = (unwindToNative id stack).map
      (·.map Frame.call) := by
  induction stack with
  | nil => rfl
  | cons f stack ih =>
      cases f with
      | native id' =>
          by_cases hid : id' = id
          · simp [CallStack.unwindTo, unwindToNative, Frame.call, hid]
          · simpa [CallStack.unwindTo, unwindToNative, Frame.call, hid] using ih
      | run a => exact ih
      | exiting id' => exact ih

/-! ## the driver implements nesting calls -/

/-- The engine's pool is not exhausted when emulated code is called. -/
def Roomy (sys : System) (action : Action) : Prop :=
  ∀ c ∈ action.callee sys, sys.emu.runContextAlloc c.1 ≠ []

instance (sys : System) (action : Action) : Decidable (Roomy sys action) :=
  inferInstanceAs (Decidable (∀ c ∈ action.callee sys, _))

variable {cfg : Config} {sys : System} {chain : List CtxId} {a : Activation} {rest : List Frame}

/-- With a free context and no orphan of another engine, `CpuRunFunc` enters its run. -/
theorem cpuRunFunc_spec {cpu : CpuId} {fp : Nat} (programCounter : UINT64) (args : Args)
    (h : Chained sys.emu chain) (hpool : sys.emu.runContextAlloc cpu ≠ [])
    (hcpu : ∀ j ∈ orphans cfg sys.emu fp chain, j.cpu = cpu) :
    ∃ k s, sys.cpuRunFunc cfg cpu programCounter args fp = some (sys.entered cfg k none fp s) ∧
      k.cpu = cpu ∧ s.images = sys.emu.images := by
  cases halloc : cpuAllocContext cpu sys.emu with
  | none => exact absurd (cpuAllocContext_eq_none halloc) hpool
  | some ks =>
      obtain ⟨k, s⟩ := ks
      obtain ⟨hk, -, hs, himages, -⟩ := cpuAllocContext_spec h halloc
      obtain ⟨s', hrun, hentered, -⟩ := cpuRunCtx_spec none (hs.modifyContext (f := fun c =>
        { c with programCounter := programCounter, args := args }) fun _ => rfl) (hk ▸ hcpu)
      refine ⟨k, s', ?_, hk, hentered.images.trans himages⟩
      simp only [System.cpuRunFunc, halloc]
      exact hrun

/-- The same for `CpuRunImage` and the engine of its image. -/
theorem cpuRunImage_spec (imageHandle systemTable : UINT64) {imageBase : UINT64}
    {record : RecordId} {fp : Nat} (h : Chained sys.emu chain)
    (hrecord : imageFindByAddress sys.emu.images imageBase = some record)
    (hpool : sys.emu.runContextAlloc (sys.emu.images.record record).cpu ≠ [])
    (hcpu : ∀ j ∈ orphans cfg sys.emu fp chain, j.cpu = (sys.emu.images.record record).cpu) :
    ∃ k s, sys.cpuRunImage cfg imageHandle systemTable (.ok imageBase) fp =
        some (sys.entered cfg k (some record) fp s) ∧
      k.cpu = (sys.emu.images.record record).cpu ∧
      s.images = sys.emu.images.started record imageHandle sys.nextId := by
  cases halloc : cpuAllocContext (sys.emu.images.record record).cpu sys.emu with
  | none => exact absurd (cpuAllocContext_eq_none halloc) hpool
  | some ks =>
      obtain ⟨k, s⟩ := ks
      obtain ⟨hk, -, hs, himages, -⟩ := cpuAllocContext_spec h halloc
      obtain ⟨s', hrun, hentered, -⟩ :=
        cpuRunCtx_spec (some record) (((hs.modifyRecord record fun r =>
        { r with imageHandle := imageHandle }).modifyContext (f := fun c =>
          { c with
            imageRecord := some record
            programCounter := ((s.modifyRecord record fun r =>
              { r with imageHandle := imageHandle }).images.record record).imageEntry
            args := System.imageArgs imageHandle systemTable }) fun _ => rfl).modifyRecord record
        fun r => { r with imageExitJumpBuffer := some sys.nextId }) (hk ▸ hcpu)
      refine ⟨k, s', ?_, hk, hentered.images.trans ?_⟩
      · simp only [System.cpuRunImage, hrecord, halloc]
        exact hrun
      · simp [State.modifyRecord, State.modifyContext, Images.started, himages]

/-- A native call that returns gives the activation its registers back. -/
theorem calls_resume (sys : System) {regs : RegFile} (value : UINT64)
    (h : Booked cfg sys.emu (.run a :: rest) chain)
    (hr : Resumes sys.emu (a.suspended regs :: waiting rest) chain) :
    (sys.resume a rest value).map System.calls = some { sys.calls with
      memory := none
      stack := .run a.call :: rest.map Frame.call
      trace := .resumed a.id regs :: sys.trace } := by
  obtain ⟨pre, post, rfl⟩ := h.split
  rw [resume_eq rest value h.chained, Option.map_some]
  have himages : (sys.emu.compressed pre a.context).images = sys.emu.images := by
    unfold State.compressed
    split <;> rfl
  simp [System.calls, System.resumed, runningOn, himages, (hr.compressed h.chained).1, Frame.call,
    Activation.call]

/-- A call of emulated code that ends returns to its caller. -/
theorem calls_finish (sys : System) {l : List CtxId} (ret : UINT64)
    (h : Booked cfg sys.emu (.run a :: rest) (a.context :: l))
    (hswitch : cfg.onPrivateStack = true → a.switched = true) :
    (sys.finish cfg a rest ret).map System.calls =
      some (sys.calls.leave a.call (rest.map Frame.call) ret sys.emu.memory) := by
  rw [finish_eq sys rest ret h.chained fun hcfg =>
    (Live.only_of_switched h.live hcfg (hswitch hcfg)).2, Option.map_some]
  obtain ⟨⟨id, rest', rfl⟩, -⟩ := h.nested
  rfl

/-- A native call of the activation `a`. -/
theorem calls_callNative (sys : System) {l : List CtxId} {programCounter : UINT64}
    (h : Booked cfg sys.emu (.run a :: rest) (a.context :: l))
    (hr : Resumes sys.emu (a.suspended (sys.emu.ue a.context.cpu) :: waiting rest) (a.context :: l))
    (hpc : programCounter = sys.emu.ue a.context.cpu a.context.cpu.programCounterReg)
    (hexit : nativeValidateSupportedCall cfg programCounter ≠ .cpuExitImage) :
    (sys.callNative cfg a rest programCounter).map System.calls =
      sys.calls.call cfg a.call (rest.map Frame.call)
        (sys.emu.ue a.context.cpu) sys.emu.memory := by
  subst hpc
  let regs := sys.emu.ue a.context.cpu
  let r := nativeThunkEnter cfg a.context.cpu (regs a.context.cpu.programCounterReg)
    ⟨regs, sys.emu.memory⟩
  have hregs : Function.update sys.emu.ue a.context.cpu r.2.regs = sys.emu.ue := by
    rw [nativeThunkEnter_regs, Function.update_eq_self]
  have hfunc := nativeThunkEnter_func cfg a.context.cpu (regs a.context.cpu.programCounterReg)
    ⟨regs, sys.emu.memory⟩
  have hquiet : Quiet sys.emu
      { sys.emu with
        ue := Function.update sys.emu.ue a.context.cpu r.2.regs
        memory := r.2.memory } :=
    ⟨.setEngines _ _ _, hregs⟩
  unfold System.callNative CallStack.call
  simp only [Activation.call]
  cases htarget : nativeValidateSupportedCall cfg (regs a.context.cpu.programCounterReg) with
  | nativeUnsupported =>
      rw [htarget] at hfunc
      simp only [regs] at hfunc
      simp only [hfunc]
      have hresume := calls_resume (System.called sys { a with atCall := regs } rest r.1 r.2)
        EFI_UNSUPPORTED (a := { a with atCall := regs })
        ((h.modify a.programCounter regs).sameBooks hquiet.toSameBooks) (Resumes.quiet hr hquiet)
      rw [hresume]
      rfl
  | cpuExitImage => exact absurd htarget hexit
  | _ =>
      rw [htarget] at hfunc
      simp only [regs] at hfunc
      simp only [hfunc]
      rfl

/-- Emulation refines the abstract step. -/
theorem calls_emulate {regs : RegFile} {memory : WordMemory.Memory} {ucErr : UcErr}
    (h : Sound cfg (sys.books chain)) (hstack : sys.stack = .run a :: rest)
    (hswitch : FinishesSwitched cfg sys (.emulate regs memory ucErr))
    (hexit : NoExit cfg sys (.emulate regs memory ucErr)) :
    (step cfg sys (.emulate regs memory ucErr)).map System.calls =
      CallStack.step cfg sys.calls (.emulate regs memory ucErr) := by
  obtain ⟨hacc, hr⟩ := h
  simp only [System.books, hstack] at hacc hr
  obtain ⟨l, rfl⟩ := hacc.chain_eq_cons
  let s := System.emulated a.context.cpu regs memory ucErr sys.emu
  obtain ⟨hbooks, hue, hmemory, himages⟩ := emulated_spec a.context.cpu regs memory ucErr sys.emu
  have hregs : s.ue a.context.cpu = regs := by rw [hue, Function.update_self]
  have hbooked : Booked cfg s (.run a :: rest) (a.context :: l) := hacc.toBooked.sameBooks hbooks
  have hres : Resumes s (a.suspended (s.ue a.context.cpu) :: waiting rest) (a.context :: l) := by
    rw [hregs]
    exact Resumes.update hr hacc.chained hbooks hue
  have hcalls : sys.calls.stack = .run a.call :: rest.map Frame.call := by
    simp [System.calls, hstack, Frame.call]
  have hsame : System.calls { sys with emu := s } = sys.calls := by
    simp [System.calls, s, himages, hstack, runningOn]
  have hends : cfg.onPrivateStack = true → EndsRun cfg a regs ucErr → a.switched = true :=
    fun hcfg hends =>
    hswitch a (by simp [Action.finishing, hstack, hends]) hcfg
  rw [CallStack.step_emulate hcalls]
  simp only [step, hstack, System.cpuRunCtxInternal,
    show (System.emulated a.context.cpu regs memory ucErr sys.emu).ue a.context.cpu =
      regs from hregs,
    show a.call.cpu = a.context.cpu from rfl]
  cases hreason : cpuExitReason cfg ucErr (regs a.context.cpu.programCounterReg) with
  | none =>
      simp [System.calls, himages, hstack, runningOn, Frame.call, Activation.call]
  | callToNative =>
      have htarget := hexit (a, regs) (by simp [Action.calling, hstack, hreason])
      have hcall := calls_callNative { sys with emu := s } hbooked hres (by rw [hregs]) htarget
      simp only [hregs, hsame] at hcall
      rw [hmemory] at hcall
      exact hcall
  | returnToNative =>
      let s' := s.withEngine a.context.cpu (emuThunkPost a.context.cpu)
      have hret : s'.ue a.context.cpu a.context.cpu.returnValueReg =
          regs a.context.cpu.returnValueReg := by
        simp only [s', State.withEngine, Function.update_self]
        rw [returnValue_emuThunkPost, hregs]
      have hpost : s'.memory = (emuThunkPost a.context.cpu ⟨regs, memory⟩).memory := by
        simp only [s', State.withEngine]
        rw [hregs, hmemory]
      have hfinish := calls_finish { sys with emu := s' } (regs a.context.cpu.returnValueReg)
        (hbooked.sameBooks (.withEngine s _ _)) fun hcfg => hends hcfg (.inl hreason)
      have hsame' : System.calls { sys with emu := s' } = sys.calls := by
        simp [System.calls, s', State.withEngine, s, himages, hstack, runningOn]
      rw [hsame'] at hfinish
      rw [hpost] at hfinish
      change (System.finish cfg { sys with emu := s', stack := .run a :: rest } a rest
        (s'.ue a.context.cpu a.context.cpu.returnValueReg)).map System.calls = _
      rw [hret]
      exact hfinish
  | failedEmu =>
      have hfinish := calls_finish { sys with emu := s } EFI_UNSUPPORTED hbooked
        fun hcfg => hends hcfg (.inr hreason)
      rw [hsame] at hfinish
      rw [hmemory] at hfinish
      exact hfinish

/-- `CpuRunFunc` refines the abstract step. -/
theorem calls_runFunc {cpu : CpuId} {programCounter : UINT64} {args : Args} {fp id : Nat}
    (h : Accounted cfg (sys.books chain)) (hstack : sys.stack = .native id :: rest)
    (hdrops : DropsOwnEngine cfg sys (.runFunc cpu programCounter args fp))
    (hroom : Roomy sys (.runFunc cpu programCounter args fp)) :
    (step cfg sys (.runFunc cpu programCounter args fp)).map System.calls =
      CallStack.step cfg sys.calls (.runFunc cpu programCounter args fp) := by
  have hcalls : sys.calls.stack = .native id :: rest.map Frame.call := by
    simp [System.calls, hstack, Frame.call]
  have hfits : CallStack.fits fp (.native id :: rest.map Frame.call) = fpFits fp
      (.native id :: rest) :=
    fits_call fp (.native id :: rest)
  rw [CallStack.step_runFunc hcalls]
  simp only [step, hstack, hcalls, hfits]
  by_cases hfp : fpFits fp (.native id :: rest) = true
  · rw [if_pos hfp, if_pos hfp]
    obtain ⟨k, s, hrun, hk, himages⟩ := cpuRunFunc_spec programCounter args h.chained
      (hroom (cpu, fp) rfl) (hdrops.orphans h rfl)
    rw [hrun]
    simp [System.calls, System.entered, System.activation, CallStack.enter, himages,
      hstack, runningOn, Frame.call, Activation.call, hk]
  · rw [if_neg hfp, if_neg hfp]
    rfl

/-- `CpuRunImage` refines the abstract step. -/
theorem calls_runImage {imageHandle systemTable : UINT64}
    {loadedImage : Except UINT64 UINT64} {fp id : Nat} (h : Accounted cfg (sys.books chain))
    (hstack : sys.stack = .native id :: rest)
    (hdrops : DropsOwnEngine cfg sys (.runImage imageHandle systemTable loadedImage fp))
    (hroom : Roomy sys (.runImage imageHandle systemTable loadedImage fp)) :
    (step cfg sys (.runImage imageHandle systemTable loadedImage fp)).map System.calls =
      CallStack.step cfg sys.calls (.runImage imageHandle systemTable loadedImage fp) := by
  have hcalls : sys.calls.stack = .native id :: rest.map Frame.call := by
    simp [System.calls, hstack, Frame.call]
  have hfits : CallStack.fits fp (.native id :: rest.map Frame.call) = fpFits fp
      (.native id :: rest) :=
    fits_call fp (.native id :: rest)
  rw [CallStack.step_runImage hcalls]
  simp only [step, hstack, hcalls, hfits]
  by_cases hfp : fpFits fp (.native id :: rest) = true
  · rw [if_pos hfp, if_pos hfp]
    cases loadedImage with
    | error status => simp [System.cpuRunImage, System.returned, System.calls, hstack, Frame.call]
    | ok imageBase =>
        cases hrecord : imageFindByAddress sys.emu.images imageBase with
        | none => simp [System.cpuRunImage, hrecord, System.calls]
        | some record =>
            have hcallee : Action.callee sys
              (.runImage imageHandle systemTable (.ok imageBase) fp) =
                some ((sys.emu.images.record record).cpu, fp) := by simp [Action.callee, hrecord]
            obtain ⟨k, s, hrun, hk, himages⟩ := cpuRunImage_spec imageHandle systemTable
              h.chained hrecord (hroom (_, fp) hcallee) (hdrops.orphans h hcallee)
            rw [hrun]
            simp [System.calls, System.entered, System.activation, CallStack.enter, himages, hstack,
              runningOn, Frame.call, Activation.call, hk, hrecord]
  · rw [if_neg hfp, if_neg hfp]
    rfl

/-- A native return refines the abstract step. -/
theorem calls_ret {value : UINT64} {id : Nat} (h : Sound cfg (sys.books chain))
    (hstack : sys.stack = .native id :: rest) :
    (step cfg sys (.ret value)).map System.calls = CallStack.step cfg sys.calls (.ret value) := by
  cases rest with
  | nil =>
      cases sys
      cases hstack
      rfl
  | cons caller rest =>
      cases caller with
      | native id' =>
          cases sys
          cases hstack
          rfl
      | run a =>
          obtain ⟨hacc, hr⟩ := h
          simp only [System.books, hstack] at hacc hr
          have hbooked : Booked cfg sys.emu (.run a :: rest) chain :=
            hacc.toBooked.unwind [.native id]
          have hcalls : sys.calls.stack = .native id :: .run a.call :: rest.map Frame.call := by
            simp [System.calls, hstack, Frame.call]
          rw [CallStack.step_ret_run hcalls]
          simp only [step, hstack]
          rw [calls_resume sys value hbooked hr]
          rfl
      | exiting id' =>
          obtain ⟨⟨id'', rest', rfl⟩, -⟩ :
            (∃ id rest', rest = .native id :: rest') ∧ Nested rest := by
            have hnested := h.nested
            rw [System.books, hstack] at hnested
            exact hnested
          have hcalls : sys.calls.stack = .native id :: .exiting id' :: .native id'' ::
              rest'.map Frame.call := by
            simp [System.calls, hstack, Frame.call]
          rw [CallStack.step_ret_exiting hcalls]
          simp [step, hstack, System.calls, Frame.call, runningOn, State.assert_eq]

/-- A long jump refines the abstract step. -/
theorem calls_longJump {id : Nat} (cfg : Config)
    (hstack : sys.stack = .native id :: rest) (id' : Nat) :
    (step cfg sys (.longJump id')).map System.calls = CallStack.step cfg sys.calls
      (.longJump id') := by
  have hunwind := unwindTo_call id' sys.stack
  rw [hstack] at hunwind
  have hcalls : sys.calls.stack = .native id :: rest.map Frame.call := by
    simp [System.calls, hstack, Frame.call]
  rw [CallStack.step_longJump hcalls]
  simp only [List.map_cons, Frame.call] at hunwind
  simp only [step, hcalls, hstack, hunwind, Option.map_map]
  cases htarget : unwindToNative id' (.native id :: rest) with
  | none => rfl
  | some stack =>
      obtain ⟨-, rest', -, rfl⟩ := unwindToNative_eq_some htarget
      simp [System.calls, hstack, runningOn]

/-- What the action asks for can be done without the shortcomings of the driver. -/
def Benign (cfg : Config) (sys : System) (action : Action) : Prop :=
  Sparing cfg sys action ∧ Roomy sys action ∧ NoExit cfg sys action

instance (cfg : Config) (sys : System) (action : Action) : Decidable (Benign cfg sys action) :=
  inferInstanceAs (Decidable (_ ∧ _))

/-- A step of the driver is a step of calls that nest. -/
theorem calls_step {action : Action} (h : Sound cfg (sys.books chain))
    (hbenign : Benign cfg sys action) :
    (step cfg sys action).map System.calls = CallStack.step cfg sys.calls action := by
  obtain ⟨⟨⟨hdrops, hswitch⟩, -⟩, hroom, hexit⟩ := hbenign
  obtain ⟨emu, stack, nextId, trace⟩ := sys
  cases stack with
  | nil => cases action <;> rfl
  | cons frame rest =>
      cases frame with
      | native id =>
          cases action with
          | runFunc cpu programCounter args fp => exact calls_runFunc h.toAccounted rfl hdrops hroom
          | runImage imageHandle systemTable loadedImage fp =>
              exact calls_runImage h.toAccounted rfl hdrops hroom
          | emulate regs memory ucErr => rfl
          | store memory => rfl
          | ret value => exact calls_ret h rfl
          | longJump id' => exact calls_longJump cfg rfl id'
      | run a =>
          cases action with
          | emulate regs memory ucErr => exact calls_emulate h rfl hswitch hexit
          | _ => rfl
      | exiting id => cases action <;> rfl

/-- A run of the driver is a run of calls that nest. -/
theorem calls_of_run {p : Platform} {actions : List Action}
    (h : Run (step cfg) (Benign cfg) (initial p) actions sys) :
    Run (CallStack.step cfg) (fun _ _ => True) (initial p).calls actions sys.calls := by
  obtain ⟨c, hrun, -, rfl⟩ :
    ∃ c, Run (CallStack.step cfg) (fun _ _ => True) (initial p).calls actions c ∧
      (∃ chain, Sound cfg (sys.books chain)) ∧ sys.calls = c := by
    refine h.simulate (R := fun sys c => (∃ chain, Sound cfg (sys.books chain)) ∧ sys.calls = c)
      (fun sys action sys' c hR hbenign hstep => ?_) ⟨⟨[], sound_initial cfg p⟩, rfl⟩
    obtain ⟨⟨chain, hs⟩, rfl⟩ := hR
    obtain ⟨chain', hmoves⟩ := hs.toAccounted.moves_of_step hbenign.1.1 hstep
    have hcalls := calls_step hs hbenign
    rw [hstep] at hcalls
    exact ⟨sys'.calls, trivial, hcalls.symm, ⟨chain', hs.moves hbenign.1.2 hmoves⟩, rfl⟩
  exact hrun

end MultiArchUefi
