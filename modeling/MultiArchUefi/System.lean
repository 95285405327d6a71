import MultiArchUefi.RunContext
import MultiArchUefi.Lib.Run

/-!
# MultiArchUefi.System

The whole system at work: native code calling emulated functions and images,
emulated code calling native functions, returns, failures, long jumps of native
code and `gBS->Exit`, over both engines.

A step is what happens between two points at which somebody else decides what
comes next.  What emulated code does between two exits of its engine, and what
native code does between two calls, is up to the action; everything the driver
does in between is computed.  Frames of the native stack are named by numbers
that are never used twice, which also serve as jump buffers.
-/

namespace MultiArchUefi

/-! ## frames, events and states -/

/-- A `CpuRunFunc` or `CpuRunImage` (then `image` is its `Record`) and the
`CpuRunCtx` it runs in.  `fp` is the frame address of `CpuDetectOrphanContexts`,
`switched` tells that this `CpuRunCtx` did the `SwitchStack`.

The last three fields are history: the stack pointer the emulated function was
entered with, all register files when the activation was called, and its own
engine's registers at its last native call, all 0 before the first. -/
structure Activation where
  id : Nat
  fp : Nat
  context : CtxId
  image : Option RecordId
  switched : Bool
  programCounter : UINT64
  entrySp : UINT64
  atEntry : CpuId → RegFile
  atCall : RegFile

/-- Frames of the native stack. -/
inductive Frame where
  /-- Native code: the firmware, a native function or wrapper called by
  emulated code, or the native `gBS->Exit`. -/
  | native (id : Nat)
  | run (a : Activation)
  /-- A `CpuRunImage` whose image has exited. -/
  | exiting (id : Nat)

/-- What can be observed, apart from the states. -/
inductive Event where
  /-- The activation calls a native function or wrapper. -/
  | called (id : Nat) (call : NativeCall)
  /-- The activation is resumed with these registers. -/
  | resumed (id : Nat) (regs : RegFile)
  /-- `CpuRunFunc` or `CpuRunImage` returns. -/
  | returned (id : Nat) (ret : UINT64)
  /-- The native `gBS->Exit` is called. -/
  | exit (imageHandle exitStatus exitDataSize exitData : UINT64)

/-- The driver, the native stack (innermost frame first), the next frame's
number and the events so far, newest first. -/
structure System where
  emu : State
  stack : List Frame
  nextId : Nat
  trace : List Event

/-- What decides how the system goes on. -/
inductive Action where
  /-- Native code calls an emulated function. -/
  | runFunc (cpu : CpuId) (programCounter : UINT64) (args : Args) (fp : Nat)
  /-- `StartImage` calls `CpuRunImage`; `loadedImage` is what `HandleProtocol` finds. -/
  | runImage (imageHandle systemTable : UINT64) (loadedImage : Except UINT64 UINT64) (fp : Nat)
  /-- `uc_emu_start` leaves these registers and this memory, and returns `ucErr`. -/
  | emulate (regs : RegFile) (memory : WordMemory.Memory) (ucErr : UcErr)
  /-- Native code writes memory. -/
  | store (memory : WordMemory.Memory)
  /-- A native function called by emulated code, or the native `gBS->Exit`, returns. -/
  | ret (value : UINT64)
  /-- Native code long-jumps to a native frame on the stack. -/
  | longJump (id : Nat)

def Frame.run? : Frame → Option Activation
  | .run a => some a
  | _ => none

/-- The activations of a stack, innermost first. -/
def activations (stack : List Frame) : List Activation := stack.filterMap Frame.run?

@[simp] theorem activations_nil : activations [] = [] := rfl

/-- Native frames are no activations. -/
@[simp] theorem activations_native (id : Nat) (stack : List Frame) :
    activations (.native id :: stack) = activations stack := rfl

@[simp] theorem activations_exiting (id : Nat) (stack : List Frame) :
    activations (.exiting id :: stack) = activations stack := rfl

/-- Runs are. -/
@[simp] theorem activations_run (a : Activation) (stack : List Frame) :
    activations (.run a :: stack) = a :: activations stack := rfl

/-- The activations of two parts of the stack. -/
@[simp] theorem activations_append (pre stack : List Frame) :
    activations (pre ++ stack) = activations pre ++ activations stack := List.filterMap_append

/-- The engine that runs emulated code. -/
def runningOn : List Frame → Option CpuId
  | .run a :: _ => some a.context.cpu
  | _ => none

/-- Discard frames down to, and including, the activation `id`. -/
def unwindToRun (id : Nat) : List Frame → Option (Activation × List Frame)
  | [] => none
  | .run a :: rest => if a.id = id then some (a, rest) else unwindToRun id rest
  | .native _ :: rest => unwindToRun id rest
  | .exiting _ :: rest => unwindToRun id rest

/-- Discard frames down to the native frame `id`. -/
def unwindToNative (id : Nat) : List Frame → Option (List Frame)
  | [] => none
  | .native id' :: rest => if id' = id then some (.native id' :: rest) else unwindToNative id rest
  | .run _ :: rest => unwindToNative id rest
  | .exiting _ :: rest => unwindToNative id rest

/-- Change a registered image. -/
def State.modifyRecord (r : RecordId) (f : ImageRecord → ImageRecord) (s : State) : State :=
  { s with images := { s.images with
      record := Function.update s.images.record r (f (s.images.record r)) } }

/-- `CpuExitImage` notes what the image passed to `gBS->Exit`. -/
def State.setImageExit (r : RecordId) (args : Args) (s : State) : State :=
  s.modifyRecord r fun r =>
    { r with
      imageExitStatus := args 1
      imageExitDataSize := args 2
      imageExitData := args 3 }

namespace System

/-! ## calling emulated code -/

/-- `CpuRunFunc` or `CpuRunImage` returns without having entered anything. -/
def returned (sys : System) (ret : UINT64) : System :=
  { sys with nextId := sys.nextId + 1, trace := .returned sys.nextId ret :: sys.trace }

/-- `CURRENT_FP ()` is not on the private stack. -/
def switches (cfg : Config) (sys : System) : Bool :=
  cfg.onPrivateStack && (activations sys.stack).isEmpty

/-- The activation of the context `k`, whose emulated function is about to start in `s`. -/
def activation (cfg : Config) (sys : System) (k : CtxId) (image : Option RecordId) (fp : Nat)
    (s : State) : Activation where
  id := sys.nextId
  fp := fp
  context := k
  image := image
  switched := sys.switches cfg
  programCounter := (s.context k).programCounter
  entrySp := s.ue k.cpu k.cpu.stackReg
  atEntry := sys.emu.ue
  atCall := fun _ => 0

/-- Emulated code is about to start, in `s`. -/
def entered (cfg : Config) (sys : System) (k : CtxId) (image : Option RecordId) (fp : Nat)
    (s : State) : System :=
  { sys with
    emu := s
    stack := .run (sys.activation cfg k image fp s) :: sys.stack
    nextId := sys.nextId + 1 }

/-- `CpuRunCtx` is called; on the native stack it switches to the private one. -/
def cpuRunCtx (cfg : Config) (sys : System) (k : CtxId) (image : Option RecordId) (fp : Nat)
    (s : State) : Option System :=
  (cpuRunCtxEnter cfg (if sys.switches cfg then some sys.nextId else none) k fp s).map
    (sys.entered cfg k image fp)

def cpuRunFunc (cfg : Config) (sys : System) (cpu : CpuId) (programCounter : UINT64) (args : Args)
    (fp : Nat) : Option System :=
  match cpuAllocContext cpu sys.emu with
  | none => some (sys.returned EFI_OUT_OF_RESOURCES)
  | some (k, s) =>
      sys.cpuRunCtx cfg k none fp
        (s.modifyContext k fun c => { c with programCounter := programCounter, args := args })

/-- `UINT64 Args[MAX_ARGS]` of `CpuRunImage`. -/
def imageArgs (imageHandle systemTable : UINT64) : Args := fun i =>
  match i with
  | 0 => imageHandle
  | 1 => systemTable
  | _ => 0

/-- `none` when `ASSERT (Record != NULL)` fails.  `Context->Cpu` is printed before
`Context` is found to be `NULL`. -/
def cpuRunImage (cfg : Config) (sys : System) (imageHandle systemTable : UINT64)
    (loadedImage : Except UINT64 UINT64) (fp : Nat) : Option System :=
  match loadedImage with
  | .error status => some (sys.returned status)
  | .ok imageBase =>
      match imageFindByAddress sys.emu.images imageBase with
      | none => none
      | some record =>
          match cpuAllocContext (sys.emu.images.record record).cpu sys.emu with
          | none =>
              let sys := { sys with emu := sys.emu.assert .contextNotNull False }
              some (sys.returned EFI_OUT_OF_RESOURCES)
          | some (k, s) =>
              let s := s.modifyRecord record fun r => { r with imageHandle := imageHandle }
              let s := s.modifyContext k fun c =>
                { c with
                  imageRecord := some record
                  programCounter := (s.images.record record).imageEntry
                  args := imageArgs imageHandle systemTable }
              let s := s.modifyRecord record fun r =>
                { r with imageExitJumpBuffer := some sys.nextId }
              sys.cpuRunCtx cfg k (some record) fp s

/-! ## returning to native code -/

/-- `CpuRunCtxOnPrivateStack` ends with `LongJump (&mOriginalStack, -1)`. -/
def jumpsToOriginalStack (cfg : Config) (k : CtxId) (s : State) : Bool :=
  cfg.onPrivateStack && !(s.context k).haveSaved

/-- The end of `CpuRunCtxOnPrivateStack` for the activation `a`, on top of
`rest`.  On the private stack control goes to whoever called `SetJump` last,
since the flag has just been cleared. -/
def finish (cfg : Config) (sys : System) (a : Activation) (rest : List Frame) (ret : UINT64) :
    Option System :=
  let s := cpuRunCtxOnPrivateStackLeave a.context ret sys.emu
  if jumpsToOriginalStack cfg a.context s then
    match s.mOriginalStack.bind fun id => unwindToRun id (.run a :: rest) with
    | none => none
    | some (caller, rest) =>
        let (ret, s) := cpuRunCtxReturn caller.context s
        some { sys with emu := s, stack := rest, trace := .returned caller.id ret :: sys.trace }
  else
    let (ret, s) := cpuRunCtxReturn a.context s
    some { sys with emu := s, stack := rest, trace := .returned a.id ret :: sys.trace }

/-! ## calling native code -/

/-- `NativeThunk` after `NativeThunkCheckLeakedContexts` has left `s`: the result
is put in its register, and the activation runs on. -/
def resumed (sys : System) (a : Activation) (rest : List Frame) (value : UINT64) (s : State) :
    System :=
  let cpu := a.context.cpu
  let (programCounter, e) := nativeThunkLeave cpu value ⟨s.ue cpu, s.memory⟩
  { sys with
    emu := { s with ue := Function.update s.ue cpu e.regs, memory := e.memory }
    stack := .run { a with programCounter := programCounter } :: rest
    trace := .resumed a.id (s.ue cpu) :: sys.trace }

/-- A native function called by the activation `a` has returned `value` to its
`NativeThunk`. -/
def resume (sys : System) (a : Activation) (rest : List Frame) (value : UINT64) : Option System :=
  (nativeThunkCheckLeakedContexts a.context sys.emu).map (sys.resumed a rest value)

/-- The loop of `CpuExitImage`. -/
def findImageContext (s : State) : Nat → Option CtxId → Option (Option CtxId)
  | 0, _ => none
  | _ + 1, none => some none
  | n + 1, some k =>
      if (s.context k).imageRecord = none then findImageContext s n (s.next k) else some (some k)

/-- `CpuRunImage` calls the native `gBS->Exit`, after `CpuCompressLeakedContexts`
has left `s`. -/
def exited (sys : System) (a : Activation) (rest : List Frame) (record : RecordId) (s : State) :
    System :=
  let r := s.images.record record
  { sys with
    emu := s
    stack := .native sys.nextId :: .exiting a.id :: rest
    nextId := sys.nextId + 1
    trace := .exit r.imageHandle r.imageExitStatus r.imageExitDataSize r.imageExitData ::
      sys.trace }

/-- `CpuRunImage` after `SetJump` has returned a second time. -/
def cpuRunImageExit (sys : System) (id : Nat) : Option System := do
  let (a, rest) ← unwindToRun id sys.stack
  let record ← a.image
  let s ← cpuCompressLeakedContexts a.context true sys.emu
  some (sys.exited a rest record s)

/-- `CpuExitImage`, called by the activation `a`. -/
def cpuExitImage (sys : System) (a : Activation) (rest : List Frame) (args : Args) :
    Option System :=
  match imageFindByHandle sys.emu.images (args 0) with
  | none => sys.resume a rest EFI_INVALID_PARAMETER
  | some currentImageRecord => do
      let s := sys.emu.criticalBegin
      let context ← findImageContext s chainFuel s.mTopContext
      let s := s.assert .imageContext (context ≠ none)
      let s := s.criticalEnd
      match context with
      | none => resume { sys with emu := s } a rest EFI_INVALID_PARAMETER
      | some k =>
          if (s.context k).imageRecord ≠ some currentImageRecord then
            resume { sys with emu := s } a rest EFI_INVALID_PARAMETER
          else
            let s := s.setImageExit currentImageRecord args
            let id ← (s.images.record currentImageRecord).imageExitJumpBuffer
            cpuRunImageExit { sys with emu := s } id

/-- The activation `a` makes the call its `NativeThunk` has decoded. -/
def called (sys : System) (a : Activation) (rest : List Frame) (call : NativeCall) (e : Engine) :
    System :=
  { sys with
    emu := { sys.emu with
      ue := Function.update sys.emu.ue a.context.cpu e.regs
      memory := e.memory }
    stack := .run a :: rest
    trace := .called a.id call :: sys.trace }

/-- The activation `a` calls `programCounter`, which is no emulated code. -/
def callNative (cfg : Config) (sys : System) (a : Activation) (rest : List Frame)
    (programCounter : UINT64) : Option System :=
  let regs := sys.emu.ue a.context.cpu
  let a := { a with atCall := regs }
  let (call, e) := nativeThunkEnter cfg a.context.cpu programCounter ⟨regs, sys.emu.memory⟩
  let sys := sys.called a rest call e
  match call.func with
  | .nativeUnsupported => sys.resume a rest EFI_UNSUPPORTED
  | .cpuExitImage => sys.cpuExitImage a rest call.args
  | _ => some { sys with stack := .native sys.nextId :: sys.stack, nextId := sys.nextId + 1 }

/-! ## running emulated code -/

/-- The critical section around `uc_emu_start`, which leaves `regs`, `memory` and
`ucErr`. -/
def emulated (cpu : CpuId) (regs : RegFile) (memory : WordMemory.Memory)
    (ucErr : UcErr) (s : State) :
    State :=
  let s := s.criticalBegin
  let s := { s with ue := Function.update s.ue cpu regs, memory := memory }
  let s := s.assert .interruptsDisabled (s.interrupts.interruptState = false)
  let s := s.criticalEnd
  s.assert .programCounterNotNull (ucErr = .ok → regs cpu.programCounterReg ≠ 0)

/-- One turn of the loop of `CpuRunCtxInternal`, for the activation `a`. -/
def cpuRunCtxInternal (cfg : Config) (sys : System) (a : Activation) (rest : List Frame)
    (regs : RegFile) (memory : WordMemory.Memory) (ucErr : UcErr) : Option System :=
  let cpu := a.context.cpu
  let s := emulated cpu regs memory ucErr sys.emu
  let programCounter := s.ue cpu cpu.programCounterReg
  let sys := { sys with emu := s }
  match cpuExitReason cfg ucErr programCounter with
  | .none => some { sys with stack := .run { a with programCounter := programCounter } :: rest }
  | .callToNative => sys.callNative cfg a rest programCounter
  | .returnToNative =>
      let s := s.withEngine cpu (emuThunkPost cpu)
      finish cfg { sys with emu := s } a rest (s.ue cpu cpu.returnValueReg)
  | .failedEmu => sys.finish cfg a rest EFI_UNSUPPORTED

end System

/-! ## steps -/

/-- A new frame lies below all activations: the stack grows downward. -/
def fpFits (fp : Nat) (stack : List Frame) : Bool := (activations stack).all fun a => fp < a.fp

/-- The system takes a step; `none` when the action is not possible. -/
def step (cfg : Config) (sys : System) (action : Action) : Option System :=
  match action, sys.stack with
  | .runFunc cpu programCounter args fp, .native _ :: _ =>
      if fpFits fp sys.stack then sys.cpuRunFunc cfg cpu programCounter args fp else none
  | .runImage imageHandle systemTable loadedImage fp, .native _ :: _ =>
      if fpFits fp sys.stack then sys.cpuRunImage cfg imageHandle systemTable loadedImage fp
        else none
  | .emulate regs memory ucErr, .run a :: rest => sys.cpuRunCtxInternal cfg a rest regs memory ucErr
  | .store memory, .native _ :: _ => some { sys with emu := { sys.emu with memory := memory } }
  | .ret value, .native _ :: .run a :: rest => sys.resume a rest value
  | .ret value, .native _ :: .exiting id :: rest =>
      some { sys with
        emu := sys.emu.assert .exitStatus (efiError value = false)
        stack := rest
        trace := .returned id value :: sys.trace }
  | .longJump id, .native _ :: _ =>
      (unwindToNative id sys.stack).map fun stack => { sys with stack := stack }
  | _, _ => none

/-! ## the start -/

/-- What the system finds when the driver is loaded: the engines' registers out
of reset, their stacks, the pools' size and memory, the images, the memory and
the interrupt state. -/
structure Platform where
  reset : CpuId → RegFile
  emuStackStart : CpuId → UINT64
  runContexts : Nat
  runContexts_le : runContexts ≤ RUN_CONTEXTS_LIMIT
  arena : CtxId → CpuRunContext
  images : Images
  memory : WordMemory.Memory
  interruptState : Bool

/-- `EmuStackTop`. -/
def Platform.emuStackTop (p : Platform) (cpu : CpuId) : UINT64 :=
  p.emuStackStart cpu + EMU_STACK_SIZE

/-- `CpuInit`. -/
def cpuInit (p : Platform) : State where
  mTopContext := none
  context := p.arena
  contexts := fun _ => 0
  runContextAlloc := fun _ => List.range p.runContexts
  ue := fun cpu => Function.update (p.reset cpu) cpu.stackReg (p.emuStackTop cpu)
  initialState := fun cpu => Function.update (p.reset cpu) cpu.stackReg (p.emuStackTop cpu)
  images := p.images
  memory := p.memory
  interrupts := ⟨0, p.interruptState, p.interruptState⟩
  mOriginalStack := none
  failedAsserts := []

/-- The firmware runs, and nothing has been emulated yet. -/
def initial (p : Platform) : System where
  emu := cpuInit p
  stack := [.native 0]
  nextId := 1
  trace := []

end MultiArchUefi
