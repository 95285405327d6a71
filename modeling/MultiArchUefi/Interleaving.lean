import MultiArchUefi.System
import MultiArchUefi.VirtualInterrupt

/-!
# MultiArchUefi.Interleaving

The driver statement by statement, on builds without `MAU_ON_PRIVATE_STACK`.

`System` takes everything between two decisions of other code for one step.
Here a run of emulated code has a `Stage`, which is where its functions are,
and between two stages anything may happen that interrupts allow: an event
notification is delivered, and runs emulated code of its own.  Statements that
only read are taken together with the next one that writes, and so is what
happens inside `ObjectAlloc` and `ObjectFree`, and inside a critical section
that the function which opens it also closes.
-/

namespace MultiArchUefi

open Chain

namespace Interleaving

/-! ## the statements of the thunks -/

/-- End of the memory that is mapped for the engines, `1UL << 48`. -/
def MEMORY_END : UINT64 := 0x1000000000000

/-- A statement of `CpuStackPushRedZone`, `EmuThunkPre` or `EmuThunkPost`; `Rsp`
is a local of the function. -/
inductive Statement where
  /-- `REG_WRITE (Cpu, r, val)` -/
  | regWrite (r : UcReg) (val : UINT64)
  /-- `Rsp = REG_READ (Cpu, Cpu->StackReg)` -/
  | readRsp
  /-- `Rsp += n; REG_WRITE (Cpu, Cpu->StackReg, Rsp)` -/
  | moveRsp (n : UINT64)
  /-- `*(UINT64 *)Rsp = val` -/
  | store (val : UINT64)
  /-- `Val = *(UINT64 *)Rsp` -/
  | load
deriving DecidableEq, Repr

/-- Nothing is mapped where the statement reads or writes. -/
def Statement.faults (rsp : UINT64) : Statement → Bool
  | .store _ | .load => MEMORY_END ≤ rsp
  | _ => false

/-- What becomes of `Rsp` and the engine. -/
def Statement.exec (cpu : CpuId) : Statement → UINT64 × Engine → UINT64 × Engine
  | .regWrite r val, (rsp, e) => (rsp, e.regWrite r val)
  | .readRsp, (_, e) => (e.regRead cpu.stackReg, e)
  | .moveRsp n, (rsp, e) => (rsp + n, e.regWrite cpu.stackReg (rsp + n))
  | .store val, (rsp, e) => (rsp, { e with memory := e.memory.store64 rsp val })
  | .load, (rsp, e) => (rsp, { e with memory := (e.memory.load64 rsp).2 })

def stackPushRedZone : List Statement := [.readRsp, .moveRsp (-SYSV_X64_ABI_REDZONE)]

def stackPush64 (val : UINT64) : List Statement := [.readRsp, .moveRsp (-8), .store val]

def stackPop64 : List Statement := [.readRsp, .load, .moveRsp 8]

def x64EmuThunkPre (magic : UINT64) (args : Args) : List Statement :=
  [.regWrite .rcx (args 0), .regWrite .rdx (args 1), .regWrite .r8 (args 2),
    .regWrite .r9 (args 3)] ++
    (List.finRange (MAX_ARGS - 4)).flatMap
      (fun index => stackPush64 (args (index.castLE x64StackArgs_le).rev)) ++
    (List.range 4).flatMap (fun _ => stackPush64 0) ++
    stackPush64 magic

def aArch64EmuThunkPre (magic : UINT64) (args : Args) : List Statement :=
  [.regWrite (.x 0) (args 0), .regWrite (.x 1) (args 1), .regWrite (.x 2) (args 2),
    .regWrite (.x 3) (args 3), .regWrite (.x 4) (args 4), .regWrite (.x 5) (args 5),
    .regWrite (.x 6) (args 6), .regWrite (.x 7) (args 7)] ++
    (List.finRange (MAX_ARGS - 8)).flatMap
      (fun index => stackPush64 (args (index.castLE aArch64StackArgs_le).rev)) ++
    [.regWrite .lr magic]

/-- `Cpu->EmuThunkPre`. -/
def thunkPre (magic : UINT64) : CpuId → Args → List Statement
  | .x64 => x64EmuThunkPre magic
  | .aarch64 => aArch64EmuThunkPre magic

/-- `Cpu->EmuThunkPost`. -/
def thunkPost : CpuId → List Statement
  | .x64 => (List.range MAX_ARGS).flatMap fun _ => stackPop64
  | .aarch64 => (List.range' 8 (MAX_ARGS - 8)).flatMap fun _ => stackPop64

/-- The statements one after the other, with nothing delivered in between. -/
def execAll (cpu : CpuId) (stmts : List Statement) (p : UINT64 × Engine) : UINT64 × Engine :=
  stmts.foldl (fun p st => st.exec cpu p) p

/-- Blocks of statements run one after the other. -/
theorem execAll_append (cpu : CpuId) (stmts stmts' : List Statement) (p : UINT64 × Engine) :
    execAll cpu (stmts ++ stmts') p = execAll cpu stmts' (execAll cpu stmts p) := List.foldl_append

/-- A block for every element runs as a loop over the list. -/
theorem execAll_flatMap {α : Type*} {cpu : CpuId} {block : α → List Statement}
    {f : α → Engine → Engine} (h : ∀ a p, (execAll cpu (block a) p).2 = f a p.2) (l : List α)
    (p : UINT64 × Engine) :
    (execAll cpu (l.flatMap block) p).2 = l.foldl (fun e a => f a e) p.2 := by
  induction l generalizing p with
  | nil => rfl
  | cons a l ih => rw [List.flatMap_cons, execAll_append, ih, h, List.foldl_cons]

/-- The statements of `CpuStackPushRedZone` do what the function does. -/
theorem execAll_stackPushRedZone (cpu : CpuId) (p : UINT64 × Engine) :
    (execAll cpu stackPushRedZone p).2 = cpuStackPushRedZone cpu p.2 := by
  simp only [execAll, stackPushRedZone, List.foldl_cons, List.foldl_nil, Statement.exec,
    cpuStackPushRedZone, BitVec.sub_eq_add_neg]

/-- The statements of `CpuStackPush64` do what the function does. -/
theorem execAll_stackPush64 (cpu : CpuId) (val : UINT64) (p : UINT64 × Engine) :
    (execAll cpu (stackPush64 val) p).2 = cpuStackPush64 cpu val p.2 := by
  simp only [execAll, stackPush64, List.foldl_cons, List.foldl_nil, Statement.exec, cpuStackPush64,
    BitVec.sub_eq_add_neg]

/-- The statements of `CpuStackPop64` do what the function does. -/
theorem execAll_stackPop64 (cpu : CpuId) (p : UINT64 × Engine) :
    (execAll cpu stackPop64 p).2 = (cpuStackPop64 cpu p.2).2 := by
  simp only [execAll, stackPop64, List.foldl_cons, List.foldl_nil, Statement.exec, cpuStackPop64,
    Engine.regRead, Engine.regWrite]

/-- A loop of pushes, statement by statement. -/
theorem execAll_pushes {α : Type*} (cpu : CpuId) (val : α → UINT64) (l : List α)
    (p : UINT64 × Engine) :
    (execAll cpu (l.flatMap fun a => stackPush64 (val a)) p).2 =
      l.foldl (fun e a => cpuStackPush64 cpu (val a) e) p.2 :=
  execAll_flatMap (f := fun a e => cpuStackPush64 cpu (val a) e)
    (fun a p => execAll_stackPush64 cpu (val a) p) l p

/-- The statements of `EmuThunkPre` do what it does. -/
theorem execAll_thunkPre (magic : UINT64) (cpu : CpuId) (args : Args) (p : UINT64 × Engine) :
    (execAll cpu (thunkPre magic cpu args) p).2 = emuThunkPre magic cpu args p.2 := by
  cases cpu with
  | x64 =>
      simp only [thunkPre, x64EmuThunkPre, emuThunkPre, cpuX64EmuThunkPre, execAll_append,
        execAll_stackPush64, execAll_pushes .x64]
      rfl
  | aarch64 =>
      have hlr (p : UINT64 × Engine) : (execAll .aarch64 [.regWrite .lr magic] p).2 =
          p.2.regWrite .lr magic := rfl
      simp only [thunkPre, aArch64EmuThunkPre, emuThunkPre, cpuAArch64EmuThunkPre, execAll_append,
        hlr, execAll_pushes .aarch64]
      rfl

/-- The statements of `EmuThunkPost` do what it does. -/
theorem execAll_thunkPost (cpu : CpuId) (p : UINT64 × Engine) :
    (execAll cpu (thunkPost cpu) p).2 = emuThunkPost cpu p.2 := by
  have hpops (l : List Nat) (p : UINT64 × Engine) :
      (execAll cpu (l.flatMap fun _ => stackPop64) p).2 = l.foldl
        (fun e _ => (cpuStackPop64 cpu e).2) p.2 :=
    execAll_flatMap (f := fun _ e => (cpuStackPop64 cpu e).2)
      (fun _ p => execAll_stackPop64 cpu p) l p
  cases cpu with
  | x64 =>
      have hsplit : List.range MAX_ARGS = List.range 4 ++ List.range' 4 (MAX_ARGS - 4) := by decide
      simp only [thunkPost, emuThunkPost, cpuX64EmuThunkPost, hpops, hsplit, List.foldl_append]
  | aarch64 => simp only [thunkPost, emuThunkPost, cpuAArch64EmuThunkPost, hpops]

/-! ## frames -/

/-- Where a `CpuRunFunc` or `CpuRunImage` is. -/
inductive Stage where
  /-- before `CpuEnterCritical` -/
  | entering
  /-- in the section `CpuEnterCritical` has opened -/
  | entered
  /-- in the loop of `CpuFreeOrphanContexts` -/
  | freeingOrphans (orphan : Option CtxId)
  /-- before `if (Cpu->Contexts > 1)` -/
  | deciding
  /-- before `uc_context_save` -/
  | saving
  /-- before `Context->Flags |= CRC_HAVE_SAVED_UC_CONTEXT` -/
  | flagging
  /-- before `uc_context_restore` of the initial state -/
  | initializing
  /-- in `CpuStackPushRedZone` or `EmuThunkPre` -/
  | settingUp (rsp : UINT64) (rest : List Statement)
  /-- at the top of the loop of `CpuRunCtxInternal` -/
  | looping
  /-- before `uc_emu_start`, in its section -/
  | locked
  /-- in `uc_emu_start` -/
  | emulating
  /-- `uc_emu_start` has returned, in its section -/
  | stopped (ucErr : UcErr)
  /-- after the section -/
  | reasoning (ucErr : UcErr)
  /-- a native function or wrapper has been called -/
  | calling
  /-- in `CpuExitImage` -/
  | exitingImage (args : Args)
  /-- before the `LongJump` of `CpuExitImage` -/
  | longJumping (currentImageRecord : RecordId)
  /-- before `NativeThunkCheckLeakedContexts` -/
  | checking (value : UINT64)
  /-- in the second loop of `CpuCompressLeakedContexts` -/
  | freeingLeaked (value : UINT64) (fromContext toContext : Option CtxId)
  /-- `NativeThunk` is about to write its result -/
  | resuming (value : UINT64)
  /-- in `EmuThunkPost` -/
  | cleaningUp (rsp : UINT64) (rest : List Statement)
  /-- `CpuRunCtxInternal` has returned -/
  | finished (ret : UINT64)
  /-- before `uc_context_restore` of what was saved -/
  | restoring
  /-- before `Context->Flags ^= CRC_HAVE_SAVED_UC_CONTEXT` -/
  | unflagging
  /-- before `CpuLeaveCritical` -/
  | leaving
  /-- in the section `CpuLeaveCritical` has opened -/
  | left
  /-- `CpuRunCtx` has returned -/
  | returned
  /-- `SetJump` of `CpuRunImage` has returned a second time -/
  | imageExited
  /-- in the second loop of `CpuCompressLeakedContexts`, called by `CpuRunImage` -/
  | freeingExited (fromContext toContext : Option CtxId)
  /-- the native `gBS->Exit` has been called -/
  | callingExit
  /-- it has returned -/
  | exitReturned (status : UINT64)

/-- A `CpuRunFunc` or `CpuRunImage`; `programCounter` is the local of
`CpuRunCtxInternal`.  The last two fields are history: the stack pointer the
emulated function was entered with, 0 before, and what the activation's own last
step left in the stack register of its engine. -/
structure Activation where
  id : Nat
  fp : Nat
  context : CtxId
  image : Option RecordId
  programCounter : UINT64
  stage : Stage
  entrySp : UINT64
  sp : UINT64

inductive Frame where
  /-- The firmware, a native function or wrapper, or a notification function. -/
  | native (id : Nat)
  /-- A critical section opened and closed by native code: of an event wrapper,
  of the image protocol, of `CpuGetDebugState`. -/
  | criticalSection
  | run (a : Activation)

def Frame.run? : Frame → Option Activation
  | .run a => some a
  | _ => none

/-- The activations of a stack, innermost first. -/
def activations (stack : List Frame) : List Activation := stack.filterMap Frame.run?

@[simp] theorem activations_nil : activations [] = [] := rfl

@[simp] theorem activations_native (id : Nat) (stack : List Frame) :
    activations (.native id :: stack) = activations stack := rfl

/-- A critical section of native code is no activation. -/
@[simp] theorem activations_criticalSection (stack : List Frame) :
    activations (.criticalSection :: stack) = activations stack := rfl

@[simp] theorem activations_run (a : Activation) (stack : List Frame) :
    activations (.run a :: stack) = a :: activations stack := rfl

@[simp] theorem activations_append (pre stack : List Frame) :
    activations (pre ++ stack) = activations pre ++ activations stack := List.filterMap_append

/-- Discard frames down to, and including, the activation `id`. -/
def unwindToRun (id : Nat) : List Frame → Option (Activation × List Frame)
  | [] => none
  | .run a :: rest => if a.id = id then some (a, rest) else unwindToRun id rest
  | .native _ :: rest => unwindToRun id rest
  | .criticalSection :: rest => unwindToRun id rest

/-- Discard frames down to the native frame `id`. -/
def unwindToNative (id : Nat) : List Frame → Option (List Frame)
  | [] => none
  | .native id' :: rest => if id' = id then some (.native id' :: rest) else unwindToNative id rest
  | .run _ :: rest => unwindToNative id rest
  | .criticalSection :: rest => unwindToNative id rest

/-! ## the machine -/

/-- A word that a thunk has stored for the activation `id` on its engine. -/
structure Store where
  id : Nat
  cpu : CpuId
  address : UINT64
deriving DecidableEq, Repr

/-- The driver, the native stack (innermost frame first) and the next frame's
number.  `jitActive` counts the `uc_emu_start` calls that have not returned, and
`stores` remembers where thunks have stored words, newest first. -/
structure Machine where
  emu : State
  stack : List Frame
  nextId : Nat
  jitActive : Nat
  stores : List Store

/-- What decides how the machine goes on. -/
inductive Action where
  /-- The innermost run executes its next statement. -/
  | advance
  /-- `uc_emu_start` leaves these registers and this memory, and returns `ucErr`. -/
  | emulate (regs : RegFile) (memory : WordMemory.Memory) (ucErr : UcErr)
  /-- Some code calls a hooked service. -/
  | request (r : FlagRequest)
  /-- An event notification is delivered. -/
  | notify
  /-- Native code calls an emulated function. -/
  | runFunc (cpu : CpuId) (programCounter : UINT64) (args : Args) (fp : Nat)
  /-- `StartImage` calls `CpuRunImage`; `loadedImage` is what `HandleProtocol` finds. -/
  | runImage (imageHandle systemTable : UINT64) (loadedImage : Except UINT64 UINT64) (fp : Nat)
  /-- Native code writes memory. -/
  | store (memory : WordMemory.Memory)
  /-- Native code of the driver opens a critical section. -/
  | sectionBegin
  | sectionEnd
  /-- A native function, notification function or the native `gBS->Exit` returns. -/
  | ret (value : UINT64)
  /-- Native code long-jumps to a native frame on the stack. -/
  | longJump (id : Nat)

namespace Machine

/-- The activation `a`, on top of `rest`, goes on in `stage`, with the driver in `s`. -/
def goto (m : Machine) (a : Activation) (rest : List Frame) (stage : Stage) (s : State) : Machine :=
  { m with
    emu := s
    stack := .run { a with stage := stage, sp := s.ue a.context.cpu a.context.cpu.stackReg } ::
      rest }

/-- `CpuCompressLeakedContexts`, up to the end of its section. -/
def compressSection (toContext : Option CtxId) (s : State) : Option State := do
  let s := s.criticalBegin
  let fromContext := s.mTopContext
  let s := { s with mTopContext := toContext }
  let s ← walk popLeakedContext toContext chainFuel fromContext s
  some s.criticalEnd

/-- With the loop that frees the contexts, `compressSection` is all of
`CpuCompressLeakedContexts`. -/
theorem cpuCompressLeakedContexts_eq_section (k : CtxId) (onImageExit : Bool) (s : State) :
    cpuCompressLeakedContexts k onImageExit s =
      (compressSection (if onImageExit then s.next k else some k) s).bind
        (walk freeNextContext
          (if onImageExit then s.next k else some k) chainFuel s.mTopContext) := by
  simp only [cpuCompressLeakedContexts, compressSection, Option.bind_eq_bind, Option.bind_assoc,
    Option.bind_some]
  rfl

/-- The word the statement stores. -/
def storesOf (a : Activation) (rsp : UINT64) : Statement → List Store
  | .store _ => [⟨a.id, a.context.cpu, rsp⟩]
  | _ => []

/-- One statement of a thunk. -/
def execStatement (m : Machine) (a : Activation) (rest : List Frame)
    (stage : UINT64 → Stage) (rsp : UINT64) (st : Statement) : Option Machine :=
  let cpu := a.context.cpu
  let s := m.emu
  if st.faults rsp then none
  else
    let (rsp', e) := st.exec cpu (rsp, ⟨s.ue cpu, s.memory⟩)
    let s := { s with ue := Function.update s.ue cpu e.regs, memory := e.memory }
    some { m.goto a rest (stage rsp') s with stores := storesOf a rsp st ++ m.stores }

/-- Where `NativeThunkX64` stores the register arguments for a wrapper. -/
def homeZone (cfg : Config) (cpu : CpuId) (programCounter : UINT64) (regs : RegFile) :
    List UINT64 :=
  match cpu with
  | .x64 =>
      if nativeValidateSupportedCall cfg programCounter ≠ .native then
        [regs .rsp + 8, regs .rsp + 16, regs .rsp + 24, regs .rsp + 32]
      else []
  | .aarch64 => []

/-- `NativeThunk`, up to and including the call. -/
def callNative (cfg : Config) (m : Machine) (a : Activation) (rest : List Frame)
    (programCounter : UINT64) (s : State) : Machine :=
  let cpu := a.context.cpu
  let (call, e) := nativeThunkEnter cfg cpu programCounter ⟨s.ue cpu, s.memory⟩
  let s' := { s with ue := Function.update s.ue cpu e.regs, memory := e.memory }
  let stored := (homeZone cfg cpu programCounter (s.ue cpu)).map fun address => ⟨a.id, cpu, address⟩
  let m' :=
    match call.func with
    | .nativeUnsupported => m.goto a rest (.checking EFI_UNSUPPORTED) s'
    | .cpuExitImage => m.goto a rest (.exitingImage call.args) s'
    | _ =>
        let m := m.goto a rest .calling s'
        { m with stack := .native m.nextId :: m.stack, nextId := m.nextId + 1 }
  { m' with stores := stored.reverse ++ m.stores }

/-- `CpuExitImage`, up to the `LongJump`. -/
def exitImage (m : Machine) (a : Activation) (rest : List Frame) (args : Args) : Option Machine :=
  match imageFindByHandle m.emu.images (args 0) with
  | none => some (m.goto a rest (.checking EFI_INVALID_PARAMETER) m.emu)
  | some currentImageRecord => do
      let s := m.emu.criticalBegin
      let context ← System.findImageContext s chainFuel s.mTopContext
      let s := s.assert .imageContext (context ≠ none)
      let s := s.criticalEnd
      match context with
      | none => some (m.goto a rest (.checking EFI_INVALID_PARAMETER) s)
      | some k =>
          if (s.context k).imageRecord ≠ some currentImageRecord then
            some (m.goto a rest (.checking EFI_INVALID_PARAMETER) s)
          else
            let s := s.setImageExit currentImageRecord args
            some (m.goto a rest (.longJumping currentImageRecord) s)

/-- `CpuRunCtxInternal` after `uc_emu_start` and its section. -/
def reason (cfg : Config) (m : Machine) (a : Activation) (rest : List Frame) (ucErr : UcErr) :
    Machine :=
  let cpu := a.context.cpu
  let programCounter := m.emu.ue cpu cpu.programCounterReg
  let s := m.emu.assert .programCounterNotNull (ucErr = .ok → programCounter ≠ 0)
  match cpuExitReason cfg ucErr programCounter with
  | .none => m.goto { a with programCounter := programCounter } rest .looping s
  | .callToNative => m.callNative cfg a rest programCounter s
  | .returnToNative => m.goto a rest (.cleaningUp 0 (thunkPost cpu)) s
  | .failedEmu => m.goto a rest (.finished EFI_UNSUPPORTED) s

/-- The activation `a` executes its next statement; `none` while it waits for
other code, and when it crashes. -/
def advance (cfg : Config) (m : Machine) (a : Activation) (rest : List Frame) : Option Machine :=
  let k := a.context
  let cpu := k.cpu
  let s := m.emu
  match a.stage with
  | .entering => some (m.goto a rest .entered (cpuEnterCritical k s))
  | .entered => do
      let (orphanContexts, s) ←
        if cfg.checkOrphanContexts then cpuDetectOrphanContexts k a.fp s else some (none, s)
      some (m.goto a rest (.freeingOrphans orphanContexts) s.criticalEnd)
  | .freeingOrphans none => some (m.goto a rest .deciding s)
  | .freeingOrphans (some j) =>
      let (orphan, s) := freeNextContext j s
      some (m.goto a rest (.freeingOrphans orphan) s)
  | .deciding => some (m.goto a rest (if s.contexts cpu > 1 then .saving else .initializing) s)
  | .saving =>
      some (m.goto a rest .flagging
        (s.modifyContext k fun c => { c with prevUcContext := s.ue cpu }))
  | .flagging =>
      let s := s.modifyContext k fun c => { c with flags := c.flags ||| CRC_HAVE_SAVED_UC_CONTEXT }
      let pre := thunkPre cfg.returnToNativeMagic cpu (s.context k).args
      some (m.goto a rest (.settingUp 0 (stackPushRedZone ++ pre)) s)
  | .initializing =>
      let pre := thunkPre cfg.returnToNativeMagic cpu (s.context k).args
      let s := { s with ue := Function.update s.ue cpu (s.initialState cpu) }
      some (m.goto a rest (.settingUp 0 pre) s)
  | .settingUp _ [] =>
      let a := { a with
        programCounter := (s.context k).programCounter, entrySp := s.ue cpu cpu.stackReg }
      some (m.goto a rest .looping s)
  | .settingUp rsp (st :: stmts) => m.execStatement a rest (fun rsp => .settingUp rsp stmts) rsp st
  | .looping => some (m.goto a rest .locked s.criticalBegin)
  | .locked => some { m.goto a rest .emulating s with jitActive := m.jitActive + 1 }
  | .emulating => none
  | .stopped ucErr =>
      let s := s.assert .interruptsDisabled (s.interrupts.interruptState = false)
      some (m.goto a rest (.reasoning ucErr) s.criticalEnd)
  | .reasoning ucErr => some (m.reason cfg a rest ucErr)
  | .calling => none
  | .exitingImage args => m.exitImage a rest args
  | .longJumping currentImageRecord => do
      let id ← (s.images.record currentImageRecord).imageExitJumpBuffer
      let (caller, rest) ← unwindToRun id m.stack
      some (m.goto caller rest .imageExited s)
  | .checking value =>
      if s.mTopContext ≠ some k then do
        let s' ← compressSection (some k) s
        some (m.goto a rest (.freeingLeaked value s.mTopContext (some k)) s')
      else some (m.goto a rest (.resuming value) s)
  | .freeingLeaked value fromContext toContext =>
      if fromContext = toContext then some (m.goto a rest (.resuming value) s)
      else do
        let j ← fromContext
        let (fromContext, s) := freeNextContext j s
        some (m.goto a rest (.freeingLeaked value fromContext toContext) s)
  | .resuming value =>
      let (programCounter, e) := nativeThunkLeave cpu value ⟨s.ue cpu, s.memory⟩
      let s := { s with ue := Function.update s.ue cpu e.regs, memory := e.memory }
      some (m.goto { a with programCounter := programCounter } rest .looping s)
  | .cleaningUp _ [] => some (m.goto a rest (.finished (s.ue cpu cpu.returnValueReg)) s)
  | .cleaningUp rsp (st :: stmts) =>
      m.execStatement a rest (fun rsp => .cleaningUp rsp stmts) rsp st
  | .finished ret =>
      let s := s.setRet k ret
      some (m.goto a rest (if (s.context k).haveSaved then .restoring else .leaving) s)
  | .restoring =>
      let s := { s with ue := Function.update s.ue cpu (s.context k).prevUcContext }
      some (m.goto a rest .unflagging s)
  | .unflagging =>
      let s := s.modifyContext k fun c => { c with flags := c.flags ^^^ CRC_HAVE_SAVED_UC_CONTEXT }
      some (m.goto a rest .leaving s)
  | .leaving => some (m.goto a rest .left (cpuLeaveCritical k s))
  | .left => some (m.goto a rest .returned s.criticalEnd)
  | .returned => some { m with emu := cpuFreeContext k s, stack := rest }
  | .imageExited => do
      let toContext := s.next k
      let s' ← compressSection toContext s
      some (m.goto a rest (.freeingExited s.mTopContext toContext) s')
  | .freeingExited fromContext toContext =>
      if fromContext = toContext then
        let m := m.goto a rest .callingExit s
        some { m with stack := .native m.nextId :: m.stack, nextId := m.nextId + 1 }
      else do
        let j ← fromContext
        let (fromContext, s) := freeNextContext j s
        some (m.goto a rest (.freeingExited fromContext toContext) s)
  | .callingExit => none
  | .exitReturned status =>
      some { m with emu := s.assert .exitStatus (efiError status = false), stack := rest }

/-! ## other code -/

/-- `CpuRunFunc` or `CpuRunImage` calls `CpuRunCtx` with the context `k`. -/
def runCtx (m : Machine) (k : CtxId) (image : Option RecordId) (fp : Nat) (s : State) : Machine :=
  { m with
    emu := s
    stack := .run ⟨m.nextId, fp, k, image, 0, .entering, 0, s.ue k.cpu k.cpu.stackReg⟩ :: m.stack
    nextId := m.nextId + 1 }

def runFunc (m : Machine) (cpu : CpuId) (programCounter : UINT64) (args : Args) (fp : Nat) :
    Machine :=
  match cpuAllocContext cpu m.emu with
  | none => m
  | some (k, s) =>
      m.runCtx k none fp
        (s.modifyContext k fun c => { c with programCounter := programCounter, args := args })

/-- `none` when `ASSERT (Record != NULL)` fails. -/
def runImage (m : Machine) (imageHandle systemTable : UINT64) (loadedImage : Except UINT64 UINT64)
    (fp : Nat) : Option Machine :=
  match loadedImage with
  | .error _ => some m
  | .ok imageBase =>
      match imageFindByAddress m.emu.images imageBase with
      | none => none
      | some record =>
          match cpuAllocContext (m.emu.images.record record).cpu m.emu with
          | none => some { m with emu := m.emu.assert .contextNotNull False }
          | some (k, s) =>
              let s := s.modifyRecord record fun r => { r with imageHandle := imageHandle }
              let s := s.modifyContext k fun c =>
                { c with
                  imageRecord := some record
                  programCounter := (s.images.record record).imageEntry
                  args := System.imageArgs imageHandle systemTable }
              let s := s.modifyRecord record fun r =>
                { r with imageExitJumpBuffer := some m.nextId }
              some (m.runCtx k (some record) fp s)

/-- What is left when a native frame on top of `stack` returns `value`. -/
def returnTo (value : UINT64) : List Frame → List Frame
  | .run a :: rest =>
      match a.stage with
      | .calling => .run { a with stage := .checking value } :: rest
      | .callingExit => .run { a with stage := .exitReturned value } :: rest
      | _ => .run a :: rest
  | stack => stack

end Machine

/-- A new frame lies below all activations: the stack grows downward. -/
def fpFits (fp : Nat) (stack : List Frame) : Bool := (activations stack).all fun a => fp < a.fp

/-- The machine takes a step; `none` when the action is not possible. -/
def step (cfg : Config) (m : Machine) (action : Action) : Option Machine :=
  match action, m.stack with
  | .advance, .run a :: rest => m.advance cfg a rest
  | .emulate regs memory ucErr, .run a :: rest =>
      match a.stage with
      | .emulating =>
          let cpu := a.context.cpu
          let s := { m.emu with ue := Function.update m.emu.ue cpu regs, memory := memory }
          some { m.goto a rest (.stopped ucErr) s with jitActive := m.jitActive - 1 }
      | _ => none
  | .request r, _ =>
      if r.isHooked then
        some { m with emu := { m.emu with interrupts := (r.exec m.emu.interrupts).2 } }
      else none
  | .notify, stack =>
      if m.emu.interrupts.interruptState then
        some { m with stack := .native m.nextId :: stack, nextId := m.nextId + 1 }
      else none
  | .runFunc cpu programCounter args fp, .native _ :: _ =>
      if fpFits fp m.stack then some (m.runFunc cpu programCounter args fp) else none
  | .runImage imageHandle systemTable loadedImage fp, .native _ :: _ =>
      if fpFits fp m.stack then m.runImage imageHandle systemTable loadedImage fp else none
  | .store memory, .native _ :: _ => some { m with emu := { m.emu with memory := memory } }
  | .sectionBegin, .native _ :: _ =>
      some { m with emu := m.emu.criticalBegin, stack := .criticalSection :: m.stack }
  | .sectionEnd, .criticalSection :: rest => some { m with emu := m.emu.criticalEnd, stack := rest }
  | .ret value, .native _ :: f :: rest =>
      some { m with stack := Machine.returnTo value (f :: rest) }
  | .longJump id, .native _ :: _ =>
      (unwindToNative id m.stack).map fun stack => { m with stack := stack }
  | _, _ => none

/-- The firmware runs, and nothing has been emulated yet. -/
def initial (p : Platform) : Machine where
  emu := cpuInit p
  stack := [.native 0]
  nextId := 1
  jitActive := 0
  stores := []

end Interleaving

end MultiArchUefi
