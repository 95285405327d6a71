import MultiArchUefi.Transfer
import MultiArchUefi.Lib.Memory

/-!
# MultiArchUefi.Thunk

The two pairs of thunks between calling conventions.  `EmuThunkPre` and
`EmuThunkPost` wrap the call of an emulated function; `NativeThunkX64` and
`NativeThunkAArch64` take a native call of emulated code apart, and put its
result back.  All of them see one engine's registers and the memory.
-/

namespace MultiArchUefi

open WordMemory

/-- What the thunks of one engine can reach. -/
structure Engine where
  regs : RegFile
  memory : Memory

namespace Engine

/-! ## registers and the stack -/

/-- `REG_READ`. -/
def regRead (e : Engine) (r : UcReg) : UINT64 := e.regs r

/-- `REG_WRITE`. -/
def regWrite (r : UcReg) (val : UINT64) (e : Engine) : Engine :=
  { e with regs := Function.update e.regs r val }

@[simp] theorem regRead_regWrite (e : Engine) (r : UcReg) (val : UINT64) :
    (e.regWrite r val).regRead r = val := by
  simp [regRead, regWrite]

@[simp] theorem regWrite_memory (e : Engine) (r : UcReg) (val : UINT64) :
    (e.regWrite r val).memory = e.memory := rfl

end Engine

open Engine

def cpuStackPushRedZone (cpu : CpuId) (e : Engine) : Engine :=
  let rsp := e.regRead cpu.stackReg
  let rsp := rsp - SYSV_X64_ABI_REDZONE
  e.regWrite cpu.stackReg rsp

def cpuStackPop64 (cpu : CpuId) (e : Engine) : UINT64 × Engine :=
  let rsp := e.regRead cpu.stackReg
  let (val, memory) := e.memory.load64 rsp
  let rsp := rsp + 8
  (val, { e with memory := memory }.regWrite cpu.stackReg rsp)

def cpuStackPush64 (cpu : CpuId) (val : UINT64) (e : Engine) : Engine :=
  let rsp := e.regRead cpu.stackReg
  let rsp := rsp - 8
  let e := e.regWrite cpu.stackReg rsp
  { e with memory := e.memory.store64 rsp val }

/-! ## calling emulated code -/

/-- `magic` is `RETURN_TO_NATIVE_MAGIC`. -/
def cpuX64EmuThunkPre (magic : UINT64) (args : Args) (e : Engine) : Engine :=
  let e := e.regWrite .rcx (args 0)
  let e := e.regWrite .rdx (args 1)
  let e := e.regWrite .r8 (args 2)
  let e := e.regWrite .r9 (args 3)
  let e := (List.finRange (MAX_ARGS - 4)).foldl
    (fun e index => cpuStackPush64 .x64 (args (index.castLE x64StackArgs_le).rev) e) e
  -- home zone for the called function
  let e := (List.range 4).foldl (fun e _ => cpuStackPush64 .x64 0 e) e
  cpuStackPush64 .x64 magic e

def cpuX64EmuThunkPost (e : Engine) : Engine :=
  let e := (List.range 4).foldl (fun e _ => (cpuStackPop64 .x64 e).2) e
  (List.range' 4 (MAX_ARGS - 4)).foldl (fun e _ => (cpuStackPop64 .x64 e).2) e

def cpuAArch64EmuThunkPre (magic : UINT64) (args : Args) (e : Engine) : Engine :=
  let e := e.regWrite (.x 0) (args 0)
  let e := e.regWrite (.x 1) (args 1)
  let e := e.regWrite (.x 2) (args 2)
  let e := e.regWrite (.x 3) (args 3)
  let e := e.regWrite (.x 4) (args 4)
  let e := e.regWrite (.x 5) (args 5)
  let e := e.regWrite (.x 6) (args 6)
  let e := e.regWrite (.x 7) (args 7)
  let e := (List.finRange (MAX_ARGS - 8)).foldl
    (fun e index => cpuStackPush64 .aarch64 (args (index.castLE aArch64StackArgs_le).rev) e) e
  e.regWrite .lr magic

def cpuAArch64EmuThunkPost (e : Engine) : Engine :=
  (List.range' 8 (MAX_ARGS - 8)).foldl (fun e _ => (cpuStackPop64 .aarch64 e).2) e

/-- `Cpu->EmuThunkPre`. -/
def emuThunkPre (magic : UINT64) : CpuId → Args → Engine → Engine
  | .x64 => cpuX64EmuThunkPre magic
  | .aarch64 => cpuAArch64EmuThunkPre magic

/-- `Cpu->EmuThunkPost`. -/
def emuThunkPost : CpuId → Engine → Engine
  | .x64 => cpuX64EmuThunkPost
  | .aarch64 => cpuAArch64EmuThunkPost

/-! ## calling native code -/

/-- The call a `NativeThunk` makes.  Only a wrapper is given the original
program counter and the return address. -/
structure NativeCall where
  func : NativeTarget
  originalProgramCounter : UINT64
  returnAddress : UINT64
  args : Args

/-- `WrapperCall`. -/
def NativeCall.wrapperCall (c : NativeCall) : Bool := decide (c.func ≠ .native)

/-- Load the words at `addrs`, in order. -/
def loadWords (addrs : List UINT64) (m : Memory) : Memory :=
  addrs.foldl (fun m a => (m.load64 a).2) m

/-- `NativeThunkX64`, up to the call.  A wrapper is handed the stack itself, so
what it finds in its `Args` is what is stored there. -/
def nativeThunkX64Enter (cfg : Config) (programCounter : UINT64) (e : Engine) :
    NativeCall × Engine :=
  let func := nativeValidateSupportedCall cfg programCounter
  let rsp := e.regRead .rsp
  let rcx := e.regRead .rcx
  let rdx := e.regRead .rdx
  let r8 := e.regRead .r8
  let r9 := e.regRead .r9
  let stackArgs : Nat → UINT64 := fun i => rsp + 8 * BitVec.ofNat 64 i
  if func ≠ .native then
    let m := e.memory.store64 (stackArgs 1) rcx
    let m := m.store64 (stackArgs 2) rdx
    let m := m.store64 (stackArgs 3) r8
    let m := m.store64 (stackArgs 4) r9
    let args : Args := fun i => m.word (stackArgs (i + 1))
    (⟨func, programCounter, m.word (stackArgs 0), args⟩,
      { e with memory := loadWords ((List.range (MAX_ARGS + 1)).map stackArgs) m })
  else
    let m := e.memory
    let args : Args := fun i =>
      match i with
      | 0 => rcx
      | 1 => rdx
      | 2 => r8
      | 3 => r9
      | i => m.word (stackArgs (i + 1))
    (⟨func, programCounter, 0, args⟩,
      { e with memory := loadWords ((List.range' 5 (MAX_ARGS - 4)).map stackArgs) m })

/-- `NativeThunkX64`, after `NativeThunkCheckLeakedContexts`. -/
def nativeThunkX64Leave (rax : UINT64) (e : Engine) : UINT64 × Engine :=
  let e := e.regWrite .rax rax
  cpuStackPop64 .x64 e

/-- `NativeThunkAArch64`, up to the call. -/
def nativeThunkAArch64Enter (cfg : Config) (programCounter : UINT64) (e : Engine) :
    NativeCall × Engine :=
  let func := nativeValidateSupportedCall cfg programCounter
  let lr := e.regRead .lr
  let sp := e.regRead .sp
  let stackArgs : Nat → UINT64 := fun i => sp + 8 * BitVec.ofNat 64 i
  let m := e.memory
  let args : Args := fun i =>
    if h : i.val < 8 then e.regRead (.x ⟨i, h⟩) else m.word (stackArgs (i - 8))
  (⟨func, programCounter, if func ≠ .native then lr else 0, args⟩,
    { e with memory := loadWords ((List.range (MAX_ARGS - 8)).map stackArgs) m })

/-- `NativeThunkAArch64`, after `NativeThunkCheckLeakedContexts`. -/
def nativeThunkAArch64Leave (x0 : UINT64) (e : Engine) : UINT64 × Engine :=
  let e := e.regWrite (.x 0) x0
  (e.regRead .lr, e)

/-- `Cpu->NativeThunk`, up to the call. -/
def nativeThunkEnter (cfg : Config) : CpuId → UINT64 → Engine → NativeCall × Engine
  | .x64 => nativeThunkX64Enter cfg
  | .aarch64 => nativeThunkAArch64Enter cfg

/-- `Cpu->NativeThunk`, after `NativeThunkCheckLeakedContexts`. -/
def nativeThunkLeave : CpuId → UINT64 → Engine → UINT64 × Engine
  | .x64 => nativeThunkX64Leave
  | .aarch64 => nativeThunkAArch64Leave

end MultiArchUefi
