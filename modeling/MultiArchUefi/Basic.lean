import Mathlib

/-!
# MultiArchUefi.Basic

Vocabulary shared by the whole model: machine words, EFI status codes, the
supported emulated CPUs and the registers the emulator reads and writes.
-/

namespace MultiArchUefi

/-- `UINT64`, also used for `UINTN`, `EFI_PHYSICAL_ADDRESS`, handles and pointers. -/
abbrev UINT64 := BitVec 64

abbrev UINT8 := BitVec 8
abbrev UINT16 := BitVec 16
abbrev UINT32 := BitVec 32

/-! ## EFI status codes -/

def EFI_SUCCESS : UINT64 := 0
def EFI_INVALID_PARAMETER : UINT64 := 0x8000000000000002
def EFI_UNSUPPORTED : UINT64 := 0x8000000000000003
def EFI_OUT_OF_RESOURCES : UINT64 := 0x8000000000000009
def EFI_NOT_FOUND : UINT64 := 0x800000000000000e

/-- `EFI_ERROR (Status)`. -/
def efiError (status : UINT64) : Bool := status.msb

/-- A status that is an error. -/
abbrev ErrorStatus := { status : UINT64 // efiError status = true }

/-! ## constants -/

def EFI_PAGE_SIZE : UINT64 := 0x1000

/-- Maximum number of arguments thunked between native and emulated code. -/
abbrev MAX_ARGS : Nat := 16

-- So that `Args[0]` and `X0` can be written as literals.
instance neZeroMaxArgs : NeZero MAX_ARGS := ⟨by decide⟩
instance neZeroArgumentRegs : NeZero 8 := ⟨by decide⟩

theorem x64StackArgs_le : MAX_ARGS - 4 ≤ MAX_ARGS := by decide

theorem aArch64StackArgs_le : MAX_ARGS - 8 ≤ MAX_ARGS := by decide

/-- Size of the emulated stack. -/
def EMU_STACK_SIZE : UINT64 := 1024 * 1024

/-- Bytes skipped below the stack pointer of a suspended context. -/
def SYSV_X64_ABI_REDZONE : UINT64 := 128

/-! ## engines and registers -/

/-- The two emulated CPUs, `CpuX64` and `CpuAArch64`. -/
inductive CpuId where
  | x64
  | aarch64
deriving DecidableEq, Repr

/-- Registers of either engine.  Everything a `uc_context` holds besides the
registers named in the thunks is an `other` register. -/
inductive UcReg where
  | rip | rsp | rax | rcx | rdx | r8 | r9
  | pc | sp | lr
  | x (n : Fin 8)
  | other (n : Nat)
deriving DecidableEq, Repr

/-- The register file of one engine. -/
abbrev RegFile := UcReg → UINT64

namespace CpuId

/-- `Cpu->StackReg`. -/
def stackReg : CpuId → UcReg
  | .x64 => .rsp
  | .aarch64 => .sp

/-- `Cpu->ProgramCounterReg`. -/
def programCounterReg : CpuId → UcReg
  | .x64 => .rip
  | .aarch64 => .pc

/-- `Cpu->ReturnValueReg`. -/
def returnValueReg : CpuId → UcReg
  | .x64 => .rax
  | .aarch64 => .x 0

end CpuId

/-! ## build and host -/

/-- The architectures the driver is built for. -/
inductive Host where
  | aarch64
  | riscv64
  | loongarch64
deriving DecidableEq, Repr

/-- `NATIVE_INSN_ALIGNMENT`. -/
def Host.nativeInsnAlignment : Host → UINT64
  | .aarch64 => 4
  | .riscv64 => 2
  | .loongarch64 => 4

/-- A build of the driver and the addresses it compares program counters with:
`MAU_CHECK_ORPHAN_CONTEXTS`, `MAU_ON_PRIVATE_STACK`, `MAU_WRAPPED_ENTRY_POINTS`,
`RETURN_TO_NATIVE_MAGIC`, and the services `EfiWrappersOverride` looks for. -/
structure Config where
  host : Host
  checkOrphanContexts : Bool
  onPrivateStack : Bool
  wrappedEntryPoints : Bool
  returnToNativeMagic : UINT64
  createEvent : UINT64
  createEventEx : UINT64
  closeEvent : UINT64
  exitBootServices : UINT64
  registerInterruptHandler : UINT64
  init : UINT64
  exit : UINT64

/-- `UINT64 *Args`: the words the thunks find at `Args[0]` to `Args[MAX_ARGS - 1]`. -/
abbrev Args := Fin MAX_ARGS → UINT64

end MultiArchUefi
