import MultiArchUefi.Thunk
import MultiArchUefi.Lib.Stack

/-!
# MultiArchUefi.EntryFrame

What an emulated function finds when it is entered: the arguments that
`EmuThunkPre` has put into registers, and those it has pushed onto the stack.
-/

namespace MultiArchUefi

open WordMemory

/-! ## pushing and popping words -/

/-- A loop of pushes lays its words out below the stack pointer. -/
theorem foldl_cpuStackPush64 (cpu : CpuId) (vals : List UINT64) (e : Engine) :
    vals.foldl (fun e val => cpuStackPush64 cpu val e) e =
      ⟨Function.update e.regs cpu.stackReg (pushed (e.regs cpu.stackReg) vals.length),
        e.memory.push (e.regs cpu.stackReg) vals⟩ := by
  induction vals generalizing e with
  | nil => simp [Memory.push]
  | cons val vals ih =>
      rw [List.foldl_cons, ih, List.length_cons, ← pushed_succ]
      simp [cpuStackPush64, Engine.regWrite, Engine.regRead, Memory.push]

/-- The addresses of the `n` words popped from `sp` on, the last one first. -/
def poppedFrom (sp : UINT64) (n : Nat) : List UINT64 :=
  (List.range n).reverse.map fun i => sp + BitVec.ofNat 64 (8 * i)

theorem poppedFrom_succ (sp : UINT64) (n : Nat) :
    poppedFrom sp (n + 1) = poppedFrom (sp + 8) n ++ [sp] := by
  simp only [poppedFrom, List.range_succ_eq_map, List.reverse_cons,
    List.map_append, ← List.map_reverse, List.map_map, List.map_cons, List.map_nil]
  congr 1
  · refine List.map_congr_left fun i _ => ?_
    simp only [Function.comp_apply]
    bv_omega
  · simp

/-- A loop of pops loads the words above it. -/
theorem foldl_cpuStackPop64 {α : Type*} (cpu : CpuId) (l : List α) (e : Engine) :
    l.foldl (fun e _ => (cpuStackPop64 cpu e).2) e =
      ⟨Function.update e.regs cpu.stackReg (e.regs cpu.stackReg + BitVec.ofNat 64 (8 * l.length)),
        { e.memory with
          loads := poppedFrom (e.regs cpu.stackReg) l.length ++ e.memory.loads }⟩ := by
  induction l generalizing e with
  | nil => simp [poppedFrom]
  | cons a l ih =>
      have haddr : e.regs cpu.stackReg + 8#64 + BitVec.ofNat 64 (8 * l.length) =
          e.regs cpu.stackReg + BitVec.ofNat 64 (8 * (l.length + 1)) := by bv_omega
      rw [List.foldl_cons, ih, List.length_cons, ← haddr, poppedFrom_succ]
      simp [cpuStackPop64, Engine.regWrite, Engine.regRead, Memory.load64]

/-! ## the frame -/

/-- Arguments `MAX_ARGS - 1` down to `MAX_ARGS - n`. -/
def lastArgs (n : Nat) (hn : n ≤ MAX_ARGS) (args : Args) : List UINT64 :=
  (List.finRange n).map fun index => args (index.castLE hn).rev

/-- The words pushed by `EmuThunkPre`, the first one first. -/
def entryFrame (magic : UINT64) : CpuId → Args → List UINT64
  | .x64, args => lastArgs (MAX_ARGS - 4) x64StackArgs_le args ++ (List.replicate 4 0 ++ [magic])
  | .aarch64, args => lastArgs (MAX_ARGS - 8) aArch64StackArgs_le args

/-- The registers `EmuThunkPre` puts arguments into, and the link register. -/
def entryRegs (magic : UINT64) : CpuId → Args → RegFile → RegFile
  | .x64, args, regs =>
      Function.update (Function.update (Function.update (Function.update regs
        .rcx (args 0)) .rdx (args 1)) .r8 (args 2)) .r9 (args 3)
  | .aarch64, args, regs => fun r =>
      match r with
      | .x n => args (n.castLE (by decide))
      | .lr => magic
      | r => regs r

/-- How many words `EmuThunkPre` pushes. -/
def entryFrameLength : CpuId → Nat
  | .x64 => 17
  | .aarch64 => 8

/-- The frame has as many words as `EmuThunkPre` pushes. -/
theorem length_entryFrame (magic : UINT64) (cpu : CpuId) (args : Args) :
    (entryFrame magic cpu args).length = entryFrameLength cpu := by
  cases cpu <;> simp [entryFrame, entryFrameLength, lastArgs, MAX_ARGS]

/-- `EmuThunkPre` puts the arguments where the emulated function looks for them. -/
theorem emuThunkPre_eq (magic : UINT64) (cpu : CpuId) (args : Args) (e : Engine) :
    emuThunkPre magic cpu args e =
      ⟨Function.update (entryRegs magic cpu args e.regs) cpu.stackReg
          (pushed (e.regs cpu.stackReg) (entryFrameLength cpu)),
        e.memory.push (e.regs cpu.stackReg) (entryFrame magic cpu args)⟩ := by
  have hargs (n : Nat) (hn : n ≤ MAX_ARGS) (e : Engine) :
      (List.finRange n).foldl (fun e index => cpuStackPush64 cpu (args (index.castLE hn).rev) e) e =
        (lastArgs n hn args).foldl (fun e val => cpuStackPush64 cpu val e) e := by
    rw [lastArgs, List.foldl_map]
  rw [← length_entryFrame magic cpu args]
  cases cpu with
  | x64 =>
      have hmagic (e : Engine) : cpuStackPush64 .x64 magic ((List.range 4).foldl
          (fun e _ => cpuStackPush64 .x64 0 e) e) =
          (List.replicate 4 0 ++ [magic]).foldl (fun e val => cpuStackPush64 .x64 val e) e := rfl
      simp only [emuThunkPre, cpuX64EmuThunkPre, hargs, hmagic]
      rw [← List.foldl_append, foldl_cpuStackPush64]
      rfl
  | aarch64 =>
      simp only [emuThunkPre, cpuAArch64EmuThunkPre, hargs, foldl_cpuStackPush64]
      refine (Engine.mk.injEq ..).mpr ⟨funext fun r => ?_, rfl⟩
      cases r with
      | x n => fin_cases n <;> rfl
      | _ => rfl

/-- How many words `EmuThunkPost` pops: the magic has been popped by the return. -/
def exitFrameLength : CpuId → Nat
  | .x64 => 16
  | .aarch64 => 8

/-- `EmuThunkPost` pops what the emulated function has left on the stack. -/
theorem emuThunkPost_eq (cpu : CpuId) (e : Engine) :
    emuThunkPost cpu e =
      ⟨Function.update e.regs cpu.stackReg
          (e.regs cpu.stackReg + BitVec.ofNat 64 (8 * exitFrameLength cpu)),
        { e.memory with
          loads := poppedFrom (e.regs cpu.stackReg) (exitFrameLength cpu) ++ e.memory.loads }⟩ := by
  cases cpu with
  | x64 =>
      have hpops (e : Engine) : emuThunkPost .x64 e =
          (List.range 4 ++ List.range' 4 (MAX_ARGS - 4)).foldl
          (fun e _ => (cpuStackPop64 .x64 e).2) e := by
        rw [List.foldl_append]
        rfl
      rw [hpops, foldl_cpuStackPop64]
      rfl
  | aarch64 =>
      have hpops (e : Engine) : emuThunkPost .aarch64 e =
          (List.range' 8 (MAX_ARGS - 8)).foldl (fun e _ => (cpuStackPop64 .aarch64 e).2) e := rfl
      rw [hpops, foldl_cpuStackPop64]
      rfl

theorem returnValueReg_ne_stackReg (cpu : CpuId) : cpu.returnValueReg ≠ cpu.stackReg := by
  cases cpu <;> decide

/-- The result register survives `EmuThunkPost`. -/
theorem returnValue_emuThunkPost (cpu : CpuId) (e : Engine) :
    (emuThunkPost cpu e).regs cpu.returnValueReg = e.regs cpu.returnValueReg := by
  rw [emuThunkPost_eq]
  exact Function.update_of_ne (returnValueReg_ne_stackReg cpu) ..

end MultiArchUefi
