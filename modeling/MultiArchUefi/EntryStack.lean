import MultiArchUefi.Turns
import MultiArchUefi.EntryFrame

/-!
# MultiArchUefi.EntryStack

The stack pointer of an engine while a run sets it up, statement by statement.

`CpuStackPushRedZone`, `EmuThunkPre` and `EmuThunkPost` work on the stack
register through a local that they have read before: `InThunk` says so for what
is left of them, and `down` how far that still moves the stack pointer down.
`Engaged` is then what a run that has its engine keeps about it, from the first
statement of its setting up to the last one of its cleaning up.
-/

namespace MultiArchUefi

open Handover

namespace Interleaving

/-! ## the statements that are left -/

/-- What the statement adds to the stack register. -/
def Statement.move : Statement → UINT64
  | .moveRsp n => n
  | _ => 0

/-- How far the statements move the stack register down. -/
def down : List Statement → Nat
  | [] => 0
  | st :: stmts => (-st.move).toNat + down stmts

/-- The stack register is written, and words are stored and loaded, only where
`Rsp` points, once it has been read; `known` says that it has been. -/
def Fits (cpu : CpuId) : Bool → List Statement → Bool
  | _, [] => true
  | known, .regWrite r _ :: stmts => r ≠ cpu.stackReg && Fits cpu known stmts
  | _, .readRsp :: stmts => Fits cpu true stmts
  | known, .moveRsp _ :: stmts => known && Fits cpu true stmts
  | known, .store _ :: stmts => known && Fits cpu true stmts
  | known, .load :: stmts => known && Fits cpu true stmts

def Statement.isStore : Statement → Bool
  | .store _ => true
  | _ => false

@[simp] theorem isStore_regWrite (r : UcReg) (val : UINT64) :
    (Statement.regWrite r val).isStore = false := rfl

@[simp] theorem isStore_readRsp : Statement.readRsp.isStore = false := rfl

@[simp] theorem isStore_moveRsp (n : UINT64) : (Statement.moveRsp n).isStore = false := rfl

/-- Of the statements of a thunk only this one stores. -/
@[simp] theorem isStore_store (val : UINT64) : (Statement.store val).isStore = true := rfl

@[simp] theorem isStore_load : Statement.load.isStore = false := rfl

/-- Each word is stored when there are at most `limit` bytes left to move down,
and none after the last word. -/
def Framed (limit : Nat) : List Statement → Bool
  | [] => true
  | st :: stmts =>
      (!st.isStore || down stmts ≤ limit) &&
        (stmts.any Statement.isStore || down stmts = 0) && Framed limit stmts

theorem down_append (stmts stmts' : List Statement) :
    down (stmts ++ stmts') = down stmts + down stmts' := by
  induction stmts with
  | nil => simp [down]
  | cons st stmts ih => rw [List.cons_append, down, down, ih, Nat.add_assoc]

/-- How many bytes `EmuThunkPre` pushes. -/
def frameSize (cpu : CpuId) : Nat := 8 * entryFrameLength cpu

/-- Every push moves the stack pointer down by eight bytes. -/
theorem down_pushes {α : Type*} (val : α → UINT64) (l : List α) :
    down (l.flatMap fun a => stackPush64 (val a)) = 8 * l.length := by
  induction l with
  | nil => rfl
  | cons a l ih =>
      have hpush : down (stackPush64 (val a)) = 8 := by simp [down, stackPush64, Statement.move]
      rw [List.flatMap_cons, down_append, ih, hpush, List.length_cons]
      omega

/-- `EmuThunkPre` moves the stack pointer down by its frame. -/
theorem down_thunkPre (magic : UINT64) (cpu : CpuId) (args : Args) :
    down (thunkPre magic cpu args) = frameSize cpu := by
  have hpush : down (stackPush64 magic) = 8 := by simp [down, stackPush64, Statement.move]
  cases cpu <;>
    simp [thunkPre, x64EmuThunkPre, aArch64EmuThunkPre, down_append, down_pushes, down,
      Statement.move, hpush, frameSize, entryFrameLength, MAX_ARGS]

theorem down_stackPushRedZone : down stackPushRedZone = 128 := rfl

/-- `EmuThunkPre` reads `Rsp` before it moves it or stores where it points. -/
theorem fits_thunkPre (magic : UINT64) (cpu : CpuId) (args : Args) :
    Fits cpu false (thunkPre magic cpu args) = true := by
  cases cpu <;> rfl

/-- The same behind the red zone of a nested run. -/
theorem fits_redZone_thunkPre (magic : UINT64) (cpu : CpuId) (args : Args) :
    Fits cpu false (stackPushRedZone ++ thunkPre magic cpu args) = true := by
  cases cpu <;> rfl

/-- Framed, and nothing to move is left when nothing to store is. -/
def FramedOff (limit : Nat) (stmts : List Statement) : Prop :=
  Framed limit stmts = true ∧ (stmts.any Statement.isStore = true ∨ down stmts = 0)

/-- A register write in front changes nothing about the frame. -/
theorem framedOff_regWrite {limit : Nat} {stmts : List Statement}
    (h : FramedOff limit stmts) (r : UcReg) (val : UINT64) :
    FramedOff limit (.regWrite r val :: stmts) := by
  obtain ⟨hframed, hlast⟩ := h
  constructor
  · simpa [Framed, hframed] using hlast
  · simpa [down, Statement.move] using hlast

/-- A push in front is framed when what follows stays within the limit. -/
theorem framedOff_push {limit : Nat} {stmts : List Statement} (h : FramedOff limit stmts)
    (hle : down stmts ≤ limit) (val : UINT64) : FramedOff limit (stackPush64 val ++ stmts) := by
  obtain ⟨hframed, hlast⟩ := h
  constructor
  · simpa [stackPush64, Framed, hframed, hle] using hlast
  · simp [stackPush64]

/-- A block of pushes in front, one for each value of a list. -/
theorem framedOff_pushes {α : Type*} {limit : Nat} {stmts : List Statement}
    (h : FramedOff limit stmts) (val : α → UINT64) (l : List α)
    (hle : 8 * l.length + down stmts ≤ limit + 8) :
    FramedOff limit ((l.flatMap fun a => stackPush64 (val a)) ++ stmts) := by
  induction l with
  | nil => exact h
  | cons a l ih =>
      rw [List.length_cons] at hle
      rw [List.flatMap_cons, List.append_assoc]
      refine framedOff_push (ih (by omega)) ?_ _
      rw [down_append, down_pushes]
      omega

theorem framedOff_nil (limit : Nat) : FramedOff limit [] := ⟨rfl, .inr rfl⟩

/-- Every word that `EmuThunkPre` stores lies in its own frame. -/
theorem framedOff_thunkPre (magic : UINT64) (cpu : CpuId) (args : Args) :
    FramedOff (frameSize cpu - 8) (thunkPre magic cpu args) := by
  have hpush : down (stackPush64 magic) = 8 := by simp [down, stackPush64, Statement.move]
  cases cpu with
  | x64 =>
      have hmagic : FramedOff (frameSize .x64 - 8) (stackPush64 magic) := by
        have := framedOff_push (framedOff_nil (frameSize .x64 - 8)) (by simp [down]) magic
        rwa [List.append_nil] at this
      simp only [thunkPre, x64EmuThunkPre, List.append_assoc, List.cons_append, List.nil_append]
      refine framedOff_regWrite
        (framedOff_regWrite (framedOff_regWrite (framedOff_regWrite ?_ ..) ..) ..) ..
      refine framedOff_pushes (framedOff_pushes hmagic _ _ ?_) _ _ ?_
      · simp [hpush, frameSize, entryFrameLength]
      · simp [hpush, down_append, down_pushes, frameSize, entryFrameLength, MAX_ARGS]
  | aarch64 =>
      have hlr : FramedOff (frameSize .aarch64 - 8) [.regWrite .lr magic] :=
        framedOff_regWrite (framedOff_nil _) ..
      simp only [thunkPre, aArch64EmuThunkPre, List.cons_append, List.nil_append]
      refine framedOff_regWrite (framedOff_regWrite (framedOff_regWrite (framedOff_regWrite
        (framedOff_regWrite (framedOff_regWrite
          (framedOff_regWrite (framedOff_regWrite ?_ ..) ..) ..) ..)
        ..) ..) ..) ..
      refine framedOff_pushes hlr _ _ ?_
      simp [down, Statement.move, frameSize, entryFrameLength, MAX_ARGS]

/-- The red zone of a nested run is stepped over, not stored to. -/
theorem framedOff_redZone_thunkPre (magic : UINT64) (cpu : CpuId) (args : Args) :
    FramedOff (frameSize cpu - 8) (stackPushRedZone ++ thunkPre magic cpu args) := by
  obtain ⟨hframed, hlast⟩ := framedOff_thunkPre magic cpu args
  have hstore : (thunkPre magic cpu args).any Statement.isStore = true := by
    refine hlast.resolve_right ?_
    rw [down_thunkPre]
    cases cpu <;> decide
  rw [List.any_eq_true] at hstore
  constructor
  · simp [stackPushRedZone, Framed, hframed, hstore]
  · simp [stackPushRedZone, hstore]

/-- `EmuThunkPost` stores nothing. -/
theorem isStore_thunkPost (cpu : CpuId) : (thunkPost cpu).any Statement.isStore = false := by
  cases cpu <;> rfl

/-- `EmuThunkPost` reads `Rsp` before it moves it or loads where it points. -/
theorem fits_thunkPost (cpu : CpuId) : Fits cpu false (thunkPost cpu) = true := by
  cases cpu <;> rfl

/-- What a framed statement leaves is framed. -/
theorem FramedOff.tail {limit : Nat} {st : Statement} {stmts : List Statement}
    (h : FramedOff limit (st :: stmts)) : FramedOff limit stmts := by
  have hframed := h.1
  simp only [Framed, Bool.and_eq_true, Bool.or_eq_true, decide_eq_true_eq] at hframed
  exact ⟨hframed.2, hframed.1.2⟩

/-- Below a store, at most the limit is left to move. -/
theorem FramedOff.down_le {limit : Nat} {val : UINT64} {stmts : List Statement}
    (h : FramedOff limit (.store val :: stmts)) : down stmts ≤ limit := by
  have hframed := h.1
  simp only [Framed, isStore_store, Bool.not_true, Bool.false_or, Bool.and_eq_true,
    decide_eq_true_eq] at hframed
  exact hframed.1.1

/-- Without a store left, the stack pointer is where it ends. -/
theorem FramedOff.down_eq_zero {limit : Nat} {stmts : List Statement} (h : FramedOff limit stmts)
    (hnone : stmts.any Statement.isStore = false) : down stmts = 0 :=
  h.2.resolve_left (by simp [hnone])

/-- A thunk is where the statements `stmts` are left, and its `Rsp` is `rsp`. -/
def InThunk (cpu : CpuId) (regs : RegFile) (rsp : UINT64) (stmts : List Statement) : Prop :=
  ∃ known, Fits cpu known stmts = true ∧ (known = true → rsp = regs cpu.stackReg)

namespace InThunk

variable {cpu : CpuId} {regs : RegFile} {rsp : UINT64} {st : Statement} {stmts : List Statement}

/-- A thunk that has not read `Rsp` yet. -/
theorem of_fits (h : Fits cpu false stmts = true) : InThunk cpu regs rsp stmts := ⟨false, h, nofun⟩

/-- One statement moves the stack pointer as far as it says. -/
theorem exec (h : InThunk cpu regs rsp (st :: stmts)) {memory : WordMemory.Memory}
    {r : UINT64 × Engine} (hexec : st.exec cpu (rsp, ⟨regs, memory⟩) = r) :
    InThunk cpu r.2.regs r.1 stmts ∧ r.2.regs cpu.stackReg = regs cpu.stackReg + st.move := by
  subst hexec
  obtain ⟨known, hfits, hknown⟩ := h
  cases st with
  | regWrite reg val =>
      simp only [Fits, Bool.and_eq_true, decide_eq_true_eq] at hfits
      have hsp : Function.update regs reg val cpu.stackReg = regs cpu.stackReg :=
        Function.update_of_ne hfits.1.symm ..
      exact ⟨⟨known, hfits.2, fun hk => (hknown hk).trans hsp.symm⟩,
        hsp.trans (BitVec.add_zero _).symm⟩
  | readRsp => exact ⟨⟨true, hfits, fun _ => rfl⟩, (BitVec.add_zero _).symm⟩
  | moveRsp n =>
      simp only [Fits, Bool.and_eq_true] at hfits
      have hsp : Function.update regs cpu.stackReg (rsp + n) cpu.stackReg = rsp + n :=
        Function.update_self ..
      exact ⟨⟨true, hfits.2, fun _ => hsp.symm⟩, by rw [← hknown hfits.1]; exact hsp⟩
  | store val =>
      simp only [Fits, Bool.and_eq_true] at hfits
      exact ⟨⟨true, hfits.2, fun _ => hknown hfits.1⟩, (BitVec.add_zero _).symm⟩
  | load =>
      simp only [Fits, Bool.and_eq_true] at hfits
      exact ⟨⟨true, hfits.2, fun _ => hknown hfits.1⟩, (BitVec.add_zero _).symm⟩

/-- Words are stored at the stack pointer. -/
theorem store_eq {val : UINT64} (h : InThunk cpu regs rsp (.store val :: stmts)) :
    rsp = regs cpu.stackReg := by
  obtain ⟨known, hfits, hknown⟩ := h
  simp only [Fits, Bool.and_eq_true] at hfits
  exact hknown hfits.1

end InThunk

/-! ## a run that has its engine -/

/-- Where `EmuThunkPre` pushes from: the stack pointer of the initial state, or
past the red zone below the one that has been saved. -/
def entryStart (cpu : CpuId) (initialState : RegFile) : Option RegFile → UINT64
  | none => initialState cpu.stackReg
  | some saved => saved cpu.stackReg - SYSV_X64_ABI_REDZONE

/-- An engine is being set up: the statements `stmts` are left, which move its
stack pointer to the end of the frame that starts at `start`. -/
structure SettingUp (cpu : CpuId) (start : UINT64) (regs : RegFile) (rsp : UINT64)
    (stmts : List Statement) :
    Prop where
  inThunk : InThunk cpu regs rsp stmts
  balance : regs cpu.stackReg + BitVec.ofNat 64
    (frameSize cpu) = start + BitVec.ofNat 64 (down stmts)
  down_le : down stmts ≤ 128 + frameSize cpu
  framed : FramedOff (frameSize cpu - 8) stmts

/-- What the run `a` has saved, and where the stack pointer is. -/
structure Engaged (initialState : CpuId → RegFile) (a : Activation) (saved : Option RegFile)
    (regs : RegFile) : Prop where
  sp : a.sp = regs a.context.cpu.stackReg
  settingUp : ∀ rsp stmts, a.stage = .settingUp rsp stmts →
    SettingUp a.context.cpu
      (entryStart a.context.cpu (initialState a.context.cpu) saved) regs rsp stmts
  cleaningUp : ∀ rsp stmts, a.stage = .cleaningUp rsp stmts →
    InThunk a.context.cpu regs rsp stmts ∧ stmts.any Statement.isStore = false

/-- The frame of a nested run starts past the red zone of the stack pointer it has saved. -/
theorem engaged_take (initialState : CpuId → RegFile) (magic : UINT64) (a : Activation)
    (saved : RegFile) (args : Args) : Engaged initialState
      { a with
        stage := .settingUp 0 (stackPushRedZone ++ thunkPre magic a.context.cpu args)
        sp := saved a.context.cpu.stackReg } (some saved) saved where
  sp := rfl
  settingUp := fun rsp stmts h => by
    obtain ⟨rfl, rfl⟩ := Stage.settingUp.inj h
    have hdown : down (stackPushRedZone ++ thunkPre magic a.context.cpu args) =
        128 + frameSize a.context.cpu := by
      rw [down_append, down_thunkPre, down_stackPushRedZone]
    refine ⟨.of_fits (fits_redZone_thunkPre ..), ?_, hdown.le, framedOff_redZone_thunkPre ..⟩
    rw [hdown]
    simp only [entryStart, SYSV_X64_ABI_REDZONE]
    bv_omega
  cleaningUp := fun _ _ h => by cases h

/-- The frame of a first run starts at the initial stack pointer. -/
theorem engaged_begin (initialState : CpuId → RegFile) (magic : UINT64) (a : Activation)
    (args : Args) :
    Engaged initialState
      { a with
        stage := .settingUp 0 (thunkPre magic a.context.cpu args)
        sp := initialState a.context.cpu a.context.cpu.stackReg } none
          (initialState a.context.cpu) where
  sp := rfl
  settingUp := fun rsp stmts h => by
    obtain ⟨rfl, rfl⟩ := Stage.settingUp.inj h
    have hdown := down_thunkPre magic a.context.cpu args
    refine ⟨.of_fits (fits_thunkPre ..), ?_, hdown.le.trans (Nat.le_add_left ..),
      framedOff_thunkPre ..⟩
    rw [hdown]
    rfl
  cleaningUp := fun _ _ h => by cases h

/-- A move of the stack pointer, taken off the bytes that are left to move. -/
theorem add_move {sp start move : UINT64} {size rest : Nat}
    (h : sp + BitVec.ofNat 64 size = start + BitVec.ofNat 64 ((-move).toNat + rest)) :
    sp + move + BitVec.ofNat 64 size = start + BitVec.ofNat 64 rest := by
  rw [BitVec.ofNat_add, BitVec.ofNat_toNat, BitVec.setWidth_eq] at h
  calc
    sp + move + BitVec.ofNat 64 size = sp + BitVec.ofNat 64 size + move := by
      rw [BitVec.add_assoc, BitVec.add_comm move, ← BitVec.add_assoc]
    _ = start + (-move + BitVec.ofNat 64 rest) + move := by rw [h]
    _ = start + BitVec.ofNat 64 rest := by grind

/-- One statement of the setting up. -/
theorem SettingUp.exec {cpu : CpuId} {start rsp : UINT64} {regs : RegFile} {st : Statement}
    {stmts : List Statement} (h : SettingUp cpu start regs rsp (st :: stmts))
    {memory : WordMemory.Memory} {r : UINT64 × Engine}
    (hexec : st.exec cpu (rsp, ⟨regs, memory⟩) = r) :
    SettingUp cpu start r.2.regs r.1 stmts := by
  obtain ⟨hin, hmove⟩ := h.inThunk.exec hexec
  have hle : down stmts ≤ down (st :: stmts) := Nat.le_add_left ..
  refine ⟨hin, ?_, hle.trans h.down_le, h.framed.tail⟩
  rw [hmove]
  exact add_move h.balance

/-- Whatever a run does with its engine, it knows where it left the stack pointer. -/
theorem Uses.engaged {cfg : Config} {initialState : CpuId → RegFile} {a a' : Activation}
    {regs regs' : RegFile} {stores : List Store} {saved : Option RegFile}
    (h : Uses cfg a regs a' regs' stores) (he : Engaged initialState a saved regs) :
    Engaged initialState a' saved regs' := by
  cases h with
  | next h =>
      refine ⟨rfl, fun rsp stmts hstage => ?_, fun rsp stmts hstage => ?_⟩
      · obtain rfl : _ = Stage.settingUp rsp stmts := hstage
        generalize a.stage = stage at h
        cases h
      · obtain rfl : _ = Stage.cleaningUp rsp stmts := hstage
        generalize a.stage = stage at h
        cases h
        exact ⟨.of_fits (fits_thunkPost _), isStore_thunkPost _⟩
  | returned h => exact ⟨he.sp, nofun, nofun⟩
  | @setUp rsp st stmts memory r h hf hexec =>
      refine ⟨rfl, fun rsp' stmts' hstage => ?_, nofun⟩
      obtain ⟨rfl, rfl⟩ := Stage.settingUp.inj hstage
      exact (he.settingUp rsp _ h).exec hexec
  | start h => exact ⟨rfl, nofun, nofun⟩
  | emulated h => exact ⟨rfl, nofun, nofun⟩
  | call h hreason hstage hstored =>
      refine ⟨rfl, fun rsp stmts hs => ?_, fun rsp stmts hs => ?_⟩
      · obtain rfl : _ = Stage.settingUp rsp stmts := hs
        cases hstage
      · obtain rfl : _ = Stage.cleaningUp rsp stmts := hs
        cases hstage
  | resume h hleave => exact ⟨rfl, nofun, nofun⟩
  | @cleanUp rsp st stmts memory r h hf hexec =>
      refine ⟨rfl, nofun, fun rsp' stmts' hstage => ?_⟩
      obtain ⟨rfl, rfl⟩ := Stage.cleaningUp.inj hstage
      obtain ⟨hin, hnone⟩ := he.cleaningUp rsp _ h
      rw [List.any_cons, Bool.or_eq_false_iff] at hnone
      exact ⟨(hin.exec hexec).1, hnone.2⟩

end Interleaving

end MultiArchUefi
