import MultiArchUefi.EntryStack
import MultiArchUefi.Preemption

/-!
# MultiArchUefi.NestedStack

Runs nested inside a suspended one keep off its stack.

A nested run starts past the red zone below the stack pointer that it has found,
and as long as the functions keep theirs at or below the one they were entered
with, everything the thunks store for it is below that.  `Keeps` bounds the
stack pointer at every stage.  Where the stack pointer is too low for the frame
the pushes wrap around, and then nothing is mapped where they store.
-/

namespace MultiArchUefi

open Transition Handover

namespace Interleaving

/-! ## bounds of the stack pointer -/

/-- What a return pops. -/
def returnSize : CpuId → Nat
  | .x64 => 8
  | .aarch64 => 0

/-- What `uc_emu_start` may leave above the stack pointer the function was entered with. -/
def leftAbove (cfg : Config) (cpu : CpuId) (regs : RegFile) (ucErr : UcErr) : Nat :=
  if cpuExitReason cfg ucErr (regs cpu.programCounterReg) =
    .returnToNative then returnSize cpu else 0

/-- How far the statements move the stack register up. -/
def up : List Statement → Nat
  | [] => 0
  | st :: stmts => st.move.toNat + up stmts

theorem up_thunkPost (cpu : CpuId) : returnSize cpu + up (thunkPost cpu) = frameSize cpu := by
  cases cpu <;> decide

/-- There is room, and memory, for the red zone and the frame below `start`. -/
def Roomy (cpu : CpuId) (start : Nat) : Prop :=
  128 + frameSize cpu ≤ start ∧ start < MEMORY_END.toNat + (128 + frameSize cpu)

/-- The function of a run that has saved the stack pointer `start` was entered with `entry`. -/
def EnteredAt (cpu : CpuId) (start entry : Nat) : Prop :=
  Roomy cpu start ∧ entry + (128 + frameSize cpu) = start

/-- Where the stack pointer is, for a run that has saved the stack pointer `start`
and whose function was entered with `entry`. -/
def Stage.Keeps (cfg : Config) (cpu : CpuId) (start entry : Nat) (regs : RegFile) : Stage → Prop
  | .settingUp _ stmts => stmts.any Statement.isStore = false → Roomy cpu start
  | .looping | .locked | .emulating =>
      EnteredAt cpu start entry ∧ (regs cpu.stackReg).toNat ≤ entry + returnSize cpu
  | .stopped ucErr | .reasoning ucErr =>
      EnteredAt cpu start entry ∧ (regs cpu.stackReg).toNat ≤ entry + leftAbove cfg cpu regs ucErr
  | .calling | .exitingImage _ | .longJumping _ | .checking _ | .freeingLeaked .. | .resuming _ =>
      EnteredAt cpu start entry ∧ (regs cpu.stackReg).toNat ≤ entry
  | .cleaningUp _ stmts => Roomy cpu start ∧ (regs cpu.stackReg).toNat + up stmts + 128 ≤ start
  | .finished _ | .restoring => Roomy cpu start ∧ (regs cpu.stackReg).toNat + 128 ≤ start
  | _ => True

/-- What a run keeps that has its engine, and what it has saved. -/
structure KeepsBelow (cfg : Config) (initialState : CpuId → RegFile) (a : Activation)
    (saved : Option RegFile) (regs : RegFile) : Prop extends Engaged initialState a saved regs where
  keeps : ∀ start, saved = some start →
    a.stage.Keeps cfg a.context.cpu (start a.context.cpu.stackReg).toNat a.entrySp.toNat regs

theorem Next.keeps {cfg : Config} {cpu : CpuId} {start entry : Nat} {regs : RegFile}
    {stage stage' : Stage} (h : Next cfg cpu regs stage stage')
    (hk : stage.Keeps cfg cpu start entry regs) :
    stage'.Keeps cfg cpu start entry regs := by
  cases h with
  | lock | emulate | unlock | refuse | exit | check | restore => exact hk
  | again h =>
      refine ⟨hk.1, hk.2.trans ?_⟩
      simp [leftAbove, h]
  | fail h =>
      obtain ⟨⟨hroomy, hentry⟩, hle⟩ := hk
      rw [leftAbove, h, if_neg nofun] at hle
      exact ⟨hroomy, by omega⟩
  | «return» h =>
      obtain ⟨⟨hroomy, hentry⟩, hle⟩ := hk
      rw [leftAbove, h, if_pos rfl] at hle
      have hup := up_thunkPost cpu
      exact ⟨hroomy, by omega⟩
  | clean => exact hk

theorem nativeThunkLeave_sp (cpu : CpuId) (value : UINT64) (e : Engine) :
    (nativeThunkLeave cpu value e).2.regs cpu.stackReg =
      e.regs cpu.stackReg + BitVec.ofNat 64 (returnSize cpu) := by
  cases cpu with
  | x64 =>
      simp [nativeThunkLeave, nativeThunkX64Leave, cpuStackPop64, Engine.regWrite, Engine.regRead,
        CpuId.stackReg, returnSize]
  | aarch64 =>
      simp [nativeThunkLeave, nativeThunkAArch64Leave, Engine.regWrite, CpuId.stackReg, returnSize]

/-- The last word has been stored where memory is mapped, so that nothing has wrapped around. -/
theorem SettingUp.roomy {cpu : CpuId} {initialState saved regs : RegFile} {rsp val : UINT64}
    {stmts : List Statement}
    (h : SettingUp cpu (entryStart cpu initialState (some saved)) regs rsp (.store val :: stmts))
    (hf : (Statement.store val).faults rsp = false) (hnone : stmts.any Statement.isStore = false) :
    Roomy cpu (saved cpu.stackReg).toNat := by
  have hrsp := h.inThunk.store_eq
  have hbalance := h.balance
  have hdown : down (.store val :: stmts) = 0 := by
    simp [down, Statement.move, h.framed.tail.down_eq_zero hnone]
  have hlt : (regs cpu.stackReg).toNat < MEMORY_END.toNat := by
    have hmapped : ¬MEMORY_END ≤ rsp := of_decide_eq_false hf
    exact hrsp ▸ BitVec.lt_def.mp (BitVec.not_le.mp hmapped)
  rw [hdown] at hbalance
  simp only [entryStart, SYSV_X64_ABI_REDZONE] at hbalance
  generalize regs cpu.stackReg = sp at hbalance hlt
  generalize saved cpu.stackReg = start at hbalance ⊢
  have hsize : frameSize cpu ≤ 136 := by cases cpu <;> decide
  have hend : MEMORY_END.toNat = 281474976710656 := by decide
  unfold Roomy
  generalize frameSize cpu = size at hbalance hsize ⊢
  rw [hend] at hlt ⊢
  constructor <;> bv_omega

/-- The pushes end where the function is entered. -/
theorem SettingUp.enteredAt {cpu : CpuId} {initialState saved regs : RegFile} {rsp : UINT64}
    (h : SettingUp cpu (entryStart cpu initialState (some saved)) regs rsp [])
    (hroomy : Roomy cpu (saved cpu.stackReg).toNat) :
    EnteredAt cpu (saved cpu.stackReg).toNat (regs cpu.stackReg).toNat := by
  refine ⟨hroomy, ?_⟩
  have hbalance := h.balance
  have hroom := hroomy.1
  simp only [entryStart, SYSV_X64_ABI_REDZONE, down] at hbalance
  generalize regs cpu.stackReg = sp at hbalance ⊢
  generalize saved cpu.stackReg = start at hbalance hroom ⊢
  have hsize : frameSize cpu ≤ 136 := by cases cpu <;> decide
  generalize frameSize cpu = size at hbalance hroom hsize ⊢
  bv_omega

/-- Whatever a run does with its engine, it keeps its stack pointer where it may be. -/
theorem Uses.keepsBelow {cfg : Config} {initialState : CpuId → RegFile} {a a' : Activation}
    {regs regs' : RegFile} {stores : List Store} {saved : Option RegFile}
    (h : Uses cfg a regs a' regs' stores)
    (habides : ∀ ucErr, a'.stage = .stopped ucErr →
      a'.sp.toNat ≤ a'.entrySp.toNat + leftAbove cfg a'.context.cpu regs' ucErr)
    (hk : KeepsBelow cfg initialState a saved regs) :
    KeepsBelow cfg initialState a' saved regs' := by
  refine ⟨h.engaged hk.toEngaged, fun start hstart => ?_⟩
  have hkeeps := hk.keeps start hstart
  subst hstart
  cases h with
  | next h => exact h.keeps hkeeps
  | returned h =>
      rw [h] at hkeeps
      exact hkeeps
  | @setUp rsp st stmts memory r h hf hexec =>
      rw [h] at hkeeps
      intro hnone
      have hset := hk.settingUp rsp _ h
      cases st with
      | store val => exact hset.roomy hf hnone
      | _ => exact hkeeps (by simpa using hnone)
  | @start rsp programCounter h =>
      rw [h] at hkeeps
      have hset := hk.settingUp rsp _ h
      exact ⟨hset.enteredAt (hkeeps rfl), Nat.le_add_right ..⟩
  | @emulated regs' ucErr h =>
      rw [h] at hkeeps
      exact ⟨hkeeps.1, habides ucErr rfl⟩
  | @call ucErr stage stored h hreason hstage hstored =>
      rw [h] at hkeeps
      obtain ⟨hentered, hle⟩ := hkeeps
      rw [leftAbove, hreason, if_neg nofun] at hle
      cases hstage <;> exact ⟨hentered, hle⟩
  | @resume value memory r h hleave =>
      rw [h] at hkeeps
      obtain ⟨hentered, hle⟩ := hkeeps
      refine ⟨hentered, ?_⟩
      have hsp := nativeThunkLeave_sp a.context.cpu value ⟨regs, memory⟩
      rw [hleave] at hsp
      rw [hsp, BitVec.toNat_add]
      have hsize : returnSize a.context.cpu ≤ 8 := by cases a.context.cpu <;> decide
      show ((regs a.context.cpu.stackReg).toNat + _) % 2 ^ 64 ≤
        a.entrySp.toNat + returnSize a.context.cpu
      rw [BitVec.toNat_ofNat]
      omega
  | @cleanUp rsp st stmts memory r h hf hexec =>
      rw [h] at hkeeps
      obtain ⟨hroomy, hle⟩ := hkeeps
      obtain ⟨hin, -⟩ := hk.cleaningUp rsp _ h
      refine ⟨hroomy, ?_⟩
      show (r.2.regs a.context.cpu.stackReg).toNat + up stmts + 128 ≤
        (start a.context.cpu.stackReg).toNat
      rw [(hin.exec hexec).2, BitVec.toNat_add]
      rw [up] at hle
      omega

/-! ## from one run to the next -/

/-- The stack pointer is not above `top`, unless it has wrapped around on the way
down through `n` frames. -/
def Low (cpu : CpuId) (top n : Nat) (regs : RegFile) : Prop :=
  (regs cpu.stackReg).toNat ≤ top ∨
    2 ^ 64 ≤ (regs cpu.stackReg).toNat + (128 + frameSize cpu) * (n + 1)

theorem frameSize_le (cpu : CpuId) : frameSize cpu ≤ 136 := by cases cpu <;> decide

theorem Low.succ {cpu : CpuId} {top n : Nat} {regs : RegFile} (h : Low cpu top n regs) :
    Low cpu top (n + 1) regs := by
  refine h.imp_right fun hwrapped => hwrapped.trans ?_
  exact Nat.add_le_add_left (Nat.mul_le_mul_left _ (Nat.le_succ _)) _

/-- A stack pointer that has room and memory below it has not wrapped around. -/
theorem Low.le_of_roomy {cpu : CpuId} {top n : Nat} {regs : RegFile} (h : Low cpu top n regs)
    (hroomy : Roomy cpu (regs cpu.stackReg).toNat) (hn : n < 1024) :
    (regs cpu.stackReg).toNat ≤ top := by
  refine h.resolve_right fun hwrapped => ?_
  have hsize := frameSize_le cpu
  have hend : MEMORY_END.toNat = 281474976710656 := by decide
  have hlt := hroomy.2
  have hmul : (128 + frameSize cpu) * (n + 1) ≤ 264 * 1024 :=
    Nat.mul_le_mul (by omega) (by omega)
  omega

/-- Setting up moves the stack pointer down, and perhaps around. -/
theorem SettingUp.low {cpu : CpuId} {initialState saved regs : RegFile} {rsp : UINT64}
    {stmts : List Statement}
    (h : SettingUp cpu (entryStart cpu initialState (some saved)) regs rsp stmts) {top n : Nat}
    (hlow : Low cpu top n saved) : Low cpu top (n + 1) regs := by
  have hbalance := h.balance
  have hdown := h.down_le
  have hsize := frameSize_le cpu
  unfold Low at hlow ⊢
  simp only [entryStart, SYSV_X64_ABI_REDZONE] at hbalance
  generalize regs cpu.stackReg = sp at hbalance ⊢
  generalize saved cpu.stackReg = start at hbalance hlow
  generalize down stmts = rest at hbalance hdown
  generalize frameSize cpu = size at hbalance hdown hsize hlow ⊢
  have hnext : (128 + size) * (n + 1 + 1) = (128 + size) * (n + 1) + (128 + size) :=
    Nat.mul_succ ..
  rw [hnext]
  generalize (128 + size) * (n + 1) = wrapped at hlow ⊢
  have hmoved : sp.toNat + (128 + size - rest) = start.toNat ∨
      sp.toNat + (128 + size - rest) = start.toNat + 2 ^ 64 := by bv_omega
  omega

/-- A run that has its engine, and has set it up, keeps the stack pointer below the one it has
saved. -/
theorem Stage.Keeps.le {cfg : Config} {cpu : CpuId} {start entry : Nat} {regs : RegFile}
    {stage : Stage} (h : stage.Keeps cfg cpu start entry regs) {v : RegFile}
    {saved : Bool} {q : RegFile} (hphase : stage.phase v saved = .holding (some q)) :
    (∃ rsp stmts, stage = .settingUp rsp stmts) ∨ Roomy cpu start ∧
      (regs cpu.stackReg).toNat ≤ start := by
  have hsize : returnSize cpu ≤ 8 := by cases cpu <;> decide
  have hleft (ucErr : UcErr) : leftAbove cfg cpu regs ucErr ≤ 8 := by
    unfold leftAbove
    split <;> omega
  have hentered {above : Nat} (habove : above ≤ 8) (hk : EnteredAt cpu start entry ∧
      (regs cpu.stackReg).toNat ≤ entry + above) :
      Roomy cpu start ∧ (regs cpu.stackReg).toNat ≤ start := by
    obtain ⟨⟨hroomy, hentry⟩, hle⟩ := hk
    exact ⟨hroomy, by omega⟩
  cases stage with
  | settingUp rsp stmts => exact .inl ⟨rsp, stmts, rfl⟩
  | looping | locked | emulating => exact .inr (hentered hsize h)
  | stopped ucErr | reasoning ucErr => exact .inr (hentered (hleft ucErr) h)
  | calling | exitingImage | longJumping | checking | freeingLeaked | resuming =>
      exact .inr (hentered (Nat.zero_le 8) h)
  | cleaningUp rsp stmts => exact .inr ⟨h.1, by have := h.2; omega⟩
  | finished | restoring => exact .inr ⟨h.1, by have := h.2; omega⟩
  | _ => cases hphase

section

variable {cfg : Config} {initialState : CpuId → RegFile} {cpu : CpuId} {p₀ : RegFile} {s : State}

/-- However many runs are nested, the stack pointer is low. -/
theorem low_of_held {l : List Activation} (hcpu : ∀ b ∈ l, b.context.cpu = cpu)
    (hlen : l.length < 1024) {p : RegFile}
    (hheld : Held (KeepsBelow cfg initialState) (fun _ _ => True) (· = p₀) p
      (l.map fun a => (a, a.phase s))) :
    Low cpu (p₀ cpu.stackReg).toNat l.length p := by
  induction l generalizing p with
  | nil =>
      obtain rfl : p = p₀ := hheld
      exact .inl le_rfl
  | cons b l ih =>
      have hb : b.context.cpu = cpu := hcpu b List.mem_cons_self
      have hnext {q : RegFile} :=
        ih (fun c hc => hcpu c (List.mem_cons_of_mem _ hc)) (by simp at hlen; omega) (p := q)
      rw [List.map_cons] at hheld
      rw [List.length_cons]
      cases hphase : b.phase s with
      | apart =>
          rw [hphase] at hheld
          exact (hnext hheld).succ
      | asking =>
          rw [hphase] at hheld
          exact (hnext hheld.2).succ
      | keeping v =>
          rw [hphase] at hheld
          exact (hnext hheld.2.2).succ
      | starting =>
          rw [hphase] at hheld
          exact (hnext (hheld p)).succ
      | holding v =>
          rw [hphase] at hheld
          cases v with
          | none => exact (hnext (hheld.2 p)).succ
          | some q =>
              obtain ⟨hk, -, hheld⟩ := hheld
              have hlow := hnext hheld
              rcases (hk.keeps q rfl).le hphase with ⟨rsp, stmts, hstage⟩ | ⟨hroomy, hle⟩
              · subst hb
                exact (hk.settingUp rsp stmts hstage).low hlow
              · subst hb
                have htop := hlow.le_of_roomy hroomy (by simp at hlen; omega)
                exact .inl (hle.trans htop)

/-- Above a suspended run there is always somebody who minds. -/
theorem not_forall_held {l : List Activation}
    (h : ∀ p, Held (KeepsBelow cfg initialState) (fun _ _ => True) (· = p₀) p
      (l.map fun a => (a, a.phase s))) :
    False := by
  have hne {v : RegFile} (hv : ∀ p : RegFile, v = p) : False := by
    have h0 := congrFun (hv fun _ => 0) .sp
    have h1 := congrFun (hv fun _ => 1) .sp
    exact absurd (h0.symm.trans h1) (by decide)
  induction l with
  | nil => exact hne fun p => (h p).symm
  | cons b l ih =>
      simp only [List.map_cons] at h
      have hsp {v : Option RegFile} (hk : ∀ p, KeepsBelow cfg initialState b v p) : False := by
        have h0 := (hk fun _ => 0).sp
        have h1 := (hk fun _ => 1).sp
        exact absurd (h0.symm.trans h1) (by decide)
      cases hphase : b.phase s with
      | apart => exact ih fun p => by simpa only [hphase, Held] using h p
      | asking => exact ih fun p => (show True ∧ _ by simpa only [hphase, Held] using h p).2
      | keeping v => exact hne fun p => (show v = p ∧ _ by simpa only [hphase, Held] using h p).1
      | starting => exact ih (by simpa only [hphase, Held] using h fun _ => 0)
      | holding v =>
          cases v with
          | none => exact hsp fun p => (show _ ∧ _ by simpa only [hphase, Held] using h p).1
          | some v => exact hsp fun p => (show _ ∧ _ by simpa only [hphase, Held] using h p).1

/-! ## stores -/

theorem mem_homeZone {cfg : Config} {cpu : CpuId} {programCounter : UINT64} {regs : RegFile}
    {address : UINT64} (h : address ∈ Machine.homeZone cfg cpu programCounter regs) :
    cpu = .x64 ∧ ∃ i, 1 ≤ i ∧ i ≤ 4 ∧ address = regs cpu.stackReg + BitVec.ofNat 64 (8 * i) := by
  cases cpu with
  | aarch64 => cases h
  | x64 =>
      simp only [Machine.homeZone] at h
      split at h
      · simp only [List.mem_cons, List.not_mem_nil, or_false] at h
        rcases h with rfl | rfl | rfl | rfl
        · exact ⟨rfl, 1, by omega, by omega, rfl⟩
        · exact ⟨rfl, 2, by omega, by omega, rfl⟩
        · exact ⟨rfl, 3, by omega, by omega, rfl⟩
        · exact ⟨rfl, 4, by omega, by omega, rfl⟩
      · cases h

/-- Words are pushed at least 128 bytes below the stack pointer that has been saved. -/
theorem SettingUp.store_low {saved regs : RegFile} {rsp val : UINT64} {stmts : List Statement}
    (h : SettingUp cpu (entryStart cpu (initialState cpu) (some saved)) regs rsp
      (.store val :: stmts))
    (hf : (Statement.store val).faults rsp = false) {top n : Nat} (hlow : Low cpu top n saved)
    (hn : n < 1024) :
    rsp.toNat + 8 ≤ top - 128 := by
  have hrsp := h.inThunk.store_eq
  have hmapped : rsp.toNat < MEMORY_END.toNat := by
    have hmapped : ¬MEMORY_END ≤ rsp := of_decide_eq_false hf
    exact BitVec.lt_def.mp (BitVec.not_le.mp hmapped)
  have hbalance := h.balance
  have hdown : down (.store val :: stmts) = down stmts := by simp [down, Statement.move]
  have hframed := h.framed.down_le
  have hsize := frameSize_le cpu
  have hpos : 8 ≤ frameSize cpu := by cases cpu <;> decide
  rw [hdown, ← hrsp] at hbalance
  have hmul : (128 + frameSize cpu) * (n + 1) ≤ 264 * 1024 := Nat.mul_le_mul (by omega) (by omega)
  simp only [entryStart, SYSV_X64_ABI_REDZONE] at hbalance
  unfold Low at hlow
  generalize (128 + frameSize cpu) * (n + 1) = wrapped at hlow hmul
  generalize frameSize cpu = size at hbalance hframed hsize hpos
  generalize down stmts = rest at hbalance hframed
  generalize saved cpu.stackReg = start at hbalance hlow
  rw [show MEMORY_END.toNat = 281474976710656 by decide] at hmapped
  have hstart : start.toNat = rsp.toNat + size + 128 - rest := by bv_omega
  omega

/-- Whatever a nested run stores is at least 128 bytes below the stack pointer of
the suspended one. -/
theorem Uses.stores_low {a a' : Activation} {regs regs' saved : RegFile} {stores : List Store}
    (h : Uses cfg a regs a' regs' stores)
    (hk : KeepsBelow cfg initialState a (some saved) regs) {top n : Nat}
    (hlow : Low a.context.cpu top n saved) (hn : n < 1024) :
    ∀ st ∈ stores, st.address.toNat + 8 ≤ top - 128 := by
  have hkeeps := hk.keeps saved rfl
  intro st hst
  cases h with
  | next _ | returned _ | start _ | emulated _ | resume _ _ => cases hst
  | @setUp rsp stm stmts memory r h hf _ =>
      cases stm with
      | store val =>
          obtain rfl := List.mem_singleton.mp hst
          exact (hk.settingUp rsp _ h).store_low hf hlow hn
      | _ => cases hst
  | @cleanUp rsp stm stmts memory r h _ _ =>
      obtain ⟨-, hnone⟩ := hk.cleaningUp rsp _ h
      cases stm with
      | store val => simp at hnone
      | _ => cases hst
  | @call ucErr stage stored h hreason _ hstored =>
      rw [h] at hkeeps
      obtain ⟨⟨hroomy, hentry⟩, hle⟩ := hkeeps
      rw [leftAbove, hreason, if_neg nofun] at hle
      have htop := hlow.le_of_roomy hroomy hn
      obtain ⟨hcpu, i, hi, hi', haddress⟩ := mem_homeZone (hstored st hst).2.2
      have hroom := hroomy.2
      have hsize : frameSize a.context.cpu = 136 := by rw [hcpu]; rfl
      rw [show MEMORY_END.toNat = 281474976710656 by decide] at hroom
      rw [haddress, BitVec.toNat_add, BitVec.toNat_ofNat]
      omega

end

end Interleaving

end MultiArchUefi
