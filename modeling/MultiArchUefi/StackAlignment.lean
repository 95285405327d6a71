import MultiArchUefi.Accounting
import MultiArchUefi.EntryFrame

/-!
# MultiArchUefi.StackAlignment

With what alignment emulated functions are entered.

The first x64 function starts below a page-aligned stack top, and finds its
stack as the ABI wants it: 17 words below a multiple of 16.  The next one starts
17 words and the red zone below the stack pointer of a native call, which is
*not* a multiple of 16, and so it starts misaligned.  AArch64 functions have an
even number of words below a multiple of 16 in either case.
-/

namespace MultiArchUefi

open Chain Nesting Transition WordMemory

/-! ## the stack pointer at the entry -/

/-- What the ABI of the engine asks of the stack pointer when a function is entered. -/
def AbiAligned : CpuId → UINT64 → Prop
  | .x64, sp => sp.toNat % 16 = 8
  | .aarch64, sp => sp.toNat % 16 = 0

instance (cpu : CpuId) (sp : UINT64) : Decidable (AbiAligned cpu sp) := by
  cases cpu
  · exact inferInstanceAs (Decidable (sp.toNat % 16 = 8))
  · exact inferInstanceAs (Decidable (sp.toNat % 16 = 0))

/-- The stack pointer of the first context of an engine. -/
theorem abiAligned_first {cpu : CpuId} {sp : UINT64} (h : sp.toNat % 16 = 0) :
    AbiAligned cpu (pushed sp (entryFrameLength cpu)) := by
  cases cpu with
  | x64 =>
      show (sp - 136).toNat % 16 = 8
      bv_omega
  | aarch64 =>
      show (sp - 64).toNat % 16 = 0
      bv_omega

/-- Below a native call of its own engine, an AArch64 function starts aligned. -/
theorem abiAligned_nested {sp : UINT64} (h : AbiAligned .aarch64 sp) :
    AbiAligned .aarch64 (pushed (sp - SYSV_X64_ABI_REDZONE) (entryFrameLength .aarch64)) := by
  change sp.toNat % 16 = 0 at h
  show (sp - 128 - 64).toNat % 16 = 0
  bv_omega

/-- Below a native call of its own engine, an x64 function does not. -/
theorem not_abiAligned_nested {sp : UINT64} (h : AbiAligned .x64 sp) :
    ¬ AbiAligned .x64 (pushed (sp - SYSV_X64_ABI_REDZONE) (entryFrameLength .x64)) := by
  change sp.toNat % 16 = 8 at h
  show ¬ (sp - 128 - 136).toNat % 16 = 8
  bv_omega

/-- The stack pointer a new context's function is entered with. -/
theorem stackReg_entryEngine (cfg : Config) (cpu : CpuId) (args : Args) (inUse : Bool) (s : State) :
    (entryEngine cfg cpu args inUse s).regs cpu.stackReg =
      pushed (if inUse then s.ue cpu cpu.stackReg - SYSV_X64_ABI_REDZONE
        else s.initialState cpu cpu.stackReg) (entryFrameLength cpu) := by
  rw [entryEngine, emuThunkPre_eq]
  cases inUse <;> simp [cpuStackPushRedZone, Engine.regRead, Engine.regWrite]

/-! ## what is aligned -/

/-- All functions that are running have been entered aligned. -/
def EnteredAligned (stack : List Frame) : Prop :=
  ∀ a ∈ activations stack, AbiAligned a.context.cpu a.entrySp

instance (stack : List Frame) : Decidable (EnteredAligned stack) :=
  inferInstanceAs (Decidable (∀ a ∈ activations stack, _))

/-- The stack pointers are aligned: those the engines in use wait with at their
native calls, those that have been saved, and those functions were entered with. -/
structure Aligned (b : Books) : Prop where
  waits : ∀ cpu, engineInUse cpu b.chain = true → runningOn b.stack ≠ some cpu →
    AbiAligned cpu (b.emu.ue cpu cpu.stackReg)
  saved : ∀ j ∈ b.chain, ∀ r, (b.emu.entry j).saved = some r → AbiAligned j.cpu (r j.cpu.stackReg)
  entries : EnteredAligned b.stack
  first : ∀ cpu, (b.emu.initialState cpu cpu.stackReg).toNat % 16 = 0

/-- The action starts an x64 function above another x64 context. -/
def NestsX64 (cfg : Config) (sys : System) (action : Action) : Prop :=
  ∃ c ∈ action.callee sys, c.1 = .x64 ∧ sys.emu.runContextAlloc .x64 ≠ [] ∧
    engineInUse .x64 (kept cfg sys.emu c.2 sys.emu.chain) = true

instance (cfg : Config) (sys : System) (action : Action) : Decidable (NestsX64 cfg sys action) :=
  inferInstanceAs (Decidable (∃ c ∈ action.callee sys, _))

/-- A function that was entered aligned makes its native calls so, too. -/
def FollowsAbi (cfg : Config) (sys : System) (action : Action) : Prop :=
  ∀ c ∈ action.calling cfg sys, AbiAligned c.1.context.cpu c.1.entrySp →
    AbiAligned c.1.context.cpu (c.2 c.1.context.cpu.stackReg)

instance (cfg : Config) (sys : System) (action : Action) : Decidable (FollowsAbi cfg sys action) :=
  inferInstanceAs (Decidable (∀ c ∈ action.calling cfg sys, _))

theorem engineInUse_mono {cpu : CpuId} {l l' : List CtxId} (hsub : ∀ j ∈ l, j ∈ l')
    (h : engineInUse cpu l = true) : engineInUse cpu l' = true := by
  obtain ⟨j, hj, hcpu⟩ := engineInUse_eq_true.mp h
  exact engineInUse_eq_true.mpr ⟨j, hsub j hj, hcpu⟩

theorem mem_of_mem_kept {cfg : Config} {s : State} {fp : Nat} {l : List CtxId} {j : CtxId}
    (h : j ∈ kept cfg s fp l) : j ∈ l := by
  rw [← orphans_append_kept cfg s fp l]
  exact List.mem_append_right _ h

variable {cfg : Config} {sys sys' : System} {action : Action} {b b' : Books}

/-- A new context's function starts aligned unless it is nested on x64. -/
theorem abiAligned_entered {cfg : Config} {k : CtxId} {fp : Nat} {l : List CtxId} {s s' : State}
    (hentered : Entered cfg k fp l s s')
    (hfirst : (s.initialState k.cpu k.cpu.stackReg).toNat % 16 = 0)
    (hwaits : engineInUse k.cpu l = true → AbiAligned k.cpu (s.ue k.cpu k.cpu.stackReg)) :
    AbiAligned k.cpu (s'.ue k.cpu k.cpu.stackReg) ↔
      ¬ (k.cpu = .x64 ∧ engineInUse .x64 l = true) := by
  rw [hentered.ue, Function.update_self, stackReg_entryEngine]
  cases huse : engineInUse k.cpu l with
  | false =>
      simp only [Bool.false_eq_true, if_false, abiAligned_first hfirst, true_iff]
      rintro ⟨hcpu, hx64⟩
      rw [← hcpu, huse] at hx64
      cases hx64
  | true =>
      have hsp := hwaits huse
      simp only [if_true]
      generalize hcpu : k.cpu = cpu at *
      cases cpu with
      | x64 => simp [huse, not_abiAligned_nested hsp]
      | aarch64 => simp [abiAligned_nested hsp]

section

variable {s s' : State} {a : Activation} {id : Nat} {rest : List Frame}
  {l pre post chain : List CtxId}

/-- A new context takes its engine over, and is entered aligned unless it is nested on x64. -/
theorem Aligned.entered {k : CtxId} {image : Option RecordId} {fp : Nat}
    (h : Aligned (sys.books chain)) (hacc : Accounted cfg (sys.books chain))
    (hnests : ¬ NestsX64 cfg sys action) (hstack : sys.stack = .native id :: rest)
    (hcallee : action.callee sys = some (k.cpu, fp)) (hpool : sys.emu.runContextAlloc k.cpu ≠ [])
    (hs : Allocated k chain sys.emu s)
    (hentered : Entered cfg k fp (kept cfg sys.emu fp chain) s s') :
    Aligned ⟨s', .run (sys.activation cfg k image fp s') :: sys.stack,
      k :: kept cfg sys.emu fp chain⟩ := by
  obtain ⟨hwaits, hsaved, hentries, hfirst⟩ := h
  have hchain : sys.emu.chain = chain := hacc.chained.chain_eq
  have hnative : ∀ cpu, runningOn sys.stack ≠ some cpu := by simp [hstack, runningOn]
  have hkept : ∀ cpu, engineInUse cpu (kept cfg sys.emu fp chain) = true →
      AbiAligned cpu (sys.emu.ue cpu cpu.stackReg) := fun cpu huse =>
    hwaits cpu (engineInUse_mono (fun j hj => mem_of_mem_kept hj) huse) (hnative cpu)
  have hentry := (abiAligned_entered hentered (by rw [hs.initialState]; exact hfirst k.cpu)
    (by rw [hs.ue]; exact hkept k.cpu)).mpr fun ⟨hx64, huse⟩ =>
      hnests ⟨(k.cpu, fp), hcallee, hx64, hx64 ▸ hpool, by rw [hchain]; exact huse⟩
  refine ⟨fun cpu huse hrun => ?_, fun j hj r hr => ?_, fun a ha => ?_, fun cpu => ?_⟩
  · have hne : cpu ≠ k.cpu := fun heq => hrun (by rw [heq]; rfl)
    have huse' : engineInUse cpu (kept cfg sys.emu fp chain) = true := by
      simpa [engineInUse, Ne.symm hne] using huse
    show AbiAligned cpu (s'.ue cpu cpu.stackReg)
    rw [hentered.ue, Function.update_of_ne hne, hs.ue]
    exact hkept cpu huse'
  · rcases List.mem_cons.mp hj with rfl | hj
    · simp only [hentered.entry] at hr
      split at hr
      · rename_i huse
        rw [← Option.some.inj hr, hs.ue]
        exact hkept j.cpu huse
      · cases hr
    · have holder : s'.context j = sys.emu.context j :=
        (hentered.older j hj).trans (hs.older j (mem_of_mem_kept hj))
      exact hsaved j (mem_of_mem_kept hj) r (by rwa [State.entry_congr holder] at hr)
  · rcases List.mem_cons.mp ha with rfl | ha
    · exact hentry
    · exact hentries a ha
  · show (s'.initialState cpu cpu.stackReg).toNat % 16 = 0
    rw [hentered.initialState, hs.initialState]
    exact hfirst cpu

/-- The running activation changes its engine, which nobody else waits for. -/
theorem Aligned.emulated {programCounter : UINT64} {regs : RegFile}
    (h : Aligned ⟨s, .run a :: rest, a.context :: l⟩) (hbooks : SameBooks s s')
    (hue : s'.ue = Function.update s.ue a.context.cpu regs) :
    Aligned ⟨s', .run { a with programCounter := programCounter } :: rest, a.context :: l⟩ := by
  obtain ⟨hwaits, hsaved, hentries, hfirst⟩ := h
  refine ⟨fun cpu huse hrun => ?_, fun j hj r hr => ?_, fun c hc => ?_, ?_⟩
  · have hne : cpu ≠ a.context.cpu := fun heq => hrun (by rw [heq]; rfl)
    show AbiAligned cpu (s'.ue cpu cpu.stackReg)
    rw [hue, Function.update_of_ne hne]
    exact hwaits cpu huse hrun
  · have hentry : s'.entry j = s.entry j := State.entry_congr (by rw [hbooks.context])
    exact hsaved j hj r (hentry ▸ hr)
  · rcases List.mem_cons.mp hc with rfl | hc
    · exact hentries a List.mem_cons_self
    · exact hentries c (List.mem_cons_of_mem a hc)
  · rw [hbooks.initialState]
    exact hfirst

/-- What leaked contexts have saved of the engines was aligned. -/
theorem Aligned.compressed (h : Aligned ⟨s, .native id :: .run a :: rest, pre ++ a.context :: post⟩)
    (hchained : Chained s (pre ++ a.context :: post)) :
    Aligned ⟨s.compressed pre a.context, .run a :: rest, a.context :: post⟩ := by
  obtain ⟨hwaits, hsaved, hentries, hfirst⟩ := h
  refine ⟨fun cpu huse _ => ?_, fun j hj r hr => ?_, hentries, fun cpu => ?_⟩
  · show AbiAligned cpu ((s.compressed pre a.context).ue cpu cpu.stackReg)
    rw [ue_compressed]
    refine replay_induct (P := fun cpu (r : RegFile) => AbiAligned cpu (r cpu.stackReg))
      (fun e he r hr => ?_) ?_
    · obtain ⟨j, hj, rfl⟩ := List.mem_map.mp he
      exact hsaved j (List.mem_append_left _ hj) r hr
    · exact hwaits cpu (engineInUse_mono (fun j hj => List.mem_append_right _ hj) huse)
        (by simp [runningOn])
  · rw [State.entry_congr (context_compressed hchained hj)] at hr
    exact hsaved j (List.mem_append_right _ hj) r hr
  · have hsame : (s.compressed pre a.context).initialState = s.initialState := by
      unfold State.compressed
      split <;> rfl
    rw [hsame]
    exact hfirst cpu

/-- The engine gets back what the context that returns has saved of it. -/
theorem Aligned.finished {ret : UINT64}
    (h : Aligned ⟨s, .run a :: .native id :: rest, a.context :: l⟩)
    (hchained : Chained s (a.context :: l)) :
    Aligned ⟨(s.setRet a.context ret).popped [a.context] (ptr l none), .native id :: rest, l⟩ := by
  obtain ⟨hwaits, hsaved, hentries, hfirst⟩ := h
  have hret := hchained.setRet a.context ret
  have hentry : (s.setRet a.context ret).entry = s.entry :=
    funext fun k => State.entry_of_alike (alike_setRet a.context k ret s)
  refine ⟨fun cpu huse _ => ?_, fun j hj r hr => ?_, fun c hc => hentries c ?_, hfirst⟩
  · show AbiAligned cpu
      (((s.setRet a.context ret).entry a.context).restore s.ue cpu cpu.stackReg)
    rw [hentry]
    by_cases hcpu : cpu = a.context.cpu
    · -- an engine in use further down has been saved
      subst hcpu
      obtain ⟨j, hj, hunit⟩ := engineInUse_eq_true.mp huse
      obtain ⟨r, hr⟩ := Option.isSome_iff_exists.mp
        (hchained.saved.1 ⟨s.entry j, List.mem_map_of_mem hj, hunit⟩)
      rw [restore_of_saved hr, State.entry_unit, Function.update_self]
      exact hsaved a.context List.mem_cons_self r hr
    · rw [restore_of_ne hcpu]
      exact hwaits cpu (engineInUse_mono (fun j hj => List.mem_cons_of_mem _ hj) huse)
        fun hrun => hcpu (Option.some.inj hrun).symm
  · have hpopped := Threaded.context_popped (l := [a.context]) hret.threaded (ptr l none) hj
    rw [State.entry_congr hpopped, hentry] at hr
    exact hsaved j (List.mem_cons_of_mem _ hj) r hr
  · exact List.mem_cons_of_mem a hc

/-- The same for an image that exits, and the contexts above its own. -/
theorem Aligned.exited {frames : List Frame} {id' : Nat}
    (h : Aligned ⟨s, .native id :: (frames ++ .run a :: rest), pre ++ a.context :: post⟩)
    (hchained : Chained s (pre ++ a.context :: post)) :
    Aligned ⟨s.popped (pre ++ [a.context]) (ptr post none), .native id' :: .exiting a.id :: rest,
      post⟩ := by
  obtain ⟨hwaits, hsaved, hentries, hfirst⟩ := h
  have happ : pre ++ a.context :: post = (pre ++ [a.context]) ++ post := by simp
  have hlinked : Linked s ((pre ++ [a.context]) ++ post) := happ ▸ hchained.toLinked
  have hsub : ∀ j ∈ post, j ∈ pre ++ a.context :: post := fun j hj =>
    List.mem_append_right _ (List.mem_cons_of_mem _ hj)
  refine ⟨fun cpu huse _ => ?_, fun j hj r hr => ?_, fun c hc => hentries c ?_, hfirst⟩
  · show AbiAligned cpu (replay ((pre ++ [a.context]).map s.entry) s.ue cpu cpu.stackReg)
    refine replay_induct (P := fun cpu (r : RegFile) => AbiAligned cpu (r cpu.stackReg))
      (fun e he r hr => ?_) (hwaits cpu (engineInUse_mono hsub huse) (by simp [runningOn]))
    obtain ⟨j, hj, rfl⟩ := List.mem_map.mp he
    exact hsaved j (happ ▸ List.mem_append_left _ hj) r hr
  · rw [State.entry_congr (hlinked.threaded.context_popped _ hj)] at hr
    exact hsaved j (hsub j hj) r hr
  · rw [activations_native, activations_append, activations_run]
    exact List.mem_append_right _ (List.mem_cons_of_mem a hc)

end

/-- Every move keeps the stack pointers aligned, as long as no x64 functions are nested. -/
theorem Aligned.move (h : Aligned b) (hacc : Accounted cfg b) (habi : FollowsAbi cfg sys action)
    (hnests : ¬ NestsX64 cfg sys action) (hmove : Move cfg sys action b b') : Aligned b' := by
  cases hmove with
  | @quiet s s' stack chain hquiet =>
      refine ⟨fun cpu huse hrun => ?_, fun j hj r hr => ?_, h.entries, ?_⟩
      · rw [hquiet.ue]
        exact h.waits cpu huse hrun
      · have hentry : s'.entry j = s.entry j := State.entry_congr (by rw [hquiet.context])
        exact h.saved j hj r (hentry ▸ hr)
      · rw [hquiet.initialState]
        exact h.first
  | left s frames id rest chain _ htop =>
      refine ⟨fun cpu huse _ => h.waits cpu huse ?_, h.saved, fun a ha => h.entries a ?_, h.first⟩
      · cases frames with
        | nil => simp [runningOn]
        | cons f frames =>
            cases f with
            | run a => exact absurd rfl (htop a frames)
            | native id' => simp [runningOn]
            | exiting id' => simp [runningOn]
      · rw [activations_append]
        exact List.mem_append_right _ ha
  | entered hstack hcallee _ _ hpool hs _ _ hentered _ =>
      exact h.entered hacc hnests hstack hcallee hpool hs hentered
  | emulated programCounter regs hbooks hue => exact h.emulated hbooks hue
  | @called s a c rest l id hcalling hc =>
      have hentry := h.entries a List.mem_cons_self
      have hcall := habi _ hcalling
      rw [hc.1, hc.2] at hcall
      refine ⟨fun cpu huse _ => ?_, h.saved, fun d hd => ?_, h.first⟩
      · by_cases hcpu : cpu = a.context.cpu
        · subst hcpu
          exact hcall hentry
        · exact h.waits cpu huse fun hrun => hcpu (Option.some.inj hrun).symm
      · rcases List.mem_cons.mp hd with rfl | hd
        · exact hentry
        · exact h.entries d (List.mem_cons_of_mem a hd)
  | compressed => exact h.compressed hacc.chained
  | finished => exact h.finished hacc.chained
  | exited => exact h.exited hacc.chained

theorem Aligned.moves (h : Aligned b) (hacc : Accounted cfg b) (habi : FollowsAbi cfg sys action)
    (hnests : ¬ NestsX64 cfg sys action) (hmoves : Moves cfg sys action b b') : Aligned b' := by
  induction hmoves with
  | refl => exact h
  | tail hmoves hmove ih => exact ih.move (hacc.moves hmoves) habi hnests hmove

/-! ## runs -/

/-- The steps of interest: emulated code follows its ABI, and the step is accountable. -/
def AbiStep (cfg : Config) (sys : System) (action : Action) : Prop :=
  FollowsAbi cfg sys action ∧ Accountable cfg sys action

instance (cfg : Config) (sys : System) (action : Action) : Decidable (AbiStep cfg sys action) :=
  inferInstanceAs (Decidable (_ ∧ _))

/-- After the action all functions that are running have been entered aligned. -/
def EntersAligned (cfg : Config) (sys : System) (action : Action) : Prop :=
  ∀ sys', step cfg sys action = some sys' → EnteredAligned sys'.stack

/-- Starting an x64 function above another x64 context does start it. -/
theorem entered_of_nestsX64 {chain : List CtxId} (hacc : Accounted cfg (sys.books chain))
    (hC : Accountable cfg sys action) (hnests : NestsX64 cfg sys action)
    (hstep : step cfg sys action = some sys') :
    ∃ k image fp s s', Entered cfg k fp (kept cfg sys.emu fp chain) s s' ∧
      Allocated k chain sys.emu s ∧
      k.cpu = .x64 ∧ engineInUse .x64 (kept cfg sys.emu fp chain) = true ∧
      sys'.stack = .run (sys.activation cfg k image fp s') :: sys.stack := by
  obtain ⟨⟨cpu, fp⟩, hcallee, rfl, hpool, huse⟩ := hnests
  have hchain : sys.emu.chain = chain := hacc.chained.chain_eq
  obtain ⟨-, -, hrun⟩ := afterRun_of_step hacc.chained hcallee hstep
  cases hrun with
  | failed s ret hempty _ _ => exact absurd hempty hpool
  | entered k s hs hk _ _ _ heq =>
      obtain ⟨s', hrun, hentered, -⟩ :=
        cpuRunCtx_spec (action.image sys) hs (hk ▸ hC.1.orphans hacc hcallee)
      obtain rfl := Option.some.inj (hrun.symm.trans heq)
      exact ⟨k, _, fp, s, s', hentered, hs, hk, hchain ▸ huse, rfl⟩

theorem aligned_initial (p : Platform) (hp : ∀ cpu, (p.emuStackStart cpu).toNat % 4096 = 0) :
    Aligned ((initial p).books []) := by
  refine ⟨by simp [System.books, engineInUse], by simp [System.books], by
    simp [EnteredAligned, System.books, initial], fun cpu => ?_⟩
  have hpage := hp cpu
  simp only [System.books, initial, cpuInit, Function.update_self, Platform.emuStackTop,
    EMU_STACK_SIZE]
  bv_omega

/-- The alignment of what is entered depends on the step alone. -/
theorem Aligned.entered_iff {chain : List CtxId} (h : Aligned (sys.books chain))
    (hacc : Accounted cfg (sys.books chain)) (habi : AbiStep cfg sys action)
    (hstep : step cfg sys action = some sys') :
    EntersAligned cfg sys action ↔ ¬ NestsX64 cfg sys action := by
  constructor
  · intro haligned hnests
    obtain ⟨k, image, fp, s, s', hentered, hs, hk, huse, hstack⟩ :=
      entered_of_nestsX64 hacc habi.2 hnests hstep
    have hnative : ∀ cpu, runningOn sys.stack ≠ some cpu := by
      obtain ⟨c, hcallee, -⟩ := hnests
      obtain ⟨⟨id, rest, hstack⟩, -⟩ := afterRun_of_step hacc.chained hcallee hstep
      simp [hstack, runningOn]
    have hentry : AbiAligned k.cpu (s'.ue k.cpu k.cpu.stackReg) :=
      haligned sys' hstep (sys.activation cfg k image fp s')
        (by rw [hstack]; exact List.mem_cons_self)
    refine (abiAligned_entered hentered ?_ fun huse => ?_).mp hentry ⟨hk, huse⟩
    · rw [hs.initialState]
      exact h.first k.cpu
    · rw [hs.ue]
      exact h.waits k.cpu (engineInUse_mono (fun j hj => mem_of_mem_kept hj) huse) (hnative k.cpu)
  · intro hnests sys₁ hstep₁
    obtain rfl := Option.some.inj (hstep.symm.trans hstep₁)
    obtain ⟨chain', hmoves⟩ := hacc.moves_of_step habi.2 hstep
    exact (h.moves hacc habi.1 hnests hmoves).entries

/-- Emulated code that follows its ABI is always entered as its ABI asks for,
exactly as long as no x64 function is started above another x64 context. -/
theorem entersAligned_iff (cfg : Config) (p : Platform)
    (hp : ∀ cpu, (p.emuStackStart cpu).toNat % 4096 = 0) (actions : List Action) (sys : System) :
    Run (step cfg) (fun sys action => AbiStep cfg sys action ∧ EntersAligned cfg sys action)
      (initial p) actions sys ↔
    Run (step cfg) (fun sys action => AbiStep cfg sys action ∧ ¬ NestsX64 cfg sys action)
      (initial p) actions sys := by
  refine Run.congr (I := fun sys : System =>
    ∃ chain, Accounted cfg (sys.books chain) ∧ Aligned (sys.books chain)) ?_ ?_
    ⟨[], accounted_initial cfg p, aligned_initial p hp⟩
  · rintro sys action sys' ⟨chain, hacc, haligned⟩ ⟨habi, hnests⟩ hstep
    obtain ⟨chain', hmoves⟩ := hacc.moves_of_step habi.2 hstep
    exact ⟨chain', hacc.moves hmoves, haligned.moves hacc habi.1 hnests hmoves⟩
  · rintro sys action sys' ⟨chain, hacc, haligned⟩ hstep
    exact and_congr_right fun habi => haligned.entered_iff hacc habi hstep

/-- An emulated function calls native code, with the stack pointer as its ABI asks for. -/
def alignedCall : CpuId → Action
  | .x64 =>
      .emulate (Function.update (fun _ => 0x700fff00 - 8) .rip 0x90000000) ⟨fun _ => 0, []⟩ .findTb
  | .aarch64 =>
      .emulate (Function.update (fun _ => 0x710fff00) .pc 0x90000000) ⟨fun _ => 0, []⟩ .findTb

/-- An x64 function, and below it two AArch64 functions. -/
theorem entersAligned_iff_oneX64 :
    ∃ sys, Run (step riscvConfig)
      (fun sys action => AbiStep riscvConfig sys action ∧ EntersAligned riscvConfig sys action)
      (initial examplePlatform)
      [.runFunc .x64 0x10400 (fun _ => 0) 100, alignedCall .x64,
        .runFunc .aarch64 0x20400 (fun _ => 0) 90, alignedCall .aarch64,
        .runFunc .aarch64 0x20400 (fun _ => 0) 80] sys := by
  have hexec : (exec (step riscvConfig)
      (fun sys action => AbiStep riscvConfig sys action ∧ ¬ NestsX64 riscvConfig sys action)
      (initial examplePlatform)
      [.runFunc .x64 0x10400 (fun _ => 0) 100, alignedCall .x64,
        .runFunc .aarch64 0x20400 (fun _ => 0) 90, alignedCall .aarch64,
        .runFunc .aarch64 0x20400 (fun _ => 0) 80]).isSome = true := by decide
  obtain ⟨sys, hsys⟩ := Option.isSome_iff_exists.mp hexec
  exact ⟨sys, (entersAligned_iff riscvConfig examplePlatform
    (by intro cpu; cases cpu <;> decide) _ sys).mpr
    (.of_exec hsys)⟩

/-- Two x64 functions: the second one is entered with its stack pointer a
multiple of 16, where its ABI asks for 8 more. -/
theorem nestedX64_misaligned :
    ∃ sys, Run (step riscvConfig) (AbiStep riscvConfig) (initial examplePlatform)
        [.runFunc .x64 0x10400 (fun _ => 0) 100, alignedCall .x64,
          .runFunc .x64 0x10400 (fun _ => 0) 90]
        sys ∧ ¬ EnteredAligned sys.stack := by
  have hvalues : (exec (step riscvConfig) (AbiStep riscvConfig) (initial examplePlatform)
      [.runFunc .x64 0x10400 (fun _ => 0) 100, alignedCall .x64,
        .runFunc .x64 0x10400 (fun _ => 0) 90]).map (fun sys => decide (EnteredAligned sys.stack)) =
      some false := by decide
  obtain ⟨sys, hsys, haligned⟩ := Option.map_eq_some_iff.mp hvalues
  exact ⟨sys, .of_exec hsys, of_decide_eq_false haligned⟩

end MultiArchUefi
