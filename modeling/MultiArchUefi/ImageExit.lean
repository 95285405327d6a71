import MultiArchUefi.LiveContexts

/-!
# MultiArchUefi.ImageExit

`gBS->Exit` called by emulated code unwinds the innermost image, and that only.

As long as no other long jump leaves emulated code, the image records of running
images hold the jump buffers of their own `CpuRunImage`.
-/

namespace MultiArchUefi

open Chain Nesting Transition WordMemory

/-! ## runs without other jumps -/

/-- `StartImage` does not start an image that is running. -/
def StartsOnce (sys : System) (action : Action) : Prop :=
  ∀ r ∈ action.image sys, ∀ a ∈ activations sys.stack, a.image ≠ some r

/-- The only way out of emulated code, besides returning, is its own `gBS->Exit`. -/
def ExitsOnly (sys : System) (action : Action) : Prop :=
  LeavesActivations sys action ∧ StartsOnce sys action

instance (sys : System) (action : Action) : Decidable (StartsOnce sys action) :=
  inferInstanceAs (Decidable
    (∀ r ∈ action.image sys, ∀ a ∈ activations sys.stack, a.image ≠ some r))

instance (sys : System) (action : Action) : Decidable (ExitsOnly sys action) :=
  inferInstanceAs (Decidable (_ ∧ _))

/-- The chain holds the contexts of the activations and no others, and the
records of the images that run hold their own jump buffers. -/
structure Exact (b : Books) : Prop extends AllLive b where
  jumpBuffers : ∀ a ∈ activations b.stack, ∀ r, a.image = some r → b.emu.jumpBuffer r = some a.id

variable {cfg : Config} {sys sys' : System} {action : Action} {b b' : Books}

/-- Every move keeps the chain exact. -/
theorem Exact.move (h : Exact b) (hacc : Accounted cfg b) (hC : ExitsOnly sys action)
    (hmove : Move cfg sys action b b') : Exact b' := by
  refine ⟨h.toAllLive.move hacc hC.1 hmove, ?_⟩
  have hbuffers := h.jumpBuffers
  cases hmove with
  | quiet stack chain hquiet =>
      intro a ha r hr
      rw [hquiet.jumpBuffer]
      exact hbuffers a ha r hr
  | left s frames id rest chain hleft _ =>
      exact fun a ha => hbuffers a (by rw [activations_append]; exact List.mem_append_right _ ha)
  | @entered k image fp s s' id rest chain hstack hcallee haction hfp hpool hs _
    hbuffer hentered _ =>
      intro c hc r hr
      have hold : s'.jumpBuffer r = s.jumpBuffer r := by rw [State.jumpBuffer, hentered.images]; rfl
      show s'.jumpBuffer r = some c.id
      rw [hold, hbuffer]
      rcases List.mem_cons.mp hc with rfl | hc
      · exact if_pos hr
      · have hne : image ≠ some r := fun heq => hC.2 r (haction.trans heq) c hc hr
        rw [if_neg hne]
        exact hbuffers c hc r hr
  | @emulated s s' a rest l programCounter regs hbooks hue =>
      intro c hc r hr
      rw [hbooks.jumpBuffer]
      rcases List.mem_cons.mp hc with rfl | hc
      · exact hbuffers a List.mem_cons_self r hr
      · exact hbuffers c (List.mem_cons_of_mem a hc) r hr
  | @called s a c rest l id hcalling hc =>
      intro d hd r hr
      rcases List.mem_cons.mp hd with rfl | hd
      · exact hbuffers a List.mem_cons_self r hr
      · exact hbuffers d (List.mem_cons_of_mem a hd) r hr
  | compressed s id a rest pre post =>
      have hsame : (s.compressed pre a.context).jumpBuffer = s.jumpBuffer := by
        unfold State.compressed
        split <;> rfl
      intro c hc r hr
      rw [hsame]
      exact hbuffers c hc r hr
  | finished s a id rest l ret _ =>
      exact fun c hc => hbuffers c (List.mem_cons_of_mem a hc)
  | exited s id id' frames a rest pre post _ =>
      have hacts : activations (.native id :: (frames ++ .run a :: rest)) =
          activations frames ++ a :: activations rest := by simp
      rw [hacts] at hbuffers
      exact fun c hc => hbuffers c (List.mem_append_right _ (List.mem_cons_of_mem a hc))

theorem Exact.moves (h : Exact b) (hacc : Accounted cfg b) (hC : ExitsOnly sys action)
    (hmoves : Moves cfg sys action b b') : Exact b' := by
  induction hmoves with
  | refl => exact h
  | tail hmoves hmove ih => exact ih.move (hacc.moves hmoves) hC hmove

/-- On an exact chain nothing is dropped, and without a private stack everybody
returns to their own caller. -/
theorem Exact.sparing {chain : List CtxId} (h : Exact (sys.books chain))
    (hacc : Accounted cfg (sys.books chain)) (hprivate : cfg.onPrivateStack = false)
    (hstep : step cfg sys action = some sys') : Sparing cfg sys action :=
  h.toAllLive.sparing hacc (fun a _ hcfg => by rw [hprivate] at hcfg; cases hcfg) hstep

theorem exact_of_run {p : Platform} {actions : List Action} (hprivate : cfg.onPrivateStack = false)
    (h : Run (step cfg) ExitsOnly (initial p) actions sys) :
    ∃ chain, Sound cfg (sys.books chain) ∧ Exact (sys.books chain) := by
  refine h.invariant (I := fun sys : System =>
    ∃ chain, Sound cfg (sys.books chain) ∧ Exact (sys.books chain)) ?_
    ⟨[], sound_initial cfg p, ⟨rfl⟩, by simp [System.books, initial]⟩
  rintro sys action sys' ⟨chain, hsound, hexact⟩ hC hstep
  have hsparing := hexact.sparing hsound.toAccounted hprivate hstep
  obtain ⟨chain', hmoves⟩ := hsound.toAccounted.moves_of_step hsparing.1 hstep
  exact ⟨chain', hsound.moves hsparing.2 hmoves, hexact.moves hsound.toAccounted hC hmoves⟩

/-! ## the exit -/

/-- When `CpuExitImage` jumps, the innermost image is the one to exit. -/
theorem imageToExit_of_jump {a : Activation} {rest below : List Frame} {args : Args} {id n : Nat}
    {chain : List CtxId} (hc : Chained sys.emu chain) (h : sys.cpuExitImage a rest args = some sys')
    (hjump : sys'.stack = .native n :: .exiting id :: below) :
    ∃ record, imageToExit sys.emu chain (args 0) = some record := by
  cases hexit : imageToExit sys.emu chain (args 0) with
  | some record => exact ⟨record, rfl⟩
  | none =>
      obtain ⟨s, -, -, -, heq⟩ := cpuExitImage_returns a rest hc hexit
      obtain ⟨s', -, rfl⟩ := resume_eq_some (heq.symm.trans h)
      cases (List.cons.inj hjump).1

/-- Emulated code calls `CpuExitImage`. -/
theorem cpuRunCtxInternal_exits (sys : System) {a : Activation} {regs : RegFile}
    {memory : WordMemory.Memory} {ucErr : UcErr} {call : NativeCall} (rest : List Frame)
    (hreason : cpuExitReason cfg ucErr (regs a.context.cpu.programCounterReg) = .callToNative)
    (hcall : (nativeThunkEnter cfg a.context.cpu (regs a.context.cpu.programCounterReg)
      ⟨regs, memory⟩).1 = call)
    (hfunc : call.func = .cpuExitImage) :
    ∃ sys₁ : System, SameBooks sys.emu sys₁.emu ∧
      sys₁.emu.ue = Function.update sys.emu.ue a.context.cpu regs ∧
      sys₁.emu.images = sys.emu.images ∧ sys₁.stack = .run { a with atCall := regs } :: rest ∧
      sys₁.nextId = sys.nextId ∧ sys₁.trace = .called a.id call :: sys.trace ∧
      sys.cpuRunCtxInternal cfg a rest regs memory ucErr =
        sys₁.cpuExitImage { a with atCall := regs } rest call.args := by
  let s := System.emulated a.context.cpu regs memory ucErr sys.emu
  obtain ⟨hbooks, hue, hmemory, himages⟩ := emulated_spec a.context.cpu regs memory ucErr sys.emu
  have hregs : (System.emulated a.context.cpu regs memory ucErr sys.emu).ue a.context.cpu =
      regs := by
    rw [hue, Function.update_self]
  let e := (nativeThunkEnter cfg a.context.cpu (regs a.context.cpu.programCounterReg)
    ⟨regs, memory⟩).2
  have he : e.regs = regs := nativeThunkEnter_regs ..
  refine ⟨System.called { sys with emu := s } { a with atCall := regs } rest call e,
    hbooks.trans (.setEngines s _ _), ?_, himages, rfl, rfl, rfl, ?_⟩
  · show Function.update s.ue a.context.cpu e.regs = _
    rw [he, hue, Function.update_idem]
  · simp only [System.cpuRunCtxInternal, System.callNative, hregs, hreason, hmemory, hcall, hfunc]
    rfl

/-- The activation of a context on an exact chain, and its frame. -/
theorem Exact.frame_of_mem {s : State} {id : Nat} {stack : List Frame}
    {pre post : List CtxId} {k : CtxId} (h : Exact ⟨s, .native id :: stack, pre ++ k :: post⟩) :
    ∃ frames b below, stack = frames ++ .run b :: below ∧ b.context = k := by
  have hchain : (activations stack).map (·.context) = pre ++ k :: post := h.chain.symm
  obtain ⟨acts, acts', hacts, -, hk⟩ := List.map_eq_append_iff.mp hchain
  obtain ⟨b, acts'', rfl, hb, -⟩ := List.map_eq_cons_iff.mp hk
  have hmem : b ∈ activations stack := by rw [hacts]; simp
  obtain ⟨frames, below, hframes⟩ := List.append_of_mem (mem_activations.mp hmem)
  exact ⟨frames, b, below, hframes, hb⟩

/-- Below an activation's context are the contexts of the activations below it, and no others. -/
theorem Exact.chain_below {s : State} {id : Nat} {frames below : List Frame} {b : Activation}
    {pre post : List CtxId}
    (h : Exact ⟨s, .native id :: (frames ++ .run b :: below), pre ++ b.context :: post⟩)
    (hnodup : (pre ++ b.context :: post).Nodup) : post = (activations below).map (·.context) := by
  have hchain : pre ++ b.context :: post =
      (activations frames).map (·.context) ++ b.context :: (activations below).map (·.context) := by
    simpa using h.chain
  exact (append_cons_inj_of_nodup hnodup hchain).2

/-- When `CpuExitImage` jumps, it unwinds to the `CpuRunImage` of the innermost image. -/
theorem cpuExitImage_unwinds {a : Activation} {rest : List Frame} {args : Args} {n : Nat}
    {chain : List CtxId} (h : Sound cfg ⟨sys.emu, .native sys.nextId :: sys.stack, chain⟩)
    (hexact : Exact ⟨sys.emu, .native sys.nextId :: sys.stack, chain⟩) (hnumbered : Numbered sys)
    (hexit : sys.cpuExitImage a rest args = some sys')
    (hjump : ∃ id below, sys'.stack = .native n :: .exiting id :: below) :
    ∃ frames b below record pre post s, imageFindByHandle sys.emu.images (args 0) = some record ∧
      b.image = some record ∧ sys.emu.jumpBuffer record = some b.id ∧
      sys.stack = frames ++ .run b :: below ∧ chain = pre ++ b.context :: post ∧
      (∀ j ∈ pre, (sys.emu.context j).imageRecord = none) ∧ Quiet sys.emu s ∧
      s.images = (sys.emu.setImageExit record args).images ∧
      sys' = System.exited { sys with emu := s } b below record
        (s.popped (pre ++ [b.context]) (ptr post none)) ∧
      ∀ j ∈ post, (s.popped (pre ++ [b.context]) (ptr post none)).ue j.cpu = b.atEntry j.cpu := by
  obtain ⟨id, below', hjump⟩ := hjump
  obtain ⟨record, hsome⟩ := imageToExit_of_jump h.chained hexit hjump
  obtain ⟨hhandle, k, hfirst, hrecord⟩ := imageToExit_eq_some.mp hsome
  obtain ⟨s, hquiet, himages, heq⟩ := cpuExitImage_jumps a rest h.chained hsome
  rw [heq] at hexit
  obtain ⟨m, hbuffer, hexit⟩ := Option.bind_eq_some_iff.mp hexit
  obtain ⟨-, pre, post, rfl, hpre⟩ := List.find?_eq_some_iff_append.mp hfirst
  obtain ⟨frames, b, below, hstack, rfl⟩ := hexact.frame_of_mem
  have hmem : b ∈ activations (.native sys.nextId :: sys.stack) := by
    rw [activations_native, hstack, activations_append]
    exact List.mem_append_right _ List.mem_cons_self
  have himage : b.image = some record := by
    rw [← h.live.images b hmem]
    exact hrecord
  obtain rfl : m = b.id := by
    have hown := hexact.jumpBuffers b hmem record himage
    exact Option.some.inj (hbuffer.symm.trans hown)
  have hchained : Chained s (pre ++ b.context :: post) := hquiet.chained h.chained
  have hunwind := unwindToRun_of_numbered hnumbered hstack
  have heq := cpuRunImageExit_eq { sys with emu := s } hunwind himage hchained
  rw [heq] at hexit
  have hr : Resumes s (b.suspended b.atCall :: waiting below) (pre ++ b.context :: post) := by
    have hall : Resumes sys.emu (waiting sys.stack) (pre ++ b.context :: post) := h.resumes
    rw [hstack, waiting_append] at hall
    exact hall.of_append.quiet hquiet
  -- an activation waits in every context that is left
  have hpost : post = (activations below).map (·.context) := by
    rw [hstack] at hexact
    exact hexact.chain_below hchained.nodup
  have hlive : ∀ e ∈ post.map s.entry, ∃ w ∈ waiting below, e.id = w.id := by
    intro e he
    obtain ⟨j, hj, rfl⟩ := List.mem_map.mp he
    rw [hpost] at hj
    obtain ⟨c, hc, rfl⟩ := List.mem_map.mp hj
    exact ⟨c.suspended c.atCall, List.mem_map_of_mem hc, rfl⟩
  have hentry := (hr.popped hchained (ptr post none)).1.agreeOn hlive
  refine ⟨frames, b, below, record, pre, post, s, hhandle, himage, hbuffer, hstack, rfl,
    fun j hj => ?_, hquiet, himages, (Option.some.inj hexit).symm,
      fun j hj => hentry (s.entry j) (List.mem_map_of_mem hj)⟩
  simpa using hpre j hj

/-- The activation has made its native call, from a state that a run has led to. -/
theorem exact_called {p : Platform} {actions : List Action} {sys₁ : System} {a : Activation}
    {rest : List Frame} {regs : RegFile} (memory : Memory) {ucErr : UcErr}
    (hprivate : cfg.onPrivateStack = false)
    (hrun : Run (step cfg) ExitsOnly (initial p) actions sys) (hstack : sys.stack = .run a :: rest)
    (hreason : cpuExitReason cfg ucErr (regs a.context.cpu.programCounterReg) = .callToNative)
    (hbooks : SameBooks sys.emu sys₁.emu)
    (hue : sys₁.emu.ue = Function.update sys.emu.ue a.context.cpu regs)
    (hstack₁ : sys₁.stack = .run { a with atCall := regs } :: rest)
    (hnext : sys₁.nextId = sys.nextId) :
    Chained sys.emu sys.emu.chain ∧
      Sound cfg ⟨sys₁.emu, .native sys₁.nextId :: sys₁.stack, sys.emu.chain⟩ ∧
      Exact ⟨sys₁.emu, .native sys₁.nextId :: sys₁.stack, sys.emu.chain⟩ ∧ Numbered sys₁ := by
  obtain ⟨chain, hsound, hexact⟩ := exact_of_run hprivate hrun
  have hchain : sys.emu.chain = chain := hsound.chained.chain_eq
  let action := Action.emulate regs memory ucErr
  obtain ⟨l, rfl⟩ : ∃ l, chain = a.context :: l := by
    have hacc := hsound.toAccounted
    simp only [System.books, hstack] at hacc
    exact hacc.chain_eq_cons
  have hmoves : Moves cfg sys action (sys.books (a.context :: l))
      ⟨sys₁.emu, .native sys.nextId :: .run { a with atCall := regs } :: rest, a.context :: l⟩ := by
    have hregs : sys₁.emu.ue a.context.cpu = regs := by rw [hue, Function.update_self]
    have hcalling : Action.calling cfg sys action = some (a, sys₁.emu.ue a.context.cpu) := by
      simp [action, Action.calling, hstack, hreason, hregs]
    have hcalled : Move cfg sys action ⟨sys₁.emu, .run a :: rest, a.context :: l⟩ _ :=
      .called sys.nextId hcalling ⟨rfl, rfl⟩
    rw [hregs] at hcalled
    rw [System.books, hstack]
    exact .head (.emulated a.programCounter regs hbooks hue) (.single hcalled)
  have hunneeded : DropsUnneeded cfg sys action := fun c hc => by cases hc
  have honly : ExitsOnly sys action :=
    ⟨by simp [action, LeavesActivations, Action.target], by simp [action, StartsOnce, Action.image]⟩
  rw [hchain, hstack₁, hnext]
  refine ⟨hsound.chained, hsound.moves hunneeded hmoves,
    hexact.moves hsound.toAccounted honly hmoves, ?_⟩
  have hnumbered := numbered_of_run hrun
  rw [Numbered, hstack] at hnumbered
  rw [Numbered, hstack₁, hnext]
  exact numbered_replace (f := .run a) rfl hnumbered

/-- A frame that is found after the call was there before it. -/
theorem exists_frame_before {a b : Activation} {rest frames below : List Frame} {regs : RegFile}
    (hstack : sys.stack = .run a :: rest)
    (hframes : .run { a with atCall := regs } :: rest = frames ++ .run b :: below) :
    ∃ frames₀ b₀, sys.stack = frames₀ ++ .run b₀ :: below ∧ b₀.id = b.id ∧ b₀.context = b.context ∧
      b₀.image = b.image ∧ b₀.atEntry = b.atEntry := by
  cases frames with
  | nil =>
      obtain ⟨hb, rfl⟩ := List.cons.inj hframes
      obtain rfl := Frame.run.inj hb
      exact ⟨[], a, hstack, rfl, rfl, rfl, rfl⟩
  | cons f frames =>
      refine ⟨.run a :: frames, b, ?_, rfl, rfl, rfl, rfl⟩
      rw [hstack, (List.cons.inj hframes).2]
      rfl

/-- If the innermost image is the one to exit, `CpuExitImage` does jump, and where it lands is
the `CpuRunImage` of that image, which is on the stack. -/
theorem jumpsToImage_of_run (cfg : Config) (hprivate : cfg.onPrivateStack = false) (p : Platform)
    (actions : List Action) (sys : System) (a : Activation) (rest : List Frame) (regs : RegFile)
    (memory : Memory) (ucErr : UcErr) (call : NativeCall) (record : RecordId)
    (hrun : Run (step cfg) ExitsOnly (initial p) actions sys) (hstack : sys.stack = .run a :: rest)
    (hreason : cpuExitReason cfg ucErr (regs a.context.cpu.programCounterReg) = .callToNative)
    (hcall : (nativeThunkEnter cfg a.context.cpu (regs a.context.cpu.programCounterReg)
      ⟨regs, memory⟩).1 = call)
    (hfunc : call.func = .cpuExitImage)
    (hexit : imageToExit sys.emu sys.emu.chain (call.args 0) = some record) :
    ∃ sys' frames b below, step cfg sys (.emulate regs memory ucErr) = some sys' ∧
      sys.stack = frames ++ .run b :: below ∧ b.image = some record ∧
      sys'.stack = .native sys.nextId :: .exiting b.id :: below := by
  obtain ⟨sys₁, hbooks, hue, himages, hstack₁, hnext, -, heqexit⟩ :=
    cpuRunCtxInternal_exits sys rest hreason hcall hfunc
  obtain ⟨-, hsound, hexact, hnumbered⟩ :=
    exact_called memory hprivate hrun hstack hreason hbooks hue hstack₁ hnext
  have hsome : imageToExit sys₁.emu sys.emu.chain (call.args 0) = some record := by
    rw [imageToExit_eq_some] at hexit ⊢
    rw [himages, hbooks.context]
    exact hexit
  obtain ⟨-, k, hfirst, hrecord⟩ := imageToExit_eq_some.mp hsome
  obtain ⟨pre, post, hchain⟩ := List.append_of_mem (List.mem_of_find?_eq_some hfirst)
  rw [hchain] at hexact
  obtain ⟨frames, b, below, hframes, rfl⟩ := hexact.frame_of_mem
  have hmem : b ∈ activations (.native sys₁.nextId :: sys₁.stack) :=
    mem_activations.mpr (by rw [hframes]; simp)
  have himage : b.image = some record := by
    rw [← hsound.live.images b hmem]
    exact hrecord
  obtain ⟨s, hquiet, -, heq⟩ := cpuExitImage_jumps { a with atCall := regs } rest
    hsound.chained hsome
  have hbuffer : sys₁.emu.jumpBuffer record = some b.id := hexact.jumpBuffers b hmem record himage
  have hland := cpuRunImageExit_eq { sys₁ with emu := s }
    (unwindToRun_of_numbered hnumbered hframes)
    himage (hchain ▸ hquiet.chained hsound.chained)
  rw [hbuffer, Option.bind_some] at heq
  rw [hstack₁] at hframes
  obtain ⟨frames₀, b₀, hframes₀, hid, -, himage₀, -⟩ := exists_frame_before hstack hframes
  have hjumps := heqexit.trans (heq.trans hland)
  refine ⟨_, frames₀, b₀, below, (by simp only [step, hstack]; exact hjumps), hframes₀,
    himage₀.trans himage, ?_⟩
  rw [hid, ← hnext]
  rfl

/-- From `sys` to `sys'` the activation `a` has made `call` to `gBS->Exit`, which
has unwound the image `record` that the activation `b` runs; `pre` were the
contexts above its own, and `post` those below. -/
structure UnwindsImage (sys sys' : System) (a b : Activation) (call : NativeCall)
    (record : RecordId) (pre post : List CtxId) : Prop where
  /-- The jump goes to a `CpuRunImage` that is on the stack. -/
  handle : imageFindByHandle sys.emu.images (call.args 0) = some record
  image : b.image = some record
  jumpBuffer : (sys.emu.images.record record).imageExitJumpBuffer = some b.id
  unwound : ∃ frames below, sys.stack = frames ++ .run b :: below ∧
    sys'.stack = .native sys.nextId :: .exiting b.id :: below
  /-- It is the innermost image; its context and those above it are popped. -/
  chain : sys.emu.chain = pre ++ b.context :: post
  innermost : ∀ j ∈ pre, (sys.emu.context j).imageRecord = none
  mTopContext : sys'.emu.mTopContext = (sys.emu.context b.context).prevContext
  left : sys'.emu.chain = post
  /-- They are freed, once each, and counted down. -/
  allocated : ∀ j ∈ pre ++ [b.context], j.index ∉ sys.emu.runContextAlloc j.cpu
  nodup : (pre ++ [b.context]).Nodup
  freed : ∀ cpu, sys'.emu.runContextAlloc cpu =
    sys.emu.runContextAlloc cpu ++ indicesOn (pre ++ [b.context]) cpu
  counted : ∀ cpu, sys'.emu.contexts cpu = sys.emu.contexts cpu - countOn (pre ++ [b.context]) cpu
  /-- The native `gBS->Exit` gets what emulated code has passed. -/
  trace : sys'.trace =
    .exit (call.args 0) (call.args 1) (call.args 2) (call.args 3) :: .called a.id call :: sys.trace

/-- Without a private stack, and with no other way out of emulated code than
returning: if `CpuExitImage` jumps, it unwinds the innermost image, and the
engines still in use are as they were when that image was entered. -/
theorem unwindsImage_of_run (cfg : Config) (hprivate : cfg.onPrivateStack = false) (p : Platform)
    (actions : List Action) (sys sys' : System) (a : Activation) (rest below : List Frame)
    (regs : RegFile) (memory : WordMemory.Memory) (ucErr : UcErr) (call : NativeCall) (n id : Nat)
    (hrun : Run (step cfg) ExitsOnly (initial p) actions sys) (hstack : sys.stack = .run a :: rest)
    (hreason : cpuExitReason cfg ucErr (regs a.context.cpu.programCounterReg) = .callToNative)
    (hcall : (nativeThunkEnter cfg a.context.cpu (regs a.context.cpu.programCounterReg)
      ⟨regs, memory⟩).1 = call)
    (hfunc : call.func = .cpuExitImage)
    (hstep : step cfg sys (.emulate regs memory ucErr) = some sys')
    (hjump : sys'.stack = .native n :: .exiting id :: below) :
    ∃ b record pre post sys₀, UnwindsImage sys sys' a b call record pre post ∧
      EnteredFrom cfg ExitsOnly p actions b sys₀ ∧
      ∀ cpu, engineInUse cpu post = true → sys'.emu.ue cpu = sys₀.emu.ue cpu := by
  have hinternal := hstep
  simp only [step, hstack] at hinternal
  obtain ⟨sys₁, hbooks, hue, himages, hstack₁, hnext, htrace, heqexit⟩ :=
    cpuRunCtxInternal_exits sys rest hreason hcall hfunc
  have hexit := heqexit.symm.trans hinternal
  obtain ⟨hchain, hsound₁, hexact₁, hnumbered₁⟩ :=
    exact_called memory hprivate hrun hstack hreason hbooks hue hstack₁ hnext
  obtain ⟨frames, b, below', record, pre, post, s, hhandle, himage, hbuffer, hframes,
    heq, hpre, hquiet, hset, rfl, hentry⟩ :=
      cpuExitImage_unwinds hsound₁ hexact₁ hnumbered₁ hexit ⟨id, below, hjump⟩
  -- the same seen from before the call
  rw [hstack₁] at hframes
  obtain ⟨frames₀, b₀, hframes₀, hid, hcontext, himage₀, hatEntry⟩ :=
    exists_frame_before hstack hframes
  obtain ⟨sys₀, hentered, hue₀⟩ := enteredFrom_of_run hrun (a := b₀) (by simp [hframes₀])
  have hchained : Chained sys.emu (pre ++ b.context :: post) := heq ▸ hchain
  have happ : pre ++ b.context :: post = (pre ++ [b.context]) ++ post := by simp
  have hpopped : Chained (s.popped (pre ++ [b.context]) (ptr post none)) post := by
    have := (hbooks.trans hquiet.toSameBooks).chained hchained
    rw [happ] at this
    exact this.of_append
  refine ⟨b₀, record, pre, post, sys₀,
    ⟨?_, ?_, ?_, ?_, ?_, ?_, ?_, ?_, ?_, ?_, ?_, ?_, ?_⟩, hentered, ?_⟩
  · rw [← himages]
    exact hhandle
  · rw [himage₀]
    exact himage
  · rw [← himages, hid]
    exact hbuffer
  · exact ⟨frames₀, below', hframes₀, by rw [hid, ← hnext]; rfl⟩
  · rw [heq, hcontext]
  · intro j hj
    rw [← hbooks.context]
    exact hpre j hj
  · rw [hcontext]
    exact (hchained.seg.next_of_mem).symm
  · exact hpopped.chain_eq
  · intro j hj hmem
    rw [hcontext] at hj
    exact (hchained.pool_free j hmem).2 (happ ▸ List.mem_append_left _ hj)
  · have hnodup := hchained.nodup
    rw [happ] at hnodup
    rw [hcontext]
    exact hnodup.of_append_left
  · intro cpu
    rw [hcontext, ← hbooks.runContextAlloc, ← hquiet.runContextAlloc]
    rfl
  · intro cpu
    rw [hcontext, ← hbooks.contexts, ← hquiet.contexts]
    rfl
  · have hrecord : (s.popped (pre ++ [b.context]) (ptr post none)).images.record record =
        ((sys₁.emu.setImageExit record call.args).images.record record) := by rw [← hset]; rfl
    have hhandle' := (imageFindByHandle_eq_some hhandle).2
    simp [System.exited, hrecord, State.setImageExit, State.modifyRecord, hhandle', htrace]
  · intro cpu huse
    obtain ⟨j, hj, rfl⟩ := engineInUse_eq_true.mp huse
    rw [← hue₀, hatEntry]
    exact hentry j hj

/-- The x64 image calls native code, and that an AArch64 function. -/
def imageAndCallback : List Action :=
  [.runImage 0x1000 0x2000 (.ok 0x10000) 100, callOut .x64,
    .runFunc .aarch64 0x20400 (fun _ => 0) 90]

/-- Registers of an AArch64 call of `gBS->Exit` for the image `0x1000`. -/
def exitRegs : RegFile :=
  Function.update (Function.update (fun _ => 5) .pc 0x80002600) (.x 0) 0x1000

/-- The AArch64 function exits the x64 image it was called by. -/
theorem unwindsImage_of_run_callback :
    ∃ sys sys' a b call record pre post, Run (step riscvConfig) ExitsOnly (initial examplePlatform)
        imageAndCallback sys ∧
      step riscvConfig sys (.emulate exitRegs ⟨fun _ => 0, []⟩ .findTb) = some sys' ∧
      UnwindsImage sys sys' a b call record pre post ∧ call.args 0 = 0x1000 ∧ call.args 1 = 5 := by
  obtain ⟨sys, a, rest, sys', n, id, below, hexec, hstack, hcontext, hstep, hjump⟩ :
      ∃ sys a rest sys' n id below,
      exec (step riscvConfig) ExitsOnly (initial examplePlatform) imageAndCallback = some sys ∧
      sys.stack = .run a :: rest ∧ a.context = ⟨.aarch64, 0⟩ ∧
      step riscvConfig sys (.emulate exitRegs ⟨fun _ => 0, []⟩ .findTb) = some sys' ∧
      sys'.stack = .native n :: .exiting id :: below :=
    ⟨_, _, _, _, _, _, _, rfl, rfl, rfl, rfl, rfl⟩
  obtain ⟨b, record, pre, post, sys₀, hunwinds, -⟩ :=
    unwindsImage_of_run riscvConfig rfl examplePlatform _
    sys sys' a rest below exitRegs ⟨fun _ => 0, []⟩ .findTb _ n id (.of_exec hexec) hstack
    (by rw [hcontext]; decide) rfl (by rw [hcontext]; decide) hstep hjump
  exact ⟨sys, sys', a, b, _, record, pre, post, .of_exec hexec, hstep, hunwinds,
    by rw [hcontext]; decide, by rw [hcontext]; decide⟩

end MultiArchUefi
