import MultiArchUefi.Accounting
import MultiArchUefi.NativeStack

/-!
# MultiArchUefi.Resumption

Emulated code gets its engine back as it left it when the native function it
called returns, whatever has been entered, left or jumped out of meanwhile.

The invariant is the one of nested activations: the suspended activations can
all be resumed by popping the chain.  Each operation on the chain keeps it,
except for the dropping of orphans, which loses what they have saved.
-/

namespace MultiArchUefi

open Chain Nesting Transition

/-! ## suspended activations -/

/-- An activation that is to be resumed with `regs`. -/
def Activation.suspended (a : Activation) (regs : RegFile) :
    Nesting.Suspended CtxId CpuId RegFile :=
  ⟨a.context, regs, a.atEntry⟩

/-- The activations of `stack`, each at its native call. -/
def waiting (stack : List Frame) : List (Nesting.Suspended CtxId CpuId RegFile) :=
  (activations stack).map fun a => a.suspended a.atCall

/-- The activations of `stack`; the one that is running is where its engine is. -/
def suspended (ue : CpuId → RegFile) : List Frame → List (Nesting.Suspended CtxId CpuId RegFile)
  | .run a :: rest => a.suspended (ue a.context.cpu) :: waiting rest
  | stack => waiting stack

/-- Popping the chain resumes the activations `as`. -/
def Resumes (s : State) (as : List (Nesting.Suspended CtxId CpuId RegFile))
    (chain : List CtxId) : Prop :=
  Resumable as (chain.map s.entry) s.ue

theorem waiting_append (frames stack : List Frame) :
    waiting (frames ++ stack) = waiting frames ++ waiting stack := by
  simp [waiting]

/-- With native code on top everybody waits. -/
theorem suspended_append_native (ue : CpuId → RegFile) (frames : List Frame) (id : Nat)
    (rest : List Frame) :
    ∃ as, suspended ue (frames ++ .native id :: rest) = as ++ waiting rest := by
  have happ : ∀ frames, waiting (frames ++ .native id :: rest) = waiting frames ++ waiting rest :=
    fun frames => waiting_append frames _
  cases frames with
  | nil => exact ⟨[], rfl⟩
  | cons f frames =>
      cases f with
      | native id' => exact ⟨waiting frames, happ frames⟩
      | exiting id' => exact ⟨waiting frames, happ frames⟩
      | run b =>
          refine ⟨b.suspended (ue b.context.cpu) :: waiting frames, ?_⟩
          rw [List.cons_append, List.cons_append, ← happ]
          rfl

/-! ## what the operations do to suspended activations -/

theorem nodup_entries {s : State} {chain : List CtxId} (h : Linked s chain) :
    ((chain.map s.entry).map Entry.id).Nodup := by
  have hids : (chain.map s.entry).map Entry.id = chain := by simp [Function.comp_def]
  rw [hids]
  exact h.nodup

namespace Resumes

variable {s s' : State} {as : List (Nesting.Suspended CtxId CpuId RegFile)}
  {chain pre post l : List CtxId} {a : Activation} {regs x : RegFile}

theorem quiet (h : Resumes s as chain) (hs : Quiet s s') : Resumes s' as chain := by
  have hentry : s'.entry = s.entry := funext fun k => State.entry_congr (by rw [hs.context])
  rw [Resumes, hentry, hs.ue]
  exact h

/-- The running activation changes its own engine. -/
theorem update (h : Resumes s (a.suspended regs :: as) (a.context :: l))
    (hc : Chained s (a.context :: l)) (hs : SameBooks s s')
    (hue : s'.ue = Function.update s.ue a.context.cpu x) :
    Resumes s' (a.suspended x :: as) (a.context :: l) := by
  have hentry : s'.entry = s.entry := funext fun k => State.entry_congr (by rw [hs.context])
  rw [Resumes, hentry, hue]
  exact Resumable.update h rfl (nodup_entries hc.toLinked) hc.saved x

/-- Popping what is above the activation's context resumes it. -/
theorem compressed (h : Resumes s (a.suspended regs :: as) (pre ++ a.context :: post))
    (hc : Chained s (pre ++ a.context :: post)) :
    (s.compressed pre a.context).ue a.context.cpu = regs ∧
      Resumes (s.compressed pre a.context) (a.suspended regs :: as) (a.context :: post) := by
  have hmap : (pre ++ a.context :: post).map s.entry =
      pre.map s.entry ++ s.entry a.context :: post.map s.entry := by simp
  have hnodup := nodup_entries hc.toLinked
  rw [Resumes, hmap] at h
  rw [hmap] at hnodup
  obtain ⟨hcall, hentry, hrest⟩ := h.split rfl hnodup
  have hentries : (a.context :: post).map (s.compressed pre a.context).entry =
      (a.context :: post).map s.entry :=
    List.map_congr_left fun j hj => State.entry_congr (context_compressed hc hj)
  rw [Resumes, ue_compressed, hentries]
  refine ⟨hcall, [], _, _, rfl, rfl, hcall, ?_, ?_⟩
  · simpa using hentry
  · simpa using hrest

/-- Popping the activation's context as well gives every engine that is then an
activation's what it held when the activation was called. -/
theorem popped (h : Resumes s (a.suspended regs :: as) (pre ++ a.context :: post))
    (hc : Chained s (pre ++ a.context :: post)) (toContext : Option CtxId) :
    Settled as (post.map s.entry) (s.popped (pre ++ [a.context]) toContext).ue a.atEntry ∧
      Resumes (s.popped (pre ++ [a.context]) toContext) as post := by
  have hmap : (pre ++ a.context :: post).map s.entry =
      pre.map s.entry ++ s.entry a.context :: post.map s.entry := by simp
  have hlinked : Linked s ((pre ++ [a.context]) ++ post) := by simpa using hc.toLinked
  have hnodup := nodup_entries hc.toLinked
  rw [Resumes, hmap] at h
  rw [hmap] at hnodup
  obtain ⟨-, hentry, hrest⟩ := h.split rfl hnodup
  have hentries : post.map (s.popped (pre ++ [a.context]) toContext).entry = post.map s.entry :=
    List.map_congr_left fun j hj => State.entry_congr (hlinked.threaded.context_popped _ hj)
  have hue : (s.popped (pre ++ [a.context]) toContext).ue =
      replay (pre.map s.entry ++ [s.entry a.context]) s.ue := by simp [State.popped]
  rw [Resumes, hentries, hue]
  exact ⟨hentry, hrest⟩

theorem of_append {as' : List (Nesting.Suspended CtxId CpuId RegFile)}
    (h : Resumes s (as' ++ as) chain) :
    Resumes s as chain :=
  Resumable.of_append h

/-- Dropping orphans that no activation waits for, none of which is the last
one above a context on the same engine that an activation waits for. -/
theorem drop {dead : List CtxId} (h : Resumes s as (dead ++ l)) (hc : Chained s (dead ++ l))
    (hdead : ∀ j ∈ dead, ∀ a ∈ as, j ≠ a.id)
    (hneeded : ∀ j ∈ dead, ∀ i ∈ l.find? (fun i => i.cpu = j.cpu), ∀ a ∈ as, i ≠ a.id) :
    Resumes s as l := by
  have hw := hc.saved
  rw [List.map_append] at hw
  rw [Resumes, List.map_append] at h
  refine Resumable.drop h hw (fun e he a ha => ?_) fun e he e' hnew a ha => ?_
  · obtain ⟨j, hj, rfl⟩ := List.mem_map.mp he
    exact hdead j hj a ha
  · obtain ⟨j, hj, rfl⟩ := List.mem_map.mp he
    rw [newest, List.find?_map] at hnew
    obtain ⟨i, hi, rfl⟩ := Option.map_eq_some_iff.mp hnew
    exact hneeded j hj i hi a ha

end Resumes

/-! ## moves -/

/-- No orphan that the action drops is the last one above a context on the same
engine that an activation runs in: its registers would be lost. -/
def DropsUnneeded (cfg : Config) (sys : System) (action : Action) : Prop :=
  ∀ c ∈ action.callee sys, ∀ j ∈ orphans cfg sys.emu c.2 sys.emu.chain,
    ∀ i ∈ (kept cfg sys.emu c.2 sys.emu.chain).find? (fun i => i.cpu = j.cpu),
      ∀ a ∈ activations sys.stack, i ≠ a.context

instance (cfg : Config) (sys : System) (action : Action) :
    Decidable (DropsUnneeded cfg sys action) :=
  inferInstanceAs (Decidable (∀ c ∈ action.callee sys, _))

/-- The books are in order and every activation on the stack can be resumed. -/
structure Sound (cfg : Config) (b : Books) : Prop extends Accounted cfg b where
  resumes : Resumes b.emu (suspended b.emu.ue b.stack) b.chain

/-- Entering keeps all activations resumable when no orphan is needed. -/
theorem Sound.entered {cfg : Config} {sys : System} {chain : List CtxId} {k : CtxId}
    {image : Option RecordId} {fp id : Nat} {rest : List Frame} {s s' : State}
    (h : Sound cfg (sys.books chain)) (hstack : sys.stack = .native id :: rest)
    (hfp : fpFits fp sys.stack = true) (hs : Allocated k chain sys.emu s)
    (hentered : Entered cfg k fp (kept cfg sys.emu fp chain) s s')
    (hunneeded : ∀ j ∈ orphans cfg sys.emu fp chain,
      ∀ i ∈ (kept cfg sys.emu fp chain).find? (fun i => i.cpu = j.cpu),
        ∀ a ∈ activations sys.stack, i ≠ a.context) :
    Resumes s' (suspended s'.ue (.run (sys.activation cfg k image fp s') :: sys.stack))
      (k :: kept cfg sys.emu fp chain) := by
  have hr : Resumes sys.emu (suspended sys.emu.ue sys.stack) chain := h.resumes
  have happ := orphans_append_kept cfg sys.emu fp chain
  -- the activations wait for contexts that stay on the chain
  have hwait : Resumes sys.emu (waiting sys.stack) (kept cfg sys.emu fp chain) := by
    have hsuspended : suspended sys.emu.ue sys.stack = waiting sys.stack := by rw [hstack]; rfl
    rw [hsuspended, ← happ] at hr
    refine hr.drop (happ.symm ▸ h.chained) (fun j hj w hw hjw => ?_) fun j hj i hi w hw => by
      obtain ⟨b, hb, rfl⟩ := List.mem_map.mp hw
      exact hunneeded j hj i hi b hb
    obtain ⟨b, hb, rfl⟩ := List.mem_map.mp hw
    have hkept := (h.live.kept hfp).subset (List.mem_map_of_mem hb)
    have hnodup : chain.Nodup := h.chained.nodup
    rw [← happ] at hnodup
    have hjb : j = b.context := hjw
    exact List.disjoint_of_nodup_append hnodup hj (hjb ▸ hkept)
  have holder : ∀ j ∈ kept cfg sys.emu fp chain, s'.context j = sys.emu.context j := fun j hj => by
    rw [hentered.older j hj]
    exact hs.older j (happ ▸ List.mem_append_right _ hj)
  have hentries : (kept cfg sys.emu fp chain).map s'.entry =
      (kept cfg sys.emu fp chain).map sys.emu.entry :=
    List.map_congr_left fun j hj => State.entry_congr (holder j hj)
  have hsaved := hentered.chained.saved
  rw [List.map_cons, hentries] at hsaved
  have hown : ∀ r, (s'.entry k).saved = some r → r = sys.emu.ue (s'.entry k).unit := fun r hr => by
    rw [hentered.entry, hs.ue] at hr
    split at hr
    · exact (Option.some.inj hr).symm
    · cases hr
  have henter := Resumable.enter hwait hsaved hown (s'.ue k.cpu)
  have hue : Function.update sys.emu.ue k.cpu (s'.ue k.cpu) = s'.ue := by
    have := hentered.ue
    rw [hs.ue] at this
    rw [this, Function.update_self]
  rw [State.entry_unit, hue] at henter
  rw [Resumes, List.map_cons, hentries]
  exact henter

/-- Every move keeps all activations resumable. -/
theorem Sound.move {cfg : Config} {sys : System} {action : Action} {b b' : Books} (h : Sound cfg b)
    (hunneeded : DropsUnneeded cfg sys action) (hmove : Move cfg sys action b b') :
    Sound cfg b' := by
  refine ⟨h.toAccounted.move hmove, ?_⟩
  obtain ⟨hacc, hr⟩ := h
  cases hmove with
  | quiet stack chain hquiet =>
      rw [hquiet.ue]
      exact hr.quiet hquiet
  | left s frames id rest chain _ _ =>
      obtain ⟨as, has⟩ := suspended_append_native s.ue frames id rest
      simp only [has] at hr
      exact hr.of_append
  | @entered k image fp s s' id rest chain hstack hcallee _ hfp _ hs _ _ hentered _ =>
      have hneed := hunneeded (k.cpu, fp) hcallee
      have hchain : sys.emu.chain = chain := hacc.chained.chain_eq
      rw [hchain] at hneed
      exact Sound.entered ⟨hacc, hr⟩ hstack hfp hs hentered hneed
  | @emulated s s' a rest l programCounter regs hbooks hue =>
      have hupdate := hr.update hacc.chained hbooks hue
      rw [suspended, hue, Function.update_self]
      exact hupdate
  | called id _ _ => exact hr
  | compressed s id a rest pre post =>
      obtain ⟨hregs, hres⟩ := Resumes.compressed hr hacc.chained
      rw [suspended, hregs]
      exact hres
  | finished s a id rest l ret _ =>
      have hret : Resumes (s.setRet a.context ret) (suspended s.ue (.run a :: .native id :: rest))
          (a.context :: l) := by
        have hentry : (s.setRet a.context ret).entry = s.entry :=
          funext fun k => State.entry_of_alike (alike_setRet a.context k ret s)
        rw [Resumes, hentry]
        exact hr
      rw [← List.nil_append (a.context :: l)] at hret
      exact (Resumes.popped hret (hacc.chained.setRet a.context ret) _).2
  | exited s id id' frames a rest pre post _ =>
      have hwait : suspended s.ue (.native id :: (frames ++ .run a :: rest)) =
          waiting frames ++ a.suspended a.atCall :: waiting rest := waiting_append frames _
      simp only [hwait] at hr
      exact (Resumes.popped hr.of_append hacc.chained _).2

theorem Sound.moves {cfg : Config} {sys : System} {action : Action} {b b' : Books} (h : Sound cfg b)
    (hunneeded : DropsUnneeded cfg sys action) (hmoves : Moves cfg sys action b b') :
    Sound cfg b' := by
  induction hmoves with
  | refl => exact h
  | tail _ hmove ih => exact ih.move hunneeded hmove

/-! ## runs -/

/-- The orphans that the action drops are accounted for, and nobody needs them. -/
def Sparing (cfg : Config) (sys : System) (action : Action) : Prop :=
  Accountable cfg sys action ∧ DropsUnneeded cfg sys action

instance (cfg : Config) (sys : System) (action : Action) : Decidable (Sparing cfg sys action) :=
  inferInstanceAs (Decidable (_ ∧ _))

/-- A build that neither drops orphans nor switches stacks. -/
def Config.Plain (cfg : Config) : Prop :=
  cfg.checkOrphanContexts = false ∧ cfg.onPrivateStack = false

theorem Config.Plain.sparing {cfg : Config} (h : cfg.Plain) (sys : System) (action : Action) :
    Sparing cfg sys action := by
  obtain ⟨hcheck, hprivate⟩ := h
  refine ⟨⟨fun c _ j hj => ?_, fun a _ hcfg => ?_⟩, fun c _ j hj => ?_⟩
  · simp [orphans, hcheck] at hj
  · rw [hprivate] at hcfg; cases hcfg
  · simp [orphans, hcheck] at hj

theorem sound_initial (cfg : Config) (p : Platform) : Sound cfg ((initial p).books []) :=
  ⟨accounted_initial cfg p, trivial⟩

theorem sound_of_run {cfg : Config} {p : Platform} {actions : List Action} {sys : System}
    (h : Run (step cfg) (Sparing cfg) (initial p) actions sys) :
    ∃ chain, Sound cfg (sys.books chain) := by
  refine h.invariant (I := fun sys : System => ∃ chain, Sound cfg (sys.books chain))
    (fun _ _ _ ⟨_, hs⟩ hC hstep => ?_) ⟨[], sound_initial cfg p⟩
  obtain ⟨chain', hmoves⟩ := hs.toAccounted.moves_of_step hC.1 hstep
  exact ⟨chain', hs.moves hC.2 hmoves⟩

/-! ## native calls -/

/-- `NativeThunkCheckLeakedContexts` has left the context `k` on top of the chain
and its engine with the registers `regs`; the thunk then has put the result
`value` back, and `sys'` is where it resumes emulated code. -/
def ReturnedToThunk (k : CtxId) (regs : RegFile) (value : UINT64) (sys' : System) : Prop :=
  ∃ sys a rest s, a.context = k ∧ nativeThunkCheckLeakedContexts k sys.emu = some s ∧
    s.mTopContext = some k ∧ s.ue k.cpu = regs ∧ sys' = System.resumed sys a rest value s

/-- An activation whose native call returns gets back what it called with. -/
theorem returnedToThunk_of_resume {cfg : Config} {sys sys' : System} {chain : List CtxId}
    {a : Activation} {rest : List Frame} {regs : RegFile} {value : UINT64}
    (h : Booked cfg sys.emu (.run a :: rest) chain)
    (hr : Resumes sys.emu (a.suspended regs :: waiting rest) chain)
    (hresume : sys.resume a rest value = some sys') :
    ReturnedToThunk a.context regs value sys' := by
  obtain ⟨pre, post, rfl⟩ := h.split
  rw [resume_eq rest value h.chained] at hresume
  exact ⟨sys, a, rest, sys.emu.compressed pre a.context, rfl,
    nativeThunkCheckLeakedContexts_spec h.chained.toLinked, mTopContext_compressed h.chained,
    (hr.compressed h.chained).1, (Option.some.inj hresume).symm⟩

/-- In a build that neither drops orphans nor switches stacks, a native call
either ends in `gBS->Exit`, or has returned to its thunk, or has called a native
frame.  As long as that frame is there the caller's context is on the chain, and
when the frame returns, the caller gets back the registers it called with. -/
theorem returnedToThunk_of_run (cfg : Config) (hcfg : cfg.Plain) (p : Platform)
    (before : List Action) (sys sys' : System) (a : Activation) (rest : List Frame) (regs : RegFile)
    (memory : WordMemory.Memory) (ucErr : UcErr)
    (hrun : Run (step cfg) (fun _ _ => True) (initial p) before sys)
    (hstack : sys.stack = .run a :: rest)
    (hreason : cpuExitReason cfg ucErr (regs a.context.cpu.programCounterReg) = .callToNative)
    (hcall : step cfg sys (.emulate regs memory ucErr) = some sys') :
    (∃ id rest', sys'.stack = .native sys.nextId :: .exiting id :: rest') ∨
    (∃ value, ReturnedToThunk a.context regs value sys') ∨
    (sys'.stack = .native sys.nextId :: .run { a with atCall := regs } :: rest ∧
      ∀ after sys₁ frames below, Run (step cfg) (fun _ _ => True) sys' after sys₁ →
        sys₁.stack = frames ++ .native sys.nextId :: below →
        a.context ∈ sys₁.emu.chain ∧
        (frames = [] → ∀ value, ∃ sys₂, step cfg sys₁ (.ret value) = some sys₂ ∧
          ReturnedToThunk a.context regs value sys₂)) := by
  have hsparing := hcfg.sparing
  have hrun' := hrun.snoc trivial hcall
  obtain ⟨chain, hsound⟩ := sound_of_run (hrun.mono fun t b _ => hsparing t b)
  rw [System.books, hstack] at hsound
  obtain ⟨hacc, hr⟩ := hsound
  have hbooked := hacc.toBooked
  obtain ⟨l, rfl⟩ := hacc.chain_eq_cons
  simp only [step, hstack] at hcall
  obtain ⟨sys₁, hemu, hue, hnext, hafter⟩ := cpuRunCtxInternal_calls hreason hcall
  have hbooked₁ := (hbooked.sameBooks hemu).modify a.programCounter regs
  have hr₁ := Resumes.update hr hbooked.chained hemu hue
  cases hafter with
  | exited sys₂ id _ hstack₂ hid hexit =>
      obtain ⟨b, rest', record, s, -, rfl⟩ := cpuRunImageExit_eq_some hexit
      exact .inl ⟨b.id, rest', by rw [← hnext, ← hid]; rfl⟩
  | resumed sys₂ value hquiet _ hresume =>
      have hbooked₂ := hbooked₁.sameBooks hquiet.toSameBooks
      exact .inr (.inl ⟨value, returnedToThunk_of_resume (a := { a with atCall := regs })
        hbooked₂ (Resumes.quiet hr₁ hquiet) hresume⟩)
  | called _ hstack' _ =>
      rw [hnext] at hstack'
      refine .inr (.inr ⟨hstack', fun after sys₃ frames below hrun₃ hstack₃ => ?_⟩)
      -- below the native frame nothing has changed since the call
      have hbelow := below_of_run (Below.of_top (numbered_of_run hrun') hstack') hrun₃
      obtain rfl := hbelow.2 frames _ below rfl hstack₃
      obtain ⟨chain₃, hacc₃, hr₃⟩ := sound_of_run
        ((hrun'.append hrun₃).mono fun t b _ => hsparing t b)
      have hbooked₃ : Booked cfg sys₃.emu (.run { a with atCall := regs } :: rest) chain₃ := by
        have := hacc₃.toBooked
        simp only [System.books, hstack₃] at this
        exact (this.unwind frames).unwind [.native sys.nextId]
      refine ⟨?_, fun hframes value => ?_⟩
      · rw [hbooked₃.chained.chain_eq]
        exact hbooked₃.live.context_mem (a := { a with atCall := regs }) List.mem_cons_self
      · subst hframes
        simp only [System.books, hstack₃] at hr₃
        obtain ⟨pre, post, rfl⟩ := hbooked₃.split
        have heq := resume_eq rest value hbooked₃.chained
        refine ⟨_, ?_, returnedToThunk_of_resume (a := { a with atCall := regs }) hbooked₃ hr₃ heq⟩
        simp only [step, hstack₃, List.nil_append, heq]

/-- Native code called by an x64 function calls an x64 function whose own native
call jumps out of it, and then an AArch64 function that fails. -/
def jumpAndFail : List Action :=
  [.runFunc .x64 0x10400 (fun _ => 0) 90, callOut .x64, .longJump 2,
    .runFunc .aarch64 0x20400 (fun _ => 0) 90, .emulate (fun _ => 0) ⟨fun _ => 0, []⟩ (.other 10)]

/-- The x64 function gets its registers back nevertheless. -/
theorem returnedToThunk_of_run_jumpAndFail :
    ∃ sys₂ sys₃, Run (step riscvConfig) (fun _ _ => True) (initial examplePlatform)
        ([.runFunc .x64 0x10400 (fun _ => 0) 100] ++ [callOut .x64] ++ jumpAndFail) sys₂ ∧
      step riscvConfig sys₂ (.ret 7) = some sys₃ ∧
      ReturnedToThunk ⟨.x64, 0⟩ (Function.update (fun _ => 0x70080000) .rip 0x90000000) 7 sys₃ := by
  obtain ⟨sys, a, sys₁, b, rest, sys₂, below, hexec, hstack, hcontext, hnext, hcall,
    hstack₁, hexec₂,
      hstack₂⟩ : ∃ sys a sys₁ b rest sys₂ below,
      exec (step riscvConfig) (fun _ _ => True) (initial examplePlatform)
        [.runFunc .x64 0x10400 (fun _ => 0) 100] = some sys ∧
      sys.stack = [.run a, .native 0] ∧ a.context = ⟨.x64, 0⟩ ∧ sys.nextId = 2 ∧
      step riscvConfig sys (callOut .x64) = some sys₁ ∧ sys₁.stack = .native 2 :: .run b :: rest ∧
      exec (step riscvConfig) (fun _ _ => True) sys₁ jumpAndFail = some sys₂ ∧
      sys₂.stack = [] ++ .native 2 :: below :=
    ⟨_, _, _, _, _, _, _, rfl, rfl, rfl, rfl, rfl, rfl, rfl, rfl⟩
  have hreturned := returnedToThunk_of_run riscvConfig
    ⟨rfl, rfl⟩ examplePlatform _ sys sys₁ a _ _ _ _
    (.of_exec hexec) hstack (by rw [hcontext]; decide) hcall
  rcases hreturned with ⟨id, rest', hexit⟩ | ⟨value, t, b', rest', s, -, -, -, -,
    heq⟩ | ⟨-, hreturns⟩
  · rw [hstack₁] at hexit
    cases (List.cons.inj (List.cons.inj hexit).2).1
  · rw [heq] at hstack₁
    cases (List.cons.inj hstack₁).1
  · rw [hnext] at hreturns
    obtain ⟨-, hret⟩ := hreturns _ sys₂ [] below (.of_exec hexec₂) hstack₂
    obtain ⟨sys₃, hstep, hregs⟩ := hret rfl 7
    rw [hcontext] at hregs
    exact ⟨sys₂, sys₃, ((Run.of_exec hexec).snoc trivial hcall).append
      (.of_exec hexec₂), hstep, hregs⟩

end MultiArchUefi
