import MultiArchUefi.Invariant

/-!
# MultiArchUefi.NativeStack

What a step can do to the native stack, whatever the build and whatever state
the books are in.  Frames are pushed, discarded or left alone, and only the
innermost activation changes; so a frame finds below it what was there when it
was pushed, and no two frames have the same number.
-/

namespace MultiArchUefi

open Transition

/-! ## what a step does to the stack -/

/-- From `sys` to `sys'` the native stack has changed in one of five ways. -/
inductive StackStep (sys sys' : System) : Prop where
  /-- Frames have been left, by returning or by jumping. -/
  | unwound (frames : List Frame) (hstack : sys.stack = frames ++ sys'.stack)
      (hnext : sys.nextId ≤ sys'.nextId)
  /-- Emulated code has been called. -/
  | entered (a : Activation) (hid : a.id = sys.nextId) (hentry : a.atEntry = sys.emu.ue)
      (hstack : sys'.stack = .run a :: sys.stack)
      (hnext : sys'.nextId = sys.nextId + 1)
  /-- An activation runs on. -/
  | runs (frames : List Frame) (a : Activation) (rest : List Frame) (programCounter : UINT64)
      (atCall : RegFile) (hstack : sys.stack = frames ++ .run a :: rest)
      (hstack' : sys'.stack = .run
        { a with programCounter := programCounter, atCall := atCall } :: rest)
      (hnext : sys'.nextId = sys.nextId)
  /-- An activation has called native code. -/
  | called (a : Activation) (rest : List Frame) (atCall : RegFile)
      (hstack : sys.stack = .run a :: rest)
      (hstack' : sys'.stack = .native sys.nextId :: .run { a with atCall := atCall } :: rest)
      (hnext : sys'.nextId = sys.nextId + 1)
  /-- The native `gBS->Exit` has been called. -/
  | exited (frames : List Frame) (a : Activation) (rest : List Frame)
      (hstack : sys.stack = frames ++ .run a :: rest)
      (hstack' : sys'.stack = .native sys.nextId :: .exiting a.id :: rest)
      (hnext : sys'.nextId = sys.nextId + 1)

variable {cfg : Config} {sys sys' : System} {a : Activation} {rest : List Frame} {action : Action}

theorem resume_eq_some {value : UINT64} (h : sys.resume a rest value = some sys') :
    ∃ s, nativeThunkCheckLeakedContexts a.context sys.emu = some s ∧
      sys' = sys.resumed a rest value s := by
  obtain ⟨s, hs, rfl⟩ := Option.map_eq_some_iff.mp h
  exact ⟨s, hs, rfl⟩

/-- The long jump of `CpuExitImage` ends at an activation that is on the stack. -/
theorem cpuRunImageExit_eq_some {id : Nat} (h : sys.cpuRunImageExit id = some sys') :
    ∃ a rest record s, unwindToRun id sys.stack = some (a, rest) ∧
      sys' = sys.exited a rest record s := by
  obtain ⟨⟨a, rest⟩, hunwind, h⟩ := Option.bind_eq_some_iff.mp h
  obtain ⟨record, -, h⟩ := Option.bind_eq_some_iff.mp h
  obtain ⟨s, -, h⟩ := Option.bind_eq_some_iff.mp h
  exact ⟨a, rest, record, s, hunwind, (Option.some.inj h).symm⟩

/-- A run that ends drops frames and pushes none. -/
theorem stackStep_finish {ret : UINT64} (h : sys.finish cfg a rest ret = some sys') :
    ∃ frames, .run a :: rest = frames ++ sys'.stack ∧ sys'.nextId = sys.nextId := by
  unfold System.finish at h
  simp only at h
  split at h
  · split at h
    · cases h
    · rename_i caller rest' hunwind
      obtain ⟨id, -, hunwind⟩ := Option.bind_eq_some_iff.mp hunwind
      obtain ⟨-, pre, heq⟩ := unwindToRun_eq_some hunwind
      obtain rfl := Option.some.inj h
      exact ⟨pre ++ [.run caller], by rw [heq, List.append_assoc]; rfl, rfl⟩
  · obtain rfl := Option.some.inj h
    exact ⟨[.run a], rfl, rfl⟩

/-- A native call stays in its run, or puts one native frame on top. -/
theorem stackStep_call {sys₁ : System} {regs : RegFile} (hstack : sys.stack = .run a :: rest)
    (hnext : sys₁.nextId = sys.nextId) (h : AfterCall sys₁ { a with atCall := regs } rest sys') :
    StackStep sys sys' := by
  cases h with
  | called _ hstack' hid =>
      rw [hnext] at hstack' hid
      exact .called a rest regs hstack hstack' hid
  | resumed sys₂ value _ hid hresume =>
      obtain ⟨s, -, rfl⟩ := resume_eq_some hresume
      exact .runs [] a rest _ regs hstack rfl (hid.trans hnext)
  | exited sys₂ id _ hstack₂ hid hexit =>
      obtain ⟨b, rest', record, s, hunwind, rfl⟩ := cpuRunImageExit_eq_some hexit
      rw [hstack₂] at hunwind
      have hid' : sys₂.nextId = sys.nextId := hid.trans hnext
      obtain ⟨-, pre, heq⟩ := unwindToRun_eq_some hunwind
      -- the image is the exiting activation itself, or further out
      cases pre with
      | nil =>
          obtain ⟨hb, rfl⟩ := List.cons.inj heq
          obtain rfl := Frame.run.inj hb
          exact .exited [] a rest hstack (by rw [← hid']; rfl) (by rw [← hid']; rfl)
      | cons f pre =>
          obtain ⟨-, rfl⟩ := List.cons.inj heq
          exact .exited (.run a :: pre) b rest' hstack (by rw [← hid']; rfl) (by rw [← hid']; rfl)

/-- Emulation goes on in its run, ends it, or calls native code. -/
theorem stackStep_emulate {regs : RegFile} {ucErr : UcErr} (hstack : sys.stack = .run a :: rest)
    (h : AfterEmulation cfg sys a rest regs ucErr sys') : StackStep sys sys' := by
  cases h with
  | runs programCounter _ _ hstack' hnext =>
      exact .runs [] a rest programCounter a.atCall hstack hstack' hnext
  | ends s ret _ _ _ _ hfinish =>
      obtain ⟨frames, heq, hnext⟩ := stackStep_finish hfinish
      exact .unwound frames (hstack.trans heq) (Nat.le_of_eq hnext.symm)
  | calls sys₁ _ _ _ hnext hcall => exact stackStep_call hstack hnext hcall

/-- A run that is entered is put on top of the stack. -/
theorem stackStep_cpuRunCtx {k : CtxId} {image : Option RecordId} {fp : Nat} {s : State}
    (h : sys.cpuRunCtx cfg k image fp s = some sys') : StackStep sys sys' := by
  obtain ⟨s', -, rfl⟩ := Option.map_eq_some_iff.mp h
  exact .entered _ rfl rfl rfl rfl

/-- A native function that returns at once leaves the stack alone. -/
theorem stackStep_returned (sys : System) (s : State) (ret : UINT64) :
    StackStep sys (System.returned { sys with emu := s } ret) :=
  .unwound [] rfl (Nat.le_succ _)

/-- Every step is one of the five things that can happen to the stack. -/
theorem step_stack (hstep : step cfg sys action = some sys') : StackStep sys sys' := by
  unfold step at hstep
  split at hstep
  · -- `CpuRunFunc`
    split at hstep
    · unfold System.cpuRunFunc at hstep
      split at hstep
      · obtain rfl := Option.some.inj hstep
        exact stackStep_returned sys _ _
      · exact stackStep_cpuRunCtx hstep
    · cases hstep
  · -- `CpuRunImage`
    split at hstep
    · unfold System.cpuRunImage at hstep
      split at hstep
      · obtain rfl := Option.some.inj hstep
        exact stackStep_returned sys _ _
      · split at hstep
        · cases hstep
        · split at hstep
          · obtain rfl := Option.some.inj hstep
            exact stackStep_returned sys _ _
          · exact stackStep_cpuRunCtx hstep
    · cases hstep
  · rename_i hstack
    exact stackStep_emulate hstack (cpuRunCtxInternal_cases hstep)
  · obtain rfl := Option.some.inj hstep
    exact .unwound [] rfl (Nat.le_refl _)
  · -- a native function returns
    rename_i id a rest hstack
    obtain ⟨s, -, rfl⟩ := resume_eq_some hstep
    exact .runs [.native id] a rest _ a.atCall hstack rfl rfl
  · -- the native `gBS->Exit` returns
    rename_i id id' rest hstack
    obtain rfl := Option.some.inj hstep
    exact .unwound [.native id, .exiting id'] hstack (Nat.le_refl _)
  · -- a long jump
    rename_i hstack
    obtain ⟨stack, hunwind, rfl⟩ := Option.map_eq_some_iff.mp hstep
    obtain ⟨frames, rest', heq, -⟩ := unwindToNative_eq_some hunwind
    exact .unwound frames heq (Nat.le_refl _)
  · cases hstep

theorem mem_activations {stack : List Frame} : a ∈ activations stack ↔ .run a ∈ stack := by
  rw [activations, List.mem_filterMap]
  constructor
  · rintro ⟨f, hf, hrun⟩
    cases f with
    | run b =>
        obtain rfl := Option.some.inj hrun
        exact hf
    | native id => cases hrun
    | exiting id => cases hrun
  · exact fun h => ⟨.run a, h, rfl⟩

/-! ## the numbers of the frames -/

/-- A `CpuRunImage` keeps its number when its image exits. -/
def Frame.id : Frame → Nat
  | .native id => id
  | .run a => a.id
  | .exiting id => id

/-- Frames further out have smaller numbers, and the next number is unused. -/
def Numbered (sys : System) : Prop :=
  (sys.stack.map Frame.id).Pairwise (· > ·) ∧ ∀ f ∈ sys.stack, f.id < sys.nextId

theorem numbered_initial (p : Platform) : Numbered (initial p) := by
  simp [Numbered, initial, Frame.id]

/-- Dropping frames from the top keeps the numbering. -/
theorem numbered_of_append {frames stack : List Frame} {n : Nat}
    (h : ((frames ++ stack).map Frame.id).Pairwise (· > ·) ∧ ∀ f ∈ frames ++ stack, f.id < n) :
    (stack.map Frame.id).Pairwise (· > ·) ∧ ∀ f ∈ stack, f.id < n := by
  rw [List.map_append] at h
  exact ⟨(List.pairwise_append.mp h.1).2.1, fun f hf => h.2 f (List.mem_append_right frames hf)⟩

/-- Pushing a frame with the next number. -/
theorem numbered_cons {stack : List Frame} {f : Frame} {n : Nat} (hf : f.id = n)
    (h : (stack.map Frame.id).Pairwise (· > ·) ∧ ∀ g ∈ stack, g.id < n) :
    ((f :: stack).map Frame.id).Pairwise (· > ·) ∧ ∀ g ∈ f :: stack, g.id < n + 1 := by
  refine ⟨List.pairwise_cons.mpr ⟨fun i hi => ?_, h.1⟩, fun g hg => ?_⟩
  · obtain ⟨g, hg, rfl⟩ := List.mem_map.mp hi
    rw [hf]
    exact h.2 g hg
  · rcases List.mem_cons.mp hg with rfl | hg
    · exact hf ▸ Nat.lt_succ_self _
    · exact Nat.lt_succ_of_lt (h.2 g hg)

/-- Replacing a frame by one with the same number. -/
theorem numbered_replace {rest : List Frame} {f g : Frame} {n : Nat} (hid : g.id = f.id)
    (h : ((f :: rest).map Frame.id).Pairwise (· > ·) ∧ ∀ f' ∈ f :: rest, f'.id < n) :
    ((g :: rest).map Frame.id).Pairwise (· > ·) ∧ ∀ f' ∈ g :: rest, f'.id < n := by
  simp only [List.map_cons, List.mem_cons, forall_eq_or_imp, hid] at h ⊢
  exact h

/-- A new frame is numbered higher than all that are on the stack. -/
theorem Numbered.step (h : Numbered sys) (hstep : StackStep sys sys') : Numbered sys' := by
  unfold Numbered at h ⊢
  cases hstep with
  | unwound frames hstack hnext =>
      rw [hstack] at h
      obtain ⟨hpair, hlt⟩ := numbered_of_append h
      exact ⟨hpair, fun f hf => Nat.lt_of_lt_of_le (hlt f hf) hnext⟩
  | entered a hid _ hstack hnext =>
      rw [hstack, hnext]
      exact numbered_cons hid h
  | runs frames a rest programCounter atCall hstack hstack' hnext =>
      rw [hstack] at h
      rw [hstack', hnext]
      exact numbered_replace (f := .run a) rfl (numbered_of_append h)
  | called a rest atCall hstack hstack' hnext =>
      rw [hstack] at h
      rw [hstack', hnext]
      exact numbered_cons rfl (numbered_replace (f := .run a) rfl h)
  | exited frames a rest hstack hstack' hnext =>
      rw [hstack] at h
      rw [hstack', hnext]
      exact numbered_cons rfl (numbered_replace (f := .run a) rfl (numbered_of_append h))

/-- In every run the frames are numbered from the bottom up. -/
theorem numbered_of_run {C : System → Action → Prop} {p : Platform} {actions : List Action}
    (h : Run (step cfg) C (initial p) actions sys) : Numbered sys :=
  h.invariant (fun _ _ _ hn _ hstep => hn.step (step_stack hstep)) (numbered_initial p)

/-- Unwinding to an activation that is on the stack finds it. -/
theorem unwindToRun_of_numbered {frames : List Frame} (h : Numbered sys)
    (hstack : sys.stack = frames ++ .run a :: rest) :
    unwindToRun a.id sys.stack = some (a, rest) := by
  obtain ⟨hpair, -⟩ := h
  rw [hstack] at hpair ⊢
  clear hstack
  induction frames with
  | nil => simp [unwindToRun]
  | cons f frames ih =>
      rw [List.cons_append, List.map_cons, List.pairwise_cons] at hpair
      have hne : f.id ≠ a.id := Nat.ne_of_gt (hpair.1 a.id (by simp [Frame.id]))
      cases f with
      | native id => exact ih hpair.2
      | exiting id => exact ih hpair.2
      | run b =>
          rw [List.cons_append, unwindToRun, if_neg (show b.id ≠ a.id from hne)]
          exact ih hpair.2

/-! ## where an activation comes from -/

/-- In the run of `actions`, the activation `a` was entered from the state `sys₀`. -/
def EnteredFrom (cfg : Config) (C : System → Action → Prop) (p : Platform) (actions : List Action)
    (a : Activation) (sys₀ : System) : Prop :=
  ∃ before action after sys₁ a₀, actions = before ++ action :: after ∧
    Run (step cfg) C (initial p) before sys₀ ∧ step cfg sys₀ action = some sys₁ ∧
    sys₁.stack = .run a₀ :: sys₀.stack ∧ a₀.id = a.id

/-- What an activation remembers of its entry is how it was. -/
theorem enteredFrom_of_run {C : System → Action → Prop} {p : Platform} {actions : List Action}
    (h : Run (step cfg) C (initial p) actions sys) (ha : .run a ∈ sys.stack) :
    ∃ sys₀, EnteredFrom cfg C p actions a sys₀ ∧ a.atEntry = sys₀.emu.ue := by
  induction h generalizing a with
  | nil => simp [initial] at ha
  | @snoc actions sys action sys' hrun _ hstep ih =>
      have hlater : ∀ {b : Activation} {sys₀ : System}, EnteredFrom cfg C p actions b sys₀ →
          EnteredFrom cfg C p (actions ++ [action]) b sys₀ := by
        rintro b sys₀ ⟨before, action₀, after, sys₁, a₀, rfl, hentered⟩
        exact ⟨before, action₀, after ++ [action], sys₁, a₀, by simp, hentered⟩
      have hold : ∀ {b : Activation}, .run b ∈ sys.stack →
          ∃ sys₀, EnteredFrom cfg C p (actions ++ [action]) b sys₀ ∧ b.atEntry = sys₀.emu.ue :=
            fun hb => by
        obtain ⟨sys₀, hentered, hue⟩ := ih hb
        exact ⟨sys₀, hlater hentered, hue⟩
      cases step_stack hstep with
      | unwound frames hstack _ => exact hold (by rw [hstack]; exact List.mem_append_right _ ha)
      | entered b _ hentry hstack _ =>
          rw [hstack] at ha
          rcases List.mem_cons.mp ha with heq | ha
          · obtain rfl := Frame.run.inj heq
            exact ⟨sys, ⟨actions, action, [], sys', a, rfl, hrun, hstep, hstack, rfl⟩, hentry⟩
          · exact hold ha
      | runs frames b rest programCounter atCall hstack hstack' _ =>
          rw [hstack'] at ha
          rcases List.mem_cons.mp ha with heq | ha
          · obtain rfl := Frame.run.inj heq
            exact hold (b := b) (by simp [hstack])
          · exact hold (by simp [hstack, ha])
      | called b rest atCall hstack hstack' _ =>
          rw [hstack'] at ha
          rcases List.mem_cons.mp ha with heq | ha
          · cases heq
          rcases List.mem_cons.mp ha with heq | ha
          · obtain rfl := Frame.run.inj heq
            exact hold (b := b) (by simp [hstack])
          · exact hold (by simp [hstack, ha])
      | exited frames b rest hstack hstack' _ =>
          rw [hstack'] at ha
          rcases List.mem_cons.mp ha with heq | ha
          · cases heq
          rcases List.mem_cons.mp ha with heq | ha
          · cases heq
          · exact hold (by simp [hstack, ha])

/-! ## what is below a frame -/

/-- The frame with the number `id` has `below` below it, for as long as it is on the stack. -/
def Below (id : Nat) (below : List Frame) (sys : System) : Prop :=
  id < sys.nextId ∧ ∀ frames f rest, f.id = id → sys.stack = frames ++ f :: rest → rest = below

/-- The innermost frame has the rest of the stack below it. -/
theorem Below.of_top (h : Numbered sys) {f : Frame} {below : List Frame}
    (hstack : sys.stack = f :: below) : Below f.id below sys := by
  obtain ⟨hpair, hlt⟩ := h
  refine ⟨hlt f (by rw [hstack]; exact List.mem_cons_self), fun frames g rest hid heq => ?_⟩
  rw [hstack] at heq hpair
  cases frames with
  | nil => exact (List.cons.inj heq).2.symm
  | cons _ frames =>
      have hbelow : below = frames ++ g :: rest := (List.cons.inj heq).2
      have hgt := (List.pairwise_cons.mp hpair).1 g.id (by rw [hbelow]; simp)
      exact absurd hgt (by rw [hid]; exact Nat.lt_irrefl _)

/-- No step puts the frame elsewhere. -/
theorem Below.step {id : Nat} {below : List Frame} (h : Below id below sys)
    (hstep : StackStep sys sys') : Below id below sys' := by
  obtain ⟨hlt, hbelow⟩ := h
  cases hstep with
  | unwound frames hstack hnext =>
      refine ⟨Nat.lt_of_lt_of_le hlt hnext, fun frames' f rest hid heq => ?_⟩
      refine hbelow (frames ++ frames') f rest hid ?_
      rw [hstack, heq, List.append_assoc]
  | entered a hida _ hstack hnext =>
      refine ⟨hnext ▸ Nat.lt_succ_of_lt hlt, fun frames f rest hid heq => ?_⟩
      rw [hstack] at heq
      cases frames with
      | nil =>
          rw [← (List.cons.inj heq).1] at hid
          exact absurd (hida.symm.trans hid) hlt.ne'
      | cons _ frames => exact hbelow frames f rest hid (List.cons.inj heq).2
  | runs frames a rest programCounter atCall hstack hstack' hnext =>
      refine ⟨hnext ▸ hlt, fun frames' f rest' hid heq => ?_⟩
      rw [hstack'] at heq
      cases frames' with
      | nil =>
          obtain ⟨hf, hrest⟩ := List.cons.inj heq
          rw [← hf] at hid
          exact hbelow frames (.run a) rest' hid (by rw [hstack, hrest])
      | cons _ frames' =>
          refine hbelow (frames ++ .run a :: frames') f rest' hid ?_
          rw [hstack, (List.cons.inj heq).2, List.append_assoc]
          rfl
  | called a rest atCall hstack hstack' hnext =>
      refine ⟨hnext ▸ Nat.lt_succ_of_lt hlt, fun frames' f rest' hid heq => ?_⟩
      rw [hstack'] at heq
      match frames' with
      | [] =>
          rw [← (List.cons.inj heq).1] at hid
          exact absurd hid hlt.ne'
      | [_] =>
          obtain ⟨hf, hrest⟩ := List.cons.inj (List.cons.inj heq).2
          rw [← hf] at hid
          exact hbelow [] (.run a) rest' hid (by rw [hstack, hrest]; rfl)
      | _ :: _ :: frames' =>
          refine hbelow (.run a :: frames') f rest' hid ?_
          rw [hstack, (List.cons.inj (List.cons.inj heq).2).2]
          rfl
  | exited frames a rest hstack hstack' hnext =>
      refine ⟨hnext ▸ Nat.lt_succ_of_lt hlt, fun frames' f rest' hid heq => ?_⟩
      rw [hstack'] at heq
      match frames' with
      | [] =>
          rw [← (List.cons.inj heq).1] at hid
          exact absurd hid hlt.ne'
      | [_] =>
          obtain ⟨hf, hrest⟩ := List.cons.inj (List.cons.inj heq).2
          rw [← hf] at hid
          exact hbelow frames (.run a) rest' hid (by rw [hstack, hrest])
      | _ :: _ :: frames' =>
          refine hbelow (frames ++ .run a :: frames') f rest' hid ?_
          rw [hstack, (List.cons.inj (List.cons.inj heq).2).2, List.append_assoc]
          rfl

/-- What is below a native frame stays there as long as the frame does. -/
theorem below_of_run {C : System → Action → Prop} {id : Nat} {below : List Frame}
    {actions : List Action} (hs : Below id below sys) (h : Run (step cfg) C sys actions sys') :
    Below id below sys' :=
  h.invariant (fun _ _ _ hb _ hstep => hb.step (step_stack hstep)) hs

end MultiArchUefi
