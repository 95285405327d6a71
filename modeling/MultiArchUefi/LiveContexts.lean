import MultiArchUefi.Resumption

/-!
# MultiArchUefi.LiveContexts

As long as no long jump of native code leaves emulated code, the contexts on the
chain are those of the activations on the native stack, one by one.  There are
no orphans then.
-/

namespace MultiArchUefi

open Chain Nesting Transition

/-! ## jumps that leave no emulated code -/

/-- The native stack that the action jumps to. -/
def Action.target (sys : System) : Action → Option (List Frame)
  | .longJump id => unwindToNative id sys.stack
  | _ => none

/-- A long jump of native code leaves no emulated code: `gBS->Exit` may jump back
to `StartImage`. -/
def LeavesActivations (sys : System) (action : Action) : Prop :=
  ∀ stack ∈ action.target sys, (activations stack).length = (activations sys.stack).length

instance (sys : System) (action : Action) : Decidable (LeavesActivations sys action) :=
  inferInstanceAs (Decidable (∀ stack ∈ action.target sys, _))

/-- A member of a list without duplicates stands at one place in it. -/
theorem append_cons_inj_of_nodup {α : Type*} {pre post pre' post' : List α} {x : α}
    (h : (pre ++ x :: post).Nodup) (heq : pre ++ x :: post = pre' ++ x :: post') :
    pre = pre' ∧ post = post' := by
  have h' : (pre' ++ x :: post').Nodup := heq ▸ h
  have hpre : x ∉ pre := fun hmem => List.disjoint_of_nodup_append h hmem List.mem_cons_self
  have hpost : x ∉ post := (List.nodup_cons.mp h.of_append_right).1
  have hpre' : x ∉ pre' := fun hmem => List.disjoint_of_nodup_append h' hmem List.mem_cons_self
  have hpost' : x ∉ post' := (List.nodup_cons.mp h'.of_append_right).1
  obtain ⟨h₁, -, h₂⟩ := (List.append_cons_inj_of_notMem hpre' hpost').mp heq.symm
  exact ⟨h₁.symm, h₂.symm⟩

/-! ## the chain -/

/-- The chain holds the contexts of the activations and no others. -/
structure AllLive (b : Books) : Prop where
  chain : b.chain = (activations b.stack).map (·.context)

namespace AllLive

variable {cfg : Config} {sys sys' : System} {action : Action} {b b' : Books} {chain : List CtxId}

/-- A new context finds no orphans on such a chain. -/
theorem kept_eq {fp : Nat} (h : AllLive (sys.books chain)) (hacc : Accounted cfg (sys.books chain))
    (hfp : fpFits fp sys.stack = true) : kept cfg sys.emu fp chain = chain := by
  have hchain : chain = (activations sys.stack).map (·.context) := h.chain
  have hsub := hacc.live.kept hfp
  have happ := orphans_append_kept cfg sys.emu fp chain
  refine (List.sublist_append_right (orphans cfg sys.emu fp chain) _).eq_of_length_le
    ?_ |>.trans happ
  rw [happ]
  exact hchain ▸ hsub.length_le

/-- Every move keeps all contexts live. -/
theorem move (h : AllLive b) (hacc : Accounted cfg b) (hC : LeavesActivations sys action)
    (hmove : Move cfg sys action b b') : AllLive b' := by
  have hchain := h.chain
  refine ⟨?_⟩
  cases hmove with
  | quiet stack chain hquiet => exact hchain
  | left s frames id rest chain hleft _ =>
      have hnone : activations frames = [] := by
        rcases hleft with hnone | ⟨hstack, n, rfl, hunwind⟩
        · exact hnone
        · have hlength := hC _ hunwind
          rw [hstack, activations_append, List.length_append] at hlength
          exact List.length_eq_zero_iff.mp (by omega)
      have happ : activations (frames ++ .native id :: rest) = activations
          (.native id :: rest) := by
        rw [activations_append, hnone]
        rfl
      rwa [happ] at hchain
  | @entered k image fp s s' id rest chain hstack hcallee haction hfp hpool hs _
    hbuffer hentered _ =>
      have hkept := AllLive.kept_eq ⟨hchain⟩ hacc hfp
      show k :: kept cfg sys.emu fp chain = _
      rw [hkept]
      exact congrArg (k :: ·) hchain
  | emulated programCounter regs hbooks hue => exact hchain
  | called id hcalling hc => exact hchain
  | compressed s id a rest pre post =>
      have hmap : pre ++ a.context :: post = [] ++ a.context :: (activations rest).map
          (·.context) := hchain
      obtain ⟨-, hpost⟩ := append_cons_inj_of_nodup hacc.chained.nodup hmap
      exact congrArg (a.context :: ·) hpost
  | finished s a id rest l ret _ => exact (List.cons.inj hchain).2
  | exited s id id' frames a rest pre post _ =>
      have hacts : activations (.native id :: (frames ++ .run a :: rest)) =
          activations frames ++ a :: activations rest := by simp
      rw [hacts, List.map_append, List.map_cons] at hchain
      exact (append_cons_inj_of_nodup hacc.chained.nodup hchain).2

theorem moves (h : AllLive b) (hacc : Accounted cfg b) (hC : LeavesActivations sys action)
    (hmoves : Moves cfg sys action b b') : AllLive b' := by
  induction hmoves with
  | refl => exact h
  | tail hmoves hmove ih => exact ih.move (hacc.moves hmoves) hC hmove

/-- Nothing is dropped while all contexts are live. -/
theorem sparing (h : AllLive (sys.books chain)) (hacc : Accounted cfg (sys.books chain))
    (hswitch : FinishesSwitched cfg sys action) (hstep : step cfg sys action = some sys') :
    Sparing cfg sys action := by
  have hnone : ∀ c ∈ action.callee sys, orphans cfg sys.emu c.2 sys.emu.chain = [] := fun c hc => by
    obtain ⟨-, hfp, -⟩ := afterRun_of_step hacc.chained hc hstep
    have hchain : sys.emu.chain = chain := hacc.chained.chain_eq
    have happ := orphans_append_kept cfg sys.emu c.2 chain
    rw [h.kept_eq hacc hfp] at happ
    rw [hchain]
    exact List.append_left_eq_self.mp happ
  refine ⟨⟨fun c hc j hj => ?_, hswitch⟩, fun c hc j hj => ?_⟩
  · rw [hnone c hc] at hj
    cases hj
  · rw [hnone c hc] at hj
    cases hj

theorem step_of_sound (h : ∃ chain, Sound cfg (sys.books chain) ∧ AllLive (sys.books chain))
    (hleaves : LeavesActivations sys action) (hswitch : FinishesSwitched cfg sys action)
    (hstep : step cfg sys action = some sys') :
    ∃ chain, Sound cfg (sys'.books chain) ∧ AllLive (sys'.books chain) := by
  obtain ⟨chain, hsound, hlive⟩ := h
  have hsparing := hlive.sparing hsound.toAccounted hswitch hstep
  obtain ⟨chain', hmoves⟩ := hsound.toAccounted.moves_of_step hsparing.1 hstep
  exact ⟨chain', hsound.moves hsparing.2 hmoves, hlive.moves hsound.toAccounted hleaves hmoves⟩

theorem initial (cfg : Config) (p : Platform) :
    ∃ chain, Sound cfg ((MultiArchUefi.initial p).books chain) ∧
      AllLive ((MultiArchUefi.initial p).books chain) :=
  ⟨[], sound_initial cfg p, ⟨rfl⟩⟩

end AllLive

end MultiArchUefi
