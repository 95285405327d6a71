import MultiArchUefi.ContextLifeCycle

/-!
# MultiArchUefi.OrphanDetection

What `CpuDetectOrphanContexts` takes off the chain is told by the leak cookies
alone, whatever the chain.  As long as the cookies are addresses on a stack that
grows downward, the contexts whose `CpuRunCtx` is still on that stack stay.
-/

namespace MultiArchUefi

open Chain Nesting Transition

/-! ## the property -/

/-- A `CpuRunCtx` that is still on the native stack: its context and its address. -/
abbrev LiveFrame : Type := CtxId × Nat

/-- The context `k` is being entered at the address `fp`, below `frames`, which
grow downward; `l` is the chain below it. -/
structure NewlyEntered (k : CtxId) (fp : Nat) (l : List CtxId)
    (frames : List LiveFrame) (s : State) :
    Prop where
  chain : Seg s.next (s.next k) l none
  bounded : ∀ j ∈ l, j.index < RUN_CONTEXTS_LIMIT
  below : ∀ frame ∈ frames, fp < frame.2
  cookies : ∀ frame ∈ frames, (s.context frame.1).leakCookie = frame.2

/-- From `s` to `s'` the contexts of `dead` have been cut out from between `k` and `rest`. -/
structure CutOut (k : CtxId) (dead rest : List CtxId) (s s' : State) : Prop where
  prevContext : (s'.context k).prevContext = ptr rest none
  others : ∀ j, j ≠ k → j ∉ dead → s'.context j = s.context j
  chain : Seg s'.next (s'.next k) rest none
  once : dead.Nodup
  cut : Seg s'.next (ptr dead none) dead none

/-- `CpuDetectOrphanContexts` cuts out the maximal run of contexts right below `k`
whose cookies are at most `fp`, none of which is live, and
`CpuFreeOrphanContexts` frees each of them, once and in order. -/
def DetectsOrphans (k : CtxId) (fp : Nat) (l : List CtxId) (frames : List LiveFrame)
    (s : State) : Prop :=
  let dead := l.takeWhile fun j => (s.context j).leakCookie ≤ fp
  let rest := l.dropWhile fun j => (s.context j).leakCookie ≤ fp
  ∃ s', cpuDetectOrphanContexts k fp s = some (ptr dead none, s') ∧ CutOut k dead rest s s' ∧
    (∀ frame ∈ frames, frame.1 ∉ dead) ∧
    cpuFreeOrphanContexts (ptr dead none) s'.criticalEnd =
      some (dead.foldl (fun s j => cpuFreeContext j s) s'.criticalEnd)

/-! ## every chain -/

/-- Cutting the contexts of `dead` out leaves what is below them. -/
theorem cutOut_of_unlinked {k : CtxId} {fp : Nat} {dead rest : List CtxId} {s s' : State}
    (h : Seg s.next (s.next k) (dead ++ rest) none)
    (hs' : s'.context = unlinked k fp dead rest s.context) :
    CutOut k dead rest s s' := by
  obtain ⟨hknot, hnodup⟩ := List.nodup_cons.mp (nodup_of_below h)
  have hprev : (s'.context k).prevContext = ptr rest none := by rw [hs', unlinked_self]
  have hothers : ∀ j, j ≠ k → j ∉ dead → s'.context j = s.context j := fun j hjk hj => by
    rw [hs', unlinked_of_not_mem hjk hj]
  obtain ⟨r, -, hrest⟩ := Chain.seg_append.mp h
  have hchain : Seg s'.next (s'.next k) rest none := by
    rw [State.next, hprev, ← hrest.eq_ptr]
    refine hrest.congr fun j hj => State.next_congr (hothers j ?_ fun hmem => ?_)
    · exact ne_of_mem_of_not_mem (List.mem_append_right dead hj) hknot
    · exact List.disjoint_of_nodup_append hnodup hmem hj
  exact ⟨hprev, hothers, hchain, hnodup.of_append_left, seg_unlinked h hs'⟩

/-- A live context has a cookie above the new one. -/
theorem NewlyEntered.live_not_mem {k : CtxId} {fp : Nat} {l : List CtxId} {frames : List LiveFrame}
    {s : State} (h : NewlyEntered k fp l frames s) :
    ∀ frame ∈ frames, frame.1 ∉ l.takeWhile fun j => (s.context j).leakCookie ≤ fp := by
  intro frame hframe hmem
  have hle : (s.context frame.1).leakCookie ≤ fp :=
    of_decide_eq_true (List.mem_takeWhile_imp (p := fun j => (s.context j).leakCookie ≤ fp) hmem)
  have hlt := h.below frame hframe
  rw [h.cookies frame hframe] at hle
  omega

theorem NewlyEntered.detectsOrphans {k : CtxId} {fp : Nat} {l : List CtxId}
    {frames : List LiveFrame} {s : State} (h : NewlyEntered k fp l frames s) :
    DetectsOrphans k fp l frames s := by
  have hlive := h.live_not_mem
  have happ : (l.takeWhile fun j => (s.context j).leakCookie ≤ fp) ++
      (l.dropWhile fun j => (s.context j).leakCookie ≤ fp) = l := List.takeWhile_append_dropWhile
  have hdead : ∀ j ∈ l.takeWhile fun j => (s.context j).leakCookie ≤ fp,
      (s.context j).leakCookie ≤ fp :=
    fun j hj => of_decide_eq_true
      (List.mem_takeWhile_imp (p := fun j => (s.context j).leakCookie ≤ fp) hj)
  have hrest : ∀ j ∈ (l.dropWhile fun j => (s.context j).leakCookie ≤ fp).head?,
      fp < (s.context j).leakCookie := fun j hj => by
    have hnot := List.head?_dropWhile_not (fun j => decide ((s.context j).leakCookie ≤ fp)) l
    rw [Option.mem_def.mp hj] at hnot
    simpa using hnot
  have hlen := length_lt_chainFuel h.chain.nodup h.bounded
  have hchain := h.chain
  unfold DetectsOrphans
  simp only
  generalize (l.takeWhile fun j => (s.context j).leakCookie ≤ fp) = dead at *
  generalize (l.dropWhile fun j => (s.context j).leakCookie ≤ fp) = rest at *
  subst happ
  rw [List.length_append] at hlen
  obtain ⟨asserts, hdetect, -⟩ := cpuDetectOrphanContexts_eq hchain (by omega) hdead hrest
  refine ⟨_, hdetect, cutOut_of_unlinked hchain rfl, hlive, ?_⟩
  -- leaving the critical section changes no link
  rw [State.criticalEnd_eq]
  exact walk_chain (fun _ _ => rfl) next_freeNextContext (seg_unlinked hchain rfl)
    (by simp) (by omega)

/-! ## every run -/

/-- The `CpuRunCtx` frames of the native stack. -/
def liveFrames (stack : List Frame) : List LiveFrame :=
  (activations stack).map fun a => (a.context, a.fp)

/-- Whatever has happened, a context that is taken from its pool and pushed finds
such a chain. -/
theorem newlyEntered_of_run {cfg : Config} {p : Platform} {actions : List Action} {sys : System}
    {cpu : CpuId} {fp : Nat} {k : CtxId} {s : State} (honeStack : cfg.onPrivateStack = false)
    (hcheck : cfg.checkOrphanContexts = true)
    (h : Run (step cfg) (fun _ _ => True) (initial p) actions sys)
    (hfp : fpFits fp sys.stack = true) (halloc : cpuAllocContext cpu sys.emu = some (k, s)) :
    NewlyEntered k fp sys.emu.chain (liveFrames sys.stack) (cpuEnterCritical k s) := by
  obtain ⟨chain, htracked⟩ :=
    tracked_of_run False honeStack (h.mono fun _ _ _ hfalse => hfalse.elim)
  have hchain : sys.emu.chain = chain := htracked.threaded.chain_eq
  obtain ⟨-, htaken⟩ := Taken.of_alloc htracked.threaded halloc
  have hthreaded : Threaded (cpuEnterCritical k s) (k :: chain) :=
    threaded_cpuEnterCritical htaken.threaded htaken.fresh
  have hother : ∀ j ∈ chain, (cpuEnterCritical k s).context j = sys.emu.context j := fun j hj =>
    (Function.update_of_ne (ne_of_mem_of_not_mem hj htaken.fresh.not_mem) ..).trans
      (htaken.older j hj)
  rw [hchain]
  refine ⟨hthreaded.seg.2, fun j hj => hthreaded.bounded j (List.mem_cons_of_mem k hj),
    fun frame hframe => ?_, fun frame hframe => ?_⟩
  · obtain ⟨a, ha, rfl⟩ := List.mem_map.mp hframe
    have hfit : ∀ a ∈ activations sys.stack, fp < a.fp := by simpa [fpFits] using hfp
    exact hfit a ha
  · obtain ⟨a, ha, rfl⟩ := List.mem_map.mp hframe
    rw [hother a.context (htracked.live.context_mem ha)]
    exact htracked.live.cookies hcheck a ha

/-- Detection is exact on every chain whose cookies are addresses on a downward-growing
stack, and every run keeps the chain like that. -/
theorem detectsOrphans_of_run :
    (∀ k fp l frames s, NewlyEntered k fp l frames s → DetectsOrphans k fp l frames s) ∧
    ∀ cfg p actions sys cpu fp k s, cfg.onPrivateStack = false → cfg.checkOrphanContexts = true →
      Run (step cfg) (fun _ _ => True) (initial p) actions sys → fpFits fp sys.stack = true →
      cpuAllocContext cpu sys.emu = some (k, s) →
        NewlyEntered k fp sys.emu.chain (liveFrames sys.stack) (cpuEnterCritical k s) :=
  ⟨fun _ _ _ _ _ h => h.detectsOrphans,
    fun _ _ _ _ _ _ _ _ honeStack hcheck h hfp halloc =>
      newlyEntered_of_run honeStack hcheck h hfp halloc⟩

/-- Native code has jumped out of the inner one of two x64 functions: below a third
one, at an address in between, its context is found to be an orphan, and that
of the outer one is not. -/
theorem detectsOrphans_of_run_jumped :
    ∃ sys s, exec (step orphanConfig) (fun _ _ => True) (initial examplePlatform)
        [.runFunc .x64 0x10400 (fun _ => 0) 100, callOut .x64,
          .runFunc .x64 0x10400 (fun _ => 0) 90, callOut .x64, .longJump 2] = some sys ∧
      sys.emu.chain = [⟨.x64, 1⟩, ⟨.x64, 0⟩] ∧ liveFrames sys.stack = [(⟨.x64, 0⟩, 100)] ∧
      (sys.emu.chain.takeWhile fun j => (s.context j).leakCookie ≤ 95) = [⟨.x64, 1⟩] ∧
      DetectsOrphans ⟨.x64, 2⟩ 95 sys.emu.chain (liveFrames sys.stack) s := by
  have hvalues : (exec (step orphanConfig) (fun _ _ => True) (initial examplePlatform)
      [.runFunc .x64 0x10400 (fun _ => 0) 100, callOut .x64, .runFunc .x64 0x10400 (fun _ => 0) 90,
        callOut .x64, .longJump 2]).map (fun sys =>
      (decide (fpFits 95 sys.stack = true ∧ sys.emu.chain = [⟨.x64, 1⟩, ⟨.x64, 0⟩] ∧
          liveFrames sys.stack = [(⟨.x64, 0⟩, 100)]),
        (cpuAllocContext .x64 sys.emu).map fun ks =>
          (ks.1, sys.emu.chain.takeWhile fun j =>
            ((cpuEnterCritical ks.1 ks.2).context j).leakCookie ≤ 95))) =
      some (true, some (⟨.x64, 2⟩, [⟨.x64, 1⟩])) := by decide
  obtain ⟨sys, hsys, heq⟩ := Option.map_eq_some_iff.mp hvalues
  simp only [Prod.mk.injEq, decide_eq_true_eq] at heq
  obtain ⟨⟨hfp, hchain, hframes⟩, halloc⟩ := heq
  obtain ⟨⟨k, s⟩, halloc, hdead⟩ := Option.map_eq_some_iff.mp halloc
  obtain ⟨rfl, hdead⟩ := Prod.mk.inj hdead
  have hentered := detectsOrphans_of_run.2 _ _ _ _ _ _ _ _ rfl rfl (.of_exec hsys) hfp halloc
  exact ⟨sys, _, hsys, hchain, hframes, hdead, detectsOrphans_of_run.1 _ _ _ _ _ hentered⟩

end MultiArchUefi
