import MultiArchUefi.OrphanContexts
import MultiArchUefi.Thunk

/-!
# MultiArchUefi.RunContext

Running a context: `CpuRunCtx` and `CpuRunCtxOnPrivateStack`, up to the first
instruction of the emulated function and from its end on.

A new context saves its engine when an older one is counted for it, and starts
from the engine's initial state otherwise.  `Entered` and `Left` say what the
two halves do to the chain, the engines and the older contexts.
-/

namespace MultiArchUefi

open Chain Nesting

/-- Let a thunk work on one engine and the memory. -/
def State.withEngine (cpu : CpuId) (f : Engine → Engine) (s : State) : State :=
  let e := f ⟨s.ue cpu, s.memory⟩
  { s with ue := Function.update s.ue cpu e.regs, memory := e.memory }

/-! ## entering -/

/-- The start of `CpuRunCtxOnPrivateStack`, up to the end of the critical section
`CpuEnterCritical` began, and the freeing of the orphans found in it. -/
def cpuRunCtxCheckOrphans (cfg : Config) (k : CtxId) (fp : Nat) (s : State) : Option State := do
  let (orphanContexts, s) ←
    if cfg.checkOrphanContexts then cpuDetectOrphanContexts k fp s else some (none, s)
  let s := s.criticalEnd
  if cfg.checkOrphanContexts then cpuFreeOrphanContexts orphanContexts s else some s

/-- `CpuRunCtxOnPrivateStack` takes over the engine: the state of an older
context is saved, else the engine starts afresh. -/
def cpuRunCtxSaveOrInit (k : CtxId) (s : State) : State :=
  if s.contexts k.cpu > 1 then
    let s := s.modifyContext k fun c =>
      { c with prevUcContext := s.ue k.cpu, flags := c.flags ||| CRC_HAVE_SAVED_UC_CONTEXT }
    s.withEngine k.cpu (cpuStackPushRedZone k.cpu)
  else
    { s with ue := Function.update s.ue k.cpu (s.initialState k.cpu) }

/-- `CpuRunCtxOnPrivateStack`, up to `CpuRunCtxInternal`. -/
def cpuRunCtxOnPrivateStackEnter (cfg : Config) (k : CtxId) (fp : Nat) (s : State) :
    Option State := do
  let s ← cpuRunCtxCheckOrphans cfg k fp s
  some (cpuRunCtxSaveOrInit k s)

/-- `CpuRunCtx`, up to the first `uc_emu_start`.  `jumpBuffer` is the frame whose
`SetJump` fills `mOriginalStack`, when the private stack is switched to. -/
def cpuRunCtxEnter (cfg : Config) (jumpBuffer : Option Nat) (k : CtxId) (fp : Nat) (s : State) :
    Option State := do
  let s := cpuEnterCritical k s
  let s := match jumpBuffer with
    | some id => { s with mOriginalStack := some id }
    | none => s
  let s ← cpuRunCtxOnPrivateStackEnter cfg k fp s
  some (s.withEngine k.cpu (emuThunkPre cfg.returnToNativeMagic k.cpu (s.context k).args))

/-! ## leaving -/

/-- `CpuRunCtxOnPrivateStack`, after `CpuRunCtxInternal` has returned `ret`. -/
def cpuRunCtxOnPrivateStackLeave (k : CtxId) (ret : UINT64) (s : State) : State :=
  let s := s.modifyContext k fun c => { c with ret := ret }
  let s := s.restoreSaved k
  cpuLeaveCritical k s

/-- The end of `CpuRunCtx`, and of `CpuRunFunc` or `CpuRunImage` after it. -/
def cpuRunCtxReturn (k : CtxId) (s : State) : UINT64 × State :=
  let s := s.criticalEnd
  ((s.context k).ret, cpuFreeContext k s)

/-! ## what entering does -/

/-- The contexts at the top of the chain `l` that a new context with cookie `fp`
orphans. -/
def orphans (cfg : Config) (s : State) (fp : Nat) (l : List CtxId) : List CtxId :=
  if cfg.checkOrphanContexts then l.takeWhile fun j => (s.context j).leakCookie ≤ fp else []

/-- The contexts of the chain `l` that stay on it. -/
def kept (cfg : Config) (s : State) (fp : Nat) (l : List CtxId) : List CtxId :=
  if cfg.checkOrphanContexts then l.dropWhile fun j => (s.context j).leakCookie ≤ fp else l

theorem orphans_append_kept (cfg : Config) (s : State) (fp : Nat) (l : List CtxId) :
    orphans cfg s fp l ++ kept cfg s fp l = l := by
  unfold orphans kept
  split
  · exact List.takeWhile_append_dropWhile
  · rfl

/-- Orphans are told by the cookies on the chain alone. -/
theorem orphans_congr (cfg : Config) {s s' : State} (fp : Nat) {l : List CtxId}
    (h : ∀ j ∈ l, s'.context j = s.context j) :
    orphans cfg s' fp l = orphans cfg s fp l ∧ kept cfg s' fp l = kept cfg s fp l := by
  unfold orphans kept
  split
  · induction l with
    | nil => exact ⟨rfl, rfl⟩
    | cons j l ih =>
        have hj := h j List.mem_cons_self
        have hl := ih fun i hi => h i (List.mem_cons_of_mem j hi)
        simp only [List.takeWhile_cons, List.dropWhile_cons, hj, hl, and_self]
  · exact ⟨rfl, rfl⟩

theorem leakCookie_of_mem_orphans {cfg : Config} {s : State} {fp : Nat} {l : List CtxId} {j : CtxId}
    (h : j ∈ orphans cfg s fp l) : (s.context j).leakCookie ≤ fp := by
  unfold orphans at h
  split at h
  · exact of_decide_eq_true (List.mem_takeWhile_imp (p := fun j => (s.context j).leakCookie ≤ fp) h)
  · cases h

theorem leakCookie_of_mem_head_kept {cfg : Config} {s : State} {fp : Nat} {l : List CtxId}
    {j : CtxId} (hcfg : cfg.checkOrphanContexts = true) (h : j ∈ (kept cfg s fp l).head?) :
    fp < (s.context j).leakCookie := by
  rw [kept, if_pos hcfg] at h
  have hnot := List.head?_dropWhile_not (fun j => decide ((s.context j).leakCookie ≤ fp)) l
  rw [Option.mem_def.mp h] at hnot
  simpa using hnot

/-- Is an older context of the same engine on the chain `l`? -/
def engineInUse (cpu : CpuId) (l : List CtxId) : Bool := l.any fun j => j.cpu = cpu

theorem engineInUse_eq_true {cpu : CpuId} {l : List CtxId} :
    engineInUse cpu l = true ↔ ∃ j ∈ l, j.cpu = cpu := by
  simp [engineInUse]

/-- What the emulated function of a new context finds. -/
def entryEngine (cfg : Config) (cpu : CpuId) (args : Args) (inUse : Bool) (s : State) : Engine :=
  emuThunkPre cfg.returnToNativeMagic cpu args
    (if inUse then cpuStackPushRedZone cpu ⟨s.ue cpu, s.memory⟩ else ⟨s.initialState cpu, s.memory⟩)

/-- From `s` to `s'` the context `k` has been entered on top of the chain `l`. -/
structure Entered (cfg : Config) (k : CtxId) (fp : Nat) (l : List CtxId) (s s' : State) : Prop where
  chained : Chained s' (k :: l)
  older : ∀ j ∈ l, s'.context j = s.context j
  entry : s'.entry k = ⟨k, k.cpu, if engineInUse k.cpu l then some (s.ue k.cpu) else none⟩
  leakCookie : cfg.checkOrphanContexts = true → (s'.context k).leakCookie = fp
  imageRecord : (s'.context k).imageRecord = (s.context k).imageRecord
  ue : s'.ue = Function.update s.ue k.cpu
    (entryEngine cfg k.cpu (s.context k).args (engineInUse k.cpu l) s).regs
  memory : s'.memory = (entryEngine cfg k.cpu (s.context k).args (engineInUse k.cpu l) s).memory
  initialState : s'.initialState = s.initialState
  images : s'.images = s.images

/-- A context that is neither on the chain `l` nor in a pool, and has saved nothing. -/
structure Fresh (s : State) (l : List CtxId) (k : CtxId) : Prop where
  not_mem : k ∉ l
  bounded : k.index < RUN_CONTEXTS_LIMIT
  allocated : k.index ∉ s.runContextAlloc k.cpu
  flags : (s.context k).flags = 0

theorem countP_cons_cpu (k : CtxId) (l : List CtxId) (cpu : CpuId) :
    (k :: l).countP (fun j => j.cpu = cpu) =
      l.countP (fun j => j.cpu = cpu) + if k.cpu = cpu then 1 else 0 := by
  simp [List.countP_cons]

theorem threaded_cpuEnterCritical {s : State} {l : List CtxId} {k : CtxId} (h : Threaded s l)
    (hk : Fresh s l k) : Threaded (cpuEnterCritical k s) (k :: l) := by
  have hother : ∀ j ∈ l, (cpuEnterCritical k s).context j = s.context j := fun j hj =>
    Function.update_of_ne (ne_of_mem_of_not_mem hj hk.not_mem) ..
  refine ⟨⟨rfl, ?_⟩, h.pool_nodup, fun j hj => ?_, fun j hj => ?_, fun j hj => ?_⟩
  · have hnext : (cpuEnterCritical k s).next k = s.mTopContext := by
      simp [State.next, cpuEnterCritical, State.modifyContext, State.criticalBegin]
    rw [hnext]
    exact h.seg.congr fun j hj => State.next_congr (hother j hj)
  · obtain ⟨hlt, hnot⟩ := h.pool_free j hj
    refine ⟨hlt, fun hmem => ?_⟩
    rcases List.mem_cons.mp hmem with rfl | hmem
    · exact hk.allocated hj
    · exact hnot hmem
  · rcases List.mem_cons.mp hj with rfl | hj
    · exact hk.bounded
    · exact h.bounded j hj
  · rcases List.mem_cons.mp hj with rfl | hj
    · left
      simpa [cpuEnterCritical, State.modifyContext, State.criticalBegin] using hk.flags
    · rw [hother j hj]
      exact h.flags j hj

theorem linked_cpuEnterCritical {s : State} {l : List CtxId} {k : CtxId} (h : Linked s l)
    (hk : Fresh s l k) : Linked (cpuEnterCritical k s) (k :: l) := by
  obtain ⟨hseg, hnodup, hfree, hbounded, hflags⟩ := threaded_cpuEnterCritical h.threaded hk
  refine ⟨hseg, fun cpu => ?_, hnodup, hfree, hbounded, hflags, h.asserts⟩
  rw [countP_cons_cpu]
  have hcount := h.counted cpu
  by_cases hcpu : k.cpu = cpu
  · subst hcpu
    simp [cpuEnterCritical, State.modifyContext, State.criticalBegin, hcount]
  · simp [cpuEnterCritical, State.modifyContext, State.criticalBegin, hcount, hcpu,
      Function.update_of_ne (Ne.symm hcpu)]

/-- From `s` to `s'` only the orphans below the new context `k` have gone; the
chain is left with `l` below `k`. -/
structure OrphansDropped (cfg : Config) (k : CtxId) (fp : Nat) (l : List CtxId) (s s' : State) :
    Prop where
  linked : Linked s' (k :: l)
  older : ∀ j ∈ l, s'.context j = s.context j
  self : s'.context k = { s.context k with
    leakCookie := if cfg.checkOrphanContexts then fp else (s.context k).leakCookie
    prevContext := ptr l none }
  ue : s'.ue = s.ue
  memory : s'.memory = s.memory
  initialState : s'.initialState = s.initialState
  images : s'.images = s.images

/-- Freeing what detection has unlinked keeps the chain. -/
theorem threaded_of_unlinked {s s' : State} {k : CtxId} {fp : Nat} {dead rest : List CtxId}
    (h : Threaded s (k :: (dead ++ rest)))
    (hm : s'.mTopContext = s.mTopContext) (hctx : s'.context = unlinked k fp dead rest s.context)
    (hp : s'.runContextAlloc = fun cpu => s.runContextAlloc cpu ++ indicesOn dead cpu) :
    Threaded s' (k :: rest) := by
  obtain ⟨hknot, hnodup⟩ := List.nodup_cons.mp h.nodup
  have hdisj : ∀ j ∈ dead, j ∉ rest := fun j hj hmem => List.disjoint_of_nodup_append hnodup hj hmem
  have hother : ∀ j ∈ rest, s'.context j = s.context j := fun j hj => by
    rw [hctx, unlinked_of_not_mem (ne_of_mem_of_not_mem (List.mem_append_right dead hj) hknot)
      fun hmem => hdisj j hmem hj]
  refine ⟨⟨hm.trans h.seg.1, ?_⟩, fun cpu => ?_, fun j hj => ?_, fun j hj => ?_, fun j hj => ?_⟩
  · obtain ⟨r, -, hr⟩ := Chain.seg_append.mp h.seg.2
    have hnext : s'.next k = ptr rest none := by rw [State.next, hctx, unlinked_self]
    rw [hnext, ← hr.eq_ptr]
    exact hr.congr fun j hj => State.next_congr (hother j hj)
  · rw [hp]
    refine List.nodup_append.mpr ⟨h.pool_nodup cpu,
      nodup_indicesOn hnodup.of_append_left cpu, fun i hi j hj hij => ?_⟩
    subst hij
    obtain ⟨d, hd, rfl⟩ := List.mem_map.mp hj
    simp only [List.mem_filter, decide_eq_true_eq] at hd
    exact (h.pool_free d (hd.2 ▸ hi)).2 (by simp [hd.1])
  · rw [hp] at hj
    rcases List.mem_append.mp hj with hj | hj
    · obtain ⟨hlt, hnot⟩ := h.pool_free j hj
      exact ⟨hlt, fun hmem => hnot (by rcases List.mem_cons.mp hmem with rfl | hmem <;> simp_all)⟩
    · have hjd := mem_indicesOn.mp hj
      refine ⟨h.bounded j (by simp [hjd]), fun hmem => ?_⟩
      rcases List.mem_cons.mp hmem with rfl | hmem
      · exact hknot (List.mem_append_left rest hjd)
      · exact hdisj j hjd hmem
  · exact h.bounded j (by rcases List.mem_cons.mp hj with rfl | hj <;> simp_all)
  · rw [hctx, flags_unlinked]
    exact h.flags j (by rcases List.mem_cons.mp hj with rfl | hj <;> simp_all)

/-- From `s` to `s'` the orphans `dead` between the new context `k` and `rest`
have gone.  The assertions that may have failed are about the counter, which
goes down on the engine of `k`, and about what the orphans have saved. -/
structure OrphansFreed (cfg : Config) (k : CtxId) (fp : Nat) (dead rest : List CtxId)
    (s s' : State) :
    Prop where
  threaded : Threaded s' (k :: rest)
  older : ∀ j ∈ rest, s'.context j = s.context j
  self : s'.context k = { s.context k with
    leakCookie := if cfg.checkOrphanContexts then fp else (s.context k).leakCookie
    prevContext := ptr rest none }
  contexts : s'.contexts = Function.update s.contexts k.cpu (s.contexts k.cpu - dead.length)
  runContextAlloc : s'.runContextAlloc = fun cpu => s.runContextAlloc cpu ++ indicesOn dead cpu
  ue : s'.ue = s.ue
  memory : s'.memory = s.memory
  initialState : s'.initialState = s.initialState
  images : s'.images = s.images
  mOriginalStack : s'.mOriginalStack = s.mOriginalStack
  asserts : ∀ a ∈ s'.failedAsserts, a = .sectionOpen ∨
    (a = .contextsNonNegative ∧ ¬ (dead.length : Int) ≤ s.contexts k.cpu) ∨
    (a = .flagsClear ∧ ¬ ∀ j ∈ dead, (s.context j).flags = 0) ∨ a ∈ s.failedAsserts

theorem criticalEnd_asserts {s : State} {a : Assertion} (ha : a ∈ s.criticalEnd.failedAsserts) :
    a = .sectionOpen ∨ a ∈ s.failedAsserts := by
  simp only [State.criticalEnd, State.assert_eq] at ha
  split at ha
  · exact .inr ha
  · exact List.mem_cons.mp ha

/-- The orphans that a new context finds below it go, whatever the counters say. -/
theorem cpuRunCtxCheckOrphans_eq (cfg : Config) (fp : Nat) {s : State} {l : List CtxId} {k : CtxId}
    (h : Threaded s (k :: l)) :
    ∃ s', cpuRunCtxCheckOrphans cfg k fp s = some s' ∧
      OrphansFreed cfg k fp (orphans cfg s fp l) (kept cfg s fp l) s s' := by
  cases hcfg : cfg.checkOrphanContexts with
  | false =>
      have hkept : kept cfg s fp l = l := by simp [kept, hcfg]
      have horphans : orphans cfg s fp l = [] := by simp [orphans, hcfg]
      have hself : s.context k = { s.context k with prevContext := ptr l none } := by
        rw [← h.seg.2.eq_ptr]
        rfl
      refine ⟨s.criticalEnd, by simp [cpuRunCtxCheckOrphans, hcfg], ?_⟩
      rw [hkept, horphans, s.criticalEnd_eq]
      refine ⟨h.congr rfl (fun _ _ => rfl) (fun _ _ => rfl) rfl, fun _ _ => rfl, ?_, ?_,
        ?_, rfl, rfl, rfl, rfl, rfl, fun a ha => ?_⟩
      · simpa [hcfg] using hself
      · simp
      · simp [indicesOn]
      · exact (criticalEnd_asserts ha).imp_right fun hmem => .inr (.inr hmem)
  | true =>
      have happ := orphans_append_kept cfg s fp l
      have hlink : Threaded s (k :: (orphans cfg s fp l ++ kept cfg s fp l)) := by rwa [happ]
      have hlen := hlink.length_lt
      rw [List.length_cons, List.length_append] at hlen
      obtain ⟨asserts₁, hdetect, honly₁, hsame₁⟩ :=
        cpuDetectOrphanContexts_eq hlink.seg.2 (by omega)
        (fun j hj => leakCookie_of_mem_orphans hj) (fun j hj => leakCookie_of_mem_head_kept hcfg hj)
      generalize orphans cfg s fp l = dead at *
      generalize kept cfg s fp l = rest at *
      let s₁ : State :=
        { s with
          context := unlinked k fp dead rest s.context
          contexts := Function.update s.contexts k.cpu (s.contexts k.cpu - dead.length)
          failedAsserts := asserts₁ }
      have hend := s₁.criticalEnd_eq
      have hseg : Seg s₁.criticalEnd.next (ptr dead none) dead none :=
        seg_unlinked hlink.seg.2 (by rw [hend])
      obtain ⟨asserts, hfree, honly₂, hsame₂⟩ :=
        cpuFreeOrphanContexts_spec hseg (by omega) fun j hj hmem => by
        rw [hend] at hmem
        exact (hlink.pool_free j hmem).2 (by simp [hj])
      refine ⟨_, by simp [cpuRunCtxCheckOrphans, hcfg, hdetect]; exact hfree, ?_⟩
      have hknot := (List.nodup_cons.mp hlink.nodup).1
      have hnodup := (List.nodup_cons.mp hlink.nodup).2
      have hflags : ∀ j, (s₁.criticalEnd.context j).flags = (s.context j).flags := fun j => by
        rw [hend]
        exact flags_unlinked ..
      rw [hend]
      refine ⟨threaded_of_unlinked hlink rfl rfl rfl, fun j hj => ?_, ?_, rfl, rfl, rfl,
        rfl, rfl, rfl, rfl, fun a ha => ?_⟩
      · exact unlinked_of_not_mem (ne_of_mem_of_not_mem (List.mem_append_right dead hj) hknot)
          (fun hmem => List.disjoint_of_nodup_append hnodup hmem hj) ..
      · simp only [s₁, unlinked_self, hcfg, if_true]
      · -- an assertion fails when an orphan is freed, when one is unlinked or when the section ends
        by_cases hclear : a = .flagsClear ∧ ¬ ∀ j ∈ dead, (s.context j).flags = 0
        · exact .inr (.inr (.inl hclear))
        · have hmem : a ∈ s₁.criticalEnd.failedAsserts := by
            by_cases hall : ∀ j ∈ dead, (s.context j).flags = 0
            · rw [← hsame₂ fun j hj => (hflags j).trans (hall j hj)]
              exact ha
            · exact honly₂ a ha fun heq => hclear ⟨heq, hall⟩
          refine (criticalEnd_asserts hmem).imp_right fun hmem₁ => ?_
          by_cases hcount : (dead.length : Int) ≤ s.contexts k.cpu
          · rw [← hsame₁ hcount]
            exact .inr (.inr hmem₁)
          · by_cases hnegative : a = .contextsNonNegative
            · exact .inl ⟨hnegative, hcount⟩
            · exact .inr (.inr (honly₁ a hmem₁ hnegative))

/-- Orphans of the new context's engine are counted where they belong. -/
theorem OrphansFreed.linked {cfg : Config} {s s' : State} {k : CtxId} {fp : Nat}
    {dead rest : List CtxId} (hfreed : OrphansFreed cfg k fp dead rest s s')
    (h : Linked s (k :: (dead ++ rest))) (hcpu : ∀ j ∈ dead, j.cpu = k.cpu) :
    Linked s' (k :: rest) := by
  have hall : countOn dead k.cpu = dead.length :=
    List.countP_eq_length.mpr fun j hj => by simp [hcpu j hj]
  have hle := Linked.countOn_le (l := k :: dead) h k.cpu
  have hcons : countOn (k :: dead) k.cpu = countOn dead k.cpu + 1 := by simp [countOn]
  obtain ⟨hseg, hnodup, hfree, hbounded, hflags⟩ := hfreed.threaded
  refine ⟨hseg, fun cpu => ?_, hnodup, hfree, hbounded, hflags, fun a ha => ?_⟩
  · have hcount := h.counted cpu
    have happ := countOn_append dead rest cpu
    rw [countP_cons_cpu] at hcount ⊢
    simp only [countOn] at happ hall
    rw [hfreed.contexts]
    by_cases hkc : k.cpu = cpu
    · subst hkc
      rw [Function.update_self]
      omega
    · have hnone : dead.countP (fun j => j.cpu = cpu) = 0 :=
        List.countP_eq_zero.mpr fun j hj => by simp [hcpu j hj, hkc]
      rw [Function.update_of_ne (Ne.symm hkc)]
      omega
  · rcases hfreed.asserts a ha with rfl | ⟨-, hnegative⟩ | ⟨rfl, -⟩ | hmem
    · rfl
    · exact absurd (by omega) hnegative
    · rfl
    · exact h.asserts a hmem

/-- With orphans of the new context's engine only, the chain keeps its books:
the orphans are gone from it, and free. -/
theorem cpuRunCtxCheckOrphans_spec {cfg : Config} {s : State} {l : List CtxId}
    {k : CtxId} {fp : Nat} (h : Linked s (k :: l))
    (hcpu : ∀ j ∈ orphans cfg s fp l, j.cpu = k.cpu) :
    ∃ s', cpuRunCtxCheckOrphans cfg k fp s = some s' ∧
      OrphansDropped cfg k fp (kept cfg s fp l) s s' ∧ s'.mOriginalStack = s.mOriginalStack := by
  obtain ⟨s', hcheck, hfreed⟩ := cpuRunCtxCheckOrphans_eq cfg fp h.threaded
  have happ := orphans_append_kept cfg s fp l
  exact ⟨s', hcheck, ⟨hfreed.linked (by rwa [happ]) hcpu, hfreed.older, hfreed.self, hfreed.ue,
    hfreed.memory, hfreed.initialState, hfreed.images⟩, hfreed.mOriginalStack⟩

/-- The engine is saved exactly when it is in use further down the chain. -/
theorem one_lt_contexts_iff {s : State} {k : CtxId} {l : List CtxId} (h : Linked s (k :: l)) :
    s.contexts k.cpu > 1 ↔ engineInUse k.cpu l = true := by
  have hcount := h.counted k.cpu
  rw [countP_cons_cpu, if_pos rfl] at hcount
  rw [engineInUse_eq_true]
  constructor
  · intro hgt
    have hpos : 0 < l.countP fun j => j.cpu = k.cpu := by omega
    obtain ⟨j, hj, hcpu⟩ := List.countP_pos_iff.mp hpos
    exact ⟨j, hj, of_decide_eq_true hcpu⟩
  · rintro ⟨j, hj, hcpu⟩
    have hpos : 0 < l.countP fun j => j.cpu = k.cpu :=
      List.countP_pos_iff.mpr ⟨j, hj, decide_eq_true hcpu⟩
    omega

/-- The engine as `cpuRunCtxSaveOrInit` leaves it. -/
theorem cpuRunCtxSaveOrInit_eq (k : CtxId) (s : State) {inUse : Bool}
    (hc : s.contexts k.cpu > 1 ↔ inUse = true) (hf : (s.context k).flags = 0) :
    let e : Engine := if inUse then cpuStackPushRedZone k.cpu ⟨s.ue k.cpu, s.memory⟩
      else ⟨s.initialState k.cpu, s.memory⟩
    cpuRunCtxSaveOrInit k s = { s with
      context := Function.update s.context k { s.context k with
        prevUcContext := if inUse then s.ue k.cpu else (s.context k).prevUcContext
        flags := if inUse then CRC_HAVE_SAVED_UC_CONTEXT else 0 }
      ue := Function.update s.ue k.cpu e.regs
      memory := e.memory } := by
  cases inUse with
  | true =>
      have hgt : s.contexts k.cpu > 1 := hc.mpr rfl
      simp [cpuRunCtxSaveOrInit, hgt, State.withEngine, State.modifyContext, hf]
  | false =>
      have hle : ¬ s.contexts k.cpu > 1 := fun hgt => by simpa using hc.mp hgt
      have hsame : { s.context k with flags := 0 } = s.context k := by rw [← hf]
      simp only [cpuRunCtxSaveOrInit, if_neg hle, Bool.false_eq_true, if_false]
      rw [hsame, Function.update_eq_self]

section

variable {cfg : Config} {k : CtxId} {fp : Nat} {l : List CtxId} {s s₂ : State}

/-- The state in which the emulated function of `k` starts. -/
def State.started (cfg : Config) (k : CtxId) (s₂ : State) : State :=
  let s₃ := cpuRunCtxSaveOrInit k s₂
  s₃.withEngine k.cpu (emuThunkPre cfg.returnToNativeMagic k.cpu (s₃.context k).args)

/-- Saving the engine and the thunk change the new context, its engine and the memory. -/
theorem OrphansDropped.started_eq (hd : OrphansDropped cfg k fp l s s₂)
    (hf : (s.context k).flags = 0) :
    State.started cfg k s₂ = { s₂ with
      context := Function.update s₂.context k { s₂.context k with
        prevUcContext := if engineInUse k.cpu l then s.ue k.cpu else (s₂.context k).prevUcContext
        flags := if engineInUse k.cpu l then CRC_HAVE_SAVED_UC_CONTEXT else 0 }
      ue := Function.update s.ue k.cpu
        (entryEngine cfg k.cpu (s.context k).args (engineInUse k.cpu l) s).regs
      memory := (entryEngine cfg k.cpu (s.context k).args (engineInUse k.cpu l) s).memory } := by
  have hflags : (s₂.context k).flags = 0 := by
    rw [hd.self]
    exact hf
  have hargs : (s₂.context k).args = (s.context k).args := by rw [hd.self]
  have hue : s₂.ue = s.ue := hd.ue
  have hmemory : s₂.memory = s.memory := hd.memory
  have hinit : s₂.initialState = s.initialState := hd.initialState
  simp only [State.started, State.withEngine,
    cpuRunCtxSaveOrInit_eq k s₂ (one_lt_contexts_iff hd.linked) hflags, Function.update_self,
    Function.update_idem, hargs, hue, hmemory, hinit]
  rfl

theorem OrphansDropped.entered (hd : OrphansDropped cfg k fp l s s₂) (hf : (s.context k).flags = 0)
    (hsaved : WellSaved (l.map s.entry)) : Entered cfg k fp l s (State.started cfg k s₂) := by
  have hk : k ∉ l := (List.nodup_cons.mp hd.linked.nodup).1
  rw [hd.started_eq hf]
  generalize hs' : ({ s₂ with
      context := Function.update s₂.context k { s₂.context k with
        prevUcContext := if engineInUse k.cpu l then s.ue k.cpu else (s₂.context k).prevUcContext
        flags := if engineInUse k.cpu l then CRC_HAVE_SAVED_UC_CONTEXT else 0 }
      ue := Function.update s.ue k.cpu
        (entryEngine cfg k.cpu (s.context k).args (engineInUse k.cpu l) s).regs
      memory := (entryEngine cfg k.cpu (s.context k).args (engineInUse k.cpu l) s).memory } :
        State) = s'
  have hother : ∀ j, j ≠ k → s'.context j = s₂.context j := fun j hj => by
    subst hs'
    exact Function.update_of_ne hj ..
  have holder : ∀ j ∈ l, s'.context j = s.context j := fun j hj =>
    (hother j (ne_of_mem_of_not_mem hj hk)).trans (hd.older j hj)
  have hentry : s'.entry k =
      ⟨k, k.cpu, if engineInUse k.cpu l then some (s.ue k.cpu) else none⟩ := by
    subst hs'
    cases hu : engineInUse k.cpu l <;>
      simp [State.entry, CpuRunContext.haveSaved, CRC_HAVE_SAVED_UC_CONTEXT]
  have hlinked : Linked s' (k :: l) := by
    refine hd.linked.congr ?_ (fun j hj => ?_) (fun j hj => ?_) ?_ ?_ ?_
    · subst hs'; rfl
    · by_cases hjk : j = k
      · subst hs' hjk
        simp [State.next]
      · exact State.next_congr (hother j hjk)
    · by_cases hjk : j = k
      · subst hs' hjk
        cases engineInUse j.cpu l <;> simp
      · rw [hother j hjk]
        exact hd.linked.flags j hj
    · subst hs'; rfl
    · subst hs'; rfl
    · subst hs'
      exact fun a hmem _ => hmem
  have hwell : WellSaved ((k :: l).map s'.entry) := by
    refine ⟨?_, ?_⟩
    · rintro ⟨e, he, hunit⟩
      obtain ⟨j, hj, rfl⟩ := List.mem_map.mp he
      rw [hentry, engineInUse_eq_true.mpr ⟨j, hj, by simpa [hentry] using hunit⟩]
      rfl
    · rw [List.map_congr_left fun j hj => State.entry_congr (holder j hj)]
      exact hsaved
  have hself := hd.self
  refine ⟨⟨hlinked, hwell⟩, holder, hentry, fun hcfg => ?_, ?_, ?_, ?_, ?_, ?_⟩
  · subst hs'
    simp [hself, hcfg]
  · subst hs'
    simp [hself]
  · subst hs'; rfl
  · subst hs'; rfl
  · subst hs'
    exact hd.initialState
  · subst hs'
    exact hd.images

end

/-- The context is pushed, the orphans below it go, and it takes over its engine. -/
theorem cpuRunCtxEnter_eq {cfg : Config} {s s₂ : State} {k : CtxId} {fp : Nat}
    {jumpBuffer : Option Nat} (hcheck : cpuRunCtxCheckOrphans cfg k fp
      { cpuEnterCritical k s with mOriginalStack := jumpBuffer.or s.mOriginalStack } = some s₂) :
    cpuRunCtxEnter cfg jumpBuffer k fp s = some (State.started cfg k s₂) := by
  have henter : cpuRunCtxOnPrivateStackEnter cfg k fp
      { cpuEnterCritical k s with mOriginalStack := jumpBuffer.or s.mOriginalStack } =
      some (cpuRunCtxSaveOrInit k s₂) := by
    simp [cpuRunCtxOnPrivateStackEnter, hcheck]
  have hbind : cpuRunCtxEnter cfg jumpBuffer k fp s =
      (cpuRunCtxOnPrivateStackEnter cfg k fp
        { cpuEnterCritical k s with mOriginalStack := jumpBuffer.or s.mOriginalStack }).bind
        fun s =>
        some (s.withEngine k.cpu
          (emuThunkPre cfg.returnToNativeMagic k.cpu (s.context k).args)) := by
    cases jumpBuffer <;> rfl
  rw [hbind, henter, Option.bind_some, State.started]

/-- Entering a fresh context: the orphans it finds go, and it takes over its engine. -/
theorem cpuRunCtxEnter_spec (cfg : Config) {s : State} {l : List CtxId} {k : CtxId} (fp : Nat)
    (jumpBuffer : Option Nat) (h : Chained s l) (hk : Fresh s l k)
    (hcpu : ∀ j ∈ orphans cfg s fp l, j.cpu = k.cpu) :
    ∃ s', cpuRunCtxEnter cfg jumpBuffer k fp s = some s' ∧
      Entered cfg k fp (kept cfg s fp l) s s' ∧
      s'.mOriginalStack = jumpBuffer.or s.mOriginalStack := by
  let s₁ : State := { cpuEnterCritical k s with mOriginalStack := jumpBuffer.or s.mOriginalStack }
  have hlinked : Linked s₁ (k :: l) :=
    (linked_cpuEnterCritical h.toLinked hk).congr rfl (fun _ _ => rfl)
      (linked_cpuEnterCritical h.toLinked hk).flags rfl rfl fun _ ha _ => ha
  have hother : ∀ j ∈ l, s₁.context j = s.context j := fun j hj =>
    Function.update_of_ne (ne_of_mem_of_not_mem hj hk.not_mem) ..
  have horphans := orphans_congr cfg fp hother
  obtain ⟨s₂, hcheck, hdrop, horiginal⟩ := cpuRunCtxCheckOrphans_spec hlinked (horphans.1 ▸ hcpu)
  rw [horphans.2] at hdrop
  have happ := orphans_append_kept cfg s fp l
  have hsub : ∀ j ∈ kept cfg s fp l, j ∈ l := fun j hj => happ ▸ List.mem_append_right _ hj
  -- seen from before `CpuEnterCritical`, only the new context's own link differs
  have hdrop' : OrphansDropped cfg k fp (kept cfg s fp l) s s₂ :=
    { hdrop with
      older := fun j hj => (hdrop.older j hj).trans (hother j (hsub j hj))
      self := by
        rw [hdrop.self]
        simp [s₁, cpuEnterCritical, State.modifyContext, State.criticalBegin] }
  have hsaved : WellSaved ((kept cfg s fp l).map s.entry) := by
    have hall := h.saved
    rw [← happ, List.map_append] at hall
    exact hall.of_append_right
  refine ⟨State.started cfg k s₂, cpuRunCtxEnter_eq hcheck, hdrop'.entered hk.flags hsaved, ?_⟩
  rw [hdrop'.started_eq hk.flags]
  exact horiginal

/-! ## what leaving does -/

/-- `Context->Ret = ret`. -/
def State.setRet (k : CtxId) (ret : UINT64) (s : State) : State :=
  s.modifyContext k fun c => { c with ret := ret }

theorem alike_setRet (k j : CtxId) (ret : UINT64) (s : State) :
    (s.context j).Alike ((s.setRet k ret).context j) := by
  by_cases hj : j = k
  · subst hj
    simp [CpuRunContext.Alike, State.setRet, State.modifyContext]
  · simp [CpuRunContext.Alike, State.setRet, State.modifyContext, Function.update_of_ne hj]

theorem Threaded.setRet {s : State} {l : List CtxId} (h : Threaded s l) (k : CtxId) (ret : UINT64) :
    Threaded (s.setRet k ret) l :=
  h.congr rfl (fun j _ => (alike_setRet k j ret s).1) (fun j _ => (alike_setRet k j ret s).2.1) rfl

theorem Chained.setRet {s : State} {l : List CtxId} (h : Chained s l) (k : CtxId) (ret : UINT64) :
    Chained (s.setRet k ret) l :=
  h.congr rfl (fun j _ => alike_setRet k j ret s) rfl rfl fun _ ha _ => ha

theorem cpuLeaveCritical_eq {s : State} {k : CtxId} (hm : s.mTopContext = some k) :
    ∃ asserts, cpuLeaveCritical k s =
        { s with
          mTopContext := s.next k
          contexts := fun cpu => s.contexts cpu - countOn [k] cpu
          interrupts := criticalBegin s.interrupts
          failedAsserts := asserts } ∧
      (∀ a ∈ asserts, a ≠ .contextsNonNegative → a ∈ s.failedAsserts) ∧
      (1 ≤ s.contexts k.cpu → asserts = s.failedAsserts) := by
  have htop : s.criticalBegin.assert .topContext (s.criticalBegin.mTopContext = some k) =
      s.criticalBegin := State.assert_of hm _
  have hnext : s.criticalBegin.mTopContext.bind s.criticalBegin.next = s.next k := by
    rw [show s.criticalBegin.mTopContext = some k from hm]
    rfl
  have hcontexts : Function.update s.contexts k.cpu (s.contexts k.cpu - 1) =
      fun cpu => s.contexts cpu - countOn [k] cpu := by
    funext cpu
    by_cases hcpu : cpu = k.cpu
    · subst hcpu; simp [countOn]
    · simp [countOn, Function.update_of_ne hcpu, Ne.symm hcpu]
  obtain ⟨asserts, heq, honly, hsame⟩ :=
    State.countDown_spec k.cpu { s.criticalBegin with mTopContext := s.next k }
  refine ⟨asserts, ?_, honly, hsame⟩
  simp only [cpuLeaveCritical, htop, hnext]
  rw [heq, ← hcontexts]
  rfl

/-- The top context leaves a chain that is in order. -/
theorem Linked.leave {s : State} {l : List CtxId} {k : CtxId} (h : Linked s (k :: l)) :
    Linked (cpuLeaveCritical k s) l ∧ (cpuLeaveCritical k s).context = s.context ∧
      (cpuLeaveCritical k s).runContextAlloc = s.runContextAlloc := by
  obtain ⟨asserts, heq, -, hsame⟩ := cpuLeaveCritical_eq h.seg.1
  rw [hsame (h.one_le_contexts List.mem_cons_self)] at heq
  have hcontext : (cpuLeaveCritical k s).context = s.context := by rw [heq]
  have hpool : (cpuLeaveCritical k s).runContextAlloc = s.runContextAlloc := by rw [heq]
  refine ⟨⟨?_, fun cpu => ?_, hpool ▸ h.pool_nodup, fun j hj => ?_, fun j hj => ?_, fun j hj => ?_,
    ?_⟩, hcontext, hpool⟩
  · rw [heq]
    exact h.seg.2
  · have hcount := h.counted cpu
    have happ := countOn_append [k] l cpu
    rw [heq]
    simp only [countOn, List.singleton_append] at happ hcount ⊢
    omega
  · obtain ⟨hlt, hnot⟩ := h.pool_free j (hpool ▸ hj)
    exact ⟨hlt, fun hmem => hnot (List.mem_cons_of_mem _ hmem)⟩
  · exact h.bounded j (List.mem_cons_of_mem _ hj)
  · rw [hcontext]
    exact h.flags j (List.mem_cons_of_mem _ hj)
  · rw [heq]
    exact h.asserts

/-- The top context leaves: its engine gets back what it saved, and it is off
the chain. -/
theorem cpuRunCtxOnPrivateStackLeave_eq {s : State} {k : CtxId} {l : List CtxId} (ret : UINT64)
    (h : Threaded s (k :: l)) :
    ∃ asserts, cpuRunCtxOnPrivateStackLeave k ret s =
        { s.setRet k ret with
          mTopContext := ptr l none
          ue := (s.entry k).restore s.ue
          context := clearFlags [k] (s.setRet k ret).context
          contexts := fun cpu => s.contexts cpu - countOn [k] cpu
          interrupts := criticalBegin s.interrupts
          failedAsserts := asserts } ∧
      (∀ a ∈ asserts, a ≠ .contextsNonNegative → a ∈ s.failedAsserts) ∧
      (1 ≤ s.contexts k.cpu → asserts = s.failedAsserts) := by
  have hret := h.setRet k ret
  have hentry : (s.setRet k ret).entry k = s.entry k :=
    State.entry_of_alike (alike_setRet k k ret s)
  have hclear : Function.update (s.setRet k ret).context k
      { (s.setRet k ret).context k with flags := 0 } = clearFlags [k] (s.setRet k ret).context := by
    rw [← clearFlags_cons, clearFlags_nil]
  have hnext : (clearFlags [k] (s.setRet k ret).context k).prevContext = ptr l none := by
    rw [prevContext_clearFlags]
    exact hret.seg.2.eq_ptr
  have hrestore : (s.setRet k ret).restoreSaved k =
      { s.setRet k ret with
        ue := (s.entry k).restore s.ue
        context := clearFlags [k] (s.setRet k ret).context } := by
    rw [State.restoreSaved_eq (hret.flags k List.mem_cons_self), hentry, hclear]
    rfl
  have hleave : cpuRunCtxOnPrivateStackLeave k ret s =
      cpuLeaveCritical k ((s.setRet k ret).restoreSaved k) := rfl
  rw [hleave, hrestore, ← hnext]
  exact cpuLeaveCritical_eq (s := { s.setRet k ret with
    ue := (s.entry k).restore s.ue
    context := clearFlags [k] (s.setRet k ret).context }) h.seg.1

/-- The end of `CpuRunCtx` frees a context that is off the chain. -/
theorem cpuRunCtxReturn_eq {s : State} {k : CtxId} {l : List CtxId} (ret : UINT64)
    (h : Threaded s (k :: l)) :
    ∃ asserts, cpuRunCtxReturn k (cpuRunCtxOnPrivateStackLeave k ret s) =
        (ret, { (s.setRet k ret).popped [k] (ptr l none) with failedAsserts := asserts }) ∧
      (∀ a ∈ asserts, a ≠ .contextsNonNegative → a ∈ s.failedAsserts) ∧
      (1 ≤ s.contexts k.cpu → asserts = s.failedAsserts) := by
  have hentry : (s.setRet k ret).entry k = s.entry k :=
    State.entry_of_alike (alike_setRet k k ret s)
  have hfree : k.index ∉ s.runContextAlloc k.cpu := fun hmem =>
    (h.pool_free k hmem).2 List.mem_cons_self
  have hpool : (fun cpu => s.runContextAlloc cpu ++ indicesOn [k] cpu) =
      Function.update s.runContextAlloc k.cpu (s.runContextAlloc k.cpu ++ [k.index]) := by
    funext cpu
    by_cases hcpu : cpu = k.cpu
    · subst hcpu; simp [indicesOn]
    · simp [indicesOn, Function.update_of_ne hcpu, Ne.symm hcpu]
  obtain ⟨asserts, heq, honly, hsame⟩ := cpuRunCtxOnPrivateStackLeave_eq ret h
  refine ⟨asserts, ?_, honly, hsame⟩
  rw [heq]
  simp [cpuRunCtxReturn, State.criticalEnd, State.assert_eq, CriticalEndAssert, criticalBegin_eq,
    cpuFreeContext, State.popped, clearFlags, State.setRet, State.modifyContext, hfree, hpool]
  exact congrArg (fun e => e.restore s.ue) hentry.symm

/-- A context that leaves and returns to its own caller is popped like a leaked
one, and gives its own result back. -/
theorem cpuRunCtxReturn_leave {s : State} {k : CtxId} {l : List CtxId} {ret : UINT64}
    (h : Chained s (k :: l)) :
    cpuRunCtxReturn k (cpuRunCtxOnPrivateStackLeave k ret s) =
      (ret, (s.setRet k ret).popped [k] (ptr l none)) := by
  obtain ⟨asserts, heq, -, hsame⟩ := cpuRunCtxReturn_eq ret h.threaded
  rw [heq, hsame (h.one_le_contexts List.mem_cons_self)]
  rfl

end MultiArchUefi
