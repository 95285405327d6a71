import MultiArchUefi.Interrupt
import MultiArchUefi.Image
import MultiArchUefi.Lib.Chain
import MultiArchUefi.Lib.Memory
import MultiArchUefi.Lib.Nesting

/-!
# MultiArchUefi.Context

The driver's globals and the life of a `CpuRunContext`: it is allocated from
its engine's pool, put on the chain `mTopContext` starts, taken off again and
freed.

`Chained s l` says that the chain of `s` is well formed and consists of `l`,
newest context first; every operation is specified by what it does to it.
-/

namespace MultiArchUefi

open Chain Nesting WordMemory

/-! ## run contexts -/

/-- How many contexts `CpuInitEx` asks for, for each engine. -/
abbrev MAX_CPU_RUN_CONTEXTS : Nat := 32

/-- How many it can get: `ObjectAllocCreate` fills the page that they take, which
makes 46, and 42 with a `LeakCookie`. -/
abbrev RUN_CONTEXTS_LIMIT : Nat := 46

/-- Address of a `CpuRunContext`: the engine whose pool it is in (`Context->Cpu`)
and its index there. -/
structure CtxId where
  cpu : CpuId
  index : Nat
deriving DecidableEq, Repr

/-- A context is told by its engine and its index. -/
theorem ctxId_ext {k j : CtxId} (hcpu : k.cpu = j.cpu) (hindex : k.index = j.index) : k = j := by
  cases k
  cases j
  simp_all

def CRC_HAVE_SAVED_UC_CONTEXT : UINT64 := 1

/-- A `CpuRunContext`.  `leakCookie` is a frame address, and only used in
`MAU_CHECK_ORPHAN_CONTEXTS` builds. -/
structure CpuRunContext where
  prevUcContext : RegFile
  programCounter : UINT64
  leakCookie : Nat
  args : Args
  ret : UINT64
  flags : UINT64
  prevContext : Option CtxId
  imageRecord : Option RecordId

/-- `(Context->Flags & CRC_HAVE_SAVED_UC_CONTEXT) != 0`. -/
def CpuRunContext.haveSaved (c : CpuRunContext) : Bool :=
  decide (c.flags &&& CRC_HAVE_SAVED_UC_CONTEXT ≠ 0)

/-! ## the driver's globals -/

/-- What the modelled functions rely on in debug builds: their `ASSERT`s, and a
pointer that is only printed. -/
inductive Assertion where
  /-- `ASSERT (Cpu->Contexts >= 0)` -/
  | contextsNonNegative
  /-- `ASSERT (mTopContext == Context)` -/
  | topContext
  /-- `ASSERT (Context->Flags == 0)` -/
  | flagsClear
  /-- `ASSERT (IsListEmpty (&Object->Link))` -/
  | objectUnlisted
  /-- `ASSERT (!GetInterruptState ())` -/
  | interruptsDisabled
  /-- `ASSERT (gIgnoreInterruptManipulation != 0)` -/
  | sectionOpen
  /-- `ASSERT (ProgramCounter != 0)` -/
  | programCounterNotNull
  /-- `ASSERT (Context)` -/
  | imageContext
  /-- `ASSERT_EFI_ERROR (Status)` -/
  | exitStatus
  /-- No `ASSERT`, but a `DEBUG` print that reads `Context->Cpu`. -/
  | contextNotNull
deriving DecidableEq, Repr

/-- The globals of the driver, memory included.  The fields of `CpuX64` and
`CpuAArch64` are functions of the engine; `runContextAlloc` is the list of free
objects of the engine's pool.  `mOriginalStack` is the frame `SetJump` was
called in.  `failedAsserts` remembers the assertions that did not hold; a
release build carries on. -/
structure State where
  mTopContext : Option CtxId
  context : CtxId → CpuRunContext
  contexts : CpuId → Int
  runContextAlloc : CpuId → List Nat
  ue : CpuId → RegFile
  initialState : CpuId → RegFile
  images : Images
  memory : Memory
  interrupts : Interrupts
  mOriginalStack : Option Nat
  failedAsserts : List Assertion

namespace State

/-- `ASSERT (p)`. -/
def assert (a : Assertion) (p : Prop) [Decidable p] (s : State) : State :=
  if p then s else { s with failedAsserts := a :: s.failedAsserts }

/-- `Context->PrevContext`. -/
def next (s : State) (k : CtxId) : Option CtxId := (s.context k).prevContext

/-- Change the fields of one context. -/
def modifyContext (k : CtxId) (f : CpuRunContext → CpuRunContext) (s : State) : State :=
  { s with context := Function.update s.context k (f (s.context k)) }

def criticalBegin (s : State) : State :=
  { s with interrupts := MultiArchUefi.criticalBegin s.interrupts }

def criticalEnd (s : State) : State :=
  let s := s.assert .sectionOpen (CriticalEndAssert s.interrupts)
  { s with interrupts := MultiArchUefi.criticalEnd s.interrupts }

/-- What the context `k` is for the engines: whose it is, and what it saved. -/
def entry (s : State) (k : CtxId) : Entry CtxId CpuId RegFile :=
  ⟨k, k.cpu, if (s.context k).haveSaved then some (s.context k).prevUcContext else none⟩

@[simp] theorem entry_id (s : State) (k : CtxId) : (s.entry k).id = k := rfl

@[simp] theorem entry_unit (s : State) (k : CtxId) : (s.entry k).unit = k.cpu := rfl

/-- What is remembered of a context only depends on its data. -/
theorem entry_congr {s s' : State} {k : CtxId} (h : s'.context k = s.context k) :
    s'.entry k = s.entry k := by
  simp [entry, h]

theorem next_congr {s s' : State} {k : CtxId} (h : s'.context k = s.context k) :
    s'.next k = s.next k := by
  simp [next, h]

end State

/-- The contexts met when following `PrevContext` from `p`, at most `n` of them. -/
def State.chainFrom (s : State) : Nat → Option CtxId → List CtxId
  | 0, _ => []
  | _ + 1, none => []
  | n + 1, some k => k :: s.chainFrom n (s.next k)

/-! ## allocation -/

/-- `CpuRunContextOnAlloc` scrubs everything but `PrevUcContext` and `Cpu`. -/
def cpuRunContextOnAlloc (c : CpuRunContext) : CpuRunContext :=
  { c with
    programCounter := 0
    leakCookie := 0
    args := fun _ => 0
    ret := 0
    flags := 0
    prevContext := none
    imageRecord := none }

/-- `NULL` when the pool is exhausted. -/
def cpuAllocContext (cpu : CpuId) (s : State) : Option (CtxId × State) :=
  match s.runContextAlloc cpu with
  | [] => none
  | index :: rest =>
      let k : CtxId := ⟨cpu, index⟩
      let s := s.modifyContext k cpuRunContextOnAlloc
      some (k, { s with runContextAlloc := Function.update s.runContextAlloc cpu rest })

def cpuFreeContext (k : CtxId) (s : State) : State :=
  let s := s.assert .flagsClear ((s.context k).flags = 0)
  let s := s.assert .objectUnlisted (k.index ∉ s.runContextAlloc k.cpu)
  { s with runContextAlloc :=
      Function.update s.runContextAlloc k.cpu (s.runContextAlloc k.cpu ++ [k.index]) }

/-! ## entering and leaving -/

def cpuEnterCritical (k : CtxId) (s : State) : State :=
  let s := s.criticalBegin
  let s := s.modifyContext k fun c => { c with prevContext := s.mTopContext }
  let s := { s with mTopContext := some k }
  { s with contexts := Function.update s.contexts k.cpu (s.contexts k.cpu + 1) }

/-- `Cpu->Contexts--; ASSERT (Cpu->Contexts >= 0);` -/
def State.countDown (cpu : CpuId) (s : State) : State :=
  let s := { s with contexts := Function.update s.contexts cpu (s.contexts cpu - 1) }
  s.assert .contextsNonNegative (s.contexts cpu ≥ 0)

def cpuLeaveCritical (k : CtxId) (s : State) : State :=
  let s := s.criticalBegin
  let s := s.assert .topContext (s.mTopContext = some k)
  let s := { s with mTopContext := s.mTopContext.bind s.next }
  s.countDown k.cpu

/-- The engine gets back what the context saved of it, if it saved something. -/
def State.restoreSaved (k : CtxId) (s : State) : State :=
  if (s.context k).haveSaved then
    let s := { s with ue := Function.update s.ue k.cpu (s.context k).prevUcContext }
    s.modifyContext k fun c => { c with flags := c.flags ^^^ CRC_HAVE_SAVED_UC_CONTEXT }
  else s

/-! ## what the operations change -/

namespace State

/-- An `ASSERT` that holds does nothing. -/
theorem assert_of {a : Assertion} {p : Prop} [Decidable p] (h : p) (s : State) :
    s.assert a p = s := if_pos h

/-- A failed assertion is the only trace an assertion leaves. -/
theorem assert_eq (a : Assertion) (p : Prop) [Decidable p] (s : State) :
    s.assert a p =
      { s with failedAsserts := if p then s.failedAsserts else a :: s.failedAsserts } := by
  by_cases h : p <;> simp [assert, h]

/-- The end of a section changes the interrupts, and may find that none is open. -/
theorem criticalEnd_eq (s : State) :
    s.criticalEnd = { s with
      interrupts := MultiArchUefi.criticalEnd s.interrupts
      failedAsserts := s.criticalEnd.failedAsserts } := by
  simp only [criticalEnd, assert_eq]

/-- Counting down changes the counter, and may find it negative. -/
theorem countDown_spec (cpu : CpuId) (s : State) :
    ∃ asserts, s.countDown cpu = { s with
        contexts := Function.update s.contexts cpu (s.contexts cpu - 1)
        failedAsserts := asserts } ∧
      (∀ a ∈ asserts, a ≠ .contextsNonNegative → a ∈ s.failedAsserts) ∧
      (1 ≤ s.contexts cpu → asserts = s.failedAsserts) := by
  by_cases h : 1 ≤ s.contexts cpu
  · refine ⟨s.failedAsserts, assert_of ?_ _, fun a ha _ => ha, fun _ => rfl⟩
    simpa using h
  · refine ⟨.contextsNonNegative :: s.failedAsserts, if_neg ?_, fun a ha hne => ?_,
      fun h' => absurd h' h⟩
    · simpa using h
    · exact (List.mem_cons.mp ha).resolve_left hne

/-- Toggling the flag where it is set clears it. -/
theorem flags_xor_saved {f : UINT64} (h : f = 0 ∨ f = CRC_HAVE_SAVED_UC_CONTEXT)
    (hs : f &&& CRC_HAVE_SAVED_UC_CONTEXT ≠ 0) : f ^^^ CRC_HAVE_SAVED_UC_CONTEXT = 0 := by
  rcases h with rfl | rfl
  · exact absurd (by decide) hs
  · decide

/-- Restoring what a context saved clears its flag. -/
theorem restoreSaved_eq {s : State} {k : CtxId}
    (h : (s.context k).flags = 0 ∨ (s.context k).flags = CRC_HAVE_SAVED_UC_CONTEXT) :
    s.restoreSaved k =
      { s with
        ue := (s.entry k).restore s.ue
        context := Function.update s.context k { s.context k with flags := 0 } } := by
  cases hs : (s.context k).haveSaved with
  | true =>
      have hne := of_decide_eq_true hs
      simp [restoreSaved, hs, modifyContext, Entry.restore, entry, flags_xor_saved h hne]
  | false =>
      have hzero : (s.context k).flags = 0 := by
        rcases h with h | h
        · exact h
        · rw [CpuRunContext.haveSaved, h] at hs
          exact absurd hs (by decide)
      have hsame : { s.context k with flags := 0 } = s.context k := by rw [← hzero]
      rw [hsame, Function.update_eq_self]
      simp [restoreSaved, hs, Entry.restore, entry]

end State

/-! ## the chain -/

/-- Assertions about the bookkeeping of contexts. -/
def Assertion.isAccounting : Assertion → Bool
  | .contextsNonNegative | .topContext | .objectUnlisted => true
  | _ => false

/-- The chain of `s` is well formed and consists of `l`, and shares no context
with the pools, whatever the counters say. -/
structure Threaded (s : State) (l : List CtxId) : Prop where
  seg : Seg s.next s.mTopContext l none
  pool_nodup : ∀ cpu, (s.runContextAlloc cpu).Nodup
  pool_free : ∀ k : CtxId, k.index ∈ s.runContextAlloc k.cpu →
    k.index < RUN_CONTEXTS_LIMIT ∧ k ∉ l
  bounded : ∀ k ∈ l, k.index < RUN_CONTEXTS_LIMIT
  flags : ∀ k ∈ l, (s.context k).flags = 0 ∨ (s.context k).flags = CRC_HAVE_SAVED_UC_CONTEXT

/-- The chain of `s` is well formed and consists of `l`: the counters count it,
it shares no context with the pools, and no assertion about it has failed. -/
structure Linked (s : State) (l : List CtxId) : Prop where
  seg : Seg s.next s.mTopContext l none
  counted : ∀ cpu, s.contexts cpu = (l.countP fun k => k.cpu = cpu : Nat)
  pool_nodup : ∀ cpu, (s.runContextAlloc cpu).Nodup
  pool_free : ∀ k : CtxId, k.index ∈ s.runContextAlloc k.cpu →
    k.index < RUN_CONTEXTS_LIMIT ∧ k ∉ l
  bounded : ∀ k ∈ l, k.index < RUN_CONTEXTS_LIMIT
  flags : ∀ k ∈ l, (s.context k).flags = 0 ∨ (s.context k).flags = CRC_HAVE_SAVED_UC_CONTEXT
  asserts : ∀ a ∈ s.failedAsserts, a.isAccounting = false

/-- A well-formed chain whose contexts have saved every engine that an older
context of the chain needs. -/
structure Chained (s : State) (l : List CtxId) : Prop extends Linked s l where
  saved : WellSaved (l.map s.entry)

/-- The contexts of both pools. -/
def allContexts : List CtxId :=
  (List.range RUN_CONTEXTS_LIMIT).map (CtxId.mk .x64) ++
    (List.range RUN_CONTEXTS_LIMIT).map (CtxId.mk .aarch64)

/-- Every context within the limit is listed. -/
theorem mem_allContexts {k : CtxId} (h : k.index < RUN_CONTEXTS_LIMIT) : k ∈ allContexts := by
  obtain ⟨cpu, index⟩ := k
  cases cpu <;> simpa [allContexts] using h

/-- Fuel for the loops over the chain: one test more than there are contexts. -/
def chainFuel : Nat := 2 * RUN_CONTEXTS_LIMIT + 1

/-- There are not more contexts than the loops can visit. -/
theorem length_lt_chainFuel {l : List CtxId} (hnodup : l.Nodup)
    (hbounded : ∀ k ∈ l, k.index < RUN_CONTEXTS_LIMIT) : l.length < chainFuel := by
  have hsub := List.subperm_of_subset hnodup fun k hk => mem_allContexts (hbounded k hk)
  calc
    l.length ≤ allContexts.length := hsub.length_le
    _ < chainFuel := by decide

/-- The chain `mTopContext` starts. -/
def State.chain (s : State) : List CtxId := s.chainFrom chainFuel s.mTopContext

/-- Following the links of a segment from `mTopContext` gives the segment. -/
theorem State.chain_of_seg {s : State} {l : List CtxId} (h : Seg s.next s.mTopContext l none)
    (hlen : l.length < chainFuel) : s.chain = l := by
  suffices hfrom : ∀ (n : Nat) (l : List CtxId) (p : Option CtxId), l.length < n →
    Seg s.next p l none →
      s.chainFrom n p = l from hfrom chainFuel l s.mTopContext hlen h
  intro n
  induction n with
  | zero => exact fun l p hlt => absurd hlt (Nat.not_lt_zero _)
  | succ n ih =>
      intro l p hlt hseg
      cases l with
      | nil => rw [seg_nil.mp hseg]; rfl
      | cons k l =>
          obtain ⟨rfl, hseg⟩ := hseg
          rw [State.chainFrom, ih l _ (by simpa using hlt) hseg]

namespace Threaded

variable {s s' : State} {l : List CtxId}

theorem nodup (h : Threaded s l) : l.Nodup := h.seg.nodup

/-- A chain is shorter than the walk over all contexts. -/
theorem length_lt (h : Threaded s l) : l.length < chainFuel := length_lt_chainFuel h.nodup h.bounded

/-- The chain is what following the links from `mTopContext` gives. -/
theorem chain_eq (h : Threaded s l) : s.chain = l := State.chain_of_seg h.seg h.length_lt

/-- The links, the flags and the pools are all that matters. -/
theorem congr (h : Threaded s l) (hm : s'.mTopContext = s.mTopContext)
    (hn : ∀ k ∈ l, s'.next k = s.next k) (hf : ∀ k ∈ l, (s'.context k).flags = (s.context k).flags)
    (hp : s'.runContextAlloc = s.runContextAlloc) : Threaded s' l where
  seg := hm ▸ h.seg.congr hn
  pool_nodup := hp ▸ h.pool_nodup
  pool_free := hp ▸ h.pool_free
  bounded := h.bounded
  flags := fun k hk => by rw [hf k hk]; exact h.flags k hk

end Threaded

namespace Linked

variable {s s' : State} {l : List CtxId} {k : CtxId}

theorem threaded (h : Linked s l) : Threaded s l :=
  ⟨h.seg, h.pool_nodup, h.pool_free, h.bounded, h.flags⟩

theorem nodup (h : Linked s l) : l.Nodup := h.threaded.nodup

theorem length_lt (h : Linked s l) : l.length < chainFuel := h.threaded.length_lt

theorem chain_eq (h : Linked s l) : s.chain = l := h.threaded.chain_eq

/-- The links, flags and bookkeeping are all that matters. -/
theorem congr (h : Linked s l) (hm : s'.mTopContext = s.mTopContext)
    (hn : ∀ k ∈ l, s'.next k = s.next k)
    (hf : ∀ k ∈ l, (s'.context k).flags = 0 ∨ (s'.context k).flags = CRC_HAVE_SAVED_UC_CONTEXT)
    (hc : s'.contexts = s.contexts) (hp : s'.runContextAlloc = s.runContextAlloc)
    (ha : ∀ a ∈ s'.failedAsserts, a.isAccounting = true → a ∈ s.failedAsserts) : Linked s' l where
  seg := hm ▸ h.seg.congr hn
  counted := hc ▸ h.counted
  pool_nodup := hp ▸ h.pool_nodup
  pool_free := hp ▸ h.pool_free
  bounded := h.bounded
  flags := hf
  asserts := fun a hmem => by
    cases hacc : a.isAccounting with
    | false => rfl
    | true => rw [← hacc]; exact h.asserts a (ha a hmem hacc)

/-- A context on the chain is counted. -/
theorem one_le_contexts (h : Linked s l) (hk : k ∈ l) : 1 ≤ s.contexts k.cpu := by
  rw [h.counted]
  have hpos : 0 < l.countP fun j => j.cpu = k.cpu := List.countP_pos_iff.mpr ⟨k, hk, by simp⟩
  exact_mod_cast hpos

end Linked

/-- Two contexts are linked alike and have saved the same. -/
def CpuRunContext.Alike (c c' : CpuRunContext) : Prop :=
  c'.prevContext = c.prevContext ∧ c'.flags = c.flags ∧ c'.prevUcContext = c.prevUcContext

/-- Equal contexts are alike. -/
theorem CpuRunContext.Alike.of_eq {c c' : CpuRunContext} (h : c' = c) : c.Alike c' := by
  subst h
  exact ⟨rfl, rfl, rfl⟩

/-- Contexts that are alike have the same entry. -/
theorem State.entry_of_alike {s s' : State} {k : CtxId} (h : (s.context k).Alike (s'.context k)) :
    s'.entry k = s.entry k := by
  obtain ⟨-, hf, hp⟩ := h
  simp [entry, CpuRunContext.haveSaved, hf, hp]

/-- A chain only depends on the counters, the pools, and the contexts on it. -/
theorem Chained.congr {s s' : State} {l : List CtxId} (h : Chained s l)
    (hm : s'.mTopContext = s.mTopContext) (hctx : ∀ k ∈ l, (s.context k).Alike (s'.context k))
    (hc : s'.contexts = s.contexts) (hp : s'.runContextAlloc = s.runContextAlloc)
    (ha : ∀ a ∈ s'.failedAsserts, a.isAccounting = true → a ∈ s.failedAsserts) : Chained s' l where
  toLinked := h.toLinked.congr hm (fun k hk => (hctx k hk).1)
    (fun k hk => by rw [(hctx k hk).2.1]; exact h.flags k hk) hc hp ha
  saved := by
    rw [List.map_congr_left fun k hk => State.entry_of_alike (hctx k hk)]
    exact h.saved

end MultiArchUefi
