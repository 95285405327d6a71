import MultiArchUefi.LeakedContexts

/-!
# MultiArchUefi.OrphanContexts

`CpuDetectOrphanContexts` and `CpuFreeOrphanContexts`, of builds with
`MAU_CHECK_ORPHAN_CONTEXTS`: the contexts right below a new one whose leak
cookie is not above its own are taken off the chain and freed, without giving
the engines back what they saved.

The counter that goes down is the one of the *new* context's engine, so the
bookkeeping survives only when the orphans are all of that engine.
-/

namespace MultiArchUefi

open Chain Nesting

/-- The first loop; `k` is `Context`. -/
def detectOrphans (k : CtxId) : Nat → Option CtxId → State → Option (Option CtxId × State)
  | 0, _, _ => none
  | n + 1, orphan, s =>
      match s.next k with
      | none => some (orphan, s)
      | some prev =>
          if (s.context k).leakCookie ≥ (s.context prev).leakCookie then
            let cpu := k.cpu
            let orphan := if orphan = none then some prev else orphan
            let s := s.countDown cpu
            let s := s.modifyContext k fun c => { c with prevContext := s.next prev }
            detectOrphans k n orphan s
          else some (orphan, s)

/-- The second loop: the last context before `stop`. -/
def lastOrphan (s : State) (stop : Option CtxId) : Nat → CtxId → Option CtxId
  | 0, _ => none
  | n + 1, iter =>
      if s.next iter = stop then some iter
      else match s.next iter with
        | none => none
        | some iter => lastOrphan s stop n iter

/-- `fp` is `CURRENT_FP ()`. -/
def cpuDetectOrphanContexts (k : CtxId) (fp : Nat) (s : State) : Option (Option CtxId × State) := do
  let s := s.modifyContext k fun c => { c with leakCookie := fp }
  let (orphan, s) ← detectOrphans k chainFuel none s
  match orphan with
  | none => some (none, s)
  | some first =>
      let iter ← lastOrphan s (s.next k) chainFuel first
      some (orphan, s.modifyContext iter fun c => { c with prevContext := none })

def cpuFreeOrphanContexts (context : Option CtxId) (s : State) : Option State :=
  walk freeNextContext none chainFuel context s

/-! ## what is taken off the chain -/

/-- The contexts after those of `dead` have been unlinked from between `k` and
`rest`, and their own chain has been ended. -/
def unlinked (k : CtxId) (fp : Nat) (dead rest : List CtxId) (context : CtxId → CpuRunContext) :
    CtxId → CpuRunContext :=
  fun j =>
    if j = k then { context k with leakCookie := fp, prevContext := ptr rest none }
    else if dead.getLast? = some j then { context j with prevContext := none }
    else context j

theorem unlinked_self (k : CtxId) (fp : Nat) (dead rest : List CtxId)
    (context : CtxId → CpuRunContext) :
    unlinked k fp dead rest context k =
      { context k with leakCookie := fp, prevContext := ptr rest none } := if_pos rfl

theorem unlinked_of_not_mem {k j : CtxId} {dead : List CtxId} (hk : j ≠ k)
    (hd : j ∉ dead) (fp : Nat) (rest : List CtxId) (context : CtxId → CpuRunContext) :
    unlinked k fp dead rest context j = context j := by
  rw [unlinked, if_neg hk, if_neg fun h => hd (List.mem_of_getLast? h)]

theorem flags_unlinked (k j : CtxId) (fp : Nat) (dead rest : List CtxId)
    (context : CtxId → CpuRunContext) :
    (unlinked k fp dead rest context j).flags = (context j).flags := by
  unfold unlinked
  split
  · subst j; rfl
  · split <;> rfl

/-- The first loop unlinks one context after the other, as long as their
cookies say so. -/
theorem detectOrphans_spec {k : CtxId} {rest : List CtxId} {dead : List CtxId} {n : Nat}
    (orphan : Option CtxId) {s : State} (hn : dead.length < n)
    (hseg : Seg s.next (s.next k) (dead ++ rest) none) (hk : k ∉ dead)
    (hdead : ∀ j ∈ dead, (s.context j).leakCookie ≤ (s.context k).leakCookie)
    (hrest : ∀ j ∈ rest.head?, (s.context k).leakCookie < (s.context j).leakCookie) :
    ∃ asserts, detectOrphans k n orphan s = some (if orphan = none then ptr dead none else orphan,
        { s with
          context := Function.update s.context k { s.context k with prevContext := ptr rest none }
          contexts := Function.update s.contexts k.cpu (s.contexts k.cpu - dead.length)
          failedAsserts := asserts }) ∧
      (∀ a ∈ asserts, a ≠ .contextsNonNegative → a ∈ s.failedAsserts) ∧
      ((dead.length : Int) ≤ s.contexts k.cpu → asserts = s.failedAsserts) := by
  induction dead generalizing n orphan s with
  | nil =>
      obtain ⟨n, rfl⟩ : ∃ m, n = m + 1 := ⟨n - 1, by simp at hn; omega⟩
      have hnext : s.next k = ptr rest none := hseg.eq_ptr
      have hsame : { s.context k with prevContext := ptr rest none } = s.context k := by
        rw [← hnext]; rfl
      have horphan : (if orphan = none then ptr [] none else orphan) = orphan := by
        cases orphan <;> rfl
      have hzero : s.contexts k.cpu - (([] : List CtxId).length : Int) = s.contexts k.cpu := by simp
      refine ⟨s.failedAsserts, ?_, fun a ha _ => ha, fun _ => rfl⟩
      rw [hsame, horphan, hzero, Function.update_eq_self, Function.update_eq_self]
      cases rest with
      | nil => simp [detectOrphans, hnext]
      | cons j rest =>
          have hlt := Nat.not_le.mpr (hrest j rfl)
          simp [detectOrphans, hnext, hlt]
  | cons j dead ih =>
      obtain ⟨n, rfl⟩ : ∃ m, n = m + 1 := ⟨n - 1, by simp at hn; omega⟩
      obtain ⟨hnext, hseg'⟩ := hseg
      obtain ⟨hkj, hkd⟩ : k ≠ j ∧ k ∉ dead := by simpa using hk
      have hge : (s.context k).leakCookie ≥ (s.context j).leakCookie := hdead j List.mem_cons_self
      obtain ⟨asserts₁, hdown, hother₁, hsame₁⟩ := s.countDown_spec k.cpu
      -- one turn: `j` is unlinked and the new context's engine counts down
      let s₁ : State :=
        { s with
          context := Function.update s.context k { s.context k with prevContext := s.next j }
          contexts := Function.update s.contexts k.cpu (s.contexts k.cpu - 1)
          failedAsserts := asserts₁ }
      have hother : ∀ i, i ≠ k → s₁.context i = s.context i :=
        fun i hi => Function.update_of_ne hi ..
      have hkrest : k ∉ rest := by
        intro hmem
        obtain ⟨pre, post, rfl⟩ := List.append_of_mem hmem
        -- the chain from `k` would come back to `k`
        have hcyc : Seg s.next (some k) (k :: j :: (dead ++ (pre ++ k :: post))) none :=
          ⟨rfl, hnext, hseg'⟩
        exact (List.nodup_cons.mp hcyc.nodup).1 (by simp)
      have hcookie : (s₁.context k).leakCookie = (s.context k).leakCookie := by simp [s₁]
      have hstep : detectOrphans k (n + 1) orphan s =
          detectOrphans k n (if orphan = none then some j else orphan) s₁ := by
        rw [detectOrphans, hnext]
        simp only [if_pos hge, hdown]
        rfl
      have hnext₁ : s₁.next k = s.next j := by simp [s₁, State.next]
      obtain ⟨asserts, hrec, hother₂, hsame₂⟩ :=
        ih (if orphan = none then some j else orphan) (s := s₁)
        (by simpa using hn)
        (by
          rw [hnext₁]
          refine hseg'.congr fun i hi => State.next_congr (hother i fun hik => ?_)
          subst hik
          rcases List.mem_append.mp hi with hi | hi
          · exact hkd hi
          · exact hkrest hi)
        hkd
        (fun i hi => by
          rw [hcookie, hother i (ne_of_mem_of_not_mem hi hkd)]
          exact hdead i (List.mem_cons_of_mem j hi))
        (fun i hi => by
          have hik : i ≠ k := fun h => hkrest (h ▸ List.mem_of_head? hi)
          rw [hcookie, hother i hik]
          exact hrest i hi)
      refine ⟨asserts, ?_, fun a ha hne => hother₁ a (hother₂ a ha hne) hne, fun hc => ?_⟩
      · have horphan : (if (if orphan = none then some j else orphan) = none then ptr dead none
            else if orphan = none then some j else orphan) =
            if orphan = none then ptr (j :: dead) none else orphan := by
          cases orphan <;> simp
        have hcount : s.contexts k.cpu - 1 - (dead.length : Int) =
            s.contexts k.cpu - ((j :: dead).length : Int) := by
          rw [List.length_cons]
          omega
        rw [hstep, hrec, horphan]
        simp only [s₁, Function.update_self, Function.update_idem, hcount]
      · simp only [List.length_cons] at hc
        rw [← hsame₁ (by omega)]
        refine hsame₂ ?_
        simp only [s₁, Function.update_self]
        omega

/-- The second loop finds the last of the unlinked contexts. -/
theorem lastOrphan_spec {s : State} {stop : Option CtxId} {dead : List CtxId} {j : CtxId} {n : Nat}
    (hn : dead.length < n) (hseg : Seg s.next (s.next j) dead stop)
    (hstop : ∀ i ∈ dead, some i ≠ stop) :
    lastOrphan s stop n j = (j :: dead).getLast? := by
  induction dead generalizing j n with
  | nil =>
      obtain ⟨n, rfl⟩ : ∃ m, n = m + 1 := ⟨n - 1, by simp at hn; omega⟩
      simp [lastOrphan, seg_nil.mp hseg]
  | cons i dead ih =>
      obtain ⟨n, rfl⟩ : ∃ m, n = m + 1 := ⟨n - 1, by simp at hn; omega⟩
      obtain ⟨hnext, hseg'⟩ := hseg
      have hne : s.next j ≠ stop := by
        rw [hnext]
        exact hstop i List.mem_cons_self
      rw [lastOrphan, if_neg hne, hnext, List.getLast?_cons_cons]
      exact ih (by simpa using hn) hseg' fun i' hi' => hstop i' (List.mem_cons_of_mem i hi')

/-- A context is not on the chain below it. -/
theorem nodup_of_below {s : State} {k : CtxId} {l : List CtxId} (h : Seg s.next (s.next k) l none) :
    (k :: l).Nodup :=
  (show Seg s.next (some k) (k :: l) none from ⟨rfl, h⟩).nodup

/-- The unlinked contexts form a chain of their own. -/
theorem seg_unlinked {s s' : State} {k : CtxId} {fp : Nat} {dead rest : List CtxId}
    (h : Seg s.next (s.next k) (dead ++ rest) none)
    (hs' : s'.context = unlinked k fp dead rest s.context) :
    Seg s'.next (ptr dead none) dead none := by
  have hnodup := nodup_of_below h
  have hk : k ∉ dead := fun hmem => (List.nodup_cons.mp hnodup).1 (List.mem_append_left rest hmem)
  have hdead : dead.Nodup := (List.nodup_cons.mp hnodup).2.of_append_left
  rcases List.eq_nil_or_concat' dead with rfl | ⟨init, last, rfl⟩
  · exact rfl
  · have hlast : last ∉ init := by
      exact fun hmem => List.disjoint_of_nodup_append hdead hmem List.mem_cons_self
    rw [List.append_assoc] at h
    obtain ⟨r, hinit, hr⟩ := Chain.seg_append.mp h
    have hstart : ptr (init ++ [last]) none = s.next k := by
      rw [hinit.eq_ptr, hr.eq_ptr]
      cases init <;> rfl
    rw [hstart]
    refine Chain.seg_append.mpr ⟨some last, ?_, rfl, ?_⟩
    · -- the links before the last one are the old ones
      have hr' : r = some last := hr.1
      subst hr'
      refine hinit.congr fun i hi => ?_
      have hik : i ≠ k := fun hik => hk (by simp [← hik, hi])
      have hil : last ≠ i := fun hil => hlast (hil ▸ hi)
      simp [State.next, hs', unlinked, hik, hil]
    · have hlk : last ≠ k := fun hlk => hk (by simp [← hlk])
      simp [State.next, hs', unlinked, hlk]

/-- Detecting orphans unlinks them, and counts them down on the new context's engine. -/
theorem cpuDetectOrphanContexts_eq {s : State} {k : CtxId} {fp : Nat} {dead rest : List CtxId}
    (h : Seg s.next (s.next k) (dead ++ rest) none) (hlen : dead.length < chainFuel)
    (hdead : ∀ j ∈ dead, (s.context j).leakCookie ≤ fp)
    (hrest : ∀ j ∈ rest.head?, fp < (s.context j).leakCookie) :
    ∃ asserts, cpuDetectOrphanContexts k fp s = some (ptr dead none,
        { s with
          context := unlinked k fp dead rest s.context
          contexts := Function.update s.contexts k.cpu (s.contexts k.cpu - dead.length)
          failedAsserts := asserts }) ∧
      (∀ a ∈ asserts, a ≠ .contextsNonNegative → a ∈ s.failedAsserts) ∧
      ((dead.length : Int) ≤ s.contexts k.cpu → asserts = s.failedAsserts) := by
  obtain ⟨hknot, hnodup⟩ := List.nodup_cons.mp (nodup_of_below h)
  let s₀ : State := s.modifyContext k fun c => { c with leakCookie := fp }
  have hother : ∀ j ∈ dead ++ rest, s₀.context j = s.context j := fun j hj =>
    Function.update_of_ne (ne_of_mem_of_not_mem hj hknot) ..
  have hnext₀ : s₀.next k = s.next k := by simp [s₀, State.next, State.modifyContext]
  have hseg₀ : Seg s₀.next (s₀.next k) (dead ++ rest) none := by
    rw [hnext₀]
    exact h.congr fun j hj => State.next_congr (hother j hj)
  have hcookie : (s₀.context k).leakCookie = fp := by simp [s₀, State.modifyContext]
  obtain ⟨asserts, hfirst, honly, hsame⟩ := detectOrphans_spec none hlen hseg₀
    (fun hmem => hknot (List.mem_append_left rest hmem))
    (fun j hj => by rw [hcookie, hother j (List.mem_append_left rest hj)]; exact hdead j hj)
    (fun j hj => by
      rw [hcookie, hother j (List.mem_append_right dead (List.mem_of_head? hj))]
      exact hrest j hj)
  refine ⟨asserts, ?_, honly, hsame⟩
  rw [if_pos rfl] at hfirst
  have hk₀ : { s₀.context k with prevContext := ptr rest none } =
      { s.context k with leakCookie := fp, prevContext := ptr rest none } := by
    simp [s₀, State.modifyContext]
  simp only [cpuDetectOrphanContexts]
  rw [show s.modifyContext k _ = s₀ from rfl, hfirst, hk₀]
  cases dead with
  | nil =>
      have hctx : Function.update s₀.context k
          { s.context k with leakCookie := fp, prevContext := ptr rest none } =
          unlinked k fp [] rest s.context := by
        funext j
        by_cases hj : j = k <;> simp [unlinked, s₀, State.modifyContext, hj]
      simp only [bind, Option.bind, ptr_nil, hctx]
      rfl
  | cons j dead =>
      obtain ⟨last, hlast⟩ : ∃ last, (j :: dead).getLast? = some last :=
        ⟨_, List.getLast?_eq_getLast_of_ne_nil (List.cons_ne_nil j dead)⟩
      have hlastmem : last ∈ j :: dead := List.mem_of_getLast? hlast
      have hlk : last ≠ k := ne_of_mem_of_not_mem (List.mem_append_left rest hlastmem) hknot
      let s₁ : State :=
        { s₀ with
          context := Function.update s₀.context k
            { s.context k with leakCookie := fp, prevContext := ptr rest none }
          contexts := Function.update s₀.contexts k.cpu (s₀.contexts k.cpu - (j :: dead).length)
          failedAsserts := asserts }
      have hnext₁ : s₁.next k = ptr rest none := by simp [s₁, State.next]
      have hsecond : lastOrphan s₁ (s₁.next k) chainFuel j = some last := by
        rw [← hlast, hnext₁]
        obtain ⟨r, hd, hr⟩ := Chain.seg_append.mp hseg₀
        refine lastOrphan_spec (by simp at hlen; omega) ?_ ?_
        · rw [← hr.eq_ptr]
          have hlink : ∀ i ∈ j :: dead, s₁.next i = s₀.next i := fun i hi =>
            State.next_congr (Function.update_of_ne
              (ne_of_mem_of_not_mem (List.mem_append_left rest hi) hknot) ..)
          exact (hd.congr hlink).2
        · intro i hi
          exact h.ne_ptr i (List.mem_cons_of_mem j hi)
      simp only [bind, Option.bind, ptr_cons]
      rw [show (State.mk _ _ _ _ _ _ _ _ _ _ _) = s₁ from rfl, hsecond]
      have hctx : (s₁.modifyContext last fun c => { c with prevContext := none }).context =
          unlinked k fp (j :: dead) rest s.context := by
        funext i
        by_cases hik : i = k
        · subst hik
          simp [unlinked, State.modifyContext, s₁, Ne.symm hlk]
        · by_cases hil : i = last
          · subst hil
            simp [unlinked, State.modifyContext, s₁, s₀, hlk, hlast]
          · have hne : (j :: dead).getLast? ≠ some i := by
              rw [hlast]
              exact fun heq => hil (Option.some.inj heq).symm
            simp only [unlinked, if_neg hik, if_neg hne]
            simp [State.modifyContext, s₁, s₀, hik, hil]
      rw [← hctx]
      rfl

/-- When the orphans are all of the new context's engine, they are counted. -/
theorem cpuDetectOrphanContexts_spec {s : State} {k : CtxId} {fp : Nat} {dead rest : List CtxId}
    (h : Linked s (k :: (dead ++ rest)))
    (hdead : ∀ j ∈ dead, (s.context j).leakCookie ≤ fp)
    (hrest : ∀ j ∈ rest.head?, fp < (s.context j).leakCookie) (hcpu : ∀ j ∈ dead, j.cpu = k.cpu) :
    cpuDetectOrphanContexts k fp s = some (ptr dead none,
      { s with
        context := unlinked k fp dead rest s.context
        contexts := Function.update s.contexts k.cpu (s.contexts k.cpu - dead.length) }) := by
  have hlen := h.threaded.length_lt
  rw [List.length_cons, List.length_append] at hlen
  obtain ⟨asserts, heq, -, hsame⟩ :=
    cpuDetectOrphanContexts_eq h.threaded.seg.2 (by omega) hdead hrest
  have hall : countOn dead k.cpu = dead.length :=
    List.countP_eq_length.mpr fun j hj => by simp [hcpu j hj]
  have hle := Linked.countOn_le (l := k :: dead) h k.cpu
  have hcons : countOn (k :: dead) k.cpu = countOn dead k.cpu + 1 := by simp [countOn]
  rw [heq, hsame (by omega)]

/-- Freeing the unlinked contexts gives them back to their pools. -/
theorem cpuFreeOrphanContexts_spec {s : State} {dead : List CtxId}
    (hseg : Seg s.next (ptr dead none) dead none) (hlen : dead.length < chainFuel)
    (hp : ∀ k ∈ dead, k.index ∉ s.runContextAlloc k.cpu) :
    ∃ asserts, cpuFreeOrphanContexts (ptr dead none) s = some
        { s with
          runContextAlloc := fun cpu => s.runContextAlloc cpu ++ indicesOn dead cpu
          failedAsserts := asserts } ∧
      (∀ a ∈ asserts, a ≠ .flagsClear → a ∈ s.failedAsserts) ∧
      ((∀ k ∈ dead, (s.context k).flags = 0) → asserts = s.failedAsserts) := by
  obtain ⟨asserts, heq, honly⟩ := foldl_freeNextContext hseg.nodup hp
  refine ⟨asserts, ?_, honly⟩
  rw [cpuFreeOrphanContexts, walk_chain (fun _ _ => rfl) next_freeNextContext hseg
    (by simp) hlen, heq]

end MultiArchUefi
