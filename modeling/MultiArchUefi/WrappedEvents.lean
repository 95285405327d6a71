import MultiArchUefi.Transfer
import MultiArchUefi.Lib.Lookup
import MultiArchUefi.Lib.Ring
import MultiArchUefi.Lib.Run

/-!
# MultiArchUefi.WrappedEvents

`EfiWrapperCreateEventCommon` and `EfiWrapperCloseEvent`.  A wrapped event is
created with `EfiWrappersEventNotify` as its notification function and a
`WRAPPED_EVENT_RECORD` as its context, and the record is on `mEventList` until
the event is closed.

The list is a ring of the records' own links, and may end up in memory that has
been freed, which other code may change.
-/

namespace MultiArchUefi

open Transition Lookup Ring

/-! ## records -/

/-- A `WRAPPED_EVENT_RECORD` without its list link. -/
structure WrappedEventRecord where
  event : UINT64
  x64NotifyContext : UINT64
  x64NotifyFunction : UINT64
  callerProgramCounter : UINT64
  cpu : CpuId
deriving DecidableEq

/-- A `LIST_ENTRY`: `&mEventList` or `&Record->Link`. -/
inductive EventEntry where
  | list
  | link (record : UINT64)
deriving DecidableEq

/-- `BASE_CR (Entry, WRAPPED_EVENT_RECORD, Link)`, which is never taken of `&mEventList`. -/
def EventEntry.record : EventEntry → UINT64
  | list => 0
  | link record => record

/-- The links of `mEventList` and of the records, the memory the records are in,
and the records that are allocated. -/
structure WrappedEvents where
  links : Links EventEntry
  record : UINT64 → WrappedEventRecord
  pool : List UINT64

/-- `RemoveEntryList (&Record->Link)`. -/
def WrappedEvents.remove (r : UINT64) (w : WrappedEvents) : WrappedEvents :=
  { w with links := removeEntryList (.link r) w.links }

/-- `FreePool (Record)`, which leaves the memory as it is. -/
def WrappedEvents.freePool (r : UINT64) (w : WrappedEvents) : WrappedEvents :=
  { w with pool := w.pool.erase r }

/-! ## searching the list -/

/-- An entry is one of `2 ^ 64 + 1`: a loop over the list that has not ended after
one test more does not end. -/
def listTests : Nat := 2 ^ 64 + 2

/-- The record that is found, if any; `none` when the loop does not end. -/
def efiWrappersFindEvent (w : WrappedEvents) (event : UINT64) : Option (Option UINT64) :=
  (find w.links .list (fun entry => (w.record entry.record).event == event) listTests
    (w.links.fwd .list)).map (Option.map EventEntry.record)

/-- The records on the list; `none` when the list does not end. -/
def WrappedEvents.mEventList (w : WrappedEvents) : Option (List UINT64) :=
  (walk w.links .list listTests (w.links.fwd .list)).map (List.map EventEntry.record)

def EventEntry.code : EventEntry → Fin (2 ^ 64 + 1)
  | list => Fin.last (2 ^ 64)
  | link record => record.toFin.castSucc

theorem EventEntry.code_injective : Function.Injective EventEntry.code := by
  intro x y h
  cases x with
  | list =>
      cases y with
      | list => rfl
      | link r => exact absurd h.symm (Fin.castSucc_lt_last r.toFin).ne
  | link r =>
      cases y with
      | list => exact absurd h (Fin.castSucc_lt_last r.toFin).ne
      | link r' => exact congrArg link (BitVec.toFin_inj.mp (Fin.castSucc_injective _ h))

/-- As many tests as a loop over the list is given are enough. -/
theorem efiWrappersFindEvent_eq_none {w : WrappedEvents} {event : UINT64}
    (h : efiWrappersFindEvent w event = none) (n : Nat) :
    find w.links .list (fun entry => (w.record entry.record).event == event) n
      (w.links.fwd .list) = none :=
  find_eq_none_of_card EventEntry.code EventEntry.code_injective (Option.map_eq_none_iff.mp h) n

/-- As many steps as the walk over the list is given are enough. -/
theorem mEventList_eq_none {w : WrappedEvents} (h : w.mEventList = none) (n : Nat) :
    walk w.links .list n (w.links.fwd .list) = none := by
  have hfind := walk_eq_none_iff.mp (Option.map_eq_none_iff.mp h)
  exact walk_eq_none_iff.mpr
    (find_eq_none_of_card EventEntry.code EventEntry.code_injective hfind n)

theorem EventEntry.link_injective :
    Function.Injective EventEntry.link := fun _ _ h => EventEntry.link.inj h

theorem length_lt_listTests {m : Links EventEntry} {entries : List EventEntry}
    (h : IsRing m .list entries) :
    entries.length < listTests := by
  have hnodup := h.nodup.map EventEntry.code_injective
  have hle := hnodup.length_le_card
  rw [Fintype.card_fin, List.length_map, List.length_cons] at hle
  unfold listTests
  omega

theorem mEventList_eq {w : WrappedEvents} {l : List UINT64}
    (h : IsRing w.links .list (l.map EventEntry.link)) :
    w.mEventList = some l := by
  have hrecord : EventEntry.record ∘ EventEntry.link = id := rfl
  rw [WrappedEvents.mEventList, h.walk_eq (length_lt_listTests h), Option.map_some,
    List.map_map, hrecord, List.map_id]

/-- The list is well formed, its records are `l`, and they are allocated. -/
structure RecordsListed (w : WrappedEvents) (l : List UINT64) : Prop where
  ring : IsRing w.links .list (l.map EventEntry.link)
  allocated : ∀ r ∈ l, r ∈ w.pool

namespace RecordsListed

variable {w : WrappedEvents} {l : List UINT64} {r : UINT64}

theorem nodup (h : RecordsListed w l) : l.Nodup := (List.nodup_cons.mp h.ring.nodup).2.of_map

theorem unique {l' : List UINT64} (h : RecordsListed w l) (h' : RecordsListed w l') : l = l' :=
  EventEntry.link_injective.list_map (h.ring.unique h'.ring)

/-- The search finds what is to be found among the records. -/
theorem findEvent_eq (h : RecordsListed w l) (event : UINT64) :
    efiWrappersFindEvent w event = some (l.find? fun r => (w.record r).event == event) := by
  have hrecord : Option.map EventEntry.record ∘ Option.map EventEntry.link = id := by
    funext r
    cases r <;> rfl
  rw [efiWrappersFindEvent, h.ring.find_eq (length_lt_listTests h.ring), List.find?_map,
    Option.map_some]
  exact congrArg some (congrFun hrecord (l.find? fun r => (w.record r).event == event))

/-- A record in memory that was not allocated is listed last. -/
theorem insert_ring (h : RecordsListed w l) (hr : r ∉ w.pool) :
    IsRing (insertTailList .list (.link r) w.links) .list ((l ++ [r]).map EventEntry.link) := by
  have hnew : EventEntry.link r ∉ EventEntry.list :: l.map EventEntry.link := by
    simp only [List.mem_cons, reduceCtorEq, List.mem_map, EventEntry.link.injEq,
      exists_eq_right, false_or]
    exact fun hmem => hr (h.allocated r hmem)
  rw [List.map_append]
  exact h.ring.insertTail hnew

theorem insert (h : RecordsListed w l) (hr : r ∉ w.pool) (record : UINT64 → WrappedEventRecord) :
    RecordsListed ⟨insertTailList .list (.link r) w.links, record, r :: w.pool⟩ (l ++ [r]) := by
  refine ⟨h.insert_ring hr, fun r' hr' => ?_⟩
  rcases List.mem_append.mp hr' with hr' | hr'
  · exact List.mem_cons_of_mem r (h.allocated r' hr')
  · rw [List.mem_singleton.mp hr']
    exact List.mem_cons_self

/-- The ring without one of its records. -/
theorem remove_ring (h : RecordsListed w l) (hr : r ∈ l) :
    IsRing (w.remove r).links .list ((l.erase r).map EventEntry.link) := by
  obtain ⟨l₁, l₂, hr₁, rfl, herase⟩ := List.exists_erase_eq hr
  have hring := h.ring
  rw [List.map_append, List.map_cons] at hring
  rw [herase, List.map_append]
  exact hring.removeEntry

/-- A record is taken off the list and freed. -/
theorem remove (h : RecordsListed w l) (hr : r ∈ l) :
    RecordsListed ((w.remove r).freePool r) (l.erase r) := by
  refine ⟨h.remove_ring hr, fun r' hr' => ?_⟩
  obtain ⟨hne, hmem⟩ := (List.Nodup.mem_erase_iff h.nodup).mp hr'
  exact (List.mem_erase_of_ne hne).mpr (h.allocated r' hmem)

end RecordsListed

/-- From `w` to `w'` other code has changed memory that is neither the list head nor allocated. -/
def WrappedEvents.Spared (w w' : WrappedEvents) : Prop :=
  (w'.links.fwd .list = w.links.fwd .list ∧ w'.links.back .list = w.links.back .list) ∧
    (∀ r ∈ w.pool, (w'.links.fwd (.link r) = w.links.fwd (.link r) ∧
      w'.links.back (.link r) = w.links.back (.link r)) ∧ w'.record r = w.record r) ∧
    w'.pool = w.pool

instance (w w' : WrappedEvents) : Decidable (w.Spared w') :=
  inferInstanceAs (Decidable (_ ∧ _ ∧ _))

theorem RecordsListed.spared {w w' : WrappedEvents} {l : List UINT64} (h : RecordsListed w l)
    (hspared : w.Spared w') :
    RecordsListed w' l := by
  obtain ⟨hlist, hpool, heq⟩ := hspared
  refine ⟨h.ring.congr fun z hz => ?_, fun r hr => heq ▸ h.allocated r hr⟩
  cases z with
  | list => exact hlist
  | link r =>
      simp only [List.mem_cons, reduceCtorEq, List.mem_map, EventEntry.link.injEq, exists_eq_right,
        false_or] at hz
      exact (hpool r (h.allocated r hz)).1

/-! ## memory -/

/-- `sizeof (WRAPPED_EVENT_RECORD)`. -/
def wrappedEventRecordSize : Nat := 56

/-- What a call of `AllocatePool` may return: a record's worth of memory that is not in use. -/
def WrappedEvents.Allocates (w : WrappedEvents) (r : UINT64) : Prop :=
  r ∉ w.pool ∧ r ≠ 0 ∧ r.toNat + wrappedEventRecordSize ≤ 2 ^ 64

instance (w : WrappedEvents) (r : UINT64) : Decidable (w.Allocates r) :=
  inferInstanceAs (Decidable (_ ∧ _))

/-! ## creating an event -/

/-- A call of `gBS->CreateEvent`, or of `gBS->CreateEventEx` with its group. -/
structure CreateEventArgs where
  type : BitVec 32
  notifyTpl : UINT64
  notifyFunction : UINT64
  notifyContext : UINT64
  eventGroup : Option UINT64
  event : UINT64

/-- The call that `Args` stand for. -/
def CreateEventArgs.ofArgs (cfg : Config) (originalProgramCounter : UINT64) (args : Args) :
    CreateEventArgs :=
  let type := (args 0).setWidth 32
  if originalProgramCounter = cfg.createEvent then ⟨type, args 1, args 2, args 3, none, args 4⟩
  else ⟨type, args 1, args 2, args 3, some (args 4), args 5⟩

/-- `&Record->Event`. -/
def eventField (r : UINT64) : UINT64 := r + 16

/-- The same call with the wrapper's own function, context and output; `eventNotify`
is the address of `EfiWrappersEventNotify`. -/
def CreateEventArgs.wrapped (c : CreateEventArgs) (eventNotify r : UINT64) : CreateEventArgs :=
  { c with
    notifyFunction := eventNotify
    notifyContext := r
    event := eventField r }

/-- What `gBS->CreateEvent` and `gBS->CreateEventEx` do: an error, or the event. -/
abbrev CreateEventService := CreateEventArgs → Except ErrorStatus UINT64

/-- What a call of `EfiWrapperCreateEventCommon` does: its status, its call of
the service, what it writes through `Event`, and the records it leaves. -/
structure CreateOutcome where
  status : UINT64
  call : Option CreateEventArgs
  write : Option (UINT64 × UINT64)
  events : WrappedEvents

/-- `allocatePool` is the memory that is found, with its old contents, and
`topCpu` the engine of `CpuGetTopContext ()`. -/
def efiWrapperCreateEventCommon (cfg : Config) (eventNotify : UINT64) (gBS : CreateEventService)
    (topCpu : CpuId) (originalProgramCounter returnAddress : UINT64) (args : Args)
    (allocatePool : Option (UINT64 × WrappedEventRecord)) (w : WrappedEvents) : CreateOutcome :=
  let c := CreateEventArgs.ofArgs cfg originalProgramCounter args
  match allocatePool with
  | none => ⟨EFI_OUT_OF_RESOURCES, none, none, w⟩
  | some (r, contents) =>
      let record := { contents with
        cpu := topCpu
        callerProgramCounter := returnAddress
        x64NotifyContext := c.notifyContext
        x64NotifyFunction := c.notifyFunction }
      let w : WrappedEvents :=
        ⟨insertTailList .list (.link r) w.links, Function.update w.record r record, r :: w.pool⟩
      let call := c.wrapped eventNotify r
      match gBS call with
      | .error status => ⟨status.val, some call, some (c.event, 0), w.freePool r⟩
      | .ok event =>
          -- the service has written the event to `Record->Event`
          let w := { w with
            record := Function.update w.record r { w.record r with event := event } }
          ⟨EFI_SUCCESS, some call, some (c.event, (w.record r).event), w⟩

/-- The assertion that `EfiWrapperCreateEventCommon` makes holds however it is reached. -/
theorem createEventEx_of_override {cfg : Config} {programCounter : UINT64}
    (h : nativeValidateSupportedCall cfg programCounter = .efiWrapperCreateEventCommon)
    (hne : programCounter ≠ cfg.createEvent) : programCounter = cfg.createEventEx := by
  unfold nativeValidateSupportedCall efiWrappersOverride at h
  grind

/-! ## closing an event -/

/-- What a call of `EfiWrapperCloseEvent` does: its status, the events that it
passes to `gBS->CloseEvent`, and the records it leaves. -/
structure CloseOutcome where
  status : UINT64
  calls : List UINT64
  events : WrappedEvents

/-- `none` where the search does not end, or `Record->Event` would be read through
`NULL`; `gBS` is `gBS->CloseEvent`. -/
def efiWrapperCloseEvent (gBS : UINT64 → UINT64) (args : Args) (w : WrappedEvents) :
    Option CloseOutcome :=
  match efiWrappersFindEvent w (args 0) with
  | some (some r) =>
      let event := (w.record r).event
      some ⟨gBS event, [event], (w.remove r).freePool r⟩
  | some none => none
  | none => none

/-- What is closed is the event of the record that is found, which goes. -/
theorem efiWrapperCloseEvent_eq_some {gBS : UINT64 → UINT64} {args : Args} {w : WrappedEvents}
    {o : CloseOutcome} (h : efiWrapperCloseEvent gBS args w = some o) :
    ∃ r, efiWrappersFindEvent w (args 0) = some (some r) ∧
      o = ⟨gBS (args 0), [args 0], (w.remove r).freePool r⟩ := by
  unfold efiWrapperCloseEvent at h
  split at h
  · rename_i r hfind
    obtain ⟨entry, hentry, rfl⟩ : ∃ entry, find w.links .list
        (fun entry => (w.record entry.record).event == args 0) listTests (w.links.fwd .list) =
        some (some entry) ∧
        entry.record = r := by
      obtain ⟨found, hfound, hmap⟩ := Option.map_eq_some_iff.mp hfind
      obtain ⟨entry, rfl, hr⟩ := Option.map_eq_some_iff.mp hmap
      exact ⟨entry, hfound, hr⟩
    have hevent := beq_iff_eq.mp (find_eq_some hentry).2
    rw [hevent] at h
    exact ⟨_, hfind, (Option.some.inj h).symm⟩
  · cases h
  · cases h

/-! ## the firmware -/

/-- An event that has been created and not been closed: the function and the
context that the firmware has stored, and what the client has asked for. -/
structure OpenEvent where
  notifyFunction : UINT64
  notifyContext : UINT64
  asked : WrappedEventRecord

/-- The driver and the firmware. -/
structure EventSystem where
  driver : WrappedEvents
  opened : List OpenEvent

/-- What emulated code and others do. -/
inductive EventCall where
  | create (topCpu : CpuId) (originalProgramCounter returnAddress : UINT64) (args : Args)
      (allocatePool : Option (UINT64 × WrappedEventRecord)) (service : Except ErrorStatus UINT64)
  | close (args : Args) (closeEvent : UINT64)
  /-- Memory that the driver has not allocated changes. -/
  | others (links : Links EventEntry) (record : UINT64 → WrappedEventRecord)

/-- The call reaches a wrapper, memory is found where none is in use, an event
is created that is not open, and what is closed is an event that is open. -/
def EventCall.Allowed (cfg : Config) (s : EventSystem) : EventCall → Prop
  | create _ originalProgramCounter _ _ allocatePool service =>
      nativeValidateSupportedCall cfg originalProgramCounter = .efiWrapperCreateEventCommon ∧
        (∀ r ∈ allocatePool, s.driver.Allocates r.1) ∧
        ∀ o ∈ s.opened, service.toOption ≠ some o.asked.event
  | close args _ => args 0 ∈ s.opened.map (·.asked.event)
  | others links record => s.driver.Spared ⟨links, record, s.driver.pool⟩

instance EventCall.decidableAllowed (cfg : Config) (s : EventSystem) :
    (call : EventCall) → Decidable (call.Allowed cfg s)
  | .create _ _ _ _ _ _ => inferInstanceAs (Decidable (_ ∧ _))
  | .close _ _ => inferInstanceAs (Decidable (_ ∈ _))
  | .others _ _ => inferInstanceAs (Decidable (WrappedEvents.Spared _ _))

/-- The firmware stores what the service is called with. -/
def EventSystem.opens (s : EventSystem) (o : CreateOutcome) (asked : WrappedEventRecord) :
    List OpenEvent :=
  match o.call with
  | some c =>
      if efiError o.status then s.opened
        else s.opened ++ [⟨c.notifyFunction, c.notifyContext, asked⟩]
  | none => s.opened

/-- The event is open no longer, unless the service has refused to close it. -/
def EventSystem.closes (s : EventSystem) (event status : UINT64) : List OpenEvent :=
  if efiError status then s.opened else s.opened.filter fun e => e.asked.event ≠ event

/-- One call; `none` when it is not made, or when the wrapper never returns from it. -/
def eventStep (cfg : Config) (eventNotify : UINT64) (s : EventSystem) (call : EventCall) :
    Option EventSystem :=
  if call.Allowed cfg s then
    match call with
    | .create topCpu originalProgramCounter returnAddress args allocatePool service =>
        let o := efiWrapperCreateEventCommon cfg eventNotify (fun _ => service) topCpu
          originalProgramCounter returnAddress args allocatePool s.driver
        let c := CreateEventArgs.ofArgs cfg originalProgramCounter args
        some ⟨o.events, s.opens o
          ⟨service.toOption.getD 0, c.notifyContext, c.notifyFunction, returnAddress, topCpu⟩⟩
    | .close args closeEvent =>
        (efiWrapperCloseEvent (fun _ => closeEvent) args s.driver).map fun o =>
          ⟨o.events, s.closes (args 0) o.status⟩
    | .others links record => some { s with driver := ⟨links, record, s.driver.pool⟩ }
  else none

/-- `EfiWrappersInit`; the memory of the records may hold anything. -/
def noEvents (links : Links EventEntry) (contents : UINT64 → WrappedEventRecord) : EventSystem :=
  ⟨⟨initializeListHead .list links, contents, []⟩, []⟩

/-! ## integrity -/

/-- The list is well formed, its records are those of the open events, one each, in
memory that is allocated, and they hold what the client has asked for. -/
structure EventsExact (s : EventSystem) : Prop where
  listed : RecordsListed s.driver (s.opened.map (·.notifyContext))
  records : ∀ o ∈ s.opened, s.driver.record o.notifyContext = o.asked
  events : (s.opened.map (·.asked.event)).Nodup

/-- From `w` to `w'` the list and what is allocated have stayed. -/
def WrappedEvents.Kept (w w' : WrappedEvents) : Prop :=
  (∀ l, RecordsListed w l → RecordsListed w' l) ∧ w'.pool = w.pool

/-- If the call is a creation that fails, the list is as before. -/
def CreateFailsUnchanged (cfg : Config) (eventNotify : UINT64) (s : EventSystem) : EventCall → Prop
  | .create topCpu originalProgramCounter returnAddress args allocatePool service =>
      let o := efiWrapperCreateEventCommon cfg eventNotify (fun _ => service) topCpu
        originalProgramCounter returnAddress args allocatePool s.driver
      efiError o.status = true → s.driver.Kept o.events
  | .close _ _ => True
  | .others _ _ => True

/-- A creation whose record has been allocated does not fail in the service, and
the service does not refuse to close an event. -/
def ServiceSucceeds (_ : EventSystem) : EventCall → Prop
  | .create _ _ _ _ (some _) (.error _) => False
  | .close _ closeEvent => efiError closeEvent = false
  | _ => True

instance (s : EventSystem) : (call : EventCall) → Decidable (ServiceSucceeds s call)
  | .create _ _ _ _ (some _) (.error _) => isFalse id
  | .create _ _ _ _ (some _) (.ok _) => isTrue trivial
  | .create _ _ _ _ none _ => isTrue trivial
  | .close _ _ => inferInstanceAs (Decidable (_ = _))
  | .others _ _ => isTrue trivial

/-! ## what a call does -/

variable {cfg : Config} {eventNotify : UINT64} {s s' : EventSystem} {call : EventCall}

/-- The driver after the record `r` has been put on its list. -/
def WrappedEvents.inserted (r : UINT64) (record : WrappedEventRecord) (w : WrappedEvents) :
    WrappedEvents :=
  ⟨insertTailList .list (.link r) w.links, Function.update w.record r record, r :: w.pool⟩

/-- What one call does to the driver and the firmware. -/
inductive EventMove (eventNotify : UINT64) (s : EventSystem) : EventCall → EventSystem → Prop
  | notAllocated {topCpu : CpuId} {originalProgramCounter returnAddress : UINT64} {args : Args}
      {service : Except ErrorStatus UINT64} :
      EventMove eventNotify s
        (.create topCpu originalProgramCounter returnAddress args none service) s
  /-- The service fails; the record is freed, but stays on the list. -/
  | failed {topCpu : CpuId} {originalProgramCounter returnAddress r : UINT64} {args : Args}
      {contents : WrappedEventRecord} {status : ErrorStatus} (record : WrappedEventRecord) :
      s.driver.Allocates r →
      EventMove eventNotify s
        (.create topCpu originalProgramCounter returnAddress args (some (r, contents))
          (.error status))
        ⟨(s.driver.inserted r record).freePool r, s.opened⟩
  | created {topCpu : CpuId} {originalProgramCounter returnAddress r event : UINT64} {args : Args}
      {contents : WrappedEventRecord} (asked : WrappedEventRecord) :
      s.driver.Allocates r → asked.callerProgramCounter = returnAddress →
      (∀ o ∈ s.opened, asked.event ≠ o.asked.event) →
      EventMove eventNotify s
        (.create topCpu originalProgramCounter returnAddress args (some (r, contents)) (.ok event))
        ⟨s.driver.inserted r asked, s.opened ++ [⟨eventNotify, r, asked⟩]⟩
  /-- The record goes, whether or not the event has been closed. -/
  | closed {args : Args} {closeEvent : UINT64} (r : UINT64) :
      efiWrappersFindEvent s.driver (args 0) = some (some r) →
      EventMove eventNotify s (.close args closeEvent)
        ⟨(s.driver.remove r).freePool r, s.closes (args 0) closeEvent⟩
  | others {links : Links EventEntry} {record : UINT64 → WrappedEventRecord} :
      s.driver.Spared ⟨links, record, s.driver.pool⟩ →
      EventMove eventNotify s (.others links record)
        { s with driver := ⟨links, record, s.driver.pool⟩ }

theorem eventMove_of_step (hstep : eventStep cfg eventNotify s call = some s') :
    EventMove eventNotify s call s' := by
  unfold eventStep at hstep
  split at hstep
  · rename_i hallowed
    cases call with
    | create topCpu originalProgramCounter returnAddress args allocatePool service =>
        obtain ⟨-, hpool, hevent⟩ := hallowed
        simp only [Option.some.injEq] at hstep
        cases allocatePool with
        | none =>
            obtain rfl := hstep
            exact .notAllocated
        | some p =>
            obtain ⟨r, contents⟩ := p
            cases service with
            | error status =>
                have herror : efiError status.val = true := status.property
                simp only [efiWrapperCreateEventCommon, EventSystem.opens, herror, if_true] at hstep
                rw [← hstep]
                exact .failed _ (hpool _ rfl)
            | ok event =>
                have hok : efiError EFI_SUCCESS = false := by decide
                simp only [efiWrapperCreateEventCommon, EventSystem.opens, hok,
                  Bool.false_eq_true, if_false, Function.update_self, Function.update_idem] at hstep
                rw [← hstep]
                exact .created ⟨event, _, _, returnAddress, topCpu⟩ (hpool _ rfl) rfl
                  fun o ho heq => hevent o ho (congrArg some heq)
    | close args closeEvent =>
        obtain ⟨o, hclose, rfl⟩ := Option.map_eq_some_iff.mp hstep
        obtain ⟨r, hfind, rfl⟩ := efiWrapperCloseEvent_eq_some hclose
        exact .closed r hfind
    | others links record =>
        obtain rfl := Option.some.inj hstep
        exact .others hallowed
  · cases hstep

/-! ## open events -/

/-- The list is that of the open events, and the firmware notifies the driver of them. -/
structure Mirrors (eventNotify : UINT64) (s : EventSystem) : Prop extends EventsExact s where
  stored : ∀ o ∈ s.opened, o.notifyFunction = eventNotify

namespace Mirrors

theorem empty (links : Links EventEntry) (contents : UINT64 → WrappedEventRecord) :
    Mirrors eventNotify (noEvents links contents) where
  listed := ⟨isRing_initialized links .list, by simp [noEvents]⟩
  records := by simp [noEvents]
  events := by simp [noEvents]
  stored := by simp [noEvents]

theorem allocated (h : Mirrors eventNotify s) {o : OpenEvent} (ho : o ∈ s.opened) :
    o.notifyContext ∈ s.driver.pool :=
  h.listed.allocated _ (List.mem_map_of_mem ho)

/-- The search finds the record of the event, if it is open. -/
theorem findEvent_eq (h : Mirrors eventNotify s) (event : UINT64) :
    efiWrappersFindEvent s.driver event =
      some ((s.opened.find? fun o => o.asked.event == event).map (·.notifyContext)) := by
  rw [h.listed.findEvent_eq, List.find?_map]
  refine congrArg (some ∘ Option.map _) (List.find?_congr fun o ho => ?_)
  rw [Function.comp_apply, h.records o ho]

/-- What is found is the record of an open event. -/
theorem of_findEvent (h : Mirrors eventNotify s) {event r : UINT64}
    (hfind : efiWrappersFindEvent s.driver event = some (some r)) :
    ∃ o ∈ s.opened, o.asked.event = event ∧ o.notifyContext = r := by
  rw [h.findEvent_eq] at hfind
  obtain ⟨o, ho, hr⟩ := Option.map_eq_some_iff.mp (Option.some.inj hfind)
  have hevent := List.find?_some (p := fun o : OpenEvent => o.asked.event == event) ho
  exact ⟨o, List.mem_of_find?_eq_some ho, beq_iff_eq.mp hevent, hr⟩

/-- The record of an event that is closed is the one that is taken off the list. -/
theorem erase_eq (h : Mirrors eventNotify s) {o : OpenEvent} (ho : o ∈ s.opened) :
    (s.opened.map (·.notifyContext)).erase o.notifyContext =
      (s.opened.filter fun e => e.asked.event ≠ o.asked.event).map (·.notifyContext) := by
  have hone : AtMostOne (fun r => (s.driver.record r).event == o.asked.event)
      (s.opened.map (·.notifyContext)) := by
    intro r hr r' hr' hevent hevent'
    obtain ⟨e, he, rfl⟩ := List.mem_map.mp hr
    obtain ⟨e', he', rfl⟩ := List.mem_map.mp hr'
    rw [beq_iff_eq, h.records e he] at hevent
    rw [beq_iff_eq, h.records e' he'] at hevent'
    rw [List.inj_on_of_nodup_map h.events he he' (hevent.trans hevent'.symm)]
  have hp : ((s.driver.record o.notifyContext).event == o.asked.event) = true := by
    rw [h.records o ho, beq_self_eq_true]
  rw [erase_eq_filter h.listed.nodup hone (List.mem_map_of_mem ho) hp, List.filter_map]
  refine congrArg (List.map _) (List.filter_congr fun e he => ?_)
  rw [Function.comp_apply, h.records e he, decide_not, beq_eq_decide]

/-- A new event has its record. -/
theorem created (h : Mirrors eventNotify s) {r : UINT64} {asked : WrappedEventRecord}
    (hr : s.driver.Allocates r) (hevent : ∀ o ∈ s.opened, asked.event ≠ o.asked.event) :
    Mirrors eventNotify ⟨s.driver.inserted r asked, s.opened ++ [⟨eventNotify, r, asked⟩]⟩ := by
  refine ⟨⟨?_, fun o ho => ?_, ?_⟩, fun o ho => ?_⟩
  · rw [List.map_append]
    exact h.listed.insert hr.1 _
  · rcases List.mem_append.mp ho with ho | ho
    · have hne : o.notifyContext ≠ r := ne_of_mem_of_not_mem (h.allocated ho) hr.1
      exact (Function.update_of_ne hne ..).trans (h.records o ho)
    · obtain rfl := List.mem_singleton.mp ho
      exact Function.update_self ..
  · simp only [List.map_append, List.map_cons, List.map_nil]
    refine List.nodup_append.mpr ⟨h.events, List.nodup_singleton _, fun e he e' he' => ?_⟩
    obtain ⟨o, ho, rfl⟩ := List.mem_map.mp he
    rw [List.mem_singleton.mp he']
    exact (hevent o ho).symm
  · rcases List.mem_append.mp ho with ho | ho
    · exact h.stored o ho
    · obtain rfl := List.mem_singleton.mp ho
      rfl

/-- A closed event takes its record with it. -/
theorem closed (h : Mirrors eventNotify s) {o : OpenEvent} (ho : o ∈ s.opened) :
    Mirrors eventNotify ⟨(s.driver.remove o.notifyContext).freePool o.notifyContext,
      s.opened.filter fun e => e.asked.event ≠ o.asked.event⟩ := by
  have hmem : ∀ e ∈ s.opened.filter fun e => e.asked.event ≠ o.asked.event, e ∈ s.opened :=
    fun e he =>
    List.mem_of_mem_filter he
  refine ⟨⟨?_, fun e he => h.records e (hmem e he), h.events.sublist (List.filter_sublist.map _)⟩,
    fun e he => h.stored e (hmem e he)⟩
  rw [← h.erase_eq ho]
  exact h.listed.remove (List.mem_map_of_mem ho)

/-- Every call keeps the list exact, as long as the services do not fail. -/
theorem move (h : Mirrors eventNotify s) (hservice : ServiceSucceeds s call)
    (hmove : EventMove eventNotify s call s') : Mirrors eventNotify s' := by
  cases hmove with
  | notAllocated => exact h
  | failed record hr => exact absurd hservice id
  | created asked hr _ hevent => exact h.created hr hevent
  | @closed args closeEvent r hfind =>
      obtain ⟨o, ho, hevent, rfl⟩ := h.of_findEvent hfind
      rw [EventSystem.closes, show efiError closeEvent = false from hservice,
        if_neg Bool.false_ne_true, ← hevent]
      exact h.closed ho
  | others hspared =>
      exact ⟨⟨h.listed.spared hspared, fun o ho => (hspared.2.1 _ (h.allocated ho)).2.trans
        (h.records o ho), h.events⟩, h.stored⟩

/-- No call that is allowed goes wrong. -/
theorem step_isSome (h : Mirrors eventNotify s) (hallowed : call.Allowed cfg s) :
    ∃ s', eventStep cfg eventNotify s call = some s' := by
  unfold eventStep
  rw [if_pos hallowed]
  cases call with
  | create topCpu originalProgramCounter returnAddress args allocatePool service => exact ⟨_, rfl⟩
  | others links record => exact ⟨_, rfl⟩
  | close args closeEvent =>
      obtain ⟨o, ho, hevent⟩ := List.mem_map.mp hallowed
      have hsome : ∃ r, efiWrappersFindEvent s.driver (args 0) = some (some r) := by
        rw [h.findEvent_eq]
        cases hfind : s.opened.find? fun o => o.asked.event == args 0 with
        | some o' => exact ⟨_, rfl⟩
        | none => exact absurd (beq_iff_eq.mpr hevent) (List.find?_eq_none.mp hfind o ho)
      obtain ⟨r, hr⟩ := hsome
      simp only [efiWrapperCloseEvent, hr, Option.map_some]
      exact ⟨_, rfl⟩

end Mirrors

/-! ## runs -/

theorem mirrors_of_run {links : Links EventEntry} {contents : UINT64 → WrappedEventRecord}
    {calls : List EventCall}
    (h : Run (eventStep cfg eventNotify) ServiceSucceeds (noEvents links contents) calls s) :
    Mirrors eventNotify s :=
  h.invariant (fun _ _ _ hs hservice hstep => hs.move hservice (eventMove_of_step hstep))
    (.empty links contents)

/-- A creation that does not fail in the service fails before the list is touched. -/
theorem createFailsUnchanged_of_serviceSucceeds (h : ServiceSucceeds s call) :
    CreateFailsUnchanged cfg eventNotify s call := by
  cases call with
  | close args closeEvent => trivial
  | others links record => trivial
  | create topCpu originalProgramCounter returnAddress args allocatePool service =>
      intro herror
      cases allocatePool with
      | none => exact ⟨fun _ hl => hl, rfl⟩
      | some p =>
          cases service with
          | error status => exact h.elim
          | ok event =>
              have hok : efiError EFI_SUCCESS = false := by decide
              exact absurd herror (by rw [Bool.not_eq_true]; exact hok)

/-- In every run in which the services do not fail, the list is well formed and exact,
no call goes wrong, and a creation that fails leaves the list as it was. -/
theorem eventsExact_of_run (cfg : Config) (eventNotify : UINT64) (links : Links EventEntry)
    (contents : UINT64 → WrappedEventRecord) (calls : List EventCall) (s : EventSystem)
    (h : Run (eventStep cfg eventNotify) ServiceSucceeds (noEvents links contents) calls s) :
    EventsExact s ∧
      (∀ call, call.Allowed cfg s → ∃ s', eventStep cfg eventNotify s call = some s') ∧
      ∀ call, ServiceSucceeds s call → CreateFailsUnchanged cfg eventNotify s call := by
  have hmirrors := mirrors_of_run h
  exact ⟨hmirrors.toEventsExact, fun _ => hmirrors.step_isSome,
    fun _ hservice => createFailsUnchanged_of_serviceSucceeds hservice⟩

/-! ## closing any event -/

/-- The record of an event that has been created through the wrapper and is open. -/
def EventSystem.recordOf (s : EventSystem) (event : UINT64) : Option UINT64 :=
  (s.opened.find? fun o => o.asked.event == event).map (·.notifyContext)

/-- From `w` to `w'` the record `r` has been taken off the list and freed. -/
def WrappedEvents.Dropped (r : UINT64) (w w' : WrappedEvents) : Prop :=
  (∀ l, RecordsListed w l → RecordsListed w' (l.erase r)) ∧ w'.pool = w.pool.erase r

/-- The event is passed to `gBS->CloseEvent`, once, whose status is returned; its
record goes, if it has one and the service has not failed, and otherwise the
list stays. -/
def ClosesProperly (s : EventSystem) (gBS : UINT64 → UINT64) (args : Args) : Prop :=
  ∃ o, efiWrapperCloseEvent gBS args s.driver = some o ∧ o.status = gBS (args 0) ∧
    o.calls = [args 0] ∧
    match s.recordOf (args 0) with
    | none => s.driver.Kept o.events
    | some r => if efiError o.status then s.driver.Kept o.events else s.driver.Dropped r o.events

/-- What is found does not stay on the list, whatever the service says. -/
theorem RecordsListed.not_kept {w : WrappedEvents} {l : List UINT64} {r : UINT64}
    (h : RecordsListed w l) (hr : r ∈ l) :
    ¬ w.Kept ((w.remove r).freePool r) := fun hkept => by
  have hsame : l = l.erase r := (hkept.1 l h).unique (h.remove hr)
  exact List.erase_eq_self_iff.mp hsame.symm hr

/-- In a run in which the services have not failed, an event is closed as it should
be exactly when it was created through the wrapper and is open, and the service
accepts to close it. -/
theorem closesProperly_iff {links : Links EventEntry} {contents : UINT64 → WrappedEventRecord}
    {calls : List EventCall}
    (h : Run (eventStep cfg eventNotify) ServiceSucceeds (noEvents links contents) calls s)
    (gBS : UINT64 → UINT64) (args : Args) :
    ClosesProperly s gBS args ↔
      efiError (gBS (args 0)) = false ∧ args 0 ∈ s.opened.map (·.asked.event) := by
  have hmirrors := mirrors_of_run h
  constructor
  · rintro ⟨o, hclose, hstatus, -, hlist⟩
    obtain ⟨r, hfind, rfl⟩ := efiWrapperCloseEvent_eq_some hclose
    obtain ⟨e, he, hevent, rfl⟩ := hmirrors.of_findEvent hfind
    have hopen : args 0 ∈ s.opened.map (·.asked.event) := List.mem_map.mpr ⟨e, he, hevent⟩
    have hgone := hmirrors.listed.not_kept (List.mem_map_of_mem he)
    refine ⟨?_, hopen⟩
    by_contra herror
    rw [Bool.not_eq_false] at herror
    simp only [herror, if_true] at hlist
    split at hlist
    · exact hgone hlist
    · exact hgone hlist
  · rintro ⟨hok, hopen⟩
    obtain ⟨e, he, hevent⟩ := List.mem_map.mp hopen
    have hfind := hmirrors.findEvent_eq (args 0)
    cases hrecord : s.recordOf (args 0) with
    | none =>
        have hnone := List.find?_eq_none.mp (Option.map_eq_none_iff.mp hrecord) e he
        exact absurd (beq_iff_eq.mpr hevent) hnone
    | some r =>
        rw [show (s.opened.find? fun o => o.asked.event == args 0).map
          (·.notifyContext) = some r from hrecord] at hfind
        obtain ⟨o, ho, hoevent, rfl⟩ := hmirrors.of_findEvent hfind
        have hrecorded : (s.driver.record o.notifyContext).event = args 0 := by
          rw [hmirrors.records o ho, hoevent]
        refine ⟨_, by simp only [efiWrapperCloseEvent, hfind, hrecorded]; rfl, rfl, rfl, ?_⟩
        simp only [hrecord, hok, Bool.false_eq_true, if_false]
        refine ⟨fun l hl => ?_, rfl⟩
        obtain rfl := hl.unique hmirrors.listed
        exact hl.remove (List.mem_map_of_mem ho)

/-! ## services that fail -/

/-- A build with wrapped entry points. -/
def wrappedConfig : Config := { riscvConfig with wrappedEntryPoints := true }

/-- No events, and nothing in the memory. -/
def noWrappedEvents : EventSystem :=
  noEvents ⟨fun _ => .list, fun _ => .list⟩ fun _ => ⟨0, 0, 0, 0, .x64⟩

/-- `CreateEvent (EVT_TIMER | EVT_NOTIFY_SIGNAL, TPL_CALLBACK, f, 0x9000, 0x9100)`. -/
def timerArgs (f : UINT64) : Args := fun i => [0x80000200, 8, f, 0x9000, 0x9100].getD i.val 0

/-- An x64 image creates a timer event; the service returns `service`. -/
def createTimer (service : Except ErrorStatus UINT64) : EventCall :=
  .create .x64 wrappedConfig.createEvent 0x10404 (timerArgs 0x10500)
    (some (0x70000000, ⟨0, 0, 0, 0, .x64⟩)) service

/-- Emulated code closes the event `event`. -/
def closeEvent (event : UINT64) : EventCall := .close (fun _ => event) EFI_SUCCESS

/-- An event that is created and closed. -/
theorem eventsExact_of_run_timer :
    ∃ s, exec (eventStep wrappedConfig 0x80005000) ServiceSucceeds noWrappedEvents
        [createTimer (.ok 1), closeEvent 1] = some s ∧ EventsExact s := by
  have hexec : (exec (eventStep wrappedConfig 0x80005000) ServiceSucceeds noWrappedEvents
      [createTimer (.ok 1), closeEvent 1]).isSome = true := by decide
  obtain ⟨s, hs⟩ := Option.isSome_iff_exists.mp hexec
  exact ⟨s, hs, (eventsExact_of_run _ _ _ _ _ _ (.of_exec hs)).1⟩

/-- A creation that fails in the service leaves its freed record listed. -/
theorem createTimer_stale :
    ∃ s, Run (eventStep wrappedConfig 0x80005000) (fun _ _ => True) noWrappedEvents
        [createTimer (.error ⟨EFI_OUT_OF_RESOURCES, by decide⟩)] s ∧ ¬ EventsExact s := by
  have hvalues : (exec (eventStep wrappedConfig 0x80005000) (fun _ _ => True) noWrappedEvents
      [createTimer (.error ⟨EFI_OUT_OF_RESOURCES, by decide⟩)]).map
      (fun s => (s.driver.mEventList, s.opened.length)) = some (some [0x70000000], 0) := by decide
  obtain ⟨s, hs, heq⟩ := Option.map_eq_some_iff.mp hvalues
  obtain ⟨hlist, hopened⟩ := Prod.mk.inj heq
  refine ⟨s, .of_exec hs, fun h => ?_⟩
  have hnone := mEventList_eq h.listed.ring
  rw [List.length_eq_zero_iff.mp hopened, hlist] at hnone
  cases hnone

/-- The timer event is closed. -/
theorem closesProperly_iff_timer :
    ∃ s, exec (eventStep wrappedConfig 0x80005000) ServiceSucceeds noWrappedEvents
      [createTimer (.ok 1)] =
        some s ∧ ClosesProperly s (fun _ => EFI_SUCCESS) fun _ => 1 := by
  have hvalues : (exec (eventStep wrappedConfig 0x80005000) ServiceSucceeds noWrappedEvents
      [createTimer (.ok 1)]).map (fun s => s.opened.map (·.asked.event)) = some [1] := by decide
  obtain ⟨s, hs, hopened⟩ := Option.map_eq_some_iff.mp hvalues
  exact ⟨s, hs, (closesProperly_iff (.of_exec hs) _ _).mpr ⟨by decide, by simp [hopened]⟩⟩

/-- An event that was not created through the wrapper cannot be closed, and one
that was is forgotten even when the service refuses to close it. -/
theorem createTimer_close_fails :
    ∃ s, Run (eventStep wrappedConfig 0x80005000) (fun _ _ => True) noWrappedEvents
      [createTimer (.ok 1)] s ∧
      ¬ ClosesProperly s (fun _ => EFI_SUCCESS) (fun _ => 2) ∧
      ¬ ClosesProperly s (fun _ => EFI_INVALID_PARAMETER) (fun _ => 1) := by
  have hvalues : (exec (eventStep wrappedConfig 0x80005000) ServiceSucceeds noWrappedEvents
      [createTimer (.ok 1)]).map (fun s => efiWrappersFindEvent s.driver 2) = some
      (some none) := by decide
  obtain ⟨s, hs, hnone⟩ := Option.map_eq_some_iff.mp hvalues
  have hrun := Run.of_exec hs
  refine ⟨s, hrun.mono fun _ _ _ => trivial, fun h => ?_, ?_⟩
  · obtain ⟨o, hclose, -⟩ := h
    obtain ⟨r, hfind, -⟩ := efiWrapperCloseEvent_eq_some hclose
    rw [hnone] at hfind
    cases hfind
  · rintro ⟨o, hclose, -, -, hlist⟩
    obtain ⟨r, hfind, rfl⟩ := efiWrapperCloseEvent_eq_some hclose
    obtain ⟨e, he, -, rfl⟩ := (mirrors_of_run hrun).of_findEvent hfind
    have hgone := (mirrors_of_run hrun).listed.not_kept (List.mem_map_of_mem he)
    have herror : efiError EFI_INVALID_PARAMETER = true := by decide
    simp only [herror, if_true] at hlist
    split at hlist
    · exact hgone hlist
    · exact hgone hlist

end MultiArchUefi
