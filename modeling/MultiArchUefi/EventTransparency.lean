import MultiArchUefi.EntryArgs
import MultiArchUefi.RunFunc
import MultiArchUefi.WrappedEvents

/-!
# MultiArchUefi.EventTransparency

Emulated code that creates events through the wrapper, against emulated code
that calls the service itself.  The wrapper passes the service another function
and another output, so the service no longer sees the client's own.
-/

namespace MultiArchUefi

open Transition Lookup

/-! ## the services -/

/-- The status that is returned. -/
def statusOf : Except ErrorStatus UINT64 → UINT64
  | .error status => status.val
  | .ok _ => EFI_SUCCESS

/-- The type has `EVT_NOTIFY_WAIT` or `EVT_NOTIFY_SIGNAL`. -/
def CreateEventArgs.isNotify (c : CreateEventArgs) : Prop := c.type &&& 0x300#32 ≠ 0

instance (c : CreateEventArgs) : Decidable c.isNotify := inferInstanceAs (Decidable (_ ≠ _))

/-- The pointers that the service needs are there. -/
def CreateEventArgs.Complete (c : CreateEventArgs) : Prop :=
  c.event ≠ 0 ∧ (c.isNotify → c.notifyFunction ≠ 0)

/-- How the firmware's services check what they are called with.  Nothing but
`NULL` is seen of the pointers. -/
structure CreateEventSpec (gBS : CreateEventService) : Prop where
  nullEvent : ∀ c, c.event = 0 → statusOf (gBS c) = EFI_INVALID_PARAMETER
  nullNotify : ∀ c, c.isNotify → c.notifyFunction = 0 → statusOf (gBS c) = EFI_INVALID_PARAMETER
  complete : ∀ c c', c.Complete → c'.Complete → c.type = c'.type → c.notifyTpl = c'.notifyTpl →
    c.eventGroup = c'.eventGroup → statusOf (gBS c) = statusOf (gBS c')

/-! ## notifications -/

/-- A call of `CpuRunFunc`, with the C code that makes it. -/
structure RunFuncCall where
  cpu : CpuId
  programCounter : UINT64
  caller : Caller

/-- The call that `EfiWrappersEventNotify` makes. -/
def efiWrappersEventNotify (w : WrappedEvents) (event context : UINT64) : RunFuncCall :=
  let record := w.record context
  ⟨record.cpu, record.x64NotifyFunction, .efiWrappersEventNotify event record.x64NotifyContext⟩

/-- The firmware notifies `event`: it calls the stored function with the stored
context, and these are the calls of `CpuRunFunc` that are made. -/
def EventSystem.notify (s : EventSystem) (eventNotify event : UINT64) : List RunFuncCall :=
  (s.opened.filter fun o =>
    decide (o.asked.event = event) && decide (o.notifyFunction = eventNotify)).map fun o =>
      efiWrappersEventNotify s.driver event o.notifyContext

/-- The engine starts with the function itself, or calls it as native code. -/
def Executes (cfg : Config) (images : Images) (fetch : CpuId → UINT64 → Fetch) (cpu : CpuId)
    (programCounter : UINT64) : Prop :=
  fetch cpu programCounter = .translated ∨
    LeavesThroughNativeThunk cfg images fetch cpu programCounter ∧
      nativeValidateSupportedCall cfg programCounter ≠ .nativeUnsupported

/-- The engine may execute the address, or the driver takes it for native code
that it supports. -/
def canRun (cfg : Config) (images : Images) (cpu : CpuId) (a : UINT64) : Bool :=
  codePerms images cpu a || emulatorIsNativeCall cfg images a &&
    decide (a ≠ cfg.returnToNativeMagic ∧ nativeValidateSupportedCall cfg a ≠ .nativeUnsupported)

theorem executes_iff {cfg : Config} {images : Images} {fetch : CpuId → UINT64 → Fetch}
    (hfetch : FetchSpec (codePerms images) (cpuIsNativeCb cfg images) fetch) (cpu : CpuId)
    (a : UINT64) : Executes cfg images fetch cpu a ↔ canRun cfg images cpu a = true := by
  simp only [Executes, canRun, Bool.or_eq_true, Bool.and_eq_true, decide_eq_true_eq]
  cases hperms : codePerms images cpu a with
  | true => simp [hfetch.executable cpu a hperms]
  | false =>
      cases hcall : cpuIsNativeCb cfg images a with
      | true =>
          have hstop := hfetch.native cpu a hperms hcall
          have hreason : cpuExitReason cfg .findTb a = .callToNative ↔
              a ≠ cfg.returnToNativeMagic := by
            by_cases hmagic : a = cfg.returnToNativeMagic <;> simp [cpuExitReason, hmagic]
          have hnative : a ≠ cfg.returnToNativeMagic →
              emulatorIsNativeCall cfg images a = true := by
            intro hmagic
            simpa [cpuIsNativeCb, hmagic] using hcall
          simp only [LeavesThroughNativeThunk, hstop, hcall]
          constructor
          · rintro (h | ⟨⟨-, ucErr, h, hcalls⟩, hsupported⟩)
            · cases h
            · obtain rfl := Fetch.stopped.inj h
              have hmagic := hreason.mp hcalls
              exact .inr ⟨hnative hmagic, hmagic, hsupported⟩
          · rintro (h | ⟨-, hmagic, hsupported⟩)
            · cases h
            · exact .inr ⟨⟨trivial, .findTb, rfl, hreason.mpr hmagic⟩, hsupported⟩
      | false =>
          obtain ⟨code, hstop⟩ := hfetch.fault cpu a hperms hcall
          have hnative : emulatorIsNativeCall cfg images a = false :=
            (Bool.or_eq_false_iff.mp hcall).2
          simp [LeavesThroughNativeThunk, hstop, hcall, hnative]

/-- Made in `sys`, the call starts the function, which the engine can execute, with the words
that the caller has put into its array. -/
def RunFuncCall.RunsFunction (cfg : Config) (fetch : Images → CpuId → UINT64 → Fetch) (sys : System)
    (fp : Nat) (beyond : Nat → UINT64) (call : RunFuncCall) : Prop :=
  ∃ sys' a, step cfg sys
      (.runFunc call.cpu call.programCounter (call.caller.passed beyond) fp) = some sys' ∧
    Starts sys sys' a call.cpu call.programCounter (call.caller.passed beyond) ∧
    (∀ i (h : i < call.caller.array.length),
      emulatedArg call.cpu ⟨sys'.emu.ue call.cpu, sys'.emu.memory⟩ i =
        call.caller.array.get ⟨i, h⟩) ∧
    Executes cfg sys'.emu.images (fetch sys'.emu.images) call.cpu call.programCounter

/-! ## transparency -/

section

variable (cfg : Config) (fetch : Images → CpuId → UINT64 → Fetch) (gBS : CreateEventService)
  (eventNotify : UINT64)

/-- A call of `gBS->CreateEvent` or `gBS->CreateEventEx` by emulated code. -/
structure ClientCall where
  topCpu : CpuId
  originalProgramCounter : UINT64
  returnAddress : UINT64
  args : Args

/-- What the client calls the service with. -/
def ClientCall.asked (client : ClientCall) : CreateEventArgs :=
  .ofArgs cfg client.originalProgramCounter client.args

/-- The wrapper's call of the service, when its record is at `r`. -/
def ClientCall.wrapped (client : ClientCall) (r : UINT64) : CreateEventArgs :=
  (client.asked cfg).wrapped eventNotify r

/-- The call as a step of the driver and the firmware, when the record is allocated. -/
def ClientCall.create (client : ClientCall) (pool : UINT64 × WrappedEventRecord) : EventCall :=
  .create client.topCpu client.originalProgramCounter client.returnAddress client.args (some pool)
    (gBS (client.wrapped cfg eventNotify pool.1))

/-- The event that is open after a success. -/
def ClientCall.opens (client : ClientCall) (r event : UINT64) : OpenEvent :=
  ⟨eventNotify, r, event, (client.asked cfg).notifyContext, (client.asked cfg).notifyFunction,
    client.returnAddress, client.topCpu⟩

/-- What the wrapper does when it is called. -/
def ClientCall.outcome (client : ClientCall) (pool : UINT64 × WrappedEventRecord)
    (s : EventSystem) :
    CreateOutcome :=
  efiWrapperCreateEventCommon cfg eventNotify gBS client.topCpu client.originalProgramCounter
    client.returnAddress client.args (some pool) s.driver

/-- The one call that a notification of the client's event makes. -/
def ClientCall.notification (client : ClientCall) (event : UINT64) : RunFuncCall :=
  ⟨client.topCpu, (client.asked cfg).notifyFunction,
    .efiWrappersEventNotify event (client.asked cfg).notifyContext⟩

/-- The firmware notifies `event`: what creations and closings have led to, and what the
driver's engines are doing; the frame of `CpuRunCtx` is at `fp`, and `beyond` lies behind
the wrapper's `Args`. -/
structure Notification where
  event : UINT64
  calls : List EventCall
  events : EventSystem
  sys : System
  fp : Nat
  beyond : Nat → UINT64

/-- The call closes the event. -/
def EventCall.Closes (event : UINT64) : EventCall → Prop
  | .close args closeEvent => args 0 = event ∧ efiError closeEvent = false
  | _ => False

/-- The client's event has been created in `s` and not been closed since.  The firmware notifies
it while native code runs, in whatever state the engines are. -/
structure Notification.Of (client : ClientCall) (pool : UINT64 × WrappedEventRecord)
    (s : EventSystem) (n : Notification) : Prop where
  created : gBS (client.wrapped cfg eventNotify pool.1) = .ok n.event
  since : ∃ s', eventStep cfg eventNotify s (client.create cfg gBS eventNotify pool) = some s' ∧
    Run (eventStep cfg eventNotify) (fun _ call => ¬ call.Closes n.event) s' n.calls n.events
  reachable : ∃ p actions, Run (step cfg) (KeepsChain cfg) (initial p) actions n.sys
  called : n.sys.CanCall n.fp

/-- The client sees what the service itself would have shown it: the status, the
event at its output, which is not written through `NULL`, and for each of the notifications
of its event one run of its function with the event and its context. -/
structure WrapsTransparently (client : ClientCall) (pool : UINT64 × WrappedEventRecord)
    (s : EventSystem) (notifications : Set Notification) : Prop where
  status : (client.outcome cfg gBS eventNotify pool s).status = statusOf (gBS (client.asked cfg))
  writes : ∀ p ∈ (client.outcome cfg gBS eventNotify pool s).write, p.1 ≠ 0
  event : ∀ event, gBS (client.wrapped cfg eventNotify pool.1) = .ok event →
    (client.outcome cfg gBS eventNotify pool s).write = some ((client.asked cfg).event, event)
  notified : (client.asked cfg).isNotify →
    ∀ n ∈ notifications, n.Of cfg gBS eventNotify client pool s →
      n.events.notify eventNotify n.event = [client.notification cfg n.event] ∧
        (client.notification cfg n.event).RunsFunction cfg fetch n.sys n.fp n.beyond

/-- The record `r` still holds what the client has asked for. -/
def ClientCall.Recorded (client : ClientCall) (r : UINT64) (w : WrappedEvents) : Prop :=
  (w.record r).cpu = client.topCpu ∧
    (w.record r).x64NotifyFunction = (client.asked cfg).notifyFunction ∧
    (w.record r).x64NotifyContext = (client.asked cfg).notifyContext

/-- The output is there; a notification type with a `NULL` function is refused for
another reason as well; and whenever an event that may be notified is, its record is as it
was, a context of the client's engine is free, and the engine can run the function. -/
def Wrappable (client : ClientCall) (pool : UINT64 × WrappedEventRecord) (s : EventSystem)
    (notifications : Set Notification) : Prop :=
  (client.asked cfg).event ≠ 0 ∧
    ((client.asked cfg).isNotify → (client.asked cfg).notifyFunction = 0 → ∀ f, f ≠ 0 →
      statusOf (gBS { client.asked cfg with notifyFunction := f }) = EFI_INVALID_PARAMETER) ∧
    ((client.asked cfg).isNotify → (client.asked cfg).notifyFunction ≠ 0 →
      ∀ n ∈ notifications, n.Of cfg gBS eventNotify client pool s →
        client.Recorded cfg pool.1 n.events.driver ∧
          n.sys.emu.runContextAlloc client.topCpu ≠ [] ∧
          canRun cfg n.sys.emu.images client.topCpu (client.asked cfg).notifyFunction = true)

end

variable {cfg : Config} {fetch : Images → CpuId → UINT64 → Fetch} {gBS : CreateEventService}
  {eventNotify : UINT64} {s s' : EventSystem} {client : ClientCall}
  {pool : UINT64 × WrappedEventRecord}

/-- The wrapper returns what the service returns it, and writes to the client's output. -/
theorem outcome_eq (client : ClientCall) (pool : UINT64 × WrappedEventRecord) (s : EventSystem) :
    (client.outcome cfg gBS eventNotify pool s).status =
        statusOf (gBS (client.wrapped cfg eventNotify pool.1)) ∧
      (client.outcome cfg gBS eventNotify pool s).write =
        some ((client.asked cfg).event,
          (gBS (client.wrapped cfg eventNotify pool.1)).toOption.getD 0) := by
  have hwrapped : client.wrapped cfg eventNotify pool.1 =
    (CreateEventArgs.ofArgs cfg client.originalProgramCounter client.args).wrapped
    eventNotify pool.1 := rfl
  simp only [ClientCall.outcome, efiWrapperCreateEventCommon, ← hwrapped]
  cases gBS (client.wrapped cfg eventNotify pool.1) with
  | error status => exact ⟨rfl, rfl⟩
  | ok event =>
      refine ⟨rfl, ?_⟩
      simp [ClientCall.asked, Except.toOption]

/-! ## open events -/

/-- The firmware has every open event once, and notifies the driver of it. -/
structure Stored (eventNotify : UINT64) (s : EventSystem) : Prop where
  events : (s.opened.map (·.asked.event)).Nodup
  stored : ∀ o ∈ s.opened, o.notifyFunction = eventNotify

namespace Stored

theorem empty (links : Ring.Links EventEntry) (contents : UINT64 → WrappedEventRecord) :
    Stored eventNotify (noEvents links contents) where
  events := by simp [noEvents]
  stored := by simp [noEvents]

/-- Whatever the services say, every call keeps it so. -/
theorem move {call : EventCall} (h : Stored eventNotify s)
    (hmove : EventMove eventNotify s call s') :
    Stored eventNotify s' := by
  cases hmove with
  | notAllocated => exact h
  | failed record _ => exact ⟨h.events, h.stored⟩
  | others _ => exact ⟨h.events, h.stored⟩
  | created asked _ _ hnew =>
      refine ⟨?_, fun o ho => ?_⟩
      · rw [List.map_append]
        refine List.nodup_append.mpr ⟨h.events, List.nodup_singleton _, fun e he e' he' => ?_⟩
        obtain ⟨o, ho, rfl⟩ := List.mem_map.mp he
        rw [List.mem_singleton.mp he']
        exact (hnew o ho).symm
      · rcases List.mem_append.mp ho with ho | ho
        · exact h.stored o ho
        · rw [List.mem_singleton.mp ho]
  | @closed args closeEvent r _ =>
      unfold EventSystem.closes
      split
      · exact ⟨h.events, h.stored⟩
      · exact ⟨h.events.sublist (List.filter_sublist.map _),
          fun o ho => h.stored o (List.mem_of_mem_filter ho)⟩

/-- A notification of an open event makes one call, with what its record holds. -/
theorem notify_eq (h : Stored eventNotify s) {o : OpenEvent} (ho : o ∈ s.opened) :
    s.notify eventNotify o.asked.event =
      [efiWrappersEventNotify s.driver o.asked.event o.notifyContext] := by
  have hone : AtMostOne (fun e : OpenEvent =>
      decide (e.asked.event = o.asked.event) && decide (e.notifyFunction = eventNotify))
        s.opened := by
    intro e he e' he' hp hp'
    rw [Bool.and_eq_true, decide_eq_true_eq] at hp hp'
    exact List.inj_on_of_nodup_map h.events he he' (hp.1.trans hp'.1.symm)
  rw [EventSystem.notify, filter_eq_singleton h.events.of_map hone ho (by simp [h.stored o ho])]
  rfl

end Stored

/-- An open event stays open until it is closed. -/
theorem OpenEvent.stays {call : EventCall} {o : OpenEvent} (ho : o ∈ s.opened)
    (hcall : ¬ call.Closes o.asked.event) (hmove : EventMove eventNotify s call s') :
    o ∈ s'.opened := by
  cases hmove with
  | notAllocated => exact ho
  | failed record _ => exact ho
  | others _ => exact ho
  | created asked _ _ _ => exact List.mem_append_left _ ho
  | @closed args closeEvent r _ =>
      unfold EventSystem.closes
      split
      · exact ho
      · rename_i hok
        refine List.mem_filter.mpr ⟨ho, decide_eq_true fun heq => hcall ?_⟩
        exact ⟨heq.symm, eq_false_of_ne_true hok⟩

/-- After a success the event is open, with a record of what the client has asked for. -/
theorem opened_of_create {event : UINT64}
    (hevent : gBS (client.wrapped cfg eventNotify pool.1) = .ok event)
    (hstep : eventStep cfg eventNotify s (client.create cfg gBS eventNotify pool) = some s') :
    client.opens cfg eventNotify pool.1 event ∈ s'.opened := by
  simp only [ClientCall.create, eventStep, hevent] at hstep
  split at hstep
  · have hok : efiError EFI_SUCCESS = false := by decide
    simp only [efiWrapperCreateEventCommon, EventSystem.opens, hok, Bool.false_eq_true, if_false,
      Option.some.injEq] at hstep
    rw [← hstep]
    exact List.mem_append_right _ (List.mem_singleton_self _)
  · cases hstep

theorem OpenEvent.mem_of_run {calls : List EventCall} {o : OpenEvent} (ho : o ∈ s.opened)
    (h : Run (eventStep cfg eventNotify) (fun _ call => ¬ call.Closes o.asked.event) s calls s') :
    o ∈ s'.opened :=
  h.invariant (I := fun t => o ∈ t.opened)
    (fun _ _ _ ht hcall hstep => OpenEvent.stays ht hcall (eventMove_of_step hstep)) ho

/-- As long as the event is open, a notification makes one call, of what its record holds. -/
theorem Notification.Of.notify_eq {n : Notification} (hs : Stored eventNotify s)
    (h : n.Of cfg gBS eventNotify client pool s) :
    n.events.notify eventNotify n.event =
      [efiWrappersEventNotify n.events.driver n.event pool.1] := by
  obtain ⟨s', hstep, hrun⟩ := h.since
  have hstored : Stored eventNotify n.events := hrun.invariant
    (fun _ _ _ ht _ hcall => ht.move (eventMove_of_step hcall)) (hs.move (eventMove_of_step hstep))
  exact hstored.notify_eq (OpenEvent.mem_of_run (opened_of_create h.created hstep) hrun)

theorem efiWrappersEventNotify_eq_iff {w : WrappedEvents} {r event : UINT64} :
    efiWrappersEventNotify w event r = client.notification cfg event ↔ client.Recorded cfg r w := by
  simp [efiWrappersEventNotify, ClientCall.notification, ClientCall.Recorded]

/-- The call starts the function exactly when a context is free and the engine can run it. -/
theorem runsFunction_iff {call : RunFuncCall} {event context : UINT64} {sys : System} {fp : Nat}
    {beyond : Nat → UINT64} {chain : List CtxId}
    (hfetch : ∀ images, FetchSpec (codePerms images) (cpuIsNativeCb cfg images) (fetch images))
    (hcaller : call.caller = .efiWrappersEventNotify event context)
    (h : Threaded sys.emu chain) (hcall : sys.CanCall fp) :
    call.RunsFunction cfg fetch sys fp beyond ↔
      sys.emu.runContextAlloc call.cpu ≠ [] ∧
        canRun cfg sys.emu.images call.cpu call.programCounter = true := by
  obtain ⟨cpu, programCounter, caller⟩ := call
  obtain rfl := hcaller
  by_cases hpool : sys.emu.runContextAlloc cpu = []
  · refine iff_of_false ?_ fun h => h.1 hpool
    rintro ⟨sys', a, hstep, hstarts, -, -⟩
    rw [runFunc_exhausted hcall hpool] at hstep
    obtain rfl := Option.some.inj hstep
    have hlength := congrArg List.length hstarts.stack
    simp [System.returned] at hlength
  · obtain ⟨sys', a, hstep, hstarts⟩ := runFunc_starts cfg programCounter
      ((Caller.efiWrappersEventNotify event context).passed beyond) h hcall hpool
    have hargs : ∀ i (hi : i < (Caller.efiWrappersEventNotify event context).array.length),
        emulatedArg cpu ⟨sys'.emu.ue cpu, sys'.emu.memory⟩ i =
          (Caller.efiWrappersEventNotify event context).array.get ⟨i, hi⟩ := fun i hi => by
      have hlt : i < MAX_ARGS := hi.trans_le (by simp [Caller.array, MAX_ARGS])
      refine (hstarts.args ⟨i, hlt⟩).trans ?_
      rw [Caller.passed, List.getElem?_eq_getElem hi, Option.getD_some, List.get_eq_getElem]
    have hexecutes := executes_iff (hfetch sys.emu.images) cpu programCounter
    constructor
    · rintro ⟨t, b, -, hb, -, hexec⟩
      rw [hb.images] at hexec
      exact ⟨hpool, hexecutes.mp hexec⟩
    · rintro ⟨-, hcan⟩
      refine ⟨sys', a, hstep, hstarts, hargs, ?_⟩
      rw [hstarts.images]
      exact hexecutes.mpr hcan

/-! ## the condition -/

/-- The wrapper's own arguments are checked like any complete ones of the same kind. -/
theorem statusOf_wrapped (hgBS : CreateEventSpec gBS) (hnotify : eventNotify ≠ 0)
    (hpool : s.driver.Allocates pool.1) {f : UINT64} (hevent : (client.asked cfg).event ≠ 0)
    (hf : (client.asked cfg).isNotify → f ≠ 0) :
    statusOf (gBS (client.wrapped cfg eventNotify pool.1)) =
      statusOf (gBS { client.asked cfg with notifyFunction := f }) := by
  have hfield : eventField pool.1 ≠ 0 := by
    obtain ⟨-, hne, hfits⟩ := hpool
    unfold eventField
    unfold wrappedEventRecordSize at hfits
    bv_omega
  exact hgBS.complete _ _ ⟨hfield, fun _ => hnotify⟩ ⟨hevent, hf⟩ rfl rfl rfl

/-- A notification runs the function exactly when the record is as it was, a context is free
and the engine can run the function. -/
theorem notified_iff {n : Notification}
    (hfetch : ∀ images, FetchSpec (codePerms images) (cpuIsNativeCb cfg images) (fetch images))
    (hs : Stored eventNotify s) (h : n.Of cfg gBS eventNotify client pool s) :
    (n.events.notify eventNotify n.event = [client.notification cfg n.event] ∧
        (client.notification cfg n.event).RunsFunction cfg fetch n.sys n.fp n.beyond) ↔
      client.Recorded cfg pool.1 n.events.driver ∧
        n.sys.emu.runContextAlloc client.topCpu ≠ [] ∧
        canRun cfg n.sys.emu.images client.topCpu (client.asked cfg).notifyFunction = true := by
  obtain ⟨p, actions, hrun⟩ := h.reachable
  obtain ⟨chain, hthreaded⟩ := threaded_of_run hrun
  rw [h.notify_eq hs, List.singleton_inj, efiWrappersEventNotify_eq_iff]
  exact and_congr_right fun _ => runsFunction_iff hfetch rfl hthreaded h.called

theorem stored_of_run {links : Ring.Links EventEntry} {contents : UINT64 → WrappedEventRecord}
    {calls : List EventCall}
    (hrun : Run (eventStep cfg eventNotify) (fun _ _ => True) (noEvents links contents) calls s) :
    Stored eventNotify s :=
  hrun.invariant (fun _ _ _ ht _ hstep => ht.move (eventMove_of_step hstep)) (.empty links contents)

/-- As long as the services do not fail, an open event's record is as it was. -/
theorem recorded_of_run {links : Ring.Links EventEntry} {contents : UINT64 → WrappedEventRecord}
    {calls : List EventCall} {n : Notification}
    (hrun : Run (eventStep cfg eventNotify) ServiceSucceeds (noEvents links contents) calls s)
    (hof : n.Of cfg gBS eventNotify client pool s)
    (hsince : ∀ s', eventStep cfg eventNotify s (client.create cfg gBS eventNotify pool) = some s' →
      Run (eventStep cfg eventNotify) ServiceSucceeds s' n.calls n.events) :
    client.Recorded cfg pool.1 n.events.driver := by
  obtain ⟨s', hstep, hopen⟩ := hof.since
  have hcreate : ServiceSucceeds s (client.create cfg gBS eventNotify pool) := by
    rw [ClientCall.create, hof.created]
    trivial
  have hmirrors := mirrors_of_run ((hrun.snoc hcreate hstep).append (hsince s' hstep))
  have hmem := OpenEvent.mem_of_run (opened_of_create hof.created hstep) hopen
  have hrecord := hmirrors.records _ hmem
  simp only [ClientCall.opens] at hrecord
  simp [ClientCall.Recorded, hrecord]

/-! ## a notification event without a function -/

/-- A service that checks no more than it has to. -/
def createEventService : CreateEventService := fun c =>
  if c.event = 0 ∨ c.isNotify ∧ c.notifyFunction = 0 then .error
    ⟨EFI_INVALID_PARAMETER, by decide⟩ else .ok 1

theorem createEventService_spec : CreateEventSpec createEventService where
  nullEvent := fun c hc => by simp [createEventService, hc, statusOf]
  nullNotify := fun c hnot hc => by simp [createEventService, hc, hnot, statusOf]
  complete := fun c c' hc hc' _ _ _ => by
    have hstatus : ∀ c : CreateEventArgs, c.Complete → createEventService c = .ok 1 := fun c hc =>
      if_neg fun h => h.elim hc.1 fun hnull => hc.2 hnull.1 hnull.2
    rw [hstatus c hc, hstatus c' hc']

/-- An x64 image creates a timer event with the function `f`. -/
def timerClient (f : UINT64) : ClientCall :=
  ⟨.x64, wrappedConfig.createEvent, 0x10404, timerArgs f⟩

/-- The memory that is found for its record. -/
def timerRecord : UINT64 × WrappedEventRecord := (0x70000000, ⟨0, 0, 0, 0, .x64⟩)

/-- The engines as the documentation of `uc_hook_add` has them. -/
def fetchOf (images : Images) : CpuId → UINT64 → Fetch :=
  ucFetch (codePerms images) (cpuIsNativeCb wrappedConfig images)

theorem timerClient_allowed (f : UINT64) :
    ((timerClient f).create wrappedConfig createEventService 0x80005000 timerRecord).Allowed
      wrappedConfig noWrappedEvents := by
  have hallocates : noWrappedEvents.driver.Allocates timerRecord.1 := by decide
  have hoverride : nativeValidateSupportedCall wrappedConfig wrappedConfig.createEvent =
      .efiWrapperCreateEventCommon := by decide
  refine ⟨hoverride, fun r hr => ?_, fun o ho => absurd ho List.not_mem_nil⟩
  rwa [← Option.some.inj hr]

end MultiArchUefi
