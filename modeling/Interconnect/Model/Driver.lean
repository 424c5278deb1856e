import Interconnect.Model.EventData
import Interconnect.Model.Formatter

/-! The two drivers and the safety net. `writeEvent` arms a timer, awaits the client's append
and disarms the timer again; the timer and a failed append each call the safety net. -/

namespace Interconnect

open JsValue

/-- A hook that ends the process does not return to its caller. -/
inductive HookResult
  | returns
  | exits
  deriving DecidableEq, Repr

structure SafetyNet where
  cannotWriteEventHook : FormattedEvent → HookResult

def DefaultSafetyNetService : SafetyNet := ⟨fun _ => .exits⟩

def CustomSafetyNet : SafetyNet := ⟨fun _ => .returns⟩

variable {Buffer : Type}

/-- What `appendEventToStreamteEvent` gives the TCP client, `none` where `createJsonEventData`
throws. -/
def HttpDriverService.appendEventToStreamteEvent {J : JsonText Buffer} (E : EventDataFactory J)
    (event : FormattedEvent) : Option (AppendRequest Buffer) :=
  (E.createJsonEventData event.eventId event.data (literal event.metadata) event.eventType).map
    fun jsonFormattedEvent => {
      stream := event.eventStreamId
      expectedVersion := .any
      id := jsonFormattedEvent.eventId
      type := jsonFormattedEvent.type
      data := jsonFormattedEvent.data
      metadata := jsonFormattedEvent.metadata }

/-- What `appendEventToStreamteEvent` gives the gRPC client. -/
def GrpcDriverService.appendEventToStreamteEvent (event : FormattedEvent) :
    Option (AppendRequest JsValue) :=
  some {
    stream := event.eventStreamId
    expectedVersion := .any
    id := event.eventId
    type := event.eventType
    data := event.data
    metadata := literal event.metadata }

/-- The driver that `DriverModule` provides for a destination of the given version. -/
def appendEventToStreamteEvent {J : JsonText Buffer} (E : EventDataFactory J) :
    (d : Version) → FormattedEvent → Option (AppendRequest (Body Buffer d))
  | .legacy => HttpDriverService.appendEventToStreamteEvent E
  | .next => GrpcDriverService.appendEventToStreamteEvent

section

variable {J : JsonText Buffer} {E : EventDataFactory J} {d : Version} {event : FormattedEvent}
  {request : AppendRequest (Body Buffer d)}

/-- Whatever is appended goes to the stream, and has the id and type, that the event names; the TCP
client gives a type to an event that has an empty one. -/
theorem append_names_event (h : appendEventToStreamteEvent E d event = some request) :
    request.stream = event.eventStreamId ∧ request.id = event.eventId ∧
      ∀ t, event.eventType = .str t → ∃ t', request.type = .str t' ∧ (t ≠ "" → t' = t) := by
  cases d with
  | legacy =>
    obtain ⟨r, hr, rfl⟩ := Option.map_eq_some_iff.mp h
    obtain ⟨-, hid, ⟨t', -, ht', htype⟩, -⟩ := E.created _ _ _ _ _ hr
    refine ⟨rfl, hid, fun t ht => ⟨t', ht', fun hne => ?_⟩⟩
    rw [ht] at htype
    exact (str.inj (htype (by simpa [truthy] using hne))).symm
  | next =>
    cases h
    exact ⟨rfl, rfl, fun t ht => ⟨t, ht, fun _ => rfl⟩⟩

structure Sendable (E : EventDataFactory J) (event : FormattedEvent) : Prop where
  uuid : ∃ id, event.eventId = .str id ∧ E.isUuid id
  typed : ∃ type, event.eventType = .str type ∧ type ≠ ""
  composite : event.data.isComposite

end

inductive Timer
  | armed (due : ℕ)
  | cleared
  | fired

/-- `clearTimeout`, which does nothing to a timer that has run. -/
def Timer.clear : Timer → Timer
  | armed _ => cleared
  | t => t

structure WriteCall where
  event : FormattedEvent
  /-- the promise of `appendEventToStreamteEvent` -/
  append : Promise
  timer : Timer
  /-- the events `cannotWriteEventHook` was called with on behalf of this call -/
  hookCalls : List FormattedEvent
  outcome : Promise

inductive WriteAct
  | appendAnswers (answer : Except Rejection Unit)
  | continues
  | timeout

/-- `writeEvent` of both drivers up to its await, with what the client is asked to append. -/
def writeEvent {J : JsonText Buffer} (E : EventDataFactory J) (d : Version) (timeout now : ℕ)
    (event : FormattedEvent) : Option (AppendRequest (Body Buffer d)) × WriteCall :=
  let request := appendEventToStreamteEvent E d event
  (request, {
    event
    append := if request.isSome then .pending else .rejected .typeError
    timer := .armed (now + timeout)
    hookCalls := []
    outcome := .pending })

namespace WriteCall

def callHook (w : WriteCall) : WriteCall := { w with hookCalls := w.hookCalls ++ [w.event] }

/-- The client answers `appendToStream`, or the append throws. -/
def appendAnswers (w : WriteCall) (answer : Except Rejection Unit) : Option WriteCall :=
  match w.append with
  | .pending => some { w with append := .ofExcept answer }
  | _ => none

/-- `writeEvent` goes on after its await, in the `try` or in the `catch`. -/
def continues (net : SafetyNet) (w : WriteCall) : Option (HookResult × WriteCall) :=
  match w.outcome, w.append with
  | .pending, .fulfilled =>
    some (.returns, { w with timer := w.timer.clear, outcome := .fulfilled })
  | .pending, .rejected err =>
    -- `err.toString()` throws in the `catch` itself
    if err.isNullish then some (.returns, { w with outcome := .rejected .typeError })
    else match net.cannotWriteEventHook w.event with
      | .returns => some (.returns, { w.callHook with outcome := .fulfilled })
      | .exits => some (.exits, w.callHook)
  | _, _ => none

/-- The timer runs, at its due time or later. -/
def timeout (net : SafetyNet) (now : ℕ) (w : WriteCall) : Option (HookResult × WriteCall) :=
  match w.timer with
  | .armed due =>
    if due ≤ now then
      some (net.cannotWriteEventHook w.event, { w.callHook with timer := .fired })
    else none
  | _ => none

def step (net : SafetyNet) (now : ℕ) (w : WriteCall) : WriteAct → Option (HookResult × WriteCall)
  | .appendAnswers answer => (w.appendAnswers answer).map fun w' => (.returns, w')
  | .continues => w.continues net
  | .timeout => w.timeout net now

inductive Step (net : SafetyNet) (now : ℕ) (w : WriteCall) :
    WriteAct → HookResult → WriteCall → Prop
  | answered (answer : Except Rejection Unit) : w.append = .pending →
      Step net now w (.appendAnswers answer) .returns { w with append := .ofExcept answer }
  | confirmed : w.outcome = .pending → w.append = .fulfilled →
      Step net now w .continues .returns { w with timer := w.timer.clear, outcome := .fulfilled }
  | unreadable (err : Rejection) : w.outcome = .pending → w.append = .rejected err →
      err.isNullish = true →
      Step net now w .continues .returns { w with outcome := .rejected .typeError }
  | refused (err : Rejection) : w.outcome = .pending → w.append = .rejected err →
      err.isNullish = false → net.cannotWriteEventHook w.event = .returns →
      Step net now w .continues .returns { w.callHook with outcome := .fulfilled }
  | killed (err : Rejection) : w.outcome = .pending → w.append = .rejected err →
      err.isNullish = false → net.cannotWriteEventHook w.event = .exits →
      Step net now w .continues .exits w.callHook
  | timedOut (due : ℕ) : w.timer = .armed due → due ≤ now →
      Step net now w .timeout (net.cannotWriteEventHook w.event) { w.callHook with timer := .fired }

variable {net : SafetyNet} {now : ℕ} {w w' : WriteCall} {a : WriteAct} {r : HookResult}

theorem step_cases (h : step net now w a = some (r, w')) : Step net now w a r w' := by
  cases a with
  | appendAnswers answer =>
    obtain ⟨w'', h, he⟩ := Option.map_eq_some_iff.mp h
    unfold appendAnswers at h
    split at h
    · next hp =>
      cases h
      cases he
      exact .answered answer hp
    · cases h
  | continues =>
    simp only [step, continues] at h
    split at h
    · next ho hf =>
      cases h
      exact .confirmed ho hf
    · next err ho hr =>
      split_ifs at h with hn
      · cases h
        exact .unreadable err ho hr hn
      · have hn' : err.isNullish = false := by simpa using hn
        split at h
        · next hnet =>
          cases h
          exact .refused err ho hr hn' hnet
        · next hnet =>
          cases h
          exact .killed err ho hr hn' hnet
    · cases h
  | timeout =>
    simp only [step, timeout] at h
    split at h
    · next due ht =>
      split_ifs at h with hdue
      cases h
      exact .timedOut due ht hdue
    · cases h

structure Settled (net : SafetyNet) (w : WriteCall) : Prop where
  fulfilled : w.outcome = .fulfilled → w.append = .fulfilled ∨
    ∃ err, w.append = .rejected err ∧ err.isNullish = false ∧
      net.cannotWriteEventHook w.event = .returns ∧ w.event ∈ w.hookCalls
  rejected : ∀ r, w.outcome = .rejected r →
    ∃ err, w.append = .rejected err ∧ err.isNullish = true

theorem settled_start {J : JsonText Buffer} (E : EventDataFactory J) (d : Version)
    (timeout now : ℕ) (event : FormattedEvent) : Settled net (writeEvent E d timeout now event).2 :=
  ⟨fun h => (nomatch h), fun _ h => (nomatch h)⟩

theorem settled_step (hw : Settled net w) (h : Step net now w a r w') : Settled net w' := by
  obtain ⟨hf, hr⟩ := hw
  cases h with
  | answered answer hp =>
    refine ⟨fun ho => ?_, fun r ho => ?_⟩
    · rcases hf ho with h | ⟨err, h, -⟩ <;> rw [hp] at h <;> cases h
    · obtain ⟨err, h, -⟩ := hr r ho
      rw [hp] at h
      cases h
  | confirmed _ happ => exact ⟨fun _ => Or.inl happ, fun _ ho => nomatch ho⟩
  | unreadable err _ happ hn => exact ⟨fun ho => (nomatch ho), fun _ _ => ⟨err, happ, hn⟩⟩
  | refused err _ happ hn hnet =>
    refine ⟨fun _ => Or.inr ⟨err, happ, hn, hnet, ?_⟩, fun _ ho => nomatch ho⟩
    exact List.mem_append_right _ (List.mem_singleton_self _)
  | killed err ho _ _ _ =>
    refine ⟨fun ho' => ?_, fun _ ho' => ?_⟩
    · exact nomatch ho.symm.trans ho'
    · exact nomatch ho.symm.trans ho'
  | timedOut due _ _ =>
    refine ⟨fun ho => ?_, hr⟩
    rcases hf ho with happ | ⟨err, happ, hn, hnet, hmem⟩
    · exact Or.inl happ
    · exact Or.inr ⟨err, happ, hn, hnet, List.mem_append_left _ hmem⟩

theorem step_event (h : Step net now w a r w') : w'.event = w.event := by
  cases h <;> rfl

theorem step_append (h : Step net now w a r w') (hw : w.append ≠ .pending) :
    w'.append = w.append := by
  cases h with
  | answered _ hp => exact absurd hp hw
  | _ => rfl

theorem step_outcome (h : Step net now w a r w') (hw : w.outcome ≠ .pending) :
    w'.outcome = w.outcome := by
  cases h with
  | confirmed ho _ => exact absurd ho hw
  | unreadable _ ho _ _ => exact absurd ho hw
  | refused _ ho _ _ _ => exact absurd ho hw
  | _ => rfl

end WriteCall

end Interconnect
