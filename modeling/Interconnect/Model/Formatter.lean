import Interconnect.Model.Event

/-! The two formatters. Both spread the event's metadata and then write its own stream, id
and type over whatever the metadata holds under these keys. -/

namespace Interconnect

open JsValue

variable {Buffer : Type}

/-- `{ ...metadata, eventStreamId, eventId, eventType }` -/
def enriched (metadata : JsValue) (eventStreamId eventId eventType : String) : Props :=
  (((spread metadata).set "eventStreamId" (.str eventStreamId)).set
    "eventId" (.str eventId)).set "eventType" (.str eventType)

def LegacyEventFormatterService.format (J : JsonText Buffer)
    (readonlyEvent : ResolvedEvent (LegacyRecordedEvent Buffer)) :
    Except Rejection FormattedEvent :=
  match readonlyEvent.event with
  | none => .error .typeError
  | some event =>
    match J.parse event.data with
    | none => .error .syntaxError
    | some data =>
      -- a failure to parse the metadata is caught and leaves it empty
      let metadata := (J.parse event.metadata).getD (literal Props.empty)
      .ok {
        data
        metadata := enriched metadata event.eventStreamId event.eventId event.eventType }

def NextEventFormatterService.format (readonlyEvent : ResolvedEvent NextRecordedEvent) :
    Except Rejection FormattedEvent :=
  match readonlyEvent.event with
  | none => .error .typeError
  | some event => .ok {
      data := event.data
      metadata := enriched event.metadata event.streamId event.id event.type }

/-- The formatter that `ReaderModule` provides for a source of the given version. -/
def format (J : JsonText Buffer) :
    (v : Version) → ResolvedEvent (Recorded Buffer v) → Except Rejection FormattedEvent
  | .legacy => LegacyEventFormatterService.format J
  | .next => NextEventFormatterService.format

@[simp] theorem enriched_eventStreamId (m : JsValue) (s i t : String) :
    (enriched m s i t).get "eventStreamId" = .str s := by
  simp [enriched]

@[simp] theorem enriched_eventId (m : JsValue) (s i t : String) :
    (enriched m s i t).get "eventId" = .str i := by
  simp [enriched]

@[simp] theorem enriched_eventType (m : JsValue) (s i t : String) :
    (enriched m s i t).get "eventType" = .str t := by
  simp [enriched]

theorem enriched_enriched (m : JsValue) (s i t : String) :
    enriched (literal (enriched m s i t)) s i t = enriched m s i t := by
  have hs : (enriched m s i t) "eventStreamId" = some (.str s) := by
    simp [enriched, Props.set]
  have hi : (enriched m s i t) "eventId" = some (.str i) := by
    simp [enriched, Props.set]
  have ht : (enriched m s i t) "eventType" = some (.str t) := by
    simp [enriched, Props.set]
  generalize hp : enriched m s i t = p at hs hi ht ⊢
  rw [enriched, literal, spread_obj, Props.set_eq_self hs, Props.set_eq_self hi,
    Props.set_eq_self ht]

theorem isJson_enriched {m : JsValue} (h : IsJson m) (s i t : String) :
    IsJson (literal (enriched m s i t)) :=
  ((h.spread.literal_set _ (.str _)).literal_set _ (.str _)).literal_set _ (.str _)

/-- Whatever its metadata holds, a formatted event names the stream, id and type of the
event it was made from. -/
theorem format_names_source {J : JsonText Buffer} {v : Version}
    {e : ResolvedEvent (Recorded Buffer v)} {f : FormattedEvent} (h : format J v e = .ok f) :
    ∃ r, e.event = some r ∧ f.eventStreamId = .str (r.stream v) ∧ f.eventId = .str (r.id v) ∧
      f.eventType = .str (r.type v) := by
  obtain ⟨event⟩ := e
  cases v with
  | legacy =>
    cases event with
    | none => exact absurd h (by simp [format, LegacyEventFormatterService.format])
    | some r =>
      simp only [format, LegacyEventFormatterService.format] at h
      cases hp : J.parse r.data with
      | none => simp [hp] at h
      | some d =>
        simp only [hp, Except.ok.injEq] at h
        subst h
        exact ⟨r, rfl, enriched_eventStreamId .., enriched_eventId .., enriched_eventType ..⟩
  | next =>
    cases event with
    | none => exact absurd h (by simp [format, NextEventFormatterService.format])
    | some r =>
      simp only [format, NextEventFormatterService.format, Except.ok.injEq] at h
      subst h
      exact ⟨r, rfl, enriched_eventStreamId .., enriched_eventId .., enriched_eventType ..⟩

end Interconnect
