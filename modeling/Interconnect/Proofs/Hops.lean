import Interconnect.Model.EventStore
import Interconnect.Model.Example
import Interconnect.Proofs.SourceVersions

/-! Copying a copy. What a driver writes is recorded as it was sent, and a formatter makes the
same event of it again, so an event is the same after any number of hops. -/

namespace Interconnect

open JsValue

variable {Buffer : Type}

/-- One interconnect more: the driver of version `d` writes the event, a store records what it
was sent, and the formatter of version `d` is given that record. `none` where one of them fails. -/
def hop {J : JsonText Buffer} (E : EventDataFactory J) (d : Version) (revision : ℤ)
    (f : FormattedEvent) : Option FormattedEvent :=
  (appendEventToStreamteEvent E d f).bind fun request =>
    (request.record d revision).bind fun r => (format J d ⟨some r⟩).toOption

/-- What every hop relies on: JSON, with metadata that names a stream, an id and a type and is
left as it is when these are written into it again. -/
structure Copyable (f : FormattedEvent) : Prop where
  data : IsJson f.data
  metadata : IsJson (literal f.metadata)
  enriched : ∃ s i t, f.eventStreamId = .str s ∧ f.eventId = .str i ∧ f.eventType = .str t ∧
    enriched (literal f.metadata) s i t = f.metadata

theorem copyable_formatted (e : SourceEvent) : Copyable e.formatted := by
  have hmeta : IsJson (literal (enriched (e.metadata.getD .undefined) e.stream e.id e.type)) := by
    cases hm : e.metadata with
    | none =>
      exact ((isJson_literal_empty.literal_set _ (.str _)).literal_set _ (.str _)).literal_set _
        (.str _)
    | some m => exact isJson_enriched (e.isJson_metadata m hm) ..
  exact ⟨e.isJson_data, hmeta, e.stream, e.id, e.type, enriched_eventStreamId ..,
    enriched_eventId .., enriched_eventType .., enriched_enriched ..⟩

section

variable {J : JsonText Buffer} {E : EventDataFactory J} {d : Version} {revision : ℤ}
  {f f' : FormattedEvent}

theorem hop_eq (hf : Copyable f) (hsend : d = .legacy → Sendable E f) :
    hop E d revision f = some f := by
  obtain ⟨hdata, hmeta, s, i, t, hs, hi, ht, henriched⟩ := hf
  cases d with
  | legacy =>
    obtain ⟨⟨id, hid, huuid⟩, ⟨type, htype, hne⟩, hcomp⟩ := hsend rfl
    obtain rfl : i = id := JsValue.str.inj (hi.symm.trans hid)
    obtain rfl : t = type := JsValue.str.inj (ht.symm.trans htype)
    obtain ⟨data, hd, hpd⟩ := J.parse_encode _ hdata
    obtain ⟨metadata, hm, hpm⟩ := J.parse_encode _ hmeta
    have hcreate := E.creates i t f.data (literal f.metadata) data metadata huuid hne hcomp rfl hd hm
    have hreq : appendEventToStreamteEvent E .legacy f =
        some ⟨.str s, .any, .str i, .str t, data, metadata⟩ := by
      simp only [appendEventToStreamteEvent, HttpDriverService.appendEventToStreamteEvent, hs, hi, ht,
        hcreate, Option.map_some]
    rw [hop, hreq, Option.bind_some]
    simp only [AppendRequest.record, recordedEvent, Option.bind_some, format,
      LegacyEventFormatterService.format, hpd, hpm, Option.getD_some, henriched]
    rfl
  | next =>
    have hreq : appendEventToStreamteEvent E .next f =
        some ⟨.str s, .any, .str i, .str t, f.data, literal f.metadata⟩ := by
      simp only [appendEventToStreamteEvent, GrpcDriverService.appendEventToStreamteEvent, hs, hi, ht]
    rw [hop, hreq, Option.bind_some]
    simp only [AppendRequest.record, recordedEvent, Option.bind_some, format,
      NextEventFormatterService.format, henriched]
    rfl

theorem hop_eventType (h : hop E d revision f = some f') :
    ∃ request, appendEventToStreamteEvent E d f = some request ∧ f'.eventType = request.type := by
  obtain ⟨request, hreq, h⟩ := Option.bind_eq_some_iff.mp h
  obtain ⟨record, hrec, h⟩ := Option.bind_eq_some_iff.mp h
  obtain ⟨stream, id, type, -, -, htype, rfl⟩ := AppendRequest.record_eq_some hrec
  refine ⟨request, hreq, ?_⟩
  cases hfmt : format J d ⟨some (recordedEvent d stream id type request.data request.metadata
      revision)⟩ with
  | error r => simp [hfmt, Except.toOption] at h
  | ok f'' =>
    obtain rfl : f'' = f' := by simpa [hfmt, Except.toOption] using h
    obtain ⟨r, hr, -, -, ht⟩ := format_names_source hfmt
    cases hr
    rw [ht, htype, (recordedEvent_names ..).2.2]

/-- A legacy destination names a type, and no destination loses it. -/
theorem hop_typed (h : hop E d revision f = some f') (ht : d = .legacy ∨ f.eventType.truthy) :
    f'.eventType.truthy := by
  obtain ⟨request, hreq, he⟩ := hop_eventType h
  rw [he]
  cases d with
  | legacy =>
    obtain ⟨r, hr, rfl⟩ := Option.map_eq_some_iff.mp hreq
    obtain ⟨-, -, ⟨t, hne, hrt, -⟩, -⟩ := E.created _ _ _ _ _ hr
    simp [hrt, JsValue.truthy, hne]
  | next =>
    cases hreq
    simpa using ht

theorem hop_legacy (h : hop E .legacy revision f = some f') :
    (∃ id, f.eventId = .str id ∧ E.isUuid id) ∧ f.data.isComposite := by
  obtain ⟨request, hreq, -⟩ := hop_eventType h
  obtain ⟨r, hr, -⟩ := Option.map_eq_some_iff.mp hreq
  obtain ⟨hid, -, -, hcomp, -⟩ := E.created _ _ _ _ _ hr
  exact ⟨hid, hcomp⟩

theorem chain_typed (chain : List (Version × ℤ)) :
    ∀ {f f' : FormattedEvent}, chain.foldlM (fun f x => hop E x.1 x.2 f) f = some f' →
      f.eventType.truthy → f'.eventType.truthy := by
  induction chain with
  | nil =>
    intro f f' h ht
    cases h
    exact ht
  | cons x chain ih =>
    intro f f' h ht
    rw [List.foldlM_cons] at h
    obtain ⟨f₁, hf₁, h⟩ := Option.bind_eq_some_iff.mp h
    exact ih h (hop_typed hf₁ (Or.inr ht))

end

theorem sendable_formatted {J : JsonText Buffer} {E : EventDataFactory J} {e : SourceEvent}
    (h : E.isUuid e.id ∧ e.type ≠ "" ∧ e.data.isComposite) : Sendable E e.formatted :=
  ⟨⟨e.id, enriched_eventId .., h.1⟩, ⟨e.type, enriched_eventType .., h.2.1⟩, h.2.2⟩

/-- From a source of either version and over any chain of destinations: the last one hands on the
very event that the first formatter made, exactly where the client of each legacy destination takes
it. -/
theorem copying_a_copy_changes_nothing {J : JsonText Buffer} (E : EventDataFactory J) (v : Version)
    (e : SourceEvent) :
    ∃ f, format J v (e.presented J v) = .ok f ∧
      ∀ chain : List (Version × ℤ), chain.foldlM (fun f x => hop E x.1 x.2 f) f = some f ↔
        ∀ x ∈ chain, x.1 = .legacy → E.isUuid e.id ∧ e.type ≠ "" ∧ e.data.isComposite := by
  refine ⟨e.formatted, e.format_presented J v, fun chain => ?_⟩
  have hnames : e.formatted.eventId = .str e.id ∧ e.formatted.eventType = .str e.type :=
    ⟨enriched_eventId .., enriched_eventType ..⟩
  induction chain with
  | nil => simp
  | cons x chain ih =>
    rw [List.foldlM_cons, List.forall_mem_cons]
    constructor
    · intro h
      obtain ⟨f₁, hf₁, hrest⟩ := Option.bind_eq_some_iff.mp h
      have hsend : x.1 = .legacy → E.isUuid e.id ∧ e.type ≠ "" ∧ e.data.isComposite := by
        intro hx
        obtain ⟨⟨id, hid, huuid⟩, hcomp⟩ := hop_legacy (hx ▸ hf₁)
        obtain rfl : e.id = id := JsValue.str.inj (hnames.1.symm.trans hid)
        -- the client has named a type, which no later hop takes away again
        have htyped := chain_typed chain hrest (hop_typed hf₁ (Or.inl hx))
        exact ⟨huuid, by simpa [hnames.2, JsValue.truthy] using htyped, hcomp⟩
      refine ⟨hsend, ?_⟩
      have hone : hop E x.1 x.2 e.formatted = some e.formatted :=
        hop_eq (copyable_formatted e) fun hx => sendable_formatted (hsend hx)
      cases hone.symm.trans hf₁
      exact ih.mp hrest
    · rintro ⟨hsend, hrest⟩
      rw [hop_eq (copyable_formatted e) fun hx => sendable_formatted (hsend hx)]
      exact ih.mpr hrest

def scalarEvent : SourceEvent where
  stream := "hero-1"
  id := exampleId
  type := "HeroCreated"
  data := .bool true
  metadata := none
  revision := none
  isJson_data := .bool true
  isJson_metadata := fun _ h => nomatch h

theorem scalar_event_is_not_copied :
    format JsonText.denoted .next (scalarEvent.presented .denoted .next) =
        .ok scalarEvent.formatted ∧
      hop exampleFactory .legacy 0 scalarEvent.formatted = none :=
  ⟨rfl, rfl⟩

end Interconnect
