import Interconnect.Proofs.Hops
import Interconnect.Proofs.Interconnection

/-! Nothing at the destination is invented: each record is the copy of an event that was delivered
and accepted, and over any number of interconnects in series it reads as the first one did. -/

namespace Interconnect

open Runs Pools JsValue

variable {Buffer : Type} {v d : Version} {cfg : Configuration Buffer} {feed : Feed Buffer v}

/-- What a destination records of an event: formatted, given to the driver's client, stored. -/
def copyOf {J : JsonText Buffer} (E : EventDataFactory J) {v : Version} (d : Version)
    (r : Recorded Buffer v) (revision : ℤ) : Option (Recorded Buffer d) :=
  (format J v ⟨some r⟩).toOption.bind fun f =>
    (appendEventToStreamteEvent E d f).bind fun request => request.record d revision

theorem copyOf_eq_some {J : JsonText Buffer} {E : EventDataFactory J} {r : Recorded Buffer v}
    {revision : ℤ} {record : Recorded Buffer d} : copyOf E d r revision = some record ↔
      ∃ f request, format J v ⟨some r⟩ = .ok f ∧ appendEventToStreamteEvent E d f = some request ∧
        request.record d revision = some record := by
  unfold copyOf
  cases format J v ⟨some r⟩ <;> simp [Except.toOption, Option.bind_eq_some_iff]

structure AcceptedAs (x : Delivered Buffer v) (r : Recorded Buffer v) : Prop where
  event : x.delivery.handle.validation.event = ⟨some r⟩
  answer : x.delivery.handle.validation.answer = some (.ok [])

theorem Sound.copies {ok : DeliveryAct → Prop} {s : Interconnection Buffer v d}
    (h : Sound cfg feed ok s) {e : CopiedEvent Buffer v d}
    (he : e ∈ s.world.destination.entries) : ∃ x ∈ s.delivered, AcceptedAs x e.source ∧
      feed x.delivery.subscription x.position = some ⟨some e.source⟩ ∧
      ∃ revision, copyOf cfg.eventDataFactory d e.source revision = some e.record := by
  obtain ⟨x, hx, request, revision, ⟨hevent, w, hw, hreq⟩, hrec⟩ := h.entries e he
  have hset := h.settled hx
  have hev : x.delivery.handle.validation.event = ⟨some e.source⟩ := by
    generalize x.delivery.handle.validation.event = event at hevent ⊢
    obtain ⟨o⟩ := event
    exact congrArg _ hevent
  refine ⟨x, hx, ⟨hev, hset.accepted (hset.validated w hw)⟩, hev ▸ h.fed x hx, revision, ?_⟩
  exact copyOf_eq_some.mpr ⟨w.event, request, hev ▸ hset.formatted w hw, hreq, hrec⟩

/-- Over any deliveries, redeliveries, restarts and late appends: every record at the destination
is the copy of an event of one of the source's subscriptions, that was delivered from it and that
class-validator found no error in. -/
theorem destination_holds_only_copies (cfg : Configuration Buffer) (feed : Feed Buffer v)
    (d : Version) {as : List InterconnectionLabel} {s : Interconnection Buffer v d}
    (h : Run (InterconnectionStep cfg feed d) Interconnection.init as s) :
    ∀ e ∈ s.world.destination.entries, ∃ x ∈ s.delivered, AcceptedAs x e.source ∧
      feed x.delivery.subscription x.position = some ⟨some e.source⟩ ∧
      ∃ revision, copyOf cfg.eventDataFactory d e.source revision = some e.record :=
  fun _ he => (Sound.run (fun _ => True) h fun _ _ _ => trivial).copies he

def copyFirst : List InterconnectionLabel :=
  [.deliver 0 0 false, .act 0 (.handle (.classValidatorAnswers (.ok []))),
    .act 0 (.handle .continues)]

theorem first_event_is_copied :
    ∃ s : Interconnection (Option JsValue) .next .legacy,
      exec (Interconnection.next exampleConfiguration
        (exampleFeed "Example2Event" exampleData .next)) Interconnection.init
        (copyFirst ++ [.apply 0]) = some s ∧ s.world.destination.entries.length = 1 ∧
      ∀ e ∈ s.world.destination.entries, ∃ x ∈ s.delivered, AcceptedAs x e.source ∧
        exampleFeed "Example2Event" exampleData .next x.delivery.subscription x.position =
          some ⟨some e.source⟩ ∧
        ∃ revision, copyOf exampleFactory .legacy e.source revision = some e.record := by
  have hexec : exec (Interconnection.next exampleConfiguration
      (exampleFeed "Example2Event" exampleData .next))
      (Interconnection.init : Interconnection (Option JsValue) .next .legacy)
      (copyFirst ++ [.apply 0]) = some _ := rfl
  exact ⟨_, rfl, rfl, destination_holds_only_copies _ _ _ (run_of_exec hexec)⟩

/-! ### Interconnects in series -/

/-- The data of an event and its metadata, where they can be read, are JSON. -/
def CarriesJson (J : JsonText Buffer) : (v : Version) → Recorded Buffer v → Prop
  | .legacy, r => (∀ x, J.parse (LegacyRecordedEvent.data r) = some x → IsJson x) ∧
      ∀ x, J.parse (LegacyRecordedEvent.metadata r) = some x → IsJson x
  | .next, r => IsJson (NextRecordedEvent.data r) ∧
      (NextRecordedEvent.metadata r = .undefined ∨ IsJson (NextRecordedEvent.metadata r))

theorem copyable_enriched {data m : JsValue} (hdata : IsJson data) (hm : IsJson (literal m.spread))
    (s i t : String) : Copyable ⟨data, enriched m s i t⟩ := by
  refine ⟨hdata, ?_, s, i, t, enriched_eventStreamId .., enriched_eventId ..,
    enriched_eventType .., enriched_enriched ..⟩
  exact ((hm.literal_set _ (.str _)).literal_set _ (.str _)).literal_set _ (.str _)

theorem copyable_of_carriesJson {J : JsonText Buffer} {r : Recorded Buffer v} {f : FormattedEvent}
    (hr : CarriesJson J v r) (hf : format J v ⟨some r⟩ = .ok f) : Copyable f := by
  cases v with
  | legacy =>
    obtain ⟨hdata, hmeta⟩ := hr
    simp only [format, LegacyEventFormatterService.format] at hf
    cases hd : J.parse (LegacyRecordedEvent.data r) with
    | none => simp [hd] at hf
    | some data =>
      simp only [hd, Except.ok.injEq] at hf
      subst hf
      refine copyable_enriched (hdata data hd) ?_ _ _ _
      cases hm : J.parse (LegacyRecordedEvent.metadata r) with
      | none => exact isJson_literal_empty
      | some m => exact (hmeta m hm).spread
  | next =>
    obtain ⟨hdata, hmeta⟩ := hr
    cases hf
    refine copyable_enriched hdata ?_ _ _ _
    rcases hmeta with hm | hm
    · rw [hm]
      exact isJson_literal_empty
    · exact hm.spread

theorem sendable_of_append {J : JsonText Buffer} {E : EventDataFactory J} {f : FormattedEvent}
    {request : AppendRequest Buffer} (h : appendEventToStreamteEvent E .legacy f = some request)
    (ht : ∃ t, f.eventType = .str t ∧ t ≠ "") : Sendable E f := by
  obtain ⟨r, hr, -⟩ := Option.map_eq_some_iff.mp h
  obtain ⟨hid, -, -, hdata, -⟩ := E.created _ _ _ _ _ hr
  exact ⟨hid, ht, hdata⟩

/-- The record reads, for a formatter of its own version, as the event it is a copy of. -/
theorem format_copyOf {J : JsonText Buffer} {E : EventDataFactory J} {r : Recorded Buffer v}
    {f : FormattedEvent} {revision : ℤ} {record : Recorded Buffer d}
    (hf : format J v ⟨some r⟩ = .ok f) (hcopy : Copyable f)
    (ht : ∃ t, f.eventType = .str t ∧ t ≠ "") (h : copyOf E d r revision = some record) :
    format J d ⟨some record⟩ = .ok f := by
  obtain ⟨f', request, hf', hreq, hrec⟩ := copyOf_eq_some.mp h
  cases hf.symm.trans hf'
  have hsend : d = .legacy → Sendable E f := by
    rintro rfl
    exact sendable_of_append hreq ht
  have hhop : hop E d revision f = some f := hop_eq hcopy hsend
  rw [hop, hreq, Option.bind_some, hrec, Option.bind_some] at hhop
  cases hread : format J d ⟨some record⟩ with
  | error err => simp [hread, Except.toOption] at hhop
  | ok f'' =>
    rw [hread] at hhop
    exact congrArg Except.ok (Option.some.inj hhop)

/-- The record `r'` has come from `r` through interconnects in series: each of them, in some run of
its own, holds at its destination a record of what the one before it had recorded. -/
inductive Relayed (J : JsonText Buffer) (v : Version) (r : Recorded Buffer v) :
    (d : Version) → Recorded Buffer d → Prop
  | source : Relayed J v r v r
  | copied (d d' : Version) (cfg : Configuration Buffer) (feed : Feed Buffer d)
      (as : List InterconnectionLabel) (s : Interconnection Buffer d d')
      (e : CopiedEvent Buffer d d') : Relayed J v r d e.source → cfg.json = J →
      Run (InterconnectionStep cfg feed d') Interconnection.init as s →
      e ∈ s.world.destination.entries → Relayed J v r d' e.record

/-- Through any number of interconnects, of any versions and in any runs of each, an event that has a
type and carries JSON reads at the last destination exactly as at the first source. -/
theorem relayed_event_reads_as_source (J : JsonText Buffer) (v : Version) (r : Recorded Buffer v)
    (hr : CarriesJson J v r) (htype : r.type v ≠ "") {f : FormattedEvent}
    (hf : format J v ⟨some r⟩ = .ok f) {d : Version} {r' : Recorded Buffer d}
    (h : Relayed J v r d r') : format J d ⟨some r'⟩ = .ok f := by
  have hcopy := copyable_of_carriesJson hr hf
  have htyped : ∃ t, f.eventType = .str t ∧ t ≠ "" := by
    obtain ⟨r₀, hr₀, -, -, ht⟩ := format_names_source hf
    cases hr₀
    exact ⟨_, ht, htype⟩
  induction h with
  | source => exact hf
  | copied d d' cfg feed as s e _ hJ hrun he ih =>
    obtain ⟨x, -, -, -, revision, hcopied⟩ :=
      (Sound.run (fun _ => True) hrun fun _ _ _ => trivial).copies he
    subst hJ
    exact format_copyOf ih hcopy htyped hcopied

def relayed : Recorded (Option JsValue) .next × Recorded (Option JsValue) .legacy ×
    Recorded (Option JsValue) .next :=
  let metadata := enriched .undefined "hero-1" exampleId "Example2Event"
  (⟨"hero-1", exampleId, "Example2Event", exampleData, .undefined, none⟩,
    ⟨"hero-1", exampleId, "Example2Event", some exampleData, some (literal metadata)⟩,
    ⟨"hero-1", exampleId, "Example2Event", exampleData,
      literal (enriched (literal metadata) "hero-1" exampleId "Example2Event"), some 0⟩)

theorem twice_relayed_event_reads_as_source :
    format JsonText.denoted .next ⟨some relayed.2.2⟩ =
      .ok ⟨exampleData, enriched .undefined "hero-1" exampleId "Example2Event"⟩ := by
  have hfirst : exec (Interconnection.next exampleConfiguration fun _ _ => some ⟨some relayed.1⟩)
      (Interconnection.init : Interconnection (Option JsValue) .next .legacy)
      (copyFirst ++ [.apply 0]) = some _ := rfl
  have hsecond : exec (Interconnection.next exampleConfiguration fun _ _ => some ⟨some relayed.2.1⟩)
      (Interconnection.init : Interconnection (Option JsValue) .legacy .next)
      (copyFirst ++ [.apply 0]) = some _ := rfl
  have honce : Relayed .denoted .next relayed.1 .legacy relayed.2.1 :=
    .copied _ _ _ _ _ _ ⟨relayed.1, relayed.2.1⟩ .source rfl (run_of_exec hfirst)
      (List.mem_singleton_self _)
  have htwice : Relayed .denoted .next relayed.1 .next relayed.2.2 :=
    .copied _ _ _ _ _ _ ⟨relayed.2.1, relayed.2.2⟩ honce rfl (run_of_exec hsecond)
      (List.mem_singleton_self _)
  have hjson : IsJson exampleData := isJson_literal_empty.literal_set "power" (.num 1)
  exact relayed_event_reads_as_source .denoted .next relayed.1 ⟨hjson, Or.inl rfl⟩ (by decide) rfl
    htwice

end Interconnect
