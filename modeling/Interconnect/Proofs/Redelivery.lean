import Interconnect.Model.EventStore
import Interconnect.Model.Example

/-! No duplicate copies. The id, stream and type of a source event survive the formatter and the
driver whatever its metadata holds, so all appends for one event carry the same stream and id,
and the destination keeps the first. -/

namespace Interconnect

open Runs Pools Journals

variable {Buffer : Type} {v d : Version} {cfg : Configuration Buffer}

def NamesSource (a : SentAppend Buffer v d) : Prop :=
  a.request.stream = .str (a.source.stream v) ∧ a.request.id = .str (a.source.id v) ∧
    ∃ type, a.request.type = .str type ∧ (a.source.type v ≠ "" → type = a.source.type v)

/-- The record stands under the source event's own stream, id and type. An event that a store has
recorded has a type. -/
def UnderOwnName (e : CopiedEvent Buffer v d) : Prop :=
  e.record.stream d = e.source.stream v ∧ e.record.id d = e.source.id v ∧
    (e.source.type v ≠ "" → e.record.type d = e.source.type v)

theorem namesSource_of_format {J : JsonText Buffer} {E : EventDataFactory J}
    {e : ResolvedEvent (Recorded Buffer v)}
    {source : Recorded Buffer v} {f : FormattedEvent} {request : AppendRequest (Body Buffer d)}
    (he : e.event = some source) (hf : format J v e = .ok f)
    (hreq : appendEventToStreamteEvent E d f = some request) :
    NamesSource (⟨source, request⟩ : SentAppend Buffer v d) := by
  obtain ⟨r, hr, hstream, hid, htype⟩ := format_names_source hf
  obtain rfl : source = r := Option.some.inj (he.symm.trans hr)
  obtain ⟨hs, hi, ht⟩ := append_names_event hreq
  exact ⟨hs.trans hstream, hi.trans hid, ht _ htype⟩

def AppendsOwnEvent (cfg : Configuration Buffer) (s : ReaderState Buffer v d) : Prop :=
  ∀ i request, (i, request) ∈ s.shared.appended → ∃ (c : Delivery Buffer v) (f : FormattedEvent),
    s.calls[i]? = some c ∧ format cfg.json v c.handle.validation.event = .ok f ∧
      appendEventToStreamteEvent cfg.eventDataFactory d f = some request

theorem appendsOwnEvent_step {reader : Reader Buffer v} {s s' : ReaderState Buffer v d}
    {l : ReaderLabel Buffer v} (hs : AppendsOwnEvent cfg s)
    (h : next (deliveries cfg reader d) s l = some s') : AppendsOwnEvent cfg s' := by
  cases l with
  | start a =>
    obtain ⟨-, hsh, hcalls⟩ := deliveries_next_start h
    intro i request hmem
    rw [hsh] at hmem
    obtain ⟨c, f, hc, hf⟩ := hs i request hmem
    refine ⟨c, f, ?_, hf⟩
    rw [hcalls, List.getElem?_append_left (List.getElem?_eq_some_iff.mp hc).1, hc]
  | act i a =>
    obtain ⟨-, c, c', hm, hstep⟩ := deliveries_next_act h
    have hev : c'.handle.validation.event = c.handle.validation.event :=
      Delivery.step_handle (Q := fun h => h.validation.event = c.handle.validation.event)
        (fun he hs => (HandleCall.step_event hs).trans he) rfl hstep
    have hold : ∀ j request, (j, request) ∈ s.shared.appended → ∃ (x : Delivery Buffer v)
        (f : FormattedEvent), s'.calls[j]? = some x ∧
          format cfg.json v x.handle.validation.event = .ok f ∧
          appendEventToStreamteEvent cfg.eventDataFactory d f = some request := by
      intro j request hmem
      obtain ⟨x, f, hx, hf, hreq⟩ := hs j request hmem
      by_cases hij : j = i
      · subst hij
        obtain rfl : c = x := Option.some.inj (hm.before.symm.trans hx)
        exact ⟨c', f, hm.after, by rw [hev]; exact hf, hreq⟩
      · exact ⟨x, f, by rw [hm.others j hij, hx], hf, hreq⟩
    intro j request hmem
    cases Delivery.step_writeStep hstep with
    | unchanged hlog => exact hold j request (hlog ▸ hmem)
    | moved _ _ _ _ hlog => exact hold j request (hlog ▸ hmem)
    | started f _ _ hf hlog =>
      rw [hlog, List.mem_append] at hmem
      rcases hmem with hmem | hmem
      · exact hold j request hmem
      · obtain ⟨r, hr, he⟩ := List.mem_map.mp hmem
        cases he
        exact ⟨c', f, hm.after, by rw [hev]; exact hf, Option.mem_toList.mp hr⟩
  | env e =>
    obtain ⟨henv, hcalls⟩ := next_env h
    obtain ⟨-, hsh⟩ := deliveries_env henv
    intro i request hmem
    rw [hsh] at hmem
    rw [hcalls]
    exact hs i request hmem

theorem namesSource_of_sentBy {s : ReaderState Buffer v d} (hs : AppendsOwnEvent cfg s)
    {a : SentAppend Buffer v d} (ha : a ∈ sentBy s) : NamesSource a := by
  obtain ⟨⟨i, request⟩, hmem, ha⟩ := List.mem_filterMap.mp ha
  obtain ⟨source, hsource, rfl⟩ := Option.map_eq_some_iff.mp ha
  obtain ⟨c, hc, hev⟩ := Option.bind_eq_some_iff.mp hsource
  obtain ⟨x, f, hx, hf, hreq⟩ := hs i request hmem
  obtain rfl : c = x := Option.some.inj (hc.symm.trans hx)
  exact namesSource_of_format hev hf hreq

theorem underOwnName_of_record {a : SentAppend Buffer v d} {revision : ℤ} {record : Recorded Buffer d}
    (ha : NamesSource a) (h : a.request.record d revision = some record) :
    UnderOwnName (⟨a.source, record⟩ : CopiedEvent Buffer v d) := by
  obtain ⟨hs, hi, t, ht, htype⟩ := ha
  rw [AppendRequest.record, hs, hi, ht] at h
  obtain rfl := Option.some.inj h
  obtain ⟨hstream, hid, ht'⟩ := recordedEvent_names (a.source.stream v) (a.source.id v) t
    a.request.data a.request.metadata revision
  exact ⟨hstream, hid, fun hne => ht'.trans (htype hne)⟩

structure Named (cfg : Configuration Buffer) (w : World Buffer v d) : Prop where
  process : AppendsOwnEvent cfg w.process
  past : ∀ a ∈ w.past, NamesSource a
  stored : ∀ e ∈ w.destination.entries, UnderOwnName e

theorem Named.sent {w : World Buffer v d} (h : Named cfg w) : ∀ a ∈ w.sent, NamesSource a := by
  intro a ha
  rcases List.mem_append.mp ha with ha | ha
  · exact h.past a ha
  · exact namesSource_of_sentBy h.process ha

theorem named_step {w w' : World Buffer v d} {l : WorldLabel Buffer v} (hw : Named cfg w)
    (h : World.next cfg w l = some w') : Named cfg w' := by
  cases l with
  | process l =>
    obtain ⟨p, hp, rfl⟩ := Option.map_eq_some_iff.mp h
    exact ⟨appendsOwnEvent_step hw.process hp, hw.past, hw.stored⟩
  | apply k =>
    obtain ⟨a, ha, h⟩ := Option.bind_eq_some_iff.mp h
    obtain ⟨record, hrec, rfl⟩ := Option.map_eq_some_iff.mp h
    refine ⟨hw.process, hw.past, fun e he => ?_⟩
    rcases Journal.mem_append_imp he with he | rfl
    · exact hw.stored e he
    · exact underOwnName_of_record (hw.sent a (List.mem_of_getElem? ha)) hrec
  | restart =>
    cases h
    exact ⟨fun i request hmem => (nomatch hmem), hw.sent, hw.stored⟩

theorem named_run {as : List (WorldLabel Buffer v)} {w : World Buffer v d}
    (h : Run (Steps (World.next cfg)) World.init as w) : Named cfg w := by
  refine h.invariant (Named cfg) ?_ fun w l w' hw hs => named_step hw hs
  exact ⟨fun i request hmem => (nomatch hmem), fun a ha => (nomatch ha), fun e he => nomatch he⟩

/-- Over any redeliveries, restarts and late or repeated appends, the destination holds at most
one copy of each source event, under the event's own stream, id and type. -/
theorem no_duplicate_copies (cfg : Configuration Buffer) (v d : Version)
    {as : List (WorldLabel Buffer v)} {w : World Buffer v d}
    (h : Run (Steps (World.next cfg)) World.init as w) :
    (∀ e ∈ w.destination.entries, UnderOwnName e) ∧
      (w.destination.entries.map fun e => (e.source.stream v, e.source.id v)).Nodup := by
  have hstored := (named_run h).stored
  refine ⟨hstored, ?_⟩
  have hkey : (w.destination.entries.map fun e => (e.source.stream v, e.source.id v)) =
      w.destination.entries.map CopiedEvent.key := by
    refine List.map_congr_left fun e he => ?_
    obtain ⟨hs, hi, -⟩ := hstored e he
    rw [CopiedEvent.key, hs, hi]
  rw [hkey]
  exact w.destination.nodup

def copyEvent : List (WorldLabel (Option JsValue) .legacy) :=
  [.process (.start (arrival "Example2Event" exampleData .legacy)),
    .process (.act 0 (.handle (.classValidatorAnswers (.ok [])))),
    .process (.act 0 (.handle .continues))]

theorem redelivered_event_is_copied_once :
    ∃ w : World (Option JsValue) .legacy .next, exec (World.next exampleConfiguration) World.init
        (copyEvent ++ [.apply 0, .restart] ++ copyEvent ++ [.apply 1, .apply 0]) = some w ∧
      w.destination.entries.length = 1 ∧
      (w.destination.entries.map fun e => (e.source.stream .legacy, e.source.id .legacy)).Nodup := by
  have hexec : exec (World.next exampleConfiguration)
      (World.init : World (Option JsValue) .legacy .next)
      (copyEvent ++ [.apply 0, .restart] ++ copyEvent ++ [.apply 1, .apply 0]) = some _ := rfl
  exact ⟨_, rfl, rfl, (no_duplicate_copies _ _ _ (run_of_exec hexec)).2⟩

end Interconnect
