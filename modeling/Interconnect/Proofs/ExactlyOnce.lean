import Interconnect.Proofs.Copies
import Interconnect.Proofs.NoLoss

/-! With a legacy source the redeliveries of a persistent subscription and the destination's memory
of event ids make up for each other: an event the source has let go of was refused, or the
destination holds it, once. -/

namespace Interconnect

open Runs Pools Journals

variable {Buffer : Type} {v d : Version} {cfg : Configuration Buffer} {feed : Feed Buffer v}

/-- No two events of the source have the same stream and id; one event may stand in several
subscriptions. -/
def NamesUnique (feed : Feed Buffer v) : Prop :=
  ∀ q n q' n' r r', feed q n = some ⟨some r⟩ → feed q' n' = some ⟨some r'⟩ →
    r.stream v = r'.stream v → r.id v = r'.id v → r = r'

/-- The destination holds exactly one record of this event, and it is a copy. -/
def CopiedOnce (cfg : Configuration Buffer) (w : World Buffer v d) (r : Recorded Buffer v) : Prop :=
  ∃ (i : ℕ) (e : CopiedEvent Buffer v d), w.destination.entries[i]? = some e ∧ e.source = r ∧
    (∃ revision, copyOf cfg.eventDataFactory d r revision = some e.record) ∧
    ∀ (j : ℕ) (e' : CopiedEvent Buffer v d), w.destination.entries[j]? = some e' →
      e'.source = r → j = i

/-- An append that fails, fails with a reason that the driver can read. -/
def FailsReadably (a : DeliveryAct) : Prop :=
  ∀ r, a = .handle (.write (.appendAnswers (.error r))) → r.isNullish = false

theorem named_of_interconnection {as : List InterconnectionLabel} {s : Interconnection Buffer v d}
    (h : Run (InterconnectionStep cfg feed d) Interconnection.init as s) : Named cfg s.world := by
  obtain ⟨bs, w, -, hrun, hw⟩ :=
    (interconnection_simulates_world cfg feed d).run rfl (fun _ _ => trivial) h
  have hw' : s.world = w := hw
  rw [hw']
  exact named_run hrun

theorem copiedOnce_of_mem {ok : DeliveryAct → Prop} {s : Interconnection Buffer v d}
    (hs : Sound cfg feed ok s) (hnamed : Named cfg s.world) {e : CopiedEvent Buffer v d}
    (he : e ∈ s.world.destination.entries) : CopiedOnce cfg s.world e.source := by
  obtain ⟨x, -, -, -, hcopy⟩ := hs.copies he
  obtain ⟨i, hi⟩ := List.mem_iff_getElem?.mp he
  refine ⟨i, e, hi, rfl, hcopy, fun j e' hj he' => ?_⟩
  obtain ⟨hstream, hid, -⟩ := hnamed.stored e he
  obtain ⟨hstream', hid', -⟩ := hnamed.stored e' (List.mem_of_getElem? hj)
  have hsame : e'.key = e.key := by
    rw [CopiedEvent.key, CopiedEvent.key, hstream, hid, hstream', hid', he']
  have hlt : j < (s.world.destination.entries.map CopiedEvent.key).length := by
    simpa using (List.getElem?_eq_some_iff.mp hj).1
  refine (List.getElem?_inj hlt s.world.destination.nodup).mp ?_
  rw [List.getElem?_map, List.getElem?_map, hj, hi]
  exact congrArg some hsame

theorem copiedOnce_of_key {ok : DeliveryAct → Prop} {s : Interconnection Buffer v d}
    (hs : Sound cfg feed ok s) (hnamed : Named cfg s.world) (huniq : NamesUnique feed)
    {q n : ℕ} {r : Recorded Buffer v} (hfeed : feed q n = some ⟨some r⟩)
    (hkey : (r.stream v, r.id v) ∈ s.world.destination.entries.map CopiedEvent.key) :
    CopiedOnce cfg s.world r := by
  obtain ⟨e, he, hkey⟩ := List.mem_map.mp hkey
  obtain ⟨hstream, hid, -⟩ := hnamed.stored e he
  obtain ⟨hkeys, hkeyi⟩ := Prod.mk.inj hkey
  obtain ⟨x, -, -, hefeed, -⟩ := hs.copies he
  have hsource : e.source = r :=
    huniq _ _ _ _ _ _ hefeed hfeed (hstream.symm.trans hkeys) (hid.symm.trans hkeyi)
  exact hsource ▸ copiedOnce_of_mem hs hnamed he

theorem holds_iff {J : JsonText Buffer} {w : World Buffer v d} {r : Recorded Buffer v}
    {f : FormattedEvent} (hf : format J v ⟨some r⟩ = .ok f) : w.holds f = true ↔
      (r.stream v, r.id v) ∈ w.destination.entries.map CopiedEvent.key := by
  obtain ⟨r', hr', hstream, hid, -⟩ := format_names_source hf
  cases hr'
  simp only [World.holds, hstream, hid, decide_eq_true_eq]

/-! ### A legacy source -/

theorem callback_settles_own {c c' : Delivery Buffer .legacy}
    (h : HttpReaderService.callback c = some c') (hc : ∀ y ∈ c.settlements, y.1 = c.subscription) :
    ∀ y ∈ c'.settlements, y.1 = c'.subscription := by
  intro y hy
  cases HttpReaderService.callback_cases h with
  | failed e =>
    rcases List.mem_append.mp hy with hy | hy
    · exact hc y hy
    · rw [List.mem_singleton.mp hy]
  | acknowledged =>
    rcases List.mem_append.mp hy with hy | hy
    · exact hc y hy
    · rw [List.mem_singleton.mp hy]
  | handled => exact hc y hy
  | rethrown => exact hc y hy

theorem deliveries_settle_own {as : List (ReaderLabel Buffer .legacy)}
    {s : ReaderState Buffer .legacy d}
    (h : Run (ReaderStep cfg HttpReaderService d) (State.init .init) as s) :
    ∀ c ∈ s.calls, ∀ y ∈ c.settlements, y.1 = c.subscription := by
  refine forall_deliveries (fun _ => True) (fun c => ∀ y ∈ c.settlements, y.1 = c.subscription)
    ?_ ?_ h fun _ _ _ => trivial
  · intro p a y hy
    cases hy
  · intro p p' i c a c' hc _ hs
    cases hs with
    | handle => exact hc
    | callback _ hcb => exact callback_settles_own hcb hc

theorem ended_accounted {reader : Reader Buffer v} {p : ReaderState Buffer v d}
    {bs : List (ReaderLabel Buffer v)} (hnet : cfg.safetyNet = DefaultSafetyNetService)
    (h : Run (ReaderStep cfg reader d) (State.init .init) bs p)
    (hok : ∀ i a, Label.act i a ∈ bs → FailsReadably a) {c : Delivery Buffer v} (hc : c ∈ p.calls)
    (ho : c.handle.outcome ≠ .pending) : c.handle.Refused ∨ c.handle.AppendFulfilled := by
  rcases ended_cases (handles_settled h c hc) ho with href | ⟨w, hw, happ | ⟨err, happ, hhook⟩⟩
  · exact Or.inl href
  · exact Or.inr ⟨w, hw, happ⟩
  · have hread := deliveries_readableFailure h (fun l hl => ?_) c hc w err hw happ
    · have hret := (hhook hread).1
      rw [hnet] at hret
      cases hret
    · rintro ⟨i, r, rfl, hr⟩
      exact nomatch hr.symm.trans (hok i _ hl r rfl)

theorem settled_accounted {s : Interconnection Buffer .legacy d} {feed : Feed Buffer .legacy}
    (hnet : cfg.safetyNet = DefaultSafetyNetService) (hs : Sound cfg feed FailsReadably s) {q n : ℕ}
    (h : (q, n) ∈ s.settled) : ∃ x ∈ s.delivered, x.position = n ∧ x.delivery.subscription = q ∧
      (x.delivery.handle.Refused ∨ x.delivery.handle.AppendFulfilled) := by
  obtain ⟨x, hx, hn, y, hy⟩ := mem_settled.mp h
  obtain ⟨p, ⟨bs, hrun, hok⟩, hc⟩ := hs.ran hx
  have hawaited := deliveries_awaited hrun _ hc
  have hcaught := hawaited.caught (List.ne_nil_of_mem hy)
  exact ⟨x, hx, hn, (deliveries_settle_own hrun _ hc _ hy).symm,
    ended_accounted hnet hrun hok hc (hawaited.handle hcaught)⟩

/-- An event the source has let go of was refused, or the destination holds its copy. -/
theorem retired_accounted {s : Interconnection Buffer .legacy d} {feed : Feed Buffer .legacy}
    (hnet : cfg.safetyNet = DefaultSafetyNetService) (huniq : NamesUnique feed)
    (hs : Sound cfg feed FailsReadably s) (hnamed : Named cfg s.world) {q n : ℕ}
    (hret : (q, n) ∈ s.retired) :
    (∃ x ∈ s.delivered, x.position = n ∧ x.delivery.subscription = q ∧
      x.delivery.handle.Refused) ∨
    ∃ r, feed q n = some ⟨some r⟩ ∧ CopiedOnce cfg s.world r := by
  obtain ⟨x, hx, hn, hq, href | ⟨w, hw, happ⟩⟩ := settled_accounted hnet hs (hs.retired _ hret)
  · exact Or.inl ⟨x, hx, hn, hq, href⟩
  · right
    have hfmt := (hs.settled hx).formatted w hw
    obtain ⟨r, hr, -⟩ := format_names_source hfmt
    have hfeed := hs.fed x hx
    rw [hn, hq] at hfeed
    have hev : x.delivery.handle.validation.event = ⟨some r⟩ := by
      generalize x.delivery.handle.validation.event = event at hr ⊢
      obtain ⟨o⟩ := event
      exact congrArg _ hr
    rw [hev] at hfeed hfmt
    exact ⟨r, hfeed, copiedOnce_of_key hs hnamed huniq hfeed
      ((holds_iff hfmt).mp (hs.held x hx w hw happ))⟩

/-- With a legacy source and the default safety net, over any deliveries and redeliveries, restarts
and late or repeated appends: an event whose settlement has reached the source, in the state now or
any time before, was refused by the validator in one of its deliveries, or is held by the
destination, exactly once. -/
theorem retired_event_is_refused_or_copied_once (cfg : Configuration Buffer)
    (feed : Feed Buffer .legacy) (d : Version) (hnet : cfg.safetyNet = DefaultSafetyNetService)
    (huniq : NamesUnique feed) {as : List InterconnectionLabel}
    {s : Interconnection Buffer .legacy d}
    (h : Run (InterconnectionStep cfg feed d) Interconnection.init as s)
    (hok : ∀ i a, InterconnectionLabel.act i a ∈ as → FailsReadably a) {q n : ℕ}
    (hret : (q, n) ∈ s.retired) :
    (∃ x ∈ s.delivered, x.position = n ∧ x.delivery.subscription = q ∧
      x.delivery.handle.Refused) ∨
    ∃ r, feed q n = some ⟨some r⟩ ∧ CopiedOnce cfg s.world r :=
  retired_accounted hnet huniq (Sound.run FailsReadably h hok) (named_of_interconnection h) hret

def retireFirst : List InterconnectionLabel :=
  [.act 0 (.handle (.write (.appendAnswers (.ok ())))), .act 0 (.handle (.write .continues)),
    .act 0 (.handle .continues), .act 0 .callback, .act 0 .callback, .retire 0 0]

theorem exampleFeed_namesUnique (type : String) (data : JsValue) (v : Version) :
    NamesUnique (exampleFeed type data v) := by
  intro q n q' n' r r' h h' _ _
  have he := (exampleFeed_eq h).trans (exampleFeed_eq h').symm
  exact Option.some.inj (congrArg ResolvedEvent.event he)

theorem redelivered_event_is_retired_and_copied_once :
    ∃ s : Interconnection (Option JsValue) .legacy .next,
      exec (Interconnection.next exampleConfiguration
        (exampleFeed "Example2Event" exampleData .legacy)) Interconnection.init
        (copyFirst ++ [.apply 0, .restart] ++ copyFirst ++ retireFirst ++ [.apply 1]) = some s ∧
      ((∃ x ∈ s.delivered, x.position = 0 ∧ x.delivery.subscription = 0 ∧
          x.delivery.handle.Refused) ∨
        ∃ r, exampleFeed "Example2Event" exampleData .legacy 0 0 = some ⟨some r⟩ ∧
          CopiedOnce exampleConfiguration s.world r) := by
  have hexec : exec (Interconnection.next exampleConfiguration
      (exampleFeed "Example2Event" exampleData .legacy))
      (Interconnection.init : Interconnection (Option JsValue) .legacy .next)
      (copyFirst ++ [.apply 0, .restart] ++ copyFirst ++ retireFirst ++ [.apply 1]) = some _ := rfl
  refine ⟨_, rfl, retired_event_is_refused_or_copied_once _ _ _ rfl (exampleFeed_namesUnique _ _ _)
    (run_of_exec hexec) ?_ (List.mem_singleton_self _)⟩
  rintro i a ha r rfl
  simp [copyFirst, retireFirst] at ha

end Interconnect
