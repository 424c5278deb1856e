import Interconnect.Lib.Simulation
import Interconnect.Model.Interconnection
import Interconnect.Proofs.Accounts
import Interconnect.Proofs.Redelivery

/-! What holds of an interconnect over its restarts: every delivery was made by a run of some
process, every append was sent for one of them, and what was confirmed is at the destination. -/

namespace Interconnect

open Runs Pools Journals

variable {Buffer : Type} {v d : Version} {cfg : Configuration Buffer} {feed : Feed Buffer v}

theorem mem_delivered {s : Interconnection Buffer v d} {x : Delivered Buffer v} :
    x ∈ s.delivered ↔ x ∈ s.past ∨ ∃ i : ℕ, s.positions[i]? = some x.position ∧
      s.world.process.calls[i]? = some x.delivery := by
  obtain ⟨n, c⟩ := x
  rw [Interconnection.delivered, List.mem_append, List.mem_iff_getElem? (l := List.zipWith ..)]
  refine or_congr_right (exists_congr fun i => ?_)
  rw [List.getElem?_zipWith]
  cases s.positions[i]? <;> cases s.world.process.calls[i]? <;> simp

theorem mem_settled {s : Interconnection Buffer v d} {q n : ℕ} : (q, n) ∈ s.settled ↔
    ∃ x ∈ s.delivered, x.position = n ∧ ∃ y, (q, y) ∈ x.delivery.settlements := by
  simp only [Interconnection.settled, List.mem_flatMap, List.mem_map, Prod.mk.injEq, Prod.exists]
  constructor
  · rintro ⟨x, hx, q', y, hy, rfl, rfl⟩
    exact ⟨x, hx, rfl, y, hy⟩
  · rintro ⟨x, hx, rfl, y, hy⟩
    exact ⟨x, hx, q, y, hy, rfl, rfl⟩

inductive Moved (cfg : Configuration Buffer) (w : World Buffer v d) (c : Delivery Buffer v) :
    Delivery Buffer v → Prop
  | stays : Moved cfg w c c
  | steps (p p' : Process Buffer v d) (i : ℕ) (a : DeliveryAct) (c' : Delivery Buffer v) :
      Delivery.Step cfg (readerOf v) p i c a p' c' →
      (∀ u x, a = .handle (.write (.appendAnswers (.ok u))) → c.handle.write = some x →
        w.holds x.event = true) → Moved cfg w c c'

theorem readerOf_settlements {c c' : Delivery Buffer v} (h : (readerOf v).callback c = some c') :
    c.settlements <+: c'.settlements := by
  cases v with
  | legacy =>
    cases HttpReaderService.callback_cases h with
    | failed => exact List.prefix_append _ _
    | acknowledged => exact List.prefix_append _ _
    | _ => exact List.prefix_rfl
  | next =>
    rw [GrpcReaderService.onEvent_eq h]

theorem Delivery.step_settlements {p p' : Process Buffer v d} {i : ℕ} {c c' : Delivery Buffer v}
    {a : DeliveryAct} (h : Delivery.Step cfg (readerOf v) p i c a p' c') :
    c.settlements <+: c'.settlements := by
  cases h with
  | handle => exact List.prefix_rfl
  | callback _ hcb => exact readerOf_settlements hcb

theorem Moved.settlements {w : World Buffer v d} {c c' : Delivery Buffer v}
    (h : Moved cfg w c c') : c.settlements <+: c'.settlements := by
  cases h with
  | stays => exact List.prefix_rfl
  | steps p p' i a c' hs => exact Delivery.step_settlements hs

theorem Moved.handle {w : World Buffer v d} {c c' : Delivery Buffer v} {Q : HandleCall Buffer v → Prop}
    (hQ : ∀ {p p' : Process Buffer v d} {i h a h'}, Q h → HandleCall.Step cfg p i h a p' h' → Q h')
    (h : Moved cfg w c c') (hc : Q c.handle) : Q c'.handle := by
  cases h with
  | stays => exact hc
  | steps p p' i a c' hs => exact Delivery.step_handle hQ hc hs

theorem Moved.event {w : World Buffer v d} {c c' : Delivery Buffer v} (h : Moved cfg w c c') :
    c'.handle.validation.event = c.handle.validation.event :=
  h.handle (Q := fun x => x.validation.event = c.handle.validation.event)
    (fun he hs => (HandleCall.step_event hs).trans he) rfl

theorem Moved.subscription {w : World Buffer v d} {c c' : Delivery Buffer v}
    (h : Moved cfg w c c') : c'.subscription = c.subscription := by
  cases h with
  | stays => rfl
  | steps p p' i a c' hs => exact Delivery.step_subscription hs

/-- How the deliveries of a state come from those of the one before: each is kept, perhaps moved, and
any other has just been given the event at its position. -/
structure Grows (cfg : Configuration Buffer) (feed : Feed Buffer v) (s : Interconnection Buffer v d)
    (l : InterconnectionLabel) (s' : Interconnection Buffer v d) : Prop where
  aligned : s'.positions.length = s'.world.process.calls.length
  kept : ∀ x ∈ s.delivered, ∃ y ∈ s'.delivered, y.position = x.position ∧
    Moved cfg s.world x.delivery y.delivery
  origin : ∀ y ∈ s'.delivered, (∃ x ∈ s.delivered, y.position = x.position ∧
    Moved cfg s.world x.delivery y.delivery) ∨
    ∃ (p : Process Buffer v d) (a : Arrival Buffer v), feed a.subscription y.position = some a.event ∧
      l = .deliver a.subscription y.position a.ackThrows ∧
      y.delivery = (Delivery.start cfg (readerOf v) p a).2

theorem grows_of_same {s s' : Interconnection Buffer v d} {l : InterconnectionLabel}
    (hal : s'.positions.length = s'.world.process.calls.length)
    (h : ∀ x, x ∈ s'.delivered ↔ x ∈ s.delivered) : Grows cfg feed s l s' :=
  ⟨hal, fun x hx => ⟨x, (h x).mpr hx, rfl, .stays⟩, fun y hy => Or.inl ⟨y, (h y).mp hy, rfl, .stays⟩⟩

theorem grows_deliver {s : Interconnection Buffer v d} {q n : ℕ} {ackThrows : Bool}
    {event : ResolvedEvent (Recorded Buffer v)} {process : ReaderState Buffer v d}
    (hal : s.positions.length = s.world.process.calls.length) (hfeed : feed q n = some event)
    (h : ReaderStep cfg (readerOf v) d s.world.process (.start ⟨q, event, ackThrows⟩) process) :
    Grows cfg feed s (.deliver q n ackThrows) { s with
      world := { s.world with process }, positions := s.positions ++ [n] } := by
  obtain ⟨-, -, hcalls⟩ := deliveries_next_start h
  have hmem : ∀ x, x ∈ ({ s with
      world := { s.world with process },
      positions := s.positions ++ [n] } : Interconnection Buffer v d).delivered ↔
      x ∈ s.delivered ∨ x = ⟨n, (Delivery.start cfg (readerOf v) s.world.process.shared
        ⟨q, event, ackThrows⟩).2⟩ := by
    intro x
    simp only [Interconnection.delivered, hcalls, List.zipWith_append hal, List.mem_append]
    simp [or_assoc]
  refine ⟨by simp [hcalls, hal], fun x hx => ⟨x, (hmem x).mpr (Or.inl hx), rfl, .stays⟩,
    fun y hy => ?_⟩
  rcases (hmem y).mp hy with hy | rfl
  · exact Or.inl ⟨y, hy, rfl, .stays⟩
  · exact Or.inr ⟨_, _, hfeed, rfl, rfl⟩

theorem grows_act {s : Interconnection Buffer v d} {i : ℕ} {a : DeliveryAct}
    {process : ReaderState Buffer v d} (hal : s.positions.length = s.world.process.calls.length)
    (hconf : s.world.confirms i a = true)
    (h : ReaderStep cfg (readerOf v) d s.world.process (.act i a) process) :
    Grows cfg feed s (.act i a) { s with world := { s.world with process } } := by
  obtain ⟨-, c, c', hm, hstep⟩ := deliveries_next_act h
  have hmoved : Moved cfg s.world c c' := by
    refine .steps _ _ i a c' hstep fun u x ha hx => ?_
    subst ha
    simpa [World.confirms, hm.before, hx] using hconf
  have hcase : ∀ j : ℕ, ∃ f : Delivery Buffer v → Delivery Buffer v,
      process.calls[j]? = s.world.process.calls[j]?.map f ∧
      ∀ e, s.world.process.calls[j]? = some e → Moved cfg s.world e (f e) := by
    intro j
    by_cases hij : j = i
    · subst hij
      refine ⟨fun _ => c', by simp [hm.before, hm.after], fun e he => ?_⟩
      cases hm.before.symm.trans he
      exact hmoved
    · exact ⟨id, by simp [hm.others j hij], fun e _ => .stays⟩
  refine ⟨?_, fun x hx => ?_, fun y hy => Or.inl ?_⟩
  · simpa [hm.calls_eq] using hal
  · rcases mem_delivered.mp hx with hx | ⟨j, hn, hc⟩
    · exact ⟨x, mem_delivered.mpr (Or.inl hx), rfl, .stays⟩
    · obtain ⟨f, hf, hmv⟩ := hcase j
      exact ⟨⟨x.position, f x.delivery⟩, mem_delivered.mpr (Or.inr ⟨j, hn, by simp [hf, hc]⟩), rfl,
        hmv _ hc⟩
  · rcases mem_delivered.mp hy with hy | ⟨j, hn, hc⟩
    · exact ⟨y, mem_delivered.mpr (Or.inl hy), rfl, .stays⟩
    · obtain ⟨f, hf, hmv⟩ := hcase j
      obtain ⟨e, he, hfe⟩ := Option.map_eq_some_iff.mp (hf.symm.trans hc)
      exact ⟨⟨y.position, e⟩, mem_delivered.mpr (Or.inr ⟨j, hn, he⟩), rfl, hfe ▸ hmv e he⟩

theorem grows_step {s s' : Interconnection Buffer v d} {l : InterconnectionLabel}
    (hal : s.positions.length = s.world.process.calls.length)
    (h : Interconnection.Step cfg feed s l s') : Grows cfg feed s l s' := by
  cases h with
  | delivers q n ackThrows event process _ hfeed hs => exact grows_deliver hal hfeed hs
  | acts i a process hconf hs => exact grows_act hal hconf hs
  | ticks process hs =>
    have hcalls := (next_env hs).2
    exact grows_of_same (by simpa [hcalls] using hal)
      fun x => by simp [Interconnection.delivered, hcalls]
  | applies => exact grows_of_same hal fun x => Iff.rfl
  | retires => exact grows_of_same hal fun x => Iff.rfl
  | restarts =>
    exact grows_of_same rfl fun x => by simp [Interconnection.delivered]

/-! ### What every step keeps -/

/-- A state of one process, reached by steps that `ok` allows. -/
def ProcessRun (cfg : Configuration Buffer) (ok : DeliveryAct → Prop) (p : ReaderState Buffer v d) :
    Prop :=
  ∃ bs, Run (ReaderStep cfg (readerOf v) d) (State.init .init) bs p ∧
    ∀ i a, Label.act i a ∈ bs → ok a

structure SentFor (cfg : Configuration Buffer) (a : SentAppend Buffer v d) (c : HandleCall Buffer v) :
    Prop where
  event : c.validation.event.event = some a.source
  write : ∃ w, c.write = some w ∧
    appendEventToStreamteEvent cfg.eventDataFactory d w.event = some a.request

theorem sentFor_step {a : SentAppend Buffer v d} {p p' : Process Buffer v d} {i : ℕ}
    {c c' : HandleCall Buffer v} {l : HandleAct} (hc : SentFor cfg a c)
    (h : HandleCall.Step cfg p i c l p' c') : SentFor cfg a c' := by
  obtain ⟨hevent, w, hw, hreq⟩ := hc
  refine ⟨by rw [HandleCall.step_event h, hevent], ?_⟩
  cases HandleCall.step_writeStep h with
  | unchanged _ he => exact ⟨w, he.trans hw, hreq⟩
  | moved _ x x' _ _ hx hx' hs =>
    cases hx.symm.trans hw
    exact ⟨x', hx', by rw [WriteCall.step_event hs, hreq]⟩
  | started _ hnone => exact nomatch hnone.symm.trans hw

theorem exists_sentFor {ok : DeliveryAct → Prop} {p : ReaderState Buffer v d}
    (hp : ProcessRun cfg ok p) {a : SentAppend Buffer v d} (ha : a ∈ sentBy p) :
    ∃ (i : ℕ) (c : Delivery Buffer v), p.calls[i]? = some c ∧ SentFor cfg a c.handle := by
  obtain ⟨bs, hrun, -⟩ := hp
  obtain ⟨⟨i, request⟩, hmem, ha⟩ := List.mem_filterMap.mp ha
  obtain ⟨source, hsource, rfl⟩ := Option.map_eq_some_iff.mp ha
  obtain ⟨c, hc, hev⟩ := Option.bind_eq_some_iff.mp hsource
  obtain ⟨x, w, hx, hw, hreq⟩ := (mem_appended_iff hrun).mp hmem
  cases hc.symm.trans hx
  exact ⟨i, c, hc, hev, w, hw, hreq⟩

def ConfirmsHeld (w : World Buffer v d) (c : HandleCall Buffer v) : Prop :=
  ∀ x, c.write = some x → x.append = .fulfilled → w.holds x.event = true

theorem Moved.confirmsHeld {w : World Buffer v d} {c c' : Delivery Buffer v}
    (h : Moved cfg w c c') (hc : ConfirmsHeld w c.handle) : ConfirmsHeld w c'.handle := by
  cases h with
  | stays => exact hc
  | steps p p' i a c' hs hconf =>
    cases hs with
    | callback _ hcb =>
      rw [((readerOf v).callback_keeps _ _ hcb).1]
      exact hc
    | handle a p' h hs =>
      intro x hx happ
      cases hs with
      | writes f =>
        cases hx
        simp only [writeEvent] at happ
        split_ifs at happ
      | write a y y' r hy hs =>
        cases hx
        by_cases hold : y.append = .fulfilled
        · rw [WriteCall.step_event hs]
          exact hc y hy hold
        · cases hs with
          | answered answer =>
            cases answer with
            | ok u => exact hconf u y rfl hy
            | error r => cases happ
          | _ => exact absurd happ hold
      | _ => exact hc x hx happ

theorem holds_of_subset {w w' : World Buffer v d} {e : FormattedEvent}
    (h : ∀ x ∈ w.destination.entries, x ∈ w'.destination.entries) (he : w.holds e = true) :
    w'.holds e = true := by
  unfold World.holds at he ⊢
  split at he
  · simp only [decide_eq_true_eq, List.mem_map] at he ⊢
    obtain ⟨x, hx, hk⟩ := he
    exact ⟨x, h x hx, hk⟩
  · cases he

theorem destination_grows {s s' : Interconnection Buffer v d} {l : InterconnectionLabel}
    (h : Interconnection.Step cfg feed s l s') :
    ∀ x ∈ s.world.destination.entries, x ∈ s'.world.destination.entries := by
  cases h with
  | applies => exact fun x hx => Journal.mem_append.mpr (Or.inl hx)
  | _ => exact fun x hx => hx

def Traced (cfg : Configuration Buffer) (s : Interconnection Buffer v d) (e : CopiedEvent Buffer v d) :
    Prop :=
  ∃ x ∈ s.delivered, ∃ request revision,
    SentFor cfg (⟨e.source, request⟩ : SentAppend Buffer v d) x.delivery.handle ∧
      request.record d revision = some e.record

/-- What holds of an interconnect at any time. `ok` is what is asked of the steps of deliveries. -/
structure Sound (cfg : Configuration Buffer) (feed : Feed Buffer v) (ok : DeliveryAct → Prop)
    (s : Interconnection Buffer v d) : Prop where
  aligned : s.positions.length = s.world.process.calls.length
  process : ProcessRun cfg ok s.world.process
  past : ∀ x ∈ s.past, ∃ p : ReaderState Buffer v d, ProcessRun cfg ok p ∧ x.delivery ∈ p.calls
  fed : ∀ x ∈ s.delivered,
    feed x.delivery.subscription x.position = some x.delivery.handle.validation.event
  held : ∀ x ∈ s.delivered, ConfirmsHeld s.world x.delivery.handle
  sent : ∀ a ∈ s.world.past, ∃ x ∈ s.delivered, SentFor cfg a x.delivery.handle
  entries : ∀ e ∈ s.world.destination.entries, Traced cfg s e
  retired : ∀ y ∈ s.retired, y ∈ s.settled

namespace Sound

variable {ok : DeliveryAct → Prop} {s s' : Interconnection Buffer v d} {l : InterconnectionLabel}

theorem ran (h : Sound cfg feed ok s) {x : Delivered Buffer v} (hx : x ∈ s.delivered) :
    ∃ p : ReaderState Buffer v d, ProcessRun cfg ok p ∧ x.delivery ∈ p.calls := by
  rcases mem_delivered.mp hx with hx | ⟨i, -, hc⟩
  · exact h.past x hx
  · exact ⟨_, h.process, List.mem_of_getElem? hc⟩

theorem settled (h : Sound cfg feed ok s) {x : Delivered Buffer v} (hx : x ∈ s.delivered) :
    HandleCall.Settled cfg x.delivery.handle := by
  obtain ⟨p, ⟨bs, hrun, -⟩, hc⟩ := h.ran hx
  exact handles_settled hrun _ hc

theorem allSent (h : Sound cfg feed ok s) {a : SentAppend Buffer v d} (ha : a ∈ s.world.sent) :
    ∃ x ∈ s.delivered, SentFor cfg a x.delivery.handle := by
  rcases List.mem_append.mp ha with ha | ha
  · exact h.sent a ha
  · obtain ⟨i, c, hc, hsent⟩ := exists_sentFor h.process ha
    have hlt : i < s.positions.length := h.aligned ▸ (List.getElem?_eq_some_iff.mp hc).1
    exact ⟨⟨s.positions[i], c⟩, mem_delivered.mpr (Or.inr ⟨i, by simp [hlt], hc⟩), hsent⟩

theorem processStep (h : Sound cfg feed ok s)
    (hok : ∀ i a, l = .act i a → ok a) (hs : Interconnection.Step cfg feed s l s') :
    ProcessRun cfg ok s'.world.process := by
  obtain ⟨bs, hrun, hbs⟩ := h.process
  have hsnoc : ∀ {k} {p : ReaderState Buffer v d},
      ReaderStep cfg (readerOf v) d s.world.process k p → (∀ i a, k = .act i a → ok a) →
      ProcessRun cfg ok p := by
    intro k p hp hk
    refine ⟨bs ++ [k], .snoc hrun hp, fun i a ha => ?_⟩
    rcases List.mem_append.mp ha with ha | ha
    · exact hbs i a ha
    · exact hk i a (List.mem_singleton.mp ha).symm
  cases hs with
  | delivers q n ackThrows event process _ _ hp => exact hsnoc hp fun i a h => nomatch h
  | acts i a process _ hp =>
    refine hsnoc hp fun j b hb => ?_
    cases hb
    exact hok i a rfl
  | ticks process hp => exact hsnoc hp fun i a h => nomatch h
  | restarts => exact ⟨[], .nil, fun i a h => nomatch h⟩
  | _ => exact ⟨bs, hrun, hbs⟩

theorem kept (hg : Grows cfg feed s l s') {Q : HandleCall Buffer v → Prop}
    (hQ : ∀ {p p' : Process Buffer v d} {i h a h'}, Q h → HandleCall.Step cfg p i h a p' h' → Q h')
    (h : ∃ x ∈ s.delivered, Q x.delivery.handle) : ∃ x ∈ s'.delivered, Q x.delivery.handle := by
  obtain ⟨x, hx, hq⟩ := h
  obtain ⟨y, hy, -, hm⟩ := hg.kept x hx
  exact ⟨y, hy, hm.handle hQ hq⟩

theorem step (h : Sound cfg feed ok s) (hok : ∀ i a, l = .act i a → ok a)
    (hs : Interconnection.Step cfg feed s l s') : Sound cfg feed ok s' := by
  have hg := grows_step h.aligned hs
  refine ⟨hg.aligned, h.processStep hok hs, ?_, ?_, ?_, ?_, ?_, ?_⟩
  · cases hs with
    | restarts => exact fun x hx => h.ran hx
    | _ => exact h.past
  · intro y hy
    rcases hg.origin y hy with ⟨x, hx, hn, hm⟩ | ⟨p, a, hfeed, -, hnew⟩
    · rw [hn, hm.subscription, hm.event]
      exact h.fed x hx
    · rw [hnew]
      exact hfeed.trans (congrArg some (HandleCall.start_event p a.event).symm)
  · intro y hy z hz happ
    refine holds_of_subset (destination_grows hs) ?_
    rcases hg.origin y hy with ⟨x, hx, -, hm⟩ | ⟨p, a, -, -, hnew⟩
    · exact hm.confirmsHeld (h.held x hx) z hz happ
    · rw [hnew] at hz
      cases hz
  · intro a ha
    have hsent : a ∈ s.world.sent := by
      cases hs with
      | restarts => exact ha
      | _ => exact List.mem_append_left _ ha
    exact kept hg sentFor_step (h.allSent hsent)
  · intro e he
    have hkeep : ∀ {e request revision}, request.record d revision = some e.record →
        (∃ x ∈ s.delivered, SentFor cfg (⟨e.source, request⟩ : SentAppend Buffer v d)
          x.delivery.handle) → Traced cfg s' e := by
      intro e request revision hrec hx
      obtain ⟨y, hy, hq⟩ := kept hg sentFor_step hx
      exact ⟨y, hy, request, revision, hq, hrec⟩
    have hold : e ∈ s.world.destination.entries → Traced cfg s' e := by
      intro he
      obtain ⟨x, hx, request, revision, hq, hrec⟩ := h.entries e he
      exact hkeep hrec ⟨x, hx, hq⟩
    cases hs with
    | applies k a record hk hrec =>
      rcases Journal.mem_append_imp he with he | rfl
      · exact hold he
      · exact hkeep hrec (h.allSent (List.mem_of_getElem? hk))
    | _ => exact hold he
  · intro y hy
    have hset : ∀ {y}, y ∈ s.settled → y ∈ s'.settled := by
      rintro ⟨q, n⟩ hy
      obtain ⟨x, hx, hn, z, hz⟩ := mem_settled.mp hy
      obtain ⟨x', hx', hn', hm⟩ := hg.kept x hx
      exact mem_settled.mpr ⟨x', hx', hn'.trans hn, z, hm.settlements.subset hz⟩
    cases hs with
    | retires q n hqn =>
      rcases List.mem_append.mp hy with hy | hy
      · exact hset (h.retired y hy)
      · exact hset (List.mem_singleton.mp hy ▸ hqn)
    | _ => exact hset (h.retired y hy)

theorem run (ok : DeliveryAct → Prop) {as : List InterconnectionLabel}
    (h : Run (InterconnectionStep cfg feed d) Interconnection.init as s)
    (hok : ∀ i a, InterconnectionLabel.act i a ∈ as → ok a) : Sound cfg feed ok s := by
  refine h.invariant_of_labels (fun l => ∀ i a, l = .act i a → ok a) (Sound cfg feed ok)
    (fun l hl i a he => hok i a (he ▸ hl)) ?_ fun s l s' hs hl hn =>
      hs.step hl (Interconnection.next_cases hn)
  refine ⟨rfl, ⟨[], .nil, fun i a h => nomatch h⟩, ?_, ?_, ?_, ?_, ?_, ?_⟩
  all_goals
    intro x hx
    cases hx

end Sound

/-- Leaving out what the source knows, an interconnect does what its world does. -/
theorem interconnection_simulates_world (cfg : Configuration Buffer) (feed : Feed Buffer v)
    (d : Version) : Simulates (InterconnectionStep cfg feed d) (Steps (World.next cfg))
      (fun s w => s.world = w) (fun _ => True) (fun _ => True) := by
  rintro s l s' w rfl - h
  have hone : ∀ {k w'}, World.next cfg s.world k = some w' → s'.world = w' →
      ∃ bs t', (∀ b ∈ bs, True) ∧ Run (Steps (World.next cfg)) s.world bs t' ∧ s'.world = t' :=
    fun {k w'} hk he => ⟨[k], w', fun _ _ => trivial, .single hk, he⟩
  cases Interconnection.next_cases h with
  | delivers q n ackThrows event process _ _ hp =>
    exact hone (k := .process (.start ⟨q, event, ackThrows⟩)) (Option.map_eq_some_iff.mpr ⟨_, hp, rfl⟩)
      rfl
  | acts i a process _ hp =>
    exact hone (k := .process (.act i a)) (Option.map_eq_some_iff.mpr ⟨_, hp, rfl⟩) rfl
  | ticks process hp =>
    exact hone (k := .process (.env ())) (Option.map_eq_some_iff.mpr ⟨_, hp, rfl⟩) rfl
  | applies k a record ha hrec =>
    refine hone (k := .apply k) ?_ rfl
    simp [World.next, World.apply, ha, hrec]
  | retires => exact ⟨[], _, fun _ _ => trivial, .nil, rfl⟩
  | restarts => exact hone (k := .restart) rfl rfl

end Interconnect
