import Interconnect.Proofs.Recovery

/-! When an event is lost for good: no continuation of the run brings it to the destination. With a
gRPC source, which is told to let go of an event before its append is sent, this can happen to
every event. -/

namespace Interconnect

open Runs Pools Journals

variable {Buffer : Type} {v d : Version} {cfg : Configuration Buffer} {feed : Feed Buffer v}
  {s s' : Interconnection Buffer v d} {r : Recorded Buffer v} {rules : Rules}

/-- The call has refused its event, or class-validator will find it invalid. -/
def HandleCall.Doomed (rules : Rules) (c : HandleCall Buffer v) : Prop :=
  c.Refused ∨ c.validation.outcome = .pending ∧
    ∃ o, c.validation.asked = some o ∧ rules o ≠ .ok []

/-- Nothing is left that could still copy the event: the source keeps it no more, no append of it has
been sent, and the running process, if any, has refused it, or will, wherever it was given it. -/
structure Lost (cfg : Configuration Buffer) (rules : Rules) (feed : Feed Buffer v)
    (s : Interconnection Buffer v d) (r : Recorded Buffer v) : Prop where
  retired : ∀ q n, q < cfg.subscriptions → feed q n = some ⟨some r⟩ → (q, n) ∈ s.retired
  unsent : ∀ a ∈ s.world.sent, a.source ≠ r
  unstored : ∀ e ∈ s.world.destination.entries, e.source ≠ r
  doomed : s.world.process.shared.exited = false → ∀ c ∈ s.world.process.calls,
    c.handle.validation.event = ⟨some r⟩ → c.handle.Doomed rules

theorem mem_sentBy {p : ReaderState Buffer v d} {a : SentAppend Buffer v d} : a ∈ sentBy p ↔
    ∃ (i : ℕ) (c : Delivery Buffer v), (i, a.request) ∈ p.shared.appended ∧ p.calls[i]? = some c ∧
      c.handle.validation.event = ⟨some a.source⟩ := by
  obtain ⟨source, request⟩ := a
  simp only [sentBy, List.mem_filterMap, Option.map_eq_some_iff, Option.bind_eq_some_iff,
    SentAppend.mk.injEq, Prod.exists]
  constructor
  · rintro ⟨i, x, hmem, source', ⟨c, hc, hev⟩, rfl, rfl⟩
    refine ⟨i, c, hmem, hc, ?_⟩
    generalize c.handle.validation.event = event at hev ⊢
    obtain ⟨o⟩ := event
    exact congrArg _ hev
  · rintro ⟨i, c, hmem, hc, hev⟩
    exact ⟨i, request, hmem, source, ⟨c, hc, by rw [hev]⟩, rfl, rfl⟩

theorem Delivery.step_event {reader : Reader Buffer v} {p p' : Process Buffer v d} {i : ℕ}
    {c c' : Delivery Buffer v} {a : DeliveryAct} (h : Delivery.Step cfg reader p i c a p' c') :
    c'.handle.validation.event = c.handle.validation.event :=
  Delivery.step_handle (Q := fun x => x.validation.event = c.handle.validation.event)
    (fun he hs => (HandleCall.step_event hs).trans he) rfl h

theorem refused_step {p p' : Process Buffer v d} {i : ℕ} {c c' : HandleCall Buffer v} {a : HandleAct}
    (hc : c.Refused) (h : HandleCall.Step cfg p i c a p' c') : c'.Refused := by
  obtain ⟨rej, hrej⟩ := hc
  refine ⟨rej, ?_⟩
  rw [HandleCall.step_validation h fun hp => nomatch hp.symm.trans hrej]
  exact hrej

theorem doomed_step {p p' : Process Buffer v d} {i : ℕ} {c c' : HandleCall Buffer v} {a : HandleAct}
    (hc : c.Doomed rules)
    (ha : ∀ answer, a = .classValidatorAnswers answer →
      ∃ o, c.validation.asked = some o ∧ answer = rules o)
    (h : HandleCall.Step cfg p i c a p' c') : c'.Doomed rules := by
  rcases hc with hc | ⟨hp, o, ho, hbad⟩
  · exact Or.inl (refused_step hc h)
  cases h with
  | answered answer =>
    obtain ⟨o', ho', rfl⟩ := ha answer rfl
    cases ho.symm.trans ho'
    refine Or.inl ?_
    cases hr : (report cfg.json v p.validator c.validation.event (rules o)).2 with
    | ok u => exact absurd ((report_ok_iff _).mp hr) hbad
    | error rej => exact ⟨rej, rfl⟩
  | refused => exact Or.inr ⟨hp, o, ho, hbad⟩
  | unformatted => exact Or.inr ⟨hp, o, ho, hbad⟩
  | writes => exact Or.inr ⟨hp, o, ho, hbad⟩
  | settled => exact Or.inr ⟨hp, o, ho, hbad⟩
  | write => exact Or.inr ⟨hp, o, ho, hbad⟩

theorem Delivery.doomed_step {reader : Reader Buffer v} {p p' : Process Buffer v d} {i : ℕ}
    {c c' : Delivery Buffer v} {a : DeliveryAct} (hc : c.handle.Doomed rules)
    (hrule : c.answersBy rules a) (h : Delivery.Step cfg reader p i c a p' c') :
    c'.handle.Doomed rules := by
  cases h with
  | callback _ hcb =>
    rw [(reader.callback_keeps _ _ hcb).1]
    exact hc
  | handle a _ _ hs =>
    refine Interconnect.doomed_step hc (fun answer ha => ?_) hs
    subst ha
    exact hrule

theorem HandleCall.Doomed.not_accepted {c : HandleCall Buffer v} (h : c.Doomed rules) :
    c.validation.outcome ≠ .fulfilled := by
  intro hval
  rcases h with ⟨rej, hrej⟩ | ⟨hp, -⟩
  · exact nomatch hval.symm.trans hrej
  · exact nomatch hval.symm.trans hp

structure Barren (rules : Rules) (p : ReaderState Buffer v d) (r : Recorded Buffer v) : Prop where
  unsent : ∀ a ∈ sentBy p, a.source ≠ r
  doomed : p.shared.exited = false → ∀ c ∈ p.calls, c.handle.validation.event = ⟨some r⟩ →
    c.handle.Doomed rules

section

variable {p p' : ReaderState Buffer v d}

theorem barren_start {a : Arrival Buffer v} (hp : Barren rules p r)
    (hnew : a.subscription < cfg.subscriptions → a.event ≠ ⟨some r⟩)
    (h : ReaderStep cfg (readerOf v) d p (.start a) p') : Barren rules p' r := by
  obtain ⟨c, hc, hcalls⟩ := next_start h
  obtain ⟨hex, hq, he⟩ := deliveries_start hc
  obtain ⟨hsh, hc⟩ := Prod.mk.inj he
  have hev : c.handle.validation.event ≠ ⟨some r⟩ := by
    have hstart : (HandleCall.start cfg p.shared a.event).2.validation.event = a.event :=
      HandleCall.start_event p.shared a.event
    rw [hc]
    exact fun hcr => hnew hq (hstart.symm.trans hcr)
  refine ⟨fun b hb hbr => ?_, fun _ x hx hxr => ?_⟩
  · obtain ⟨i, x, hmem, hx, hxe⟩ := mem_sentBy.mp hb
    rw [hcalls] at hx
    rcases getElem?_append_cases hx with ⟨-, rfl⟩ | hx
    · exact hev (hbr ▸ hxe)
    · rw [hsh] at hmem
      exact hp.unsent b (mem_sentBy.mpr ⟨i, x, hmem, hx, hxe⟩) hbr
  · rw [hcalls] at hx
    rcases List.mem_append.mp hx with hx | hx
    · exact hp.doomed hex x hx hxr
    · rw [List.mem_singleton.mp hx] at hxr
      exact absurd hxr hev

theorem barren_act {i : ℕ} {a : DeliveryAct} (hp : Barren rules p r)
    (hrule : ∀ c, p.calls[i]? = some c → c.answersBy rules a)
    (h : ReaderStep cfg (readerOf v) d p (.act i a) p') : Barren rules p' r := by
  obtain ⟨hex, c, c', hm, hstep⟩ := deliveries_next_act h
  have hev := Delivery.step_event hstep
  refine ⟨fun b hb hbr => ?_, fun _ x hx hxr => ?_⟩
  · obtain ⟨j, x, hmem, hx, hxe⟩ := mem_sentBy.mp hb
    obtain ⟨y, hy, hye⟩ : ∃ y : Delivery Buffer v, p.calls[j]? = some y ∧
        y.handle.validation.event = ⟨some b.source⟩ := by
      rcases hm.cases hx with ⟨rfl, rfl⟩ | ⟨-, hx⟩
      · exact ⟨c, hm.before, hev.symm.trans hxe⟩
      · exact ⟨x, hx, hxe⟩
    have hold : (j, b.request) ∉ p.shared.appended := fun hmem =>
      hp.unsent b (mem_sentBy.mpr ⟨j, y, hmem, hy, hye⟩) hbr
    cases Delivery.step_writeStep hstep with
    | unchanged hlog => exact hold (hlog ▸ hmem)
    | moved _ _ _ _ hlog => exact hold (hlog ▸ hmem)
    | started f _ hval _ hlog =>
      rw [hlog, List.mem_append] at hmem
      rcases hmem with hmem | hmem
      · exact hold hmem
      · -- a write is started only for an event that has been accepted
        obtain ⟨req, -, he⟩ := List.mem_map.mp hmem
        cases he
        cases hm.before.symm.trans hy
        rw [hbr] at hye
        exact (hp.doomed hex c (List.mem_of_getElem? hy) hye).not_accepted hval
  · rcases hm.mem_cases hx with rfl | hx
    · have hc := hp.doomed hex c (List.mem_of_getElem? hm.before) (hev.symm.trans hxr)
      exact Delivery.doomed_step hc (hrule c hm.before) hstep
    · exact hp.doomed hex x hx hxr

theorem barren_env {e : Unit} (hp : Barren rules p r)
    (h : ReaderStep cfg (readerOf v) d p (.env e) p') : Barren rules p' r := by
  obtain ⟨henv, hcalls⟩ := next_env h
  obtain ⟨hex, hsh⟩ := deliveries_env henv
  refine ⟨fun b hb => ?_, fun _ => ?_⟩
  · obtain ⟨i, x, hmem, hx, hxe⟩ := mem_sentBy.mp hb
    rw [hsh] at hmem
    rw [hcalls] at hx
    exact hp.unsent b (mem_sentBy.mpr ⟨i, x, hmem, hx, hxe⟩)
  · rw [hcalls]
    exact hp.doomed hex

end

theorem barren_init : Barren rules (State.init .init : ReaderState Buffer v d) r :=
  ⟨fun _ ha => (nomatch ha), fun _ _ hc => (nomatch hc)⟩

theorem Lost.barren (h : Lost cfg rules feed s r) : Barren rules s.world.process r :=
  ⟨fun a ha => h.unsent a (List.mem_append_right _ ha), h.doomed⟩

theorem lost_of_barren (h : Lost cfg rules feed s r) {p : ReaderState Buffer v d}
    (hp : Barren rules p r)
    (hret : ∀ y ∈ s.retired, y ∈ s'.retired) (hproc : s'.world.process = p)
    (hpast : ∀ a ∈ s'.world.past, a ∈ s.world.sent)
    (hdest : ∀ e ∈ s'.world.destination.entries, e.source ≠ r) : Lost cfg rules feed s' r := by
  refine ⟨fun q n hq hfeed => hret _ (h.retired q n hq hfeed), fun a ha => ?_, hdest, ?_⟩
  · rcases List.mem_append.mp ha with ha | ha
    · exact h.unsent a (hpast a ha)
    · exact hp.unsent a (hproc ▸ ha)
  · rw [hproc]
    exact hp.doomed

theorem lost_step {l : InterconnectionLabel} (h : Lost cfg rules feed s r)
    (hrule : AnswersBy rules s l) (hs : Interconnection.Step cfg feed s l s') :
    Lost cfg rules feed s' r := by
  have hpast : ∀ a ∈ s.world.past, a ∈ s.world.sent := fun a ha => List.mem_append_left _ ha
  cases hs with
  | delivers q n ackThrows event process hret hfeed hp =>
    refine lost_of_barren h (barren_start h.barren ?_ hp) (fun _ hy => hy) rfl hpast h.unstored
    intro hq he
    exact hret (h.retired q n hq (he ▸ hfeed))
  | acts i a process _ hp =>
    have hbarren := barren_act h.barren (fun c hc => hrule i a c rfl hc) hp
    exact lost_of_barren h hbarren (fun _ hy => hy) rfl hpast h.unstored
  | ticks process hp =>
    exact lost_of_barren h (barren_env h.barren hp) (fun _ hy => hy) rfl hpast h.unstored
  | applies k a record hk =>
    refine lost_of_barren h h.barren (fun _ hy => hy) rfl hpast fun e he => ?_
    rcases Journal.mem_append_imp he with he | rfl
    · exact h.unstored e he
    · exact h.unsent a (List.mem_of_getElem? hk)
  | retires q n =>
    exact lost_of_barren h h.barren (fun _ hy => List.mem_append_left _ hy) rfl hpast h.unstored
  | restarts =>
    exact lost_of_barren h barren_init (fun _ hy => hy) rfl (fun _ ha => ha) h.unstored

theorem lost_run {as : List InterconnectionLabel} (h : Lost cfg rules feed s r)
    (hrun : Run (RuledStep cfg rules feed d) s as s') : Lost cfg rules feed s' r :=
  hrun.invariant (fun s => Lost cfg rules feed s r) h fun _ _ _ hl hs =>
    lost_step hl hs.1 (Interconnection.next_cases hs.2)

/-! ### What is not lost can still be copied -/

theorem act_enabled (rules : Rules) (feed : Feed Buffer v) {i : ℕ} {c : Delivery Buffer v}
    {a : HandleAct}
    {p' : Process Buffer v d} {h' : HandleCall Buffer v} (hex : s.world.process.shared.exited = false)
    (hc : s.world.process.calls[i]? = some c) (hconf : s.world.confirms i (.handle a) = true)
    (hstep : HandleCall.step cfg s.world.process.shared i c.handle a = some (p', h'))
    (hrule : c.answersBy rules (.handle a)) :
    ∃ t, RuledStep cfg rules feed d s (.act i (.handle a)) t ∧
      t.world.process = ⟨p', s.world.process.calls.set i { c with handle := h' }⟩ := by
  have hact : Pools.next (deliveries cfg (readerOf v) d) s.world.process (.act i (.handle a)) =
      some ⟨p', s.world.process.calls.set i { c with handle := h' }⟩ :=
    deliveries_handles hex hc hstep
  refine ⟨{ s with world := { s.world with
    process := ⟨p', s.world.process.calls.set i { c with handle := h' }⟩ } },
    ⟨fun j b x hl hx => ?_, ?_⟩, rfl⟩
  · cases hl
    cases hc.symm.trans hx
    exact hrule
  simp only [Steps, Interconnection.next, hconf, if_true, World.next, hact, Option.map_some]

theorem sent_of_process {a : SentAppend Buffer v d} (h : a ∈ sentBy s.world.process) :
    a ∈ s.world.sent :=
  List.mem_append_right _ h

/-- An accepted event of a running process has been sent, or its `handle` call can go on to send
it. -/
theorem accepted_can_be_sent {as : List InterconnectionLabel}
    (h : Run (InterconnectionStep cfg feed d) Interconnection.init as s)
    (hex : s.world.process.shared.exited = false) {i : ℕ} {c : Delivery Buffer v}
    (hc : s.world.process.calls[i]? = some c) (hev : c.handle.validation.event = ⟨some r⟩)
    (hval : c.handle.validation.outcome = .fulfilled) {f : FormattedEvent}
    (hf : format cfg.json v ⟨some r⟩ = .ok f) {request : AppendRequest (Body Buffer d)}
    (hreq : appendEventToStreamteEvent cfg.eventDataFactory d f = some request) :
    ∃ bs t, Run (RuledStep cfg rules feed d) s bs t ∧ ∃ a ∈ t.world.sent, a.source = r := by
  obtain ⟨bs, hrun, -⟩ := (Sound.run (fun _ => True) h fun _ _ _ => trivial).process
  have hset := handles_settled hrun c (List.mem_of_getElem? hc)
  cases hw : c.handle.write with
  | some w =>
    have hwf := hset.formatted w hw
    rw [hev, hf] at hwf
    cases hwf
    have happ := (mem_appended_iff hrun).mpr ⟨c, w, hc, hw, hreq⟩
    exact ⟨[], s, .nil, ⟨r, request⟩, sent_of_process (mem_sentBy.mpr ⟨i, c, happ, hc, hev⟩), rfl⟩
  | none =>
    have hout : c.handle.outcome = .pending := by
      cases ho : c.handle.outcome with
      | pending => rfl
      | fulfilled =>
        obtain ⟨w, hw', -⟩ := hset.fulfilled ho
        exact nomatch hw.symm.trans hw'
      | rejected rej =>
        rcases hset.rejected rej ho with hrej | ⟨-, hrej⟩ | ⟨w, hw', -⟩
        · exact nomatch hval.symm.trans hrej
        · rw [hev, hf] at hrej
          cases hrej
        · exact nomatch hw.symm.trans hw'
    have hstep : HandleCall.step cfg s.world.process.shared i c.handle .continues =
        some (s.world.process.shared.append i (some request), { c.handle with
          write := some (writeEvent cfg.eventDataFactory d cfg.eventWriterTimeout
            s.world.process.shared.now f).2 }) := by
      simp [HandleCall.step, HandleCall.continues, hout, hw, hval, hev, hf, writeEvent, hreq]
    obtain ⟨t, ht, hproc⟩ := act_enabled rules feed hex hc rfl hstep trivial
    refine ⟨_, t, .snoc .nil ht, ⟨r, request⟩, sent_of_process (mem_sentBy.mpr ⟨i, { c with handle :=
      { c.handle with write := some (writeEvent cfg.eventDataFactory d cfg.eventWriterTimeout
        s.world.process.shared.now f).2 } }, ?_, ?_, hev⟩), rfl⟩
    · simp [hproc, Process.append]
    · simp [hproc, (List.getElem?_eq_some_iff.mp hc).1]

theorem asked_of_pending {reader : Reader Buffer v} {as : List (ReaderLabel Buffer v)}
    {p : ReaderState Buffer v d} (h : Run (ReaderStep cfg reader d) (State.init .init) as p) :
    ∀ c ∈ p.calls, c.handle.validation.outcome = .pending →
      ∃ o, c.handle.validation.asked = some o := by
  refine forall_handles (fun c => c.validation.outcome = .pending →
    ∃ o, c.validation.asked = some o) (fun p e hp => ?_) (fun hc hs hp => ?_) h
  · cases hasked : askedOf cfg.json cfg.classTransformer.plainToClassFromExist cfg.allowedEvents v
        p.validator.classes e with
    | some o => exact ⟨o, ValidateCall.start_asked.trans hasked⟩
    | none =>
      obtain ⟨rej, hrej⟩ := ValidateCall.start_of_not_asked hasked
      exact nomatch (congrArg ValidateCall.outcome hrej).symm.trans hp
  · rw [HandleCall.step_asked hs]
    refine hc ?_
    by_contra hne
    rw [HandleCall.step_validation hs hne] at hp
    exact hne hp

/-- Where class-validator has not answered yet, it may answer that there is no error. -/
theorem undoomed_can_be_sent {as : List InterconnectionLabel}
    (h : Run (InterconnectionStep cfg feed d) Interconnection.init as s)
    (hex : s.world.process.shared.exited = false) {c : Delivery Buffer v}
    (hmem : c ∈ s.world.process.calls) (hev : c.handle.validation.event = ⟨some r⟩)
    (hnot : ¬ c.handle.Doomed rules) {f : FormattedEvent} (hf : format cfg.json v ⟨some r⟩ = .ok f)
    {request : AppendRequest (Body Buffer d)}
    (hreq : appendEventToStreamteEvent cfg.eventDataFactory d f = some request) :
    ∃ bs t, Run (RuledStep cfg rules feed d) s bs t ∧ ∃ a ∈ t.world.sent, a.source = r := by
  obtain ⟨i, hc⟩ := List.mem_iff_getElem?.mp hmem
  obtain ⟨bs, hrun, -⟩ := (Sound.run (fun _ => True) h fun _ _ _ => trivial).process
  cases hval : c.handle.validation.outcome with
  | rejected rej => exact absurd (Or.inl ⟨rej, hval⟩) hnot
  | fulfilled => exact accepted_can_be_sent h hex hc hev hval hf hreq
  | pending =>
    obtain ⟨o, ho⟩ := asked_of_pending hrun c hmem hval
    have hrules : rules o = .ok [] := by
      by_contra hbad
      exact hnot (Or.inr ⟨hval, o, ho, hbad⟩)
    have hreport : (report cfg.json v s.world.process.shared.validator c.handle.validation.event
        (.ok [])).2 = .ok () := (report_ok_iff _).mpr rfl
    have hstep : HandleCall.step cfg s.world.process.shared i c.handle
        (.classValidatorAnswers (.ok [])) = some ({ s.world.process.shared with
          validator := (report cfg.json v s.world.process.shared.validator
            c.handle.validation.event (.ok [])).1 }, { c.handle with
          validation := { c.handle.validation with
            answer := some (.ok []), outcome := .fulfilled } }) := by
      simp [HandleCall.step, ValidateCall.classValidatorAnswers, hval, Promise.isPending, hreport,
        Promise.ofExcept]
    obtain ⟨t, ht, hproc⟩ := act_enabled rules feed hex hc rfl hstep ⟨o, ho, hrules.symm⟩
    have hget : t.world.process.calls[i]? = some { c with handle := { c.handle with
        validation := { c.handle.validation with
          answer := some (.ok []), outcome := .fulfilled } } } := by
      simp [hproc, (List.getElem?_eq_some_iff.mp hc).1]
    have hex' : t.world.process.shared.exited = false := by rw [hproc]; exact hex
    obtain ⟨bs, u, hu, hsent⟩ := accepted_can_be_sent (h.snoc ht.2) hex' hget hev rfl hf hreq
    exact ⟨_, u, .cons ht hu, hsent⟩

/-- What has been sent may be applied, whatever has become of the process that sent it. -/
theorem sent_can_be_copied (huniq : NamesUnique feed) {as : List InterconnectionLabel}
    (h : Run (InterconnectionStep cfg feed d) Interconnection.init as s)
    {a : SentAppend Buffer v d} (ha : a ∈ s.world.sent) :
    ∃ bs t, Run (RuledStep cfg rules feed d) s bs t ∧ CopiedOnce cfg t.world a.source := by
  obtain ⟨k, hk⟩ := List.mem_iff_getElem?.mp ha
  have hs := Sound.run (fun _ => True) h fun _ _ _ => trivial
  obtain ⟨hstream, hid, type, htype, -⟩ := (named_of_interconnection h).sent a ha
  obtain ⟨x, hx, hevent, -⟩ := hs.allSent ha
  have hfeed := hs.fed x hx
  generalize x.delivery.handle.validation.event = event at hevent hfeed
  obtain ⟨o⟩ := event
  cases hevent
  let record := recordedEvent d (a.source.stream v) (a.source.id v) type a.request.data
    a.request.metadata s.world.destination.entries.length
  have hrec : a.request.record d s.world.destination.entries.length = some record := by
    simp only [AppendRequest.record, hstream, hid, htype, record]
  have hstep : InterconnectionStep cfg feed d s (.apply k) { s with
      world := { s.world with destination := s.world.destination.append ⟨a.source, record⟩ } } := by
    simp only [Steps, Interconnection.next, World.next, World.apply, hk, Option.bind_some, hrec]
    rfl
  have hkey : (⟨a.source, record⟩ : CopiedEvent Buffer v d).key =
      (a.source.stream v, a.source.id v) := by
    obtain ⟨hcs, hci, -⟩ := recordedEvent_names (d := d) (a.source.stream v) (a.source.id v)
      type a.request.data a.request.metadata s.world.destination.entries.length
    exact Prod.ext hcs hci
  have hall := h.snoc hstep
  have hruled : RuledStep cfg rules feed d s (.apply k) _ :=
    ⟨Interconnection.answersBy_of_not_act (by simp), hstep⟩
  refine ⟨_, _, .snoc .nil hruled, ?_⟩
  exact copiedOnce_of_key (Sound.run (fun _ => True) hall fun _ _ _ => trivial)
    (named_of_interconnection hall) huniq hfeed (hkey ▸ Journal.key_mem_append _ _)

/-- An event that the rules accept and the driver can send is never at the destination again,
whatever happens from here on, exactly where it is lost. Otherwise a continuation of the run copies
it, exactly once. In the continuations class-validator answers by the rules. -/
theorem lost_iff_never_copied (cfg : Configuration Buffer) (rules : Rules) (feed : Feed Buffer v)
    (d : Version) (huniq : NamesUnique feed) {as : List InterconnectionLabel}
    {s : Interconnection Buffer v d}
    (h : Run (InterconnectionStep cfg feed d) Interconnection.init as s) {r : Recorded Buffer v}
    (hacc : RulesAccept cfg rules [] (⟨some r⟩ : ResolvedEvent (Recorded Buffer v)))
    (hreq : ∀ f, format cfg.json v ⟨some r⟩ = .ok f →
      (appendEventToStreamteEvent cfg.eventDataFactory d f).isSome) :
    (Lost cfg rules feed s r ↔ ∀ bs t, Run (RuledStep cfg rules feed d) s bs t →
      ∀ e ∈ t.world.destination.entries, e.source ≠ r) ∧
    (¬ Lost cfg rules feed s r → ∃ bs t, Run (RuledStep cfg rules feed d) s bs t ∧
      CopiedOnce cfg t.world r) := by
  have hcopied : ¬ Lost cfg rules feed s r → ∃ bs t, Run (RuledStep cfg rules feed d) s bs t ∧
      CopiedOnce cfg t.world r := by
    intro hnot
    by_contra hnever
    refine hnot ⟨fun q n hq hfeed => ?_, fun a ha har => ?_, fun e he her => ?_,
      fun hex c hc hev => ?_⟩
    · by_contra hret
      obtain ⟨bs, t, p, _, x, _, hrun, -, -, hkept⟩ :=
        kept_can_be_applied cfg rules feed d s hret hfeed hq hacc hreq
      have hall := h.append (run_of_ruled hrun)
      exact hnever ⟨bs, _, hrun, copiedOnce_of_key
        (Sound.run (fun _ => True) hall fun _ _ _ => trivial) (named_of_interconnection hall) huniq
        hfeed hkept⟩
    · exact hnever (har ▸ sent_can_be_copied huniq h ha)
    · have hs := Sound.run (fun _ => True) h fun _ _ _ => trivial
      exact hnever ⟨[], s, .nil, her ▸ copiedOnce_of_mem hs (named_of_interconnection h) he⟩
    · by_contra hundoomed
      obtain ⟨f, hf⟩ := format_of_instance hacc.instance
      obtain ⟨request, hreq⟩ := Option.isSome_iff_exists.mp (hreq f hf)
      obtain ⟨bs, t, hrun, a, ha, har⟩ := undoomed_can_be_sent h hex hc hev hundoomed hf hreq
      obtain ⟨cs, u, hrun', hcopy⟩ := sent_can_be_copied huniq (h.append (run_of_ruled hrun)) ha
      exact hnever ⟨bs ++ cs, u, hrun.append hrun', har ▸ hcopy⟩
  refine ⟨⟨fun hl bs t hrun => (lost_run hl hrun).unstored, fun hnever => ?_⟩, hcopied⟩
  by_contra hl
  obtain ⟨bs, t, hrun, i, e, hi, he, -⟩ := hcopied hl
  exact hnever bs t hrun e (List.mem_of_getElem? hi) he

theorem event_of_lost_process_is_not_lost :
    ∃ (s : Interconnection (Option JsValue) .legacy .next), exec (Interconnection.next
        exampleConfiguration (exampleFeed "Example2Event" exampleData .legacy)) Interconnection.init
        (copyFirst ++ [.restart]) = some s ∧
      (Lost exampleConfiguration exampleRules (exampleFeed "Example2Event" exampleData .legacy) s
          (⟨"hero-1", exampleId, "Example2Event", some exampleData, none⟩ : LegacyRecordedEvent _) ↔
        ∀ bs t, Run (RuledStep exampleConfiguration exampleRules
            (exampleFeed "Example2Event" exampleData .legacy) .next) s bs t →
          ∀ e ∈ t.world.destination.entries,
            e.source ≠ (⟨"hero-1", exampleId, "Example2Event", some exampleData, none⟩ :
              LegacyRecordedEvent _)) := by
  have hexec : exec (Interconnection.next exampleConfiguration
      (exampleFeed "Example2Event" exampleData .legacy))
      (Interconnection.init : Interconnection (Option JsValue) .legacy .next)
      (copyFirst ++ [.restart]) = some _ := rfl
  exact ⟨_, rfl, (lost_iff_never_copied _ exampleRules _ _ (exampleFeed_namesUnique _ _ _)
    (run_of_exec hexec) ⟨_, rfl, rfl⟩ fun _ _ => rfl).1⟩

/-! ### A gRPC source -/

/-- With a gRPC source, in every state in which the source still keeps an event and nothing of it has
been sent: it can be delivered, acked and let go of, and then lost with the process. -/
theorem grpc_kept_event_can_be_lost (cfg : Configuration Buffer) (rules : Rules)
    (feed : Feed Buffer .next) (d : Version) {s : Interconnection Buffer .next d}
    {r : Recorded Buffer .next} {q n : ℕ}
    (hq : q < cfg.subscriptions) (hfeed : feed q n = some ⟨some r⟩)
    (honly : ∀ q' n', q' < cfg.subscriptions → feed q' n' = some ⟨some r⟩ → q' = q ∧ n' = n)
    (hret : (q, n) ∉ s.retired) (hunsent : ∀ a ∈ s.world.sent, a.source ≠ r)
    (hunstored : ∀ e ∈ s.world.destination.entries, e.source ≠ r) :
    ∃ bs t, Run (RuledStep cfg rules feed d) s bs t ∧ Lost cfg rules feed t r ∧
      ∃ x ∈ t.delivered, x.position = n ∧ x.delivery.settlements = [(q, .ack)] ∧
        x.delivery.handle.write = none := by
  have hdeliver := Interconnection.restarted_delivers (d := d) rules hret hfeed hq
  let started := Delivery.start cfg (readerOf .next) (.init : Process Buffer .next d)
    ⟨q, ⟨some r⟩, false⟩
  have hretire := Interconnection.alone_retires cfg rules feed s.restarted started.1 (q := q) (n := n)
    (c := started.2) (y := .ack) (List.mem_singleton_self _)
  refine ⟨_, _, .cons (Interconnection.restarts s) (.cons hdeliver (.cons hretire
    (.snoc .nil (Interconnection.restarts _)))), ⟨?_, ?_, hunstored, ?_⟩, ?_⟩
  · intro q' n' hq' hfeed'
    obtain ⟨rfl, rfl⟩ := honly q' n' hq' hfeed'
    exact List.mem_append_right _ (List.mem_singleton_self _)
  · intro a ha
    have hsent : a ∈ s.world.sent := by
      simpa [Interconnection.restarted, Interconnection.alone, World.sent, sentBy, started,
        Delivery.start, HandleCall.start, Process.init] using ha
    exact hunsent a hsent
  · intro _ c hc
    cases hc
  · refine ⟨⟨n, started.2⟩, ?_, rfl, rfl, rfl⟩
    exact List.mem_append_left _ (List.mem_append_right _ (List.mem_singleton_self _))

theorem grpc_example_event_can_be_lost :
    ∃ bs t, Run (RuledStep exampleConfiguration exampleRules
        (exampleFeed "Example2Event" exampleData .next) .legacy) Interconnection.init bs t ∧
      Lost exampleConfiguration exampleRules (exampleFeed "Example2Event" exampleData .next) t
        (⟨"hero-1", exampleId, "Example2Event", exampleData, .undefined, none⟩ : NextRecordedEvent) ∧
      ∃ x ∈ t.delivered, x.position = 0 ∧ x.delivery.settlements = [(0, .ack)] ∧
        x.delivery.handle.write = none := by
  refine grpc_kept_event_can_be_lost _ _ _ _ Nat.zero_lt_one rfl ?_ (fun h => nomatch h)
    (fun a ha => nomatch ha) fun e he => nomatch he
  intro q n hq hfeed
  unfold exampleFeed at hfeed
  split at hfeed
  · exact ⟨rfl, rfl⟩
  · cases hfeed

end Interconnect
