import Interconnect.Proofs.Components
import Interconnect.Proofs.ExactlyOnce

/-! No state of an interconnect is a dead end for an event that its source still keeps: from every
one of them the event can be copied and let go of, by a process that starts afresh. -/

namespace Interconnect

open Runs Pools Journals

variable {Buffer : Type} {v d : Version} {cfg : Configuration Buffer} {feed : Feed Buffer v}

/-- What class-validator answers, as a function of the object it is given. -/
abbrev Rules := JsValue → Validation

def Delivery.answersBy (rules : Rules) (c : Delivery Buffer v) : DeliveryAct → Prop
  | .handle (.classValidatorAnswers answer) =>
    ∃ o, c.handle.validation.asked = some o ∧ answer = rules o
  | _ => True

/-- The rules accept the event in a process that was given the events `before` it. -/
def RulesAccept (cfg : Configuration Buffer) (rules : Rules)
    (before : List (ResolvedEvent (Recorded Buffer v))) (e : ResolvedEvent (Recorded Buffer v)) :
    Prop :=
  ∃ o, askedAfter cfg before e = some o ∧ rules o = .ok []

def AnswersBy (rules : Rules) (s : Interconnection Buffer v d) (l : InterconnectionLabel) : Prop :=
  ∀ i a c, l = .act i a → s.world.process.calls[i]? = some c → c.answersBy rules a

abbrev RuledStep (cfg : Configuration Buffer) (rules : Rules) (feed : Feed Buffer v) (d : Version) :
    Interconnection Buffer v d → InterconnectionLabel → Interconnection Buffer v d → Prop :=
  Guarded (AnswersBy rules) (InterconnectionStep cfg feed d)

variable {rules : Rules}

theorem RulesAccept.instance {before : List (ResolvedEvent (Recorded Buffer v))}
    {e : ResolvedEvent (Recorded Buffer v)} (h : RulesAccept cfg rules before e) :
    (instanceOf cfg.json cfg.allowedEvents v e).isSome := by
  obtain ⟨o, ho, -⟩ := h
  exact instanceOf_of_asked (Option.isSome_of_mem ho)

/-- The steps by which a call of `handle` comes to append its event, in a process in any state. -/
structure AppendSteps (cfg : Configuration Buffer) (p : Process Buffer v d) (i : ℕ)
    (e : ResolvedEvent (Recorded Buffer v)) (o : JsValue) (f : FormattedEvent)
    (request : AppendRequest (Body Buffer d)) (p₁ p₂ p₃ : Process Buffer v d)
    (h₁ h₂ h₃ : HandleCall Buffer v) : Prop where
  starts : HandleCall.start cfg p e = (p₁, h₁)
  asked : h₁.validation.asked = some o
  answered : HandleCall.step cfg p₁ i h₁ (.classValidatorAnswers (.ok [])) = some (p₂, h₂)
  continues : HandleCall.step cfg p₂ i h₂ .continues = some (p₃, h₃)
  alive : p₁.exited = p.exited ∧ p₂.exited = p.exited ∧ p₃.exited = p.exited
  appended : p₃.appended = p.appended ++ [(i, request)]
  event : h₃.validation.event = e
  write : h₃.write = some (writeEvent cfg.eventDataFactory d cfg.eventWriterTimeout p.now f).2
  outcome : h₃.outcome = .pending

theorem can_append (p : Process Buffer v d) (i : ℕ) {e : ResolvedEvent (Recorded Buffer v)}
    {o : JsValue} {f : FormattedEvent} {request : AppendRequest (Body Buffer d)}
    (hasked : askedOf cfg.json cfg.classTransformer.plainToClassFromExist cfg.allowedEvents v
      p.validator.classes e = some o)
    (hf : format cfg.json v e = .ok f)
    (hreq : appendEventToStreamteEvent cfg.eventDataFactory d f = some request) :
    ∃ p₁ p₂ p₃ h₁ h₂ h₃, AppendSteps cfg p i e o f request p₁ p₂ p₃ h₁ h₂ h₃ := by
  obtain ⟨hstart, -⟩ := ValidateCall.start_of_asked (s := p.validator) hasked
  generalize hval : (ValidateCall.start cfg.json cfg.classTransformer.plainToClassFromExist
    cfg.allowedEvents v p.validator e).1 = validator
  have hreport : (report cfg.json v validator e (.ok [])).2 = .ok () := (report_ok_iff _).mpr rfl
  let p₁ : Process Buffer v d := { p with validator }
  let p₂ : Process Buffer v d := { p with validator := (report cfg.json v validator e (.ok [])).1 }
  let h₁ : HandleCall Buffer v := ⟨⟨e, some o, none, .pending⟩, none, .pending⟩
  let h₂ : HandleCall Buffer v := ⟨⟨e, some o, some (.ok []), .fulfilled⟩, none, .pending⟩
  refine ⟨p₁, p₂, p₂.append i (some request), h₁, h₂, { h₂ with
    write := some (writeEvent cfg.eventDataFactory d cfg.eventWriterTimeout p.now f).2 }, ?_, rfl,
    ?_, ?_, ⟨rfl, rfl, rfl⟩, rfl, rfl, rfl, rfl⟩
  · simp only [HandleCall.start, hstart, hval]
    rfl
  · simp [HandleCall.step, ValidateCall.classValidatorAnswers, Promise.isPending, hreport,
      Promise.ofExcept, p₁, p₂, h₁, h₂]
  · simp [HandleCall.step, HandleCall.continues, hf, writeEvent, hreq, p₂, h₂]

namespace Interconnection

def restarted (s : Interconnection Buffer v d) : Interconnection Buffer v d where
  world := { s.world with process := State.init .init, past := s.world.sent }
  positions := []
  past := s.delivered
  retired := s.retired

def alone (s : Interconnection Buffer v d) (p : Process Buffer v d) (n : ℕ) (c : Delivery Buffer v) :
    Interconnection Buffer v d :=
  { s with world := { s.world with process := ⟨p, [c]⟩ }, positions := [n] }

@[simp] theorem alone_calls (s : Interconnection Buffer v d) (p : Process Buffer v d) (n : ℕ)
    (c : Delivery Buffer v) : (s.alone p n c).world.process.calls = [c] :=
  rfl

@[simp] theorem alone_holds (s : Interconnection Buffer v d) (p : Process Buffer v d) (n : ℕ)
    (c : Delivery Buffer v) (f : FormattedEvent) :
    (s.alone p n c).world.holds f = s.world.holds f :=
  rfl

theorem answersBy_of_not_act {s : Interconnection Buffer v d} {l : InterconnectionLabel}
    (h : ∀ i a, l ≠ .act i a) : AnswersBy rules s l :=
  fun i a _ hl => absurd hl (h i a)

theorem restarts (s : Interconnection Buffer v d) :
    RuledStep cfg rules feed d s .restart s.restarted :=
  ⟨answersBy_of_not_act (by simp), rfl⟩

theorem restarted_delivers (rules : Rules) {s : Interconnection Buffer v d} {q n : ℕ}
    {event : ResolvedEvent (Recorded Buffer v)} (hret : (q, n) ∉ s.retired)
    (hfeed : feed q n = some event) (hq : q < cfg.subscriptions) :
    RuledStep cfg rules feed d s.restarted (.deliver q n false) (s.restarted.alone
      (Delivery.start cfg (readerOf v) .init ⟨q, event, false⟩).1 n
      (Delivery.start cfg (readerOf v) (.init : Process Buffer v d) ⟨q, event, false⟩).2) := by
  have hstart : Pools.next (deliveries cfg (readerOf v) d) (State.init .init)
      (.start ⟨q, event, false⟩) = some ⟨(Delivery.start cfg (readerOf v) .init ⟨q, event, false⟩).1,
        [(Delivery.start cfg (readerOf v) (.init : Process Buffer v d) ⟨q, event, false⟩).2]⟩ := by
    simp [Pools.next, deliveries, Process.init, hq]
  have hret' : (q, n) ∉ s.restarted.retired := hret
  refine ⟨answersBy_of_not_act (by simp), ?_⟩
  simp only [Steps, next, hret', if_false, hfeed, Option.bind_some, World.next]
  rw [show s.restarted.world.process = State.init .init from rfl, hstart]
  rfl

theorem alone_acts {s : Interconnection Buffer v d} {p p' : Process Buffer v d} {n : ℕ}
    {c c' : Delivery Buffer v} {a : DeliveryAct} (hex : p.exited = false)
    (hconf : (s.alone p n c).world.confirms 0 a = true)
    (h : Delivery.step cfg (readerOf v) p 0 c a = some (p', c')) (hrule : c.answersBy rules a) :
    RuledStep cfg rules feed d (s.alone p n c) (.act 0 a) (s.alone p' n c') := by
  have hact : Pools.next (deliveries cfg (readerOf v) d) ⟨p, [c]⟩ (.act 0 a) = some ⟨p', [c']⟩ := by
    simp [Pools.next, deliveries, hex, h]
  refine ⟨fun i b x hl hx => ?_, ?_⟩
  · cases hl
    cases hx
    exact hrule
  simp only [Steps, next, hconf, if_true, World.next]
  rw [show (s.alone p n c).world.process = ⟨p, [c]⟩ from rfl, hact]
  rfl

/-- A delivery whose `handle` call has come this far, and whose callback has done nothing since. -/
def awaiting (q : ℕ) (r : Recorded Buffer v) (h : HandleCall Buffer v) : Delivery Buffer v where
  subscription := q
  handle := h
  caught := .pending
  settlements := ((readerOf v).arrived ⟨q, ⟨some r⟩, false⟩).1
  finished := ((readerOf v).arrived ⟨q, ⟨some r⟩, false⟩).2

theorem awaiting_acts (feed : Feed Buffer v) (s : Interconnection Buffer v d) (q n : ℕ)
    (r : Recorded Buffer v) {p p' : Process Buffer v d} {h h' : HandleCall Buffer v} {a : HandleAct}
    (hex : p.exited = false)
    (hconf : (s.alone p n (awaiting q r h)).world.confirms 0 (.handle a) = true)
    (hstep : HandleCall.step cfg p 0 h a = some (p', h'))
    (hrule : (awaiting q r h).answersBy rules (.handle a)) :
    RuledStep cfg rules feed d (s.alone p n (awaiting q r h)) (.act 0 (.handle a))
      (s.alone p' n (awaiting q r h')) := by
  refine alone_acts hex hconf ?_ hrule
  simp only [Delivery.step, awaiting, hstep, Option.map_some]

/-- The only `handle` call of a process, waiting for the answer to its append. -/
structure Appending (p : Process Buffer v d) (r : Recorded Buffer v)
    (request : AppendRequest (Body Buffer d)) (h : HandleCall Buffer v) (w : WriteCall) : Prop where
  alive : p.exited = false
  appended : p.appended = [(0, request)]
  event : h.validation.event = ⟨some r⟩
  write : h.write = some w
  append : w.append = .pending
  writing : w.outcome = .pending
  outcome : h.outcome = .pending

def appendLabels (q n : ℕ) : List InterconnectionLabel :=
  [.restart, .deliver q n false, .act 0 (.handle (.classValidatorAnswers (.ok []))),
    .act 0 (.handle .continues)]

/-- From any state a fresh process can be given an event that the source keeps, and come to append
it. -/
theorem runs_to_append (s : Interconnection Buffer v d) {q n : ℕ} {r : Recorded Buffer v}
    {f : FormattedEvent} {request : AppendRequest (Body Buffer d)} (hret : (q, n) ∉ s.retired)
    (hfeed : feed q n = some ⟨some r⟩) (hq : q < cfg.subscriptions)
    (hacc : RulesAccept cfg rules [] (⟨some r⟩ : ResolvedEvent (Recorded Buffer v)))
    (hf : format cfg.json v ⟨some r⟩ = .ok f)
    (hreq : appendEventToStreamteEvent cfg.eventDataFactory d f = some request) :
    ∃ p h w, Run (RuledStep cfg rules feed d) s (appendLabels q n)
      (s.restarted.alone p n (awaiting q r h)) ∧ Appending p r request h w ∧ w.event = f := by
  obtain ⟨o, hasked, hrules⟩ := hacc
  obtain ⟨p₁, p₂, p₃, h₁, h₂, h₃, hsteps⟩ :=
    can_append (.init : Process Buffer v d) 0 (o := o) hasked hf hreq
  obtain ⟨hex₁, hex₂, hex₃⟩ := hsteps.alive
  have hdeliver : RuledStep cfg rules feed d s.restarted (.deliver q n false)
      (s.restarted.alone p₁ n (awaiting q r h₁)) := by
    have hdeliver := restarted_delivers (d := d) rules hret hfeed hq
    simp only [Delivery.start, hsteps.starts] at hdeliver
    exact hdeliver
  have hanswer : (awaiting q r h₁).answersBy rules
      (.handle (.classValidatorAnswers (.ok []))) := ⟨o, hsteps.asked, hrules.symm⟩
  refine ⟨p₃, h₃, _, .cons (restarts s) (.cons hdeliver (.cons
    (awaiting_acts feed s.restarted q n r hex₁ rfl hsteps.answered hanswer)
    (.snoc .nil (awaiting_acts feed s.restarted q n r hex₂ rfl hsteps.continues trivial)))),
    ⟨hex₃, hsteps.appended, hsteps.event, hsteps.write, ?_, rfl, hsteps.outcome⟩, rfl⟩
  simp [writeEvent, hreq]

theorem alone_applies (cfg : Configuration Buffer) (rules : Rules) (feed : Feed Buffer v)
    (s : Interconnection Buffer v d) (q n : ℕ)
    {p : Process Buffer v d} {r : Recorded Buffer v} {request : AppendRequest (Body Buffer d)}
    {h : HandleCall Buffer v} {w : WriteCall} {record : Recorded Buffer d}
    (ha : Appending p r request h w)
    (hrec : request.record d s.world.destination.entries.length = some record) :
    RuledStep cfg rules feed d (s.alone p n (awaiting q r h)) (.apply s.world.past.length)
      ({ s with world := { s.world with
          destination := s.world.destination.append ⟨r, record⟩ } }.alone p n
        (awaiting q r h)) := by
  have hsent : (s.alone p n (awaiting q r h)).world.sent = s.world.past ++ [⟨r, request⟩] := by
    simp [World.sent, alone, sentBy, ha.appended, awaiting, ha.event]
  have hlast : (s.alone p n (awaiting q r h)).world.sent[s.world.past.length]? =
      some ⟨r, request⟩ := by
    rw [hsent, List.getElem?_concat_length]
  refine ⟨answersBy_of_not_act (by simp), ?_⟩
  simp only [Steps, next, World.next, World.apply, hlast, Option.bind_some]
  rw [show (s.alone p n (awaiting q r h)).world.destination = s.world.destination from rfl, hrec]
  rfl

theorem alone_settles (cfg : Configuration Buffer) (rules : Rules) (feed : Feed Buffer v)
    (s : Interconnection Buffer v d)
    {p : Process Buffer v d} {q n : ℕ} {r : Recorded Buffer v} {h : HandleCall Buffer v}
    (hex : p.exited = false) (ho : h.outcome = .fulfilled) :
    ∃ as c, Run (RuledStep cfg rules feed d) (s.alone p n (awaiting q r h)) as (s.alone p n c) ∧
      ∃ y, (q, y) ∈ c.settlements := by
  cases v with
  | legacy =>
    have hcaught : Delivery.step cfg (readerOf .legacy) p 0 (awaiting q r h) .callback =
        some (p, { awaiting q r h with caught := .fulfilled }) := by
      simp [Delivery.step, readerOf, HttpReaderService, HttpReaderService.callback, awaiting, ho]
    have hacked : Delivery.step cfg (readerOf .legacy) p 0
        { awaiting q r h with caught := .fulfilled } .callback = some (p, { awaiting q r h with
          caught := .fulfilled
          settlements := [(q, .acknowledge)]
          finished := true }) := by
      simp [Delivery.step, readerOf, HttpReaderService, HttpReaderService.callback, awaiting]
    exact ⟨_, _, .cons (alone_acts hex rfl hcaught trivial)
      (.snoc .nil (alone_acts hex rfl hacked trivial)),
      .acknowledge, List.mem_singleton_self _⟩
  | next => exact ⟨[], _, .nil, .ack, List.mem_singleton_self _⟩

theorem alone_retires (cfg : Configuration Buffer) (rules : Rules) (feed : Feed Buffer v)
    (s : Interconnection Buffer v d) (p : Process Buffer v d) {q n : ℕ} {c : Delivery Buffer v}
    {y : Settlement} (hy : (q, y) ∈ c.settlements) :
    RuledStep cfg rules feed d (s.alone p n c) (.retire q n)
      { s.alone p n c with retired := s.retired ++ [(q, n)] } := by
  have hset : (q, n) ∈ (s.alone p n c).settled :=
    mem_settled.mpr ⟨⟨n, c⟩, mem_delivered.mpr (Or.inr ⟨0, rfl, rfl⟩), rfl, y, hy⟩
  refine ⟨answersBy_of_not_act (by simp), ?_⟩
  simp only [Steps, next, hset, if_true]
  rfl

theorem alone_confirms (cfg : Configuration Buffer) (rules : Rules) (feed : Feed Buffer v)
    (s : Interconnection Buffer v d) (q n : ℕ)
    (r : Recorded Buffer v) {p : Process Buffer v d} {request : AppendRequest (Body Buffer d)}
    {h : HandleCall Buffer v} {w : WriteCall} (ha : Appending p r request h w)
    (hholds : s.world.holds w.event = true) :
    ∃ as h', Run (RuledStep cfg rules feed d) (s.alone p n (awaiting q r h)) as
      (s.alone p n (awaiting q r h')) ∧ h'.outcome = .fulfilled := by
  obtain ⟨hex, -, -, hw, hpend, hwout, hout⟩ := ha
  have hconf : (s.alone p n (awaiting q r h)).world.confirms 0
      (.handle (.write (.appendAnswers (.ok ())))) = true := by
    simpa [World.confirms, awaiting, hw] using hholds
  have hanswers : HandleCall.step cfg p 0 h (.write (.appendAnswers (.ok ()))) =
      some (p, { h with write := some { w with append := .fulfilled } }) := by
    simp [HandleCall.step, WriteCall.step, WriteCall.appendAnswers, hw, hpend, Process.after,
      Promise.ofExcept]
  have hclears : HandleCall.step cfg p 0
      { h with write := some { w with append := .fulfilled } } (.write .continues) =
      some (p, { h with write := some { w with
        append := .fulfilled, timer := w.timer.clear, outcome := .fulfilled } }) := by
    simp [HandleCall.step, WriteCall.step, WriteCall.continues, hwout, Process.after]
  have hends : HandleCall.step cfg p 0
      { h with write := some { w with
        append := .fulfilled, timer := w.timer.clear, outcome := .fulfilled } } .continues =
      some (p, { h with
        write := some { w with append := .fulfilled, timer := w.timer.clear, outcome := .fulfilled }
        outcome := .fulfilled }) := by
    simp [HandleCall.step, HandleCall.continues, hout, Promise.isPending]
  exact ⟨_, _, .cons (awaiting_acts feed s q n r hex hconf hanswers trivial)
    (.cons (awaiting_acts feed s q n r hex rfl hclears trivial)
      (.snoc .nil (awaiting_acts feed s q n r hex rfl hends trivial))), rfl⟩

end Interconnection

theorem run_of_ruled {s t : Interconnection Buffer v d} {bs : List InterconnectionLabel}
    (h : Run (RuledStep cfg rules feed d) s bs t) : Run (InterconnectionStep cfg feed d) s bs t :=
  h.mono fun _ _ _ hs => hs.2

open Interconnection in
/-- After a restart, an event that the source still keeps can be delivered, sent and applied. -/
theorem kept_can_be_applied (cfg : Configuration Buffer) (rules : Rules) (feed : Feed Buffer v)
    (d : Version) (s : Interconnection Buffer v d) {q n : ℕ} {r : Recorded Buffer v}
    (hret : (q, n) ∉ s.retired) (hfeed : feed q n = some ⟨some r⟩) (hq : q < cfg.subscriptions)
    (hacc : RulesAccept cfg rules [] (⟨some r⟩ : ResolvedEvent (Recorded Buffer v)))
    (hreq : ∀ f, format cfg.json v ⟨some r⟩ = .ok f →
      (appendEventToStreamteEvent cfg.eventDataFactory d f).isSome) :
    ∃ (bs : List InterconnectionLabel) (t : Interconnection Buffer v d) (p : Process Buffer v d)
      (request : AppendRequest (Body Buffer d)) (x : HandleCall Buffer v) (w : WriteCall),
      Run (RuledStep cfg rules feed d) s bs (t.alone p n (awaiting q r x)) ∧
      Appending p r request x w ∧ format cfg.json v ⟨some r⟩ = .ok w.event ∧
      (r.stream v, r.id v) ∈ t.world.destination.entries.map CopiedEvent.key := by
  obtain ⟨f, hf⟩ := format_of_instance hacc.instance
  obtain ⟨request, hreq⟩ := Option.isSome_iff_exists.mp (hreq f hf)
  obtain ⟨r', hr', hstream, hid, htype⟩ := format_names_source hf
  cases hr'
  obtain ⟨hs, hi, ht⟩ := append_names_event hreq
  obtain ⟨t, ht, -⟩ := ht _ htype
  have hrec : ∀ revision, request.record d revision = some (recordedEvent d (r.stream v) (r.id v)
      t request.data request.metadata revision) := by
    intro revision
    simp only [AppendRequest.record, hs, hi, ht, hstream, hid]
  obtain ⟨p, x, w, happend, ha, rfl⟩ := runs_to_append s hret hfeed hq hacc hf hreq
  have happly := alone_applies cfg rules feed s.restarted q n ha (hrec _)
  refine ⟨_, _, p, request, x, w, happend.snoc happly, ha, hf, ?_⟩
  obtain ⟨hcs, hci, -⟩ := recordedEvent_names (d := d) (r.stream v) (r.id v) t
    request.data request.metadata s.restarted.world.destination.entries.length
  have hkey : (⟨r, recordedEvent d (r.stream v) (r.id v) t request.data request.metadata
      s.restarted.world.destination.entries.length⟩ : CopiedEvent Buffer v d).key =
      (r.stream v, r.id v) := Prod.ext hcs hci
  exact hkey ▸ Journal.key_mem_append _ _

open Interconnection in
/-- From every state that any deliveries, crashes and appends have led to, an event that the source
still keeps, that the rules accept and that the driver can send, can yet be copied, exactly once, and
let go of, class-validator answering by the rules. -/
theorem kept_event_can_still_be_copied (cfg : Configuration Buffer) (rules : Rules)
    (feed : Feed Buffer v) (d : Version) (huniq : NamesUnique feed)
    {as : List InterconnectionLabel} {s : Interconnection Buffer v d}
    (h : Run (InterconnectionStep cfg feed d) Interconnection.init as s) {q n : ℕ}
    {r : Recorded Buffer v} (hret : (q, n) ∉ s.retired) (hfeed : feed q n = some ⟨some r⟩)
    (hq : q < cfg.subscriptions)
    (hacc : RulesAccept cfg rules [] (⟨some r⟩ : ResolvedEvent (Recorded Buffer v)))
    (hreq : ∀ f, format cfg.json v ⟨some r⟩ = .ok f →
      (appendEventToStreamteEvent cfg.eventDataFactory d f).isSome) :
    ∃ bs t, Run (RuledStep cfg rules feed d) s bs t ∧ (q, n) ∈ t.retired ∧
      CopiedOnce cfg t.world r := by
  obtain ⟨_, t, p, request, x, w, happlied, ha, hf, hkept⟩ :=
    kept_can_be_applied cfg rules feed d s hret hfeed hq hacc hreq
  obtain ⟨bs, y, hconfirm, hful⟩ :=
    alone_confirms cfg rules feed t q n r ha ((holds_iff hf).mpr hkept)
  obtain ⟨cs, c, hsettle, z, hz⟩ :=
    alone_settles cfg rules feed t (n := n) (q := q) (r := r) ha.alive hful
  have hsettled := (happlied.append hconfirm).append hsettle
  have hrun := hsettled.snoc (alone_retires cfg rules feed _ _ hz)
  refine ⟨_, _, hrun, List.mem_append_right _ (List.mem_singleton_self _), ?_⟩
  have hall := h.append (run_of_ruled hrun)
  exact copiedOnce_of_key (Sound.run (fun _ => True) hall fun _ _ _ => trivial)
    (named_of_interconnection hall) huniq hfeed hkept

theorem event_of_lost_process_can_still_be_copied :
    ∃ (s t : Interconnection (Option JsValue) .legacy .next) (bs : List InterconnectionLabel),
      exec (Interconnection.next exampleConfiguration
        (exampleFeed "Example2Event" exampleData .legacy)) Interconnection.init
        (copyFirst ++ [.restart]) = some s ∧
      Run (RuledStep exampleConfiguration exampleRules
        (exampleFeed "Example2Event" exampleData .legacy) .next) s bs t ∧ (0, 0) ∈ t.retired ∧
      CopiedOnce exampleConfiguration t.world
        (⟨"hero-1", exampleId, "Example2Event", some exampleData, none⟩ : LegacyRecordedEvent _) := by
  have hexec : exec (Interconnection.next exampleConfiguration
      (exampleFeed "Example2Event" exampleData .legacy))
      (Interconnection.init : Interconnection (Option JsValue) .legacy .next)
      (copyFirst ++ [.restart]) = some _ := rfl
  obtain ⟨bs, t, hrun, hret, hcopied⟩ := kept_event_can_still_be_copied _ exampleRules _ _
    (exampleFeed_namesUnique _ _ _) (run_of_exec hexec) (q := 0) (n := 0) (fun h => nomatch h) rfl
    Nat.zero_lt_one ⟨_, rfl, rfl⟩ fun _ _ => rfl
  exact ⟨_, t, bs, rfl, hrun, hret, hcopied⟩

end Interconnect
