import Interconnect.Proofs.Order
import Interconnect.Proofs.Recovery

/-! The buffer of a persistent subscription bounds the events it has delivered and not been told
about. With a legacy reader this bounds the writes, since it settles an event after its write; with
the gRPC reader, which acks before, it bounds nothing. -/

namespace Interconnect

open Runs Pools

variable {Buffer : Type} {v d : Version} {cfg : Configuration Buffer}

/-- how many deliveries of a subscription the source has been sent nothing about -/
def unsettledOn (s : ReaderState Buffer v d) (q : ℕ) : ℕ :=
  s.calls.countP fun c => decide (c.subscription = q) && c.settlements.isEmpty

/-- how many have called their append and have no answer yet -/
def openOn (s : ReaderState Buffer v d) (q : ℕ) : ℕ :=
  s.calls.countP fun c => decide (c.subscription = q) &&
    c.handle.write.any fun w => w.append.isPending

/-- The source delivers on a subscription only while its buffer has room. -/
def Windowed (bufferSize : ℕ → ℕ) (s : ReaderState Buffer v d) (l : ReaderLabel Buffer v) : Prop :=
  ∀ a, l = .start a → unsettledOn s a.subscription < bufferSize a.subscription

theorem countP_set_le {α : Type} {p : α → Bool} {l : List α} {i : ℕ} {a b : α}
    (hi : l[i]? = some a) (hp : p b = true → p a = true) : (l.set i b).countP p ≤ l.countP p := by
  obtain ⟨hlt, rfl⟩ := List.getElem?_eq_some_iff.mp hi
  have hcounted := List.boole_getElem_le_countP (p := p) hlt
  rw [List.countP_set hlt]
  by_cases hb : p b = true
  · rw [if_pos hb, if_pos (hp hb)] at *
    omega
  · rw [if_neg hb]
    omega

variable {bufferSize : ℕ → ℕ} {as : List (ReaderLabel Buffer v)} {s : ReaderState Buffer v d}

theorem unsettledOn_le
    (h : Run (Guarded (Windowed bufferSize) (ReaderStep cfg (readerOf v) d)) (State.init .init) as s)
    (q : ℕ) : unsettledOn s q ≤ bufferSize q := by
  refine h.invariant (fun s => unsettledOn s q ≤ bufferSize q) (Nat.zero_le _) ?_
  rintro s l s' hs ⟨hroom, hn⟩
  cases l with
  | start a =>
    obtain ⟨-, -, hcalls⟩ := deliveries_next_start hn
    have hlt := hroom a rfl
    simp only [unsettledOn, hcalls, List.countP_append, List.countP_singleton] at hs hlt ⊢
    by_cases hq : a.subscription = q
    · subst hq
      split_ifs <;> omega
    · simp [Delivery.start, hq, hs]
  | act i a =>
    obtain ⟨-, c, c', hm, hstep⟩ := deliveries_next_act hn
    refine Nat.le_trans ?_ hs
    rw [unsettledOn, hm.calls_eq]
    refine countP_set_le hm.before fun hc' => ?_
    have hsub := Delivery.step_subscription hstep
    have hset := Delivery.step_settlements hstep
    simp only [Bool.and_eq_true, decide_eq_true_eq, List.isEmpty_iff, hsub] at hc' ⊢
    refine ⟨hc'.1, ?_⟩
    rw [hc'.2] at hset
    exact List.prefix_nil.mp hset
  | env e =>
    rw [unsettledOn, (next_env hn).2]
    exact hs

/-! ### A legacy source -/

section Legacy

variable {as : List (ReaderLabel Buffer .legacy)} {s : ReaderState Buffer .legacy d}

theorem unsettled_of_open (h : Run (ReaderStep cfg HttpReaderService d) (State.init .init) as s)
    {c : Delivery Buffer .legacy} (hc : c ∈ s.calls) {w : WriteCall} (hw : c.handle.write = some w)
    (hopen : w.append = .pending) : c.settlements = [] := by
  by_contra hne
  have hawaited := deliveries_awaited h c hc
  have hset := handles_settled h c hc
  rcases ended_cases hset (hawaited.handle (hawaited.caught hne)) with ⟨r, hr⟩ | ⟨x, hx, hans⟩
  · exact nomatch hr.symm.trans (hset.validated w hw)
  · cases hw.symm.trans hx
    rcases hans with happ | ⟨err, happ, -⟩ <;> exact nomatch hopen.symm.trans happ

/-- With a legacy source a subscription has never more writes in flight than its buffer holds. -/
theorem legacy_buffer_bounds_writes (cfg : Configuration Buffer) (d : Version)
    (bufferSize : ℕ → ℕ) {as : List (ReaderLabel Buffer .legacy)} {s : ReaderState Buffer .legacy d}
    (h : Run (Guarded (Windowed bufferSize) (ReaderStep cfg HttpReaderService d)) (State.init .init)
      as s) (q : ℕ) : openOn s q ≤ bufferSize q := by
  have hrun := h.mono fun _ _ _ hs => hs.2
  refine Nat.le_trans ?_ (unsettledOn_le (v := .legacy) h q)
  refine List.countP_mono_left fun c hc hopen => ?_
  simp only [Bool.and_eq_true, decide_eq_true_eq, Option.any_eq_true, List.isEmpty_iff] at hopen ⊢
  obtain ⟨hq, w, hw, hpend⟩ := hopen
  refine ⟨hq, unsettled_of_open hrun hc hw ?_⟩
  cases happ : w.append <;> simp [happ, Promise.isPending] at hpend ⊢

def oneInFlight : List (ReaderLabel (Option JsValue) .legacy) :=
  [.start (arrival "Example2Event" exampleData .legacy),
    .act 0 (.handle (.classValidatorAnswers (.ok []))), .act 0 (.handle .continues)]

theorem run_oneInFlight : ∃ s : ReaderState (Option JsValue) .legacy .next,
    Run (Guarded (Windowed fun _ => 1) (ReaderStep exampleConfiguration HttpReaderService .next))
      (State.init .init) oneInFlight s ∧ openOn s 0 = 1 := by
  refine ⟨_, Run.cons ⟨?_, rfl⟩ (Run.cons ⟨?_, rfl⟩ (Run.cons ⟨?_, rfl⟩ .nil)), rfl⟩
  · intro a _
    exact Nat.one_pos
  · intro a h
    cases h
  · intro a h
    cases h

theorem one_write_in_flight_is_bounded : ∃ s : ReaderState (Option JsValue) .legacy .next,
    openOn s 0 = 1 ∧ openOn s 0 ≤ 1 := by
  obtain ⟨s, hrun, hopen⟩ := run_oneInFlight
  exact ⟨s, hopen, legacy_buffer_bounds_writes _ _ _ hrun 0⟩

/-- Where a subscription has a buffer of one, an event is delivered only when the earlier ones have
ended, and the default safety net lets them end in no other way than done with. -/
theorem inTurn_of_windowed (hnet : cfg.safetyNet = DefaultSafetyNetService)
    (h : Run (Guarded (Windowed fun _ => 1) (ReaderStep cfg HttpReaderService d)) (State.init .init)
      as s) (hok : ∀ i a, Label.act i a ∈ as → FailsReadably a) :
    Run (Guarded DeliversInTurn (ReaderStep cfg HttpReaderService d)) (State.init .init) as s := by
  induction h with
  | nil => exact .nil
  | @snoc as s s' l hr hs ih =>
    have hok' : ∀ i a, Label.act i a ∈ as → FailsReadably a :=
      fun i a ha => hok i a (List.mem_append_left _ ha)
    have hrun := hr.mono fun _ _ _ hs => hs.2
    refine .snoc (ih hok') ⟨?_, hs.2⟩
    rintro a rfl c hc hq
    have hnone : unsettledOn s a.subscription = 0 := Nat.lt_one_iff.mp (hs.1 a rfl)
    have hsettled := List.countP_eq_zero.mp hnone c hc
    have hne : c.settlements ≠ [] := by
      intro hnil
      simp [hq, hnil] at hsettled
    have hawaited := deliveries_awaited hrun c hc
    exact ended_accounted hnet hrun hok' hc (hawaited.handle (hawaited.caught hne))

/-- With a legacy source, a buffer of one on each subscription and the default safety net, appends
follow the order of delivery, without gaps, and one at a time. -/
theorem legacy_window_of_one_writes_in_order (cfg : Configuration Buffer) (d : Version)
    (hnet : cfg.safetyNet = DefaultSafetyNetService) {as : List (ReaderLabel Buffer .legacy)}
    {s : ReaderState Buffer .legacy d}
    (h : Run (Guarded (Windowed fun _ => 1) (ReaderStep cfg HttpReaderService d)) (State.init .init)
      as s) (hok : ∀ i a, Label.act i a ∈ as → FailsReadably a) : InOrder s := by
  have hrun := h.mono fun _ _ _ hs => hs.2
  exact inOrder_of_inTurn (inTurn_run (inTurn_of_windowed hnet h hok)) (handles_settled hrun)

theorem one_write_in_flight_is_in_order : ∃ s : ReaderState (Option JsValue) .legacy .next,
    openOn s 0 = 1 ∧ InOrder s := by
  obtain ⟨s, hrun, hopen⟩ := run_oneInFlight
  refine ⟨s, hopen, legacy_window_of_one_writes_in_order _ _ rfl hrun ?_⟩
  rintro i a ha r rfl
  simp [oneInFlight] at ha

end Legacy

/-! ### A gRPC source -/

section Grpc

variable {s : ReaderState Buffer .next d} {rules : Rules}

def acked (q : ℕ) (h : HandleCall Buffer .next) : Delivery Buffer .next where
  subscription := q
  handle := h
  caught := .pending
  settlements := [(q, .ack)]
  finished := true

theorem windowed_of_settled (hset : ∀ c ∈ s.calls, c.settlements ≠ []) (l : ReaderLabel Buffer .next) :
    Windowed (fun _ => 1) s l := by
  intro a _
  have hzero : unsettledOn s a.subscription = 0 := by
    refine List.countP_eq_zero.mpr fun c hc => ?_
    simp [hset c hc]
  rw [hzero]
  exact Nat.one_pos

/-- A step of a gRPC reader with a buffer of one on each subscription, class-validator answering by
the rules. -/
abbrev NarrowStep (cfg : Configuration Buffer) (rules : Rules) (d : Version) :
    ReaderState Buffer .next d → ReaderLabel Buffer .next → ReaderState Buffer .next d → Prop :=
  Guarded (fun s l => Windowed (fun _ => 1) s l ∧ CallGuard (Delivery.answersBy rules) s l)
    (ReaderStep cfg GrpcReaderService d)

theorem last_handles {p p' : Process Buffer .next d} {cs : List (Delivery Buffer .next)} {q : ℕ}
    {h h' : HandleCall Buffer .next} {a : HandleAct} (hex : p.exited = false)
    (hset : ∀ c ∈ cs, c.settlements ≠ [])
    (hstep : HandleCall.step cfg p cs.length h a = some (p', h'))
    (hrule : (acked q h).answersBy rules (.handle a)) :
    NarrowStep cfg rules d ⟨p, cs ++ [acked q h]⟩ (.act cs.length (.handle a))
      ⟨p', cs ++ [acked q h']⟩ := by
  have hget : (cs ++ [acked q h])[cs.length]? = some (acked q h) := List.getElem?_concat_length ..
  refine ⟨⟨windowed_of_settled ?_ _, ?_⟩, ?_⟩
  · intro c hc
    rcases List.mem_append.mp hc with hc | hc
    · exact hset c hc
    · rw [List.mem_singleton.mp hc]
      exact List.cons_ne_nil _ _
  · intro i b c hl hc
    cases hl
    cases hget.symm.trans hc
    exact hrule
  · have hstep' : ReaderStep cfg GrpcReaderService d _ _ _ :=
      deliveries_handles (s := ⟨p, cs ++ [acked q h]⟩) hex hget hstep
    simpa [acked, List.set_append_right] using hstep'

/-- A running gRPC process that has settled every event it was given, and these events. -/
structure Settled (s : ReaderState Buffer .next d)
    (before : List (ResolvedEvent (Recorded Buffer .next))) : Prop where
  alive : s.shared.exited = false
  settled : ∀ c ∈ s.calls, c.settlements ≠ []
  arrived : arrivedEvents s = before

theorem grpc_opens_one_more (rules : Rules) {q : ℕ} (hq : q < cfg.subscriptions)
    {as : List (ReaderLabel Buffer .next)} {before : List (ResolvedEvent (Recorded Buffer .next))}
    {e : ResolvedEvent (Recorded Buffer .next)} (hacc : RulesAccept cfg rules before e)
    (hreq : ∀ f, format cfg.json .next e = .ok f →
      (appendEventToStreamteEvent cfg.eventDataFactory d f).isSome)
    (h : Run (ReaderStep cfg GrpcReaderService d) (State.init .init) as s) (hs : Settled s before) :
    ∃ bs t, Run (NarrowStep cfg rules d) s bs t ∧ Settled t (before ++ [e]) ∧
      openOn t q = openOn s q + 1 := by
  obtain ⟨hex, hset, harr⟩ := hs
  obtain ⟨f, hf⟩ := format_of_instance hacc.instance
  obtain ⟨request, hreq⟩ := Option.isSome_iff_exists.mp (hreq f hf)
  obtain ⟨o, hasked, hrules⟩ := hacc
  have hclasses : s.shared.validator.classes = classesAfter cfg before := by
    funext k
    rw [classes_of_process h, harr, classesAfter]
  rw [askedAfter, ← hclasses] at hasked
  obtain ⟨p₁, p₂, p₃, h₁, h₂, h₃, hsteps⟩ := can_append s.shared s.calls.length hasked hf hreq
  obtain ⟨hex₁, hex₂, hex₃⟩ := hsteps.alive
  have hstart : ReaderStep cfg GrpcReaderService d s (.start ⟨q, e, false⟩)
      ⟨p₁, s.calls ++ [acked q h₁]⟩ := by
    simp [Steps, next, deliveries, hex, hq, Delivery.start, hsteps.starts, GrpcReaderService,
      GrpcReaderService.data, acked]
  have hstart' : NarrowStep cfg rules d s (.start ⟨q, e, false⟩) ⟨p₁, s.calls ++ [acked q h₁]⟩ :=
    ⟨⟨windowed_of_settled hset _, by rintro _ _ _ ⟨⟩⟩, hstart⟩
  have hanswer : (acked q h₁).answersBy rules (.handle (.classValidatorAnswers (.ok []))) :=
    ⟨o, hsteps.asked, hrules.symm⟩
  refine ⟨_, ⟨p₃, s.calls ++ [acked q h₃]⟩, .cons hstart'
    (.cons (last_handles (hex₁.trans hex) hset hsteps.answered hanswer)
      (.snoc .nil (last_handles (hex₂.trans hex) hset hsteps.continues trivial))),
    ⟨hex₃.trans hex, ?_, ?_⟩, ?_⟩
  · intro c hc
    rcases List.mem_append.mp hc with hc | hc
    · exact hset c hc
    · rw [List.mem_singleton.mp hc]
      exact List.cons_ne_nil _ _
  · have hnew : (acked q h₃).handle.validation.event = e := hsteps.event
    rw [← harr, arrivedEvents, List.map_append, List.map_singleton, hnew]
    rfl
  · simp [openOn, List.countP_append, acked, hsteps.write, writeEvent, hreq, Promise.isPending]

/-- With a gRPC source the buffer of a subscription bounds nothing: with a buffer of one, of events
that the rules accept one after the other and that the driver can send, any number of writes can be
in flight at once. -/
theorem grpc_buffer_bounds_no_writes (cfg : Configuration Buffer) (rules : Rules) (d : Version)
    {q : ℕ} (hq : q < cfg.subscriptions) {events : ℕ → ResolvedEvent (Recorded Buffer .next)}
    (hacc : ∀ k, RulesAccept cfg rules ((List.range k).map events) (events k))
    (hreq : ∀ k f, format cfg.json .next (events k) = .ok f →
      (appendEventToStreamteEvent cfg.eventDataFactory d f).isSome) (writes : ℕ) :
    ∃ as s, Run (NarrowStep cfg rules d) (State.init .init) as s ∧ openOn s q = writes := by
  have hall : ∃ as s, Run (NarrowStep cfg rules d) (State.init .init) as s ∧
      Settled s ((List.range writes).map events) ∧ openOn s q = writes := by
    induction writes with
    | zero => exact ⟨[], State.init .init, .nil, ⟨rfl, fun c hc => (nomatch hc), rfl⟩, rfl⟩
    | succ writes ih =>
      obtain ⟨as, s, hrun, hset, hopen⟩ := ih
      obtain ⟨bs, t, hmore, hset', hopen'⟩ := grpc_opens_one_more rules hq (hacc writes)
        (hreq writes) (hrun.mono fun _ _ _ hs => hs.2) hset
      rw [List.range_succ, List.map_append]
      exact ⟨as ++ bs, t, hrun.append hmore, hset', hopen'.trans (congrArg _ hopen)⟩
  obtain ⟨as, s, hrun, -, hopen⟩ := hall
  exact ⟨as, s, hrun, hopen⟩

theorem exampleEvent_copied {held : Props} (h : ∀ x, held "data" = some x → ∃ p, x = .literal p) :
    (exampleTransformer.plainToClassFromExist (.user 2) held
        (Props.empty.set "data" exampleData)).2 = false ∧
      ∃ p, (exampleTransformer.plainToClassFromExist (.user 2) held
        (Props.empty.set "data" exampleData)).1 "data" = some (.literal p) := by
  have hok : (exampleTransformer.plainToClassFromExist (.user 2) held
      (Props.empty.set "data" exampleData)).2 = false := by
    have hnamed : misnamesClass exampleData = false := rfl
    simp [exampleTransformer, ClassTransformer.documented, hnamed]
  refine ⟨hok, ?_⟩
  rw [exampleTransformer.assigns _ _ _ hok, assign_some (v := exampleData) rfl rfl, Props.get]
  cases hd : held "data" with
  | none => exact ⟨_, congrArg some (exampleTransformer.creates _ _ _ _ rfl)⟩
  | some x =>
    obtain ⟨p, rfl⟩ := h x hd
    exact ⟨_, congrArg some (exampleTransformer.merges _ _ _ _ _)⟩

theorem exampleEvent_accepted (k : ℕ) :
    RulesAccept exampleConfiguration exampleRules
      ((List.range k).map fun _ => delivered "Example2Event" exampleData .next)
      (delivered "Example2Event" exampleData .next) := by
  have hheld : ∀ x, classesAfter exampleConfiguration
      ((List.range k).map fun _ => delivered "Example2Event" exampleData .next) (.user 2) "data" =
        some x → ∃ p, x = .literal p := by
    induction k with
    | zero => exact fun x hx => nomatch hx
    | succ k ih =>
      obtain ⟨-, p, hp⟩ := exampleEvent_copied ih
      intro x hx
      rw [List.range_succ, List.map_append, List.map_singleton, classesAfter,
        copiedInto_concat] at hx
      exact ⟨p, (Option.some.inj (hp.symm.trans hx)).symm⟩
  obtain ⟨hok, p, hp⟩ := exampleEvent_copied hheld
  refine ⟨.literal p, ?_, rfl⟩
  have hinst : instanceOf exampleConfiguration.json exampleConfiguration.allowedEvents .next
      (delivered "Example2Event" exampleData .next) =
        some (.user 2, Props.empty.set "data" exampleData) := rfl
  rw [askedAfter, askedOf, hinst]
  refine (if_neg (ne_true_of_eq_false hok)).trans ?_
  exact congrArg (fun x => some (Option.getD x .undefined)) hp

theorem hundred_writes_in_flight : ∃ as, ∃ s : ReaderState (Option JsValue) .next .legacy,
    Run (NarrowStep exampleConfiguration exampleRules .legacy) (State.init .init) as s ∧
      openOn s 0 = 100 :=
  grpc_buffer_bounds_no_writes exampleConfiguration exampleRules .legacy Nat.zero_lt_one
    exampleEvent_accepted
    (fun _ f hf => by cases hf; rfl) 100

end Grpc

end Interconnect
