import Interconnect.Lib.Rank
import Interconnect.Model.Example

/-! Every delivery comes to an end: it takes a bounded number of steps, and where none is left, with
every call of class-validator and of the client answered, each delivered event has been handled and
settled. -/

namespace Interconnect

open Runs Pools

variable {Buffer : Type} {v d : Version} {cfg : Configuration Buffer}

/-! ### What is left to do -/

def Promise.rank (p : Promise) : ℕ := if p.isPending then 1 else 0

@[simp] theorem Promise.rank_pending : Promise.rank .pending = 1 := rfl

@[simp] theorem Promise.rank_fulfilled : Promise.rank .fulfilled = 0 := rfl

@[simp] theorem Promise.rank_rejected (r : Rejection) : Promise.rank (.rejected r) = 0 := rfl

@[simp] theorem Promise.rank_ofExcept (x : Except Rejection Unit) : (Promise.ofExcept x).rank = 0 := by
  cases x <;> rfl

def Timer.rank : Timer → ℕ
  | .armed _ => 1
  | _ => 0

theorem Timer.rank_clear_le (t : Timer) : t.clear.rank ≤ t.rank := by
  cases t <;> simp [Timer.clear, Timer.rank]

def WriteCall.rank (w : WriteCall) : ℕ := w.append.rank + w.outcome.rank + w.timer.rank

theorem WriteCall.step_rank {net : SafetyNet} {now : ℕ} {w w' : WriteCall} {a : WriteAct}
    {r : HookResult} (h : WriteCall.Step net now w a r w') :
    w'.rank < w.rank ∨ 0 < w.rank ∧ r = .exits := by
  cases h with
  | answered answer hp => exact Or.inl (by simp [WriteCall.rank, hp])
  | confirmed ho =>
    have hclear := w.timer.rank_clear_le
    refine Or.inl ?_
    simp only [WriteCall.rank, ho, Promise.rank_pending, Promise.rank_fulfilled]
    omega
  | unreadable err ho => exact Or.inl (by simp [WriteCall.rank, ho])
  | refused err ho => exact Or.inl (by simp [WriteCall.rank, WriteCall.callHook, ho])
  | killed err ho =>
    refine Or.inr ⟨?_, rfl⟩
    simp only [WriteCall.rank, ho, Promise.rank_pending]
    omega
  | timedOut due ht => exact Or.inl (by simp [WriteCall.rank, WriteCall.callHook, ht, Timer.rank])

/-- The steps left to a `handle` call and its write. A write that has not been started takes three
steps, and its call two around it. -/
def HandleCall.rank (c : HandleCall Buffer v) : ℕ :=
  c.validation.outcome.rank +
    match c.outcome, c.write with
    | .pending, none => 5
    | .pending, some w => 1 + w.rank
    | _, none => 0
    | _, some w => w.rank

theorem HandleCall.rank_of_ended {c : HandleCall Buffer v} (h : c.outcome ≠ .pending) :
    c.rank = c.validation.outcome.rank + (c.write.map WriteCall.rank).getD 0 := by
  unfold HandleCall.rank
  cases ho : c.outcome with
  | pending => exact absurd ho h
  | _ => cases c.write <;> rfl

theorem HandleCall.step_rank {p p' : Process Buffer v d} {i : ℕ} {c c' : HandleCall Buffer v}
    {a : HandleAct} (h : HandleCall.Step cfg p i c a p' c') :
    c'.rank < c.rank ∨ 0 < c.rank ∧ p'.exited = true := by
  cases h with
  | answered answer ho => exact Or.inl (by simp [HandleCall.rank, ho])
  | refused r ho hw => exact Or.inl (by simp [HandleCall.rank, ho, hw])
  | unformatted r ho hw => exact Or.inl (by simp [HandleCall.rank, ho, hw])
  | writes f ho hw =>
    refine Or.inl ?_
    have hstart : (writeEvent cfg.eventDataFactory d cfg.eventWriterTimeout p.now f).2.rank ≤ 3 := by
      simp only [writeEvent, WriteCall.rank, Timer.rank, Promise.rank_pending]
      split_ifs <;> simp
    simp only [HandleCall.rank, ho, hw]
    omega
  | settled w ho hw hne =>
    have hended : HandleCall.rank { c with outcome := w.outcome } =
        c.validation.outcome.rank + (c.write.map WriteCall.rank).getD 0 := rank_of_ended hne
    refine Or.inl ?_
    rw [hended, HandleCall.rank, ho, hw]
    simp
  | write a w w' r hw hs =>
    rcases WriteCall.step_rank hs with hlt | ⟨hpos, rfl⟩
    · refine Or.inl ?_
      cases ho : c.outcome <;> simp [HandleCall.rank, ho, hw, hlt]
    · refine Or.inr ⟨?_, rfl⟩
      cases ho : c.outcome <;> simp only [HandleCall.rank, ho, hw] <;> omega

/-- The steps left to a delivery: those of its `handle` call, the reader's `catch`, and the
acknowledgement. -/
def Delivery.rank (c : Delivery Buffer v) : ℕ :=
  c.handle.rank + c.caught.rank + if c.finished then 0 else 1

theorem logDetails_rank (e : Rejection) : (logDetails e).rank = 0 := by
  unfold logDetails
  split_ifs <;> rfl

theorem callback_rank {c c' : Delivery Buffer v} (h : (readerOf v).callback c = some c') :
    c'.rank < c.rank := by
  have hkeeps := ((readerOf v).callback_keeps _ _ h).1
  unfold Delivery.rank
  rw [hkeeps]
  cases v with
  | legacy =>
    cases HttpReaderService.callback_cases h with
    | handled hc => simp [hc]
    | failed e hc => simp [hc, logDetails_rank]
    | acknowledged hc hf => simp [hc, hf]
    | rethrown e hc hf => simp [hc, hf]
  | next =>
    have hc : GrpcReaderService.onEvent c = some c' := h
    unfold GrpcReaderService.onEvent at hc
    split at hc
    · next hp _ =>
      cases hc
      simp [hp]
    · next e hp _ =>
      cases hc
      simp [hp, logDetails_rank]
    · cases hc

def deliverySteps : Version → ℕ
  | .legacy => 8
  | .next => 7

theorem start_rank (p : Process Buffer v d) (a : Arrival Buffer v) :
    (Delivery.start cfg (readerOf v) p a).2.rank ≤ deliverySteps v := by
  have hval : ∀ p : Promise, p.rank ≤ 1 := by
    intro p
    cases p <;> simp
  have hhandle : (HandleCall.start cfg p a.event).2.rank ≤ 6 := by
    have := hval (HandleCall.start cfg p a.event).2.validation.outcome
    simp only [HandleCall.start, HandleCall.rank] at this ⊢
    omega
  cases v with
  | legacy =>
    simp only [Delivery.start, Delivery.rank, readerOf, HttpReaderService, deliverySteps,
      Promise.rank_pending, Bool.false_eq_true, if_false]
    omega
  | next =>
    have hfin : ((readerOf .next).arrived a).2 = true := by
      simp only [readerOf, GrpcReaderService, GrpcReaderService.data]
      split_ifs <;> rfl
    simp only [Delivery.start, Delivery.rank, hfin, deliverySteps, Promise.rank_pending, if_true]
    omega

theorem deliveries_ranked (cfg : Configuration Buffer) (v d : Version) :
    Ranked (deliveries cfg (readerOf v) d) Delivery.rank (fun p => p.exited = true)
      (deliverySteps v) where
  start h := by
    obtain ⟨-, -, he⟩ := deliveries_start h
    obtain ⟨-, rfl⟩ := Prod.mk.inj he
    exact start_rank _ _
  step {p i c a p' c'} h := by
    cases (deliveries_step h).2 with
    | callback c' hcb => exact Or.inl (callback_rank hcb)
    | handle a p' h' hs =>
      unfold Delivery.rank
      rcases HandleCall.step_rank hs with hlt | ⟨hpos, hex⟩
      · exact Or.inl (by simpa using hlt)
      · exact Or.inr ⟨by omega, hex⟩
  live h := by simp [not_exited_of_next h]

/-! ### Nothing is left to do -/

/-- A delivery that has been handled and settled, and its reader's callback has ended. -/
structure Delivery.Ended (c : Delivery Buffer v) : Prop where
  validated : c.handle.validation.outcome ≠ .pending
  answered : ∀ w, c.handle.write = some w → w.append ≠ .pending ∧ w.outcome ≠ .pending
  handled : c.handle.outcome ≠ .pending
  caught : c.caught ≠ .pending
  finished : c.finished = true
  settled : c.settlements ≠ []

theorem WriteCall.outcome_of_stuck (net : SafetyNet) (now : ℕ) {w : WriteCall}
    (h : ∀ a, w.step net now a = none) : w.append ≠ .pending ∧ w.outcome ≠ .pending := by
  have happ : w.append ≠ .pending := by
    intro hp
    have hanswer := h (.appendAnswers (.ok ()))
    simp [WriteCall.step, WriteCall.appendAnswers, hp] at hanswer
  refine ⟨happ, fun ho => ?_⟩
  have hgoes := h .continues
  simp only [WriteCall.step, WriteCall.continues, ho] at hgoes
  cases hw : w.append with
  | pending => exact happ hw
  | fulfilled => simp [hw] at hgoes
  | rejected err =>
    simp only [hw] at hgoes
    split_ifs at hgoes
    cases hnet : net.cannotWriteEventHook w.event <;> simp [hnet] at hgoes

theorem HandleCall.outcome_of_stuck {p : Process Buffer v d} {i : ℕ} {c : HandleCall Buffer v}
    (h : ∀ a, HandleCall.step cfg p i c a = none) :
    c.validation.outcome ≠ .pending ∧
      (∀ w, c.write = some w → w.append ≠ .pending ∧ w.outcome ≠ .pending) ∧
      c.outcome ≠ .pending := by
  have hval : c.validation.outcome ≠ .pending := by
    intro hp
    have hanswer := h (.classValidatorAnswers (.ok []))
    simp [HandleCall.step, ValidateCall.classValidatorAnswers, hp, Promise.isPending] at hanswer
  have hwrite : ∀ w, c.write = some w → w.append ≠ .pending ∧ w.outcome ≠ .pending := by
    intro w hw
    refine WriteCall.outcome_of_stuck cfg.safetyNet p.now fun a => ?_
    have hstep := h (.write a)
    simpa [HandleCall.step, hw] using hstep
  refine ⟨hval, hwrite, fun ho => ?_⟩
  have hgoes := h .continues
  simp only [HandleCall.step, HandleCall.continues, ho] at hgoes
  cases hw : c.write with
  | some w =>
    have hne := (hwrite w hw).2
    simp only [hw] at hgoes
    split_ifs at hgoes with hp
    cases hout : w.outcome <;> simp_all [Promise.isPending]
  | none =>
    cases hv : c.validation.outcome with
    | pending => exact hval hv
    | rejected r => simp [hw, hv] at hgoes
    | fulfilled =>
      simp only [hw, hv] at hgoes
      cases hf : format cfg.json v c.validation.event <;> simp [hf] at hgoes

def Delivery.SettlesFirst (c : Delivery Buffer v) : Prop :=
  (c.finished = true → c.settlements ≠ []) ∧
    ((∃ r, c.caught = .rejected r) → c.settlements ≠ []) ∧ (v = .next → c.finished = true)

theorem settlesFirst_callback {c c' : Delivery Buffer v} (hc : c.SettlesFirst)
    (h : (readerOf v).callback c = some c') : c'.SettlesFirst := by
  obtain ⟨hfin, hrej, hnext⟩ := hc
  cases v with
  | legacy =>
    cases HttpReaderService.callback_cases h with
    | handled => exact ⟨hfin, fun ⟨r, hr⟩ => (nomatch hr), nofun⟩
    | failed e => exact ⟨fun _ => by simp, fun _ => by simp, nofun⟩
    | acknowledged hp => exact ⟨fun _ => by simp, fun _ => by simp, nofun⟩
    | rethrown e hp => exact ⟨fun _ => hrej ⟨e, hp⟩, hrej, nofun⟩
  | next =>
    rw [GrpcReaderService.onEvent_eq h]
    exact ⟨hfin, fun _ => hfin (hnext rfl), hnext⟩

theorem settlesFirst_run {as : List (ReaderLabel Buffer v)} {s : ReaderState Buffer v d}
    (h : Run (ReaderStep cfg (readerOf v) d) (State.init .init) as s) :
    ∀ c ∈ s.calls, c.SettlesFirst := by
  refine forall_deliveries (fun _ => True) Delivery.SettlesFirst ?_ ?_ h (fun _ _ _ => trivial)
  · intro p a
    cases v with
    | legacy => exact ⟨nofun, fun ⟨r, hr⟩ => (nomatch hr), nofun⟩
    | next =>
      simp only [Delivery.SettlesFirst, Delivery.start, readerOf, GrpcReaderService,
        GrpcReaderService.data]
      split_ifs <;> simp
  · intro p p' i c a c' hc _ hs
    cases hs with
    | handle => exact hc
    | callback c' hcb => exact settlesFirst_callback hc hcb

theorem callback_of_stuck {c : Delivery Buffer v} (hc : c.SettlesFirst)
    (hout : c.handle.outcome ≠ .pending) (h : (readerOf v).callback c = none) :
    c.caught ≠ .pending ∧ c.finished = true := by
  cases v with
  | legacy =>
    have hstuck : HttpReaderService.callback c = none := h
    unfold HttpReaderService.callback at hstuck
    split at hstuck
    · next ho => exact absurd ho hout
    · cases hstuck
    · cases hstuck
    · next hcaught =>
      split_ifs at hstuck with hf
      exact ⟨fun hp => (nomatch hcaught.symm.trans hp), hf⟩
    · next hcaught =>
      split_ifs at hstuck with hf
      exact ⟨fun hp => (nomatch hcaught.symm.trans hp), hf⟩
  | next =>
    have hstuck : GrpcReaderService.onEvent c = none := h
    refine ⟨fun hp => ?_, hc.2.2 rfl⟩
    cases ho : c.handle.outcome <;> simp_all [GrpcReaderService.onEvent]

theorem ended_of_atRest {as : List (ReaderLabel Buffer v)} {s : ReaderState Buffer v d}
    (h : Run (ReaderStep cfg (readerOf v) d) (State.init .init) as s) (hlive : s.shared.exited = false)
    (hrest : AtRest (deliveries cfg (readerOf v) d) s) : ∀ c ∈ s.calls, c.Ended := by
  intro c hc
  obtain ⟨i, hi⟩ := List.mem_iff_getElem?.mp hc
  have hstuck : ∀ a, Delivery.step cfg (readerOf v) s.shared i c a = none := by
    intro a
    have hnone := hrest i a
    simpa [next, deliveries, hi, hlive] using hnone
  have hsettles := settlesFirst_run h c hc
  obtain ⟨hval, hwrite, hout⟩ := HandleCall.outcome_of_stuck (c := c.handle) fun a => by
    simpa [Delivery.step] using hstuck (.handle a)
  have hcallback := hstuck .callback
  obtain ⟨hcaught, hfin⟩ := callback_of_stuck hsettles hout
    (by simpa [Delivery.step] using hcallback)
  exact ⟨hval, hwrite, hout, hcaught, hfin, hsettles.1 hfin⟩

/-- No delivery takes more steps than a fixed number, and whatever a live process has left to do, the
steps of its deliveries alone can lead to where none is left. There, unless the process has ended,
every event has been handled and settled. -/
theorem every_delivery_ends (cfg : Configuration Buffer) (v d : Version)
    {as : List (ReaderLabel Buffer v)} {s : ReaderState Buffer v d}
    (h : Run (ReaderStep cfg (readerOf v) d) (State.init .init) as s) :
    (∀ i, stepsOf i as ≤ deliverySteps v) ∧
    (AtRest (deliveries cfg (readerOf v) d) s →
      s.shared.exited = true ∨ ∀ c ∈ s.calls, c.Ended) ∧
    ∃ bs t, (∀ l ∈ bs, ∃ i a, l = .act i a) ∧ Run (ReaderStep cfg (readerOf v) d) s bs t ∧
      t.calls.length = s.calls.length ∧ (t.shared.exited = true ∨ ∀ c ∈ t.calls, c.Ended) := by
  have hends : ∀ {bs t}, Run (ReaderStep cfg (readerOf v) d) (State.init .init) bs t →
      AtRest (deliveries cfg (readerOf v) d) t → t.shared.exited = true ∨ ∀ c ∈ t.calls, c.Ended := by
    intro bs t ht hrest
    cases hex : t.shared.exited with
    | true => exact Or.inl rfl
    | false => exact Or.inr (ended_of_atRest ht hex hrest)
  obtain ⟨bs, t, hacts, hrun, hend⟩ := (deliveries_ranked cfg v d).comes_to_rest s
  exact ⟨(deliveries_ranked cfg v d).steps_le h, hends h, bs, t, hacts, hrun,
    length_of_acts hrun hacts, hend.elim Or.inl (hends (h.append hrun))⟩

def eightSteps : List (ReaderLabel (Option JsValue) .legacy) :=
  [.start (arrival "Example2Event" exampleData .legacy),
    .act 0 (.handle (.classValidatorAnswers (.ok []))), .act 0 (.handle .continues),
    .act 0 (.handle (.write .timeout)), .act 0 (.handle (.write (.appendAnswers (.ok ())))),
    .act 0 (.handle (.write .continues)), .act 0 (.handle .continues), .act 0 .callback,
    .act 0 .callback]

theorem eight_steps_end_delivery :
    ∃ s c, exec (next (deliveries { exampleConfiguration with
          safetyNet := CustomSafetyNet, eventWriterTimeout := 0 } HttpReaderService .next))
        (State.init .init) eightSteps = some s ∧ s.calls = [c] ∧ c.Ended ∧
      stepsOf 0 eightSteps = 8 ∧ stepsOf 0 eightSteps ≤ deliverySteps .legacy := by
  have hexec : exec (next (deliveries { exampleConfiguration with
      safetyNet := CustomSafetyNet, eventWriterTimeout := 0 } (readerOf .legacy) .next))
      (State.init .init) eightSteps = some _ := rfl
  refine ⟨_, _, rfl, rfl, ⟨nofun, ?_, nofun, nofun, rfl, nofun⟩, rfl,
    (every_delivery_ends _ _ _ (run_of_exec hexec)).1 0⟩
  intro w hw
  cases hw
  exact ⟨nofun, nofun⟩

end Interconnect
