import Interconnect.Model.Example

/-! What is sent to the source about an event, against how its `handle` call ends: the gRPC
reader acks before it can know, and the legacy reader goes on to acknowledge after it failed. -/

namespace Interconnect

open Runs Pools

variable {Buffer : Type} {v d : Version}

def Settlement.isPositive : Settlement → Bool
  | acknowledge => true
  | ack => true
  | fail _ _ => false
  | nack _ _ => false

/-- What was sent about an event goes to its own subscription and agrees with how its `handle`
call has ended. -/
structure FollowsOutcome (c : Delivery Buffer v) : Prop where
  subscription : ∀ x ∈ c.settlements, x.1 = c.subscription
  positive : ∀ x ∈ c.settlements, x.2.isPositive = true → c.handle.outcome = .fulfilled
  negative : ∀ x ∈ c.settlements, x.2.isPositive = false → ∃ r, c.handle.outcome = .rejected r
  notBoth : ∀ x ∈ c.settlements, ∀ y ∈ c.settlements, x.2.isPositive = y.2.isPositive

theorem followsOutcome_nil {c : Delivery Buffer v} (h : c.settlements = []) : FollowsOutcome c := by
  refine ⟨?_, ?_, ?_, ?_⟩
  all_goals
    intro x hx
    rw [h] at hx
    cases hx

theorem followsOutcome_singleton {c : Delivery Buffer v} {x : Settlement}
    (h : c.settlements = [(c.subscription, x)])
    (hpos : x.isPositive = true → c.handle.outcome = .fulfilled)
    (hneg : x.isPositive = false → ∃ r, c.handle.outcome = .rejected r) : FollowsOutcome c := by
  have hmem : ∀ y ∈ c.settlements, y = (c.subscription, x) := by
    intro y hy
    rwa [h, List.mem_singleton] at hy
  refine ⟨fun y hy => ?_, fun y hy hb => ?_, fun y hy hb => ?_, fun y hy z hz => ?_⟩
  · rw [hmem y hy]
  · rw [hmem y hy] at hb
    exact hpos hb
  · rw [hmem y hy] at hb
    exact hneg hb
  · rw [hmem y hy, hmem z hz]

/-! ### The gRPC reader -/

theorem not_followsOutcome_start (cfg : Configuration Buffer) (p : Process Buffer .next d)
    (a : Arrival Buffer .next) : ¬ FollowsOutcome (Delivery.start cfg GrpcReaderService p a).2 := by
  intro h
  have harr : (Delivery.start cfg GrpcReaderService p a).2.settlements =
      (GrpcReaderService.data a).1 := rfl
  unfold GrpcReaderService.data at harr
  split_ifs at harr with hthrows
  · obtain ⟨r, hr⟩ := h.negative _ (by rw [harr]; exact List.mem_singleton_self _) rfl
    cases hr
  · have hful := h.positive _ (by rw [harr]; exact List.mem_singleton_self _) rfl
    cases hful

/-- In a run of the gRPC reader every settlement follows the outcome exactly if the run
delivers no event at all. -/
theorem grpc_settlement_follows_outcome_iff (cfg : Configuration Buffer) (d : Version)
    {as : List (ReaderLabel Buffer .next)} {s : ReaderState Buffer .next d}
    (h : Run (ReaderStep cfg GrpcReaderService d) (State.init .init) as s) :
    Always (ReaderStep cfg GrpcReaderService d) (State.init .init) as
        (fun s => ∀ c ∈ s.calls, FollowsOutcome c) ↔
      ∀ a, Label.start a ∉ as := by
  have hguard : Always (ReaderStep cfg GrpcReaderService d) (State.init .init) as
        (fun s => ∀ c ∈ s.calls, FollowsOutcome c) ↔
      Run (Guarded (fun _ l => ∀ a, l ≠ .start a) (ReaderStep cfg GrpcReaderService d))
        (State.init .init) as s := by
    refine always_iff_guarded (fun s => s.calls = []) (steps_deterministic _) rfl ?_ ?_ ?_ h
    · intro s hs c hc
      rw [hs] at hc
      cases hc
    · intro s l s' hs hl hn
      cases l with
      | start a => exact absurd rfl (hl a)
      | act i a =>
        obtain ⟨c, c', hm, -⟩ := next_act hn
        have hc := hm.before
        rw [hs] at hc
        cases hc
      | env e => rw [(next_env hn).2, hs]
    · intro s l s' _ hl hn hP
      cases l with
      | start a =>
        obtain ⟨c, hc, hcalls⟩ := next_start hn
        obtain ⟨-, -, he⟩ := deliveries_start hc
        obtain ⟨-, rfl⟩ := Prod.mk.inj he
        refine not_followsOutcome_start cfg s.shared a (hP _ ?_)
        rw [hcalls]
        exact List.mem_append_right _ (List.mem_singleton_self _)
      | act i a => exact hl fun _ hn => nomatch hn
      | env e => exact hl fun _ hn => nomatch hn
  rw [hguard, h.guarded_labels_iff]
  exact ⟨fun hl a ha => hl _ ha a rfl, fun hl l hmem a he => hl a (he ▸ hmem)⟩

theorem grpc_delivery_breaks_outcome :
    ¬ Always (ReaderStep exampleConfiguration GrpcReaderService .next)
      (State.init .init) [.start (arrival "Example2Event" exampleData .next)]
      (fun s => ∀ c ∈ s.calls, FollowsOutcome c) := by
  intro h
  have hexec : exec (next (deliveries exampleConfiguration GrpcReaderService .next))
      (State.init .init) [.start (arrival "Example2Event" exampleData .next)] = some _ := rfl
  exact (grpc_settlement_follows_outcome_iff _ _ (run_of_exec hexec)).mp h _
    (List.mem_singleton_self _)

theorem grpc_acks_before_failed_write :
    ∃ s c w, exec (next (deliveries exampleConfiguration GrpcReaderService .next)) (State.init .init)
        [.start (arrival "Example2Event" exampleData .next),
          .act 0 (.handle (.classValidatorAnswers (.ok []))), .act 0 (.handle .continues),
          .act 0 (.handle (.write (.appendAnswers (.error (.error "unavailable")))))] = some s ∧
      s.calls[0]? = some c ∧ c.settlements = [(0, .ack)] ∧ c.handle.outcome = .pending ∧
      c.handle.write = some w ∧ w.append = .rejected (.error "unavailable") :=
  ⟨_, _, _, rfl, rfl, rfl, rfl, rfl, rfl⟩

/-! ### The legacy reader -/

inductive Phase (c : Delivery Buffer .legacy) : Prop
  | handling : c.caught = .pending → c.settlements = [] → Phase c
  | handled : c.caught = .fulfilled → c.handle.outcome = .fulfilled → c.settlements = [] → Phase c
  | failed (e : Rejection) : c.caught ≠ .pending → c.handle.outcome = .rejected e →
      c.settlements = [(c.subscription, .fail 3 "An error occurred")] → Phase c
  | acknowledged : c.caught ≠ .pending → c.finished = true → c.handle.outcome = .fulfilled →
      c.settlements = [(c.subscription, .acknowledge)] → Phase c

/-- One settlement per delivery, and the one that `handle` calls for. -/
def SettledOnce (c : Delivery Buffer v) : Prop := FollowsOutcome c ∧ c.settlements.length ≤ 1

theorem Phase.settledOnce {c : Delivery Buffer .legacy} (h : Phase c) : SettledOnce c := by
  cases h with
  | handling _ hs => exact ⟨followsOutcome_nil hs, by rw [hs]; decide⟩
  | handled _ _ hs => exact ⟨followsOutcome_nil hs, by rw [hs]; decide⟩
  | failed e _ ho hs =>
    exact ⟨followsOutcome_singleton hs (fun h => (nomatch h)) fun _ => ⟨e, ho⟩, by simp [hs]⟩
  | acknowledged _ _ ho hs =>
    exact ⟨followsOutcome_singleton hs (fun _ => ho) fun h => (nomatch h), by simp [hs]⟩

theorem logDetails_ne_pending (e : Rejection) : logDetails e ≠ .pending := by
  unfold logDetails
  split_ifs <;> exact fun h => nomatch h

/-- The steps of a delivery keep its phase, but for the callback that goes on past its `catch`. -/
theorem phase_step {cfg : Configuration Buffer} {p p' : Process Buffer .legacy d} {i : ℕ}
    {c c' : Delivery Buffer .legacy} {a : DeliveryAct} (hc : Phase c)
    (hpast : a = .callback → c.caught = .fulfilled → ∀ e, c.handle.outcome ≠ .rejected e)
    (h : Delivery.Step cfg HttpReaderService p i c a p' c') : Phase c' := by
  cases h with
  | handle a p' h hs =>
    have hout : ∀ {o}, o ≠ Promise.pending → c.handle.outcome = o → h.outcome = o := fun ho he =>
      (HandleCall.step_outcome hs (he ▸ ho)).trans he
    cases hc with
    | handling hc hset => exact .handling hc hset
    | handled hc ho hset => exact .handled hc (hout (fun h => nomatch h) ho) hset
    | failed e hc ho hset => exact .failed e hc (hout (fun h => nomatch h) ho) hset
    | acknowledged hc hf ho hset => exact .acknowledged hc hf (hout (fun h => nomatch h) ho) hset
  | callback c' hs =>
    cases HttpReaderService.callback_cases hs with
    | handled hp ho =>
      cases hc with
      | handling _ hset => exact .handled rfl ho hset
      | handled hc _ _ => exact nomatch hp.symm.trans hc
      | failed e hc _ _ => exact absurd hp hc
      | acknowledged hc _ _ _ => exact absurd hp hc
    | failed e hp ho =>
      cases hc with
      | handling _ hset => exact .failed e (logDetails_ne_pending e) ho (by simp [hset])
      | handled hc _ _ => exact nomatch hp.symm.trans hc
      | failed e hc _ _ => exact absurd hp hc
      | acknowledged hc _ _ _ => exact absurd hp hc
    | acknowledged hful hf =>
      cases hc with
      | handling hc _ => exact nomatch hful.symm.trans hc
      | handled _ ho hset =>
        exact .acknowledged (fun h => nomatch hful.symm.trans h) rfl ho (by simp [hset])
      | failed e _ ho _ => exact absurd ho (hpast rfl hful e)
      | acknowledged _ hf' _ _ => exact nomatch hf.symm.trans hf'
    | rethrown e hrej hf =>
      cases hc with
      | handling hc _ => exact nomatch hrej.symm.trans hc
      | handled hc _ _ => exact nomatch hrej.symm.trans hc
      | failed e hc ho hset => exact .failed e hc ho hset
      | acknowledged _ hf' _ _ => exact nomatch hf.symm.trans hf'

/-- No callback goes on past its `catch` in this step after its `handle` call has rejected. -/
def NotPastCatch (s : ReaderState Buffer .legacy d) (l : ReaderLabel Buffer .legacy) : Prop :=
  ∀ i c, l = .act i .callback → s.calls[i]? = some c → c.caught = .fulfilled →
    ∀ e, c.handle.outcome ≠ .rejected e

theorem not_settledOnce_past_catch {c c' : Delivery Buffer .legacy} {e : Rejection}
    (hful : c.caught = .fulfilled) (ho : c.handle.outcome = .rejected e)
    (h : HttpReaderService.callback c = some c') : ¬ SettledOnce c' := by
  intro hset
  cases HttpReaderService.callback_cases h with
  | handled hp => exact nomatch hp.symm.trans hful
  | failed _ hp => exact nomatch hp.symm.trans hful
  | acknowledged =>
    have hpos := hset.1.positive _ (List.mem_append_right _ (List.mem_singleton_self _)) rfl
    exact nomatch hpos.symm.trans ho
  | rethrown _ hrej => exact nomatch hful.symm.trans hrej

/-- In a run of the legacy reader every delivery is settled once and as `handle` ended, all along,
exactly if no callback goes on past its `catch` after `handle` rejected. -/
theorem legacy_settled_once_iff (cfg : Configuration Buffer) (d : Version)
    {as : List (ReaderLabel Buffer .legacy)} {s : ReaderState Buffer .legacy d}
    (h : Run (ReaderStep cfg HttpReaderService d) (State.init .init) as s) :
    Always (ReaderStep cfg HttpReaderService d) (State.init .init) as
        (fun s => ∀ c ∈ s.calls, SettledOnce c) ↔
      Run (Guarded NotPastCatch (ReaderStep cfg HttpReaderService d))
        (State.init .init) as s := by
  refine always_iff_guarded (fun s => ∀ c ∈ s.calls, Phase c) (steps_deterministic _) ?_ ?_ ?_ ?_ h
  · intro c hc
    cases hc
  · intro s hs c hc
    exact (hs c hc).settledOnce
  · intro s l s' hs hl hn
    refine forall_calls_step Phase hn hs ?_ ?_
    · rintro a c - hc
      obtain ⟨-, -, he⟩ := deliveries_start hc
      obtain ⟨-, rfl⟩ := Prod.mk.inj he
      exact .handling rfl rfl
    · rintro i a c c' rfl hi hc hs
      exact phase_step hc (fun ha hful e => hl i c (ha ▸ rfl) hi hful e) (deliveries_step hs).2
  · intro s l s' _ hl hn hP
    simp only [NotPastCatch, not_forall, not_not] at hl
    obtain ⟨i, c, rfl, hi, hful, e, ho⟩ := hl
    obtain ⟨x, c', hm, hc'⟩ := next_act hn
    obtain rfl : c = x := Option.some.inj (hi.symm.trans hm.before)
    have hcb := (deliveries_step hc').2
    generalize s'.shared = p' at hcb
    cases hcb with
    | callback _ hcb =>
      exact not_settledOnce_past_catch hful ho hcb (hP c' (List.mem_of_getElem? hm.after))

def refusedDelivery : List (ReaderLabel (Option JsValue) .legacy) :=
  [.start (arrival "Unknown" .null .legacy), .act 0 (.handle .continues), .act 0 .callback]

theorem legacy_refused_event_is_settled_once_so_far :
    Always (ReaderStep exampleConfiguration HttpReaderService .legacy)
      (State.init .init) refusedDelivery (fun s => ∀ c ∈ s.calls, SettledOnce c) := by
  have hexec : exec (next (deliveries exampleConfiguration HttpReaderService .legacy))
      (State.init .init) refusedDelivery = some _ := rfl
  refine (legacy_settled_once_iff _ _ (run_of_exec hexec)).mpr ?_
  refine Run.cons ⟨?_, rfl⟩ (Run.cons ⟨?_, rfl⟩ (Run.cons ⟨?_, rfl⟩ .nil))
  · intro i c hl
    cases hl
  · intro i c hl
    cases hl
  · intro i c hl hc hful
    cases hl
    cases hc
    cases hful

theorem legacy_refused_event_is_acknowledged :
    ∃ s c, exec (next (deliveries exampleConfiguration HttpReaderService .legacy)) (State.init .init)
        (refusedDelivery ++ [.act 0 .callback]) = some s ∧ s.calls[0]? = some c ∧
      c.settlements = [(0, .fail 3 "An error occurred"), (0, .acknowledge)] ∧
      c.handle.outcome = .rejected (.notAllowedEventError ["Example1Event", "Example2Event"]) :=
  ⟨_, _, rfl, rfl, rfl, rfl⟩

end Interconnect
