import Interconnect.Lib.Account
import Interconnect.Model.Example
import Interconnect.Proofs.Reports

/-! What a whole run of a reader reports and appends, delivery by delivery: the calls of
`invalidEventHook` are those its refusals account for, and the appends are the formatted events it
has accepted. -/

namespace Interconnect

open Runs Pools

variable {Buffer : Type} {v d : Version}

/-- How far a call of `validate` has come. -/
inductive Stage (cfg : Configuration Buffer) (c : ValidateCall (ResolvedEvent (Recorded Buffer v))) :
    Prop
  | unread (r r' : Rejection) : candidate cfg.json v c.event = .error r → c.answer = none →
      c.outcome = .rejected r' → Stage cfg c
  | notInstantiated (r : Rejection) : (∃ x, candidate cfg.json v c.event = .ok x) →
      c.answer = none → c.outcome = .rejected r → Stage cfg c
  | asking : (∃ x, candidate cfg.json v c.event = .ok x) → c.answer = none →
      c.outcome = .pending → Stage cfg c
  | answered (answer : Validation) (s : ValidatorState (HookArgument Buffer v)) :
      (∃ x, candidate cfg.json v c.event = .ok x) → c.answer = some answer →
      c.outcome = .ofExcept (report cfg.json v s c.event answer).2 → Stage cfg c

/-- What the hook has been given for an event, by how far its call has come. -/
def reported (J : JsonText Buffer) (c : ValidateCall (ResolvedEvent (Recorded Buffer v))) :
    List (HookArgument Buffer v) :=
  match c.outcome, c.answer, candidate J v c.event with
  | .rejected _, none, .ok _ => [notInstantiated v c.event]
  | .rejected _, some (.ok _), _ => [deliveredEvent v c.event]
  | _, _, _ => []

variable {cfg : Configuration Buffer}

theorem report_hook {J : JsonText Buffer} {s : ValidatorState (HookArgument Buffer v)}
    {e : ResolvedEvent (Recorded Buffer v)} (answer : Validation) :
    (report J v s e answer).1.invalidEventHook = s.invalidEventHook ++
      match (report J v s e answer).2, answer with
      | .error _, .ok _ => [deliveredEvent v e]
      | _, _ => [] := by
  rw [report_eq]
  rcases answer with r | _ | ⟨x, xs⟩ <;> simp [afterClassValidator]

theorem start_stage (copy : PlainToClassFromExist) (s : ValidatorState (HookArgument Buffer v))
    (e : ResolvedEvent (Recorded Buffer v)) :
    Stage cfg (ValidateCall.start cfg.json copy cfg.allowedEvents v s e).2 ∧
      (ValidateCall.start cfg.json copy cfg.allowedEvents v s e).1.invalidEventHook =
        s.invalidEventHook ++
          reported cfg.json (ValidateCall.start cfg.json copy cfg.allowedEvents v s e).2 := by
  cases hc : candidate cfg.json v e with
  | error r =>
    rw [ValidateCall.start_of_error hc]
    exact ⟨.unread r r hc rfl rfl, by simp [reported, hc]⟩
  | ok x =>
    cases hasked : askedOf cfg.json copy cfg.allowedEvents v s.classes e with
    | some o =>
      obtain ⟨hcall, hhook⟩ := ValidateCall.start_of_asked hasked
      rw [hcall, hhook]
      exact ⟨.asking ⟨x, hc⟩ rfl rfl, by simp [reported]⟩
    | none =>
      obtain ⟨hcall, hhook⟩ := ValidateCall.start_of_not_allowed hc hasked
      rw [hcall, hhook]
      exact ⟨.notInstantiated _ ⟨x, hc⟩ rfl rfl, by simp [reported, hc]⟩

theorem answered_stage {c : ValidateCall (ResolvedEvent (Recorded Buffer v))} (hc : Stage cfg c)
    (hp : c.outcome = .pending) (s : ValidatorState (HookArgument Buffer v)) (answer : Validation) :
    Stage cfg { c with
      answer := some answer, outcome := .ofExcept (report cfg.json v s c.event answer).2 } := by
  cases hc with
  | asking hx => exact .answered answer s hx rfl rfl
  | unread r r' _ _ ho => exact nomatch hp.symm.trans ho
  | notInstantiated r _ _ ho => exact nomatch hp.symm.trans ho
  | answered a s' _ _ ho =>
    rw [hp] at ho
    cases hr : (report cfg.json v s' c.event a).2 <;> rw [hr] at ho <;> cases ho

theorem reported_pending {J : JsonText Buffer}
    {c : ValidateCall (ResolvedEvent (Recorded Buffer v))} (hp : c.outcome = .pending) :
    reported J c = [] := by
  simp [reported, hp]

theorem reported_answered {J : JsonText Buffer} (s : ValidatorState (HookArgument Buffer v))
    (c : ValidateCall (ResolvedEvent (Recorded Buffer v))) (answer : Validation) :
    reported J { c with
        answer := some answer, outcome := .ofExcept (report J v s c.event answer).2 } =
      match (report J v s c.event answer).2, answer with
      | .error _, .ok _ => [deliveredEvent v c.event]
      | _, _ => [] := by
  cases hr : (report J v s c.event answer).2 with
  | ok u => simp [reported, Promise.ofExcept]
  | error r => cases answer <;> simp [reported, Promise.ofExcept]

theorem HandleCall.step_reported {p p' : Process Buffer v d} {i : ℕ} {c c' : HandleCall Buffer v}
    {a : HandleAct} (h : HandleCall.Step cfg p i c a p' c') :
    ∃ new, p'.validator.invalidEventHook = p.validator.invalidEventHook ++ new ∧
      reported cfg.json c'.validation = reported cfg.json c.validation ++ new := by
  cases h with
  | answered answer hp =>
    refine ⟨_, report_hook answer, ?_⟩
    rw [reported_pending hp, List.nil_append, reported_answered]
  | write a w w' r =>
    refine ⟨[], ?_, by simp⟩
    cases r <;> simp [Process.after]
  | _ => exact ⟨[], by simp [Process.append], by simp⟩

theorem HandleCall.step_stage {p p' : Process Buffer v d} {i : ℕ} {c c' : HandleCall Buffer v}
    {a : HandleAct} (hc : Stage cfg c.validation) (h : HandleCall.Step cfg p i c a p' c') :
    Stage cfg c'.validation := by
  cases h with
  | answered answer hp => exact answered_stage hc hp _ answer
  | _ => exact hc

variable {reader : Reader Buffer v} {as : List (ReaderLabel Buffer v)} {s : ReaderState Buffer v d}

theorem deliveries_stage (h : Run (ReaderStep cfg reader d) (State.init .init) as s) :
    ∀ c ∈ s.calls, Stage cfg c.handle.validation :=
  forall_handles (fun c => Stage cfg c.validation) (fun p e => (start_stage _ p.validator e).1)
    HandleCall.step_stage h

theorem hook_perm_reported (h : Run (ReaderStep cfg reader d) (State.init .init) as s) :
    s.shared.validator.invalidEventHook.Perm
      (s.calls.flatMap fun c => reported cfg.json c.handle.validation) := by
  rw [← accounts_const _ s.calls 0]
  refine log_perm_accounts (fun p => p.validator.invalidEventHook) _ ?_ ?_ ?_ rfl h
  · intro p i a p' c hs
    obtain ⟨-, -, he⟩ := deliveries_start hs
    obtain ⟨rfl, rfl⟩ := Prod.mk.inj he
    exact (start_stage _ p.validator a.event).2
  · intro p i c a p' c' hs
    cases (deliveries_step hs).2 with
    | handle a _ _ hstep => exact HandleCall.step_reported hstep
    | callback c' hcb =>
      exact ⟨[], by simp, by simp [(reader.callback_keeps _ _ hcb).1]⟩
  · intro p e p' hs
    rw [(deliveries_env hs).2]

/-- In every run of a reader the hook has been called, in some order, once for each event refused
after its data was read, unless class-validator itself failed, and for no other event. -/
theorem hook_calls_account_for_refusals (cfg : Configuration Buffer) (reader : Reader Buffer v)
    (d : Version) {as : List (ReaderLabel Buffer v)} {s : ReaderState Buffer v d}
    (h : Run (ReaderStep cfg reader d) (State.init .init) as s) :
    s.shared.validator.invalidEventHook.Perm
      (s.calls.flatMap fun c => reported cfg.json c.handle.validation) ∧
    ∀ c ∈ s.calls, (reported cfg.json c.handle.validation).length ≤ 1 ∧
      (reported cfg.json c.handle.validation ≠ [] ↔ c.handle.Refused ∧
        (∃ x, candidate cfg.json v c.handle.validation.event = .ok x) ∧
        ∀ r, c.handle.validation.answer ≠ some (.error r)) := by
  refine ⟨hook_perm_reported h, fun c hc => ?_⟩
  unfold HandleCall.Refused
  cases deliveries_stage h c hc with
  | unread r r' hcand hans ho => simp [reported, hcand, hans, ho]
  | notInstantiated r hcand hans ho =>
    obtain ⟨x, hx⟩ := hcand
    simp [reported, hx, hans, ho]
  | asking hcand hans ho => simp [reported, ho]
  | answered answer t hcand hans ho =>
    obtain ⟨x, hx⟩ := hcand
    cases hr : (report cfg.json v t c.handle.validation.event answer).2 with
    | ok u => simp [reported, ho, hr, Promise.ofExcept]
    | error r => cases answer <;> simp [reported, ho, hr, hans, hx, Promise.ofExcept]

def refusedDeliveries : List (ReaderLabel (Option JsValue) .next) :=
  [.start (arrival "Unknown" .null .next), .start (arrival "Example2Event" exampleData .next),
    .act 1 (.handle (.classValidatorAnswers (.ok [.str "data"])))]

theorem refused_deliveries_are_reported :
    ∃ s : ReaderState (Option JsValue) .next .legacy,
      exec (next (deliveries exampleConfiguration GrpcReaderService .legacy)) (State.init .init)
        refusedDeliveries = some s ∧ s.shared.validator.invalidEventHook.length = 2 ∧
      s.shared.validator.invalidEventHook.Perm
        (s.calls.flatMap fun c => reported exampleConfiguration.json c.handle.validation) := by
  have hexec : exec (next (deliveries exampleConfiguration GrpcReaderService .legacy))
      (State.init .init) refusedDeliveries = some _ := rfl
  exact ⟨_, rfl, rfl, (hook_calls_account_for_refusals _ _ _ (run_of_exec hexec)).1⟩

/-! ### Appends -/

/-- What a delivery has asked the client to append. -/
def appendedFor {J : JsonText Buffer} (E : EventDataFactory J) (d : Version) (i : ℕ)
    (c : Delivery Buffer v) :
    List (ℕ × AppendRequest (Body Buffer d)) :=
  match c.handle.write with
  | none => []
  | some w => (appendEventToStreamteEvent E d w.event).toList.map fun request => (i, request)

theorem mem_appendedFor {J : JsonText Buffer} {E : EventDataFactory J} {i : ℕ}
    {c : Delivery Buffer v}
    {x : ℕ × AppendRequest (Body Buffer d)} : x ∈ appendedFor E d i c ↔
      ∃ w, c.handle.write = some w ∧ x.1 = i ∧
        appendEventToStreamteEvent E d w.event = some x.2 := by
  obtain ⟨j, request⟩ := x
  cases hw : c.handle.write with
  | none => simp [appendedFor, hw]
  | some w => simp [appendedFor, hw, eq_comm, and_comm]

theorem keys_appendedFor {J : JsonText Buffer} (E : EventDataFactory J) (i : ℕ)
    (c : Delivery Buffer v) :
    (appendedFor E d i c).map Prod.fst = [] ∨ (appendedFor E d i c).map Prod.fst = [i] := by
  unfold appendedFor
  split
  · exact Or.inl rfl
  · next w hw => cases appendEventToStreamteEvent E d w.event <;> simp

theorem appended_perm_appendedFor (h : Run (ReaderStep cfg reader d) (State.init .init) as s) :
    s.shared.appended.Perm (accounts (appendedFor cfg.eventDataFactory d) 0 s.calls) := by
  refine log_perm_accounts (fun p => p.appended) _ ?_ ?_ ?_ rfl h
  · intro p i a p' c hs
    obtain ⟨-, -, he⟩ := deliveries_start hs
    obtain ⟨rfl, rfl⟩ := Prod.mk.inj he
    simp [HandleCall.start, appendedFor]
  · intro p i c a p' c' hs
    cases Delivery.step_writeStep (deliveries_step hs).2 with
    | unchanged hlog hw => exact ⟨[], by simp [hlog], by simp [appendedFor, hw]⟩
    | moved a w w' r hlog hw hw' hstep =>
      refine ⟨[], by simp [hlog], ?_⟩
      simp [appendedFor, hw, hw', WriteCall.step_event hstep]
    | started f hw _ _ hlog hw' =>
      exact ⟨_, hlog, by simp [appendedFor, hw, hw', writeEvent]⟩
  · intro p e p' hs
    rw [(deliveries_env hs).2]

theorem mem_appended_iff (h : Run (ReaderStep cfg reader d) (State.init .init) as s) {i : ℕ}
    {request : AppendRequest (Body Buffer d)} : (i, request) ∈ s.shared.appended ↔
      ∃ c w, s.calls[i]? = some c ∧ c.handle.write = some w ∧
        appendEventToStreamteEvent cfg.eventDataFactory d w.event = some request := by
  rw [(appended_perm_appendedFor h).mem_iff, mem_accounts]
  simp only [mem_appendedFor]
  constructor
  · rintro ⟨j, c, hc, w, hw, rfl, hreq⟩
    exact ⟨c, w, hc, hw, hreq⟩
  · rintro ⟨c, w, hc, hw, hreq⟩
    exact ⟨i, c, hc, w, hw, rfl, hreq⟩

/-- In every run of a reader each delivery is appended at most once, and what has been appended are
the formatted events of the deliveries that class-validator accepted, as their drivers send them. -/
theorem appends_are_accepted_events (cfg : Configuration Buffer) (reader : Reader Buffer v)
    (d : Version) {as : List (ReaderLabel Buffer v)} {s : ReaderState Buffer v d}
    (h : Run (ReaderStep cfg reader d) (State.init .init) as s) :
    (s.shared.appended.map Prod.fst).Nodup ∧
    (∀ i request, (i, request) ∈ s.shared.appended ↔ ∃ c w, s.calls[i]? = some c ∧
      c.handle.write = some w ∧
        appendEventToStreamteEvent cfg.eventDataFactory d w.event = some request) ∧
    ∀ c ∈ s.calls, ∀ w, c.handle.write = some w → c.handle.validation.answer = some (.ok []) ∧
      format cfg.json v c.handle.validation.event = .ok w.event := by
  refine ⟨?_, fun i request => mem_appended_iff h, fun c hc w hw => ?_⟩
  · rw [((appended_perm_appendedFor h).map Prod.fst).nodup_iff]
    exact (accounts_increasing Prod.fst (keys_appendedFor cfg.eventDataFactory) 0 s.calls).imp
      Nat.ne_of_lt
  · have hset := handles_settled h c hc
    exact ⟨hset.accepted (hset.validated w hw), hset.formatted w hw⟩

def appendedDeliveries : List (ReaderLabel (Option JsValue) .next) :=
  [.start (arrival "Unknown" .null .next), .start (arrival "Example2Event" exampleData .next),
    .act 1 (.handle (.classValidatorAnswers (.ok []))), .act 1 (.handle .continues)]

theorem appended_deliveries_were_accepted :
    ∃ s : ReaderState (Option JsValue) .next .legacy,
      exec (next (deliveries exampleConfiguration GrpcReaderService .legacy)) (State.init .init)
        appendedDeliveries = some s ∧ s.shared.appended.map Prod.fst = [1] ∧
      ∀ c ∈ s.calls, ∀ w, c.handle.write = some w →
        c.handle.validation.answer = some (.ok []) := by
  have hexec : exec (next (deliveries exampleConfiguration GrpcReaderService .legacy))
      (State.init .init) appendedDeliveries = some _ := rfl
  refine ⟨_, rfl, rfl, fun c hc w hw => ?_⟩
  exact ((appends_are_accepted_events _ _ _ (run_of_exec hexec)).2.2 c hc w hw).1

end Interconnect
