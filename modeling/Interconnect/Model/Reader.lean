import Interconnect.Model.EventHandler

/-! The two readers: what their subscriptions' callbacks do with a delivered event, and what
they send back to the source about it. -/

namespace Interconnect

open Runs Pools

/-- What is sent to the source about an event: `acknowledge` and `fail` by the legacy reader,
`ack` and `nack` by the gRPC one. -/
inductive Settlement
  | acknowledge
  | fail (action : ℕ) (reason : String)
  | ack
  | nack (action reason : String)
  deriving DecidableEq, Repr

/-- A call of a subscription's callback. `ackThrows` tells whether the gRPC client's `ack` throws
for it; the legacy reader does not read it. -/
structure Arrival (Buffer : Type) (v : Version) where
  subscription : ℕ
  event : ResolvedEvent (Recorded Buffer v)
  ackThrows : Bool

structure Delivery (Buffer : Type) (v : Version) where
  subscription : ℕ
  handle : HandleCall Buffer v
  /-- the promise of `handle` behind the reader's `catch` -/
  caught : Promise
  /-- what was sent about the event, oldest first, with the subscription it was sent on -/
  settlements : List (ℕ × Settlement)
  finished : Bool

inductive DeliveryAct
  | handle (a : HandleAct)
  | callback

/-- What is particular to a reader: what its callback has done about the event when it first
returns or awaits, and how it goes on from there. -/
structure Reader (Buffer : Type) (v : Version) where
  arrived : Arrival Buffer v → List (ℕ × Settlement) × Bool
  callback : Delivery Buffer v → Option (Delivery Buffer v)
  callback_keeps : ∀ c c', callback c = some c' →
    c'.handle = c.handle ∧ c'.subscription = c.subscription

variable {Buffer : Type}

/-- Both readers read `e.message` in their `catch`, which throws where there is none. -/
def logDetails (e : Rejection) : Promise := if e.isNullish then .rejected .typeError else .fulfilled

namespace HttpReaderService

/-- The callback awaits `handle(event).catch(...)` and then acknowledges. -/
def callback (c : Delivery Buffer .legacy) : Option (Delivery Buffer .legacy) :=
  match c.caught, c.handle.outcome with
  | .pending, .pending => none
  | .pending, .fulfilled => some { c with caught := .fulfilled }
  | .pending, .rejected e => some { c with
      settlements := c.settlements ++ [(c.subscription, .fail 3 "An error occurred")]
      caught := logDetails e }
  | .fulfilled, _ =>
    if c.finished then none
    else some { c with
      settlements := c.settlements ++ [(c.subscription, .acknowledge)]
      finished := true }
  | .rejected _, _ => if c.finished then none else some { c with finished := true }

inductive Callback (c : Delivery Buffer .legacy) : Delivery Buffer .legacy → Prop
  | handled : c.caught = .pending → c.handle.outcome = .fulfilled →
      Callback c { c with caught := .fulfilled }
  | failed (e : Rejection) : c.caught = .pending → c.handle.outcome = .rejected e →
      Callback c { c with
        settlements := c.settlements ++ [(c.subscription, .fail 3 "An error occurred")]
        caught := logDetails e }
  | acknowledged : c.caught = .fulfilled → c.finished = false →
      Callback c { c with
        settlements := c.settlements ++ [(c.subscription, .acknowledge)]
        finished := true }
  | rethrown (e : Rejection) : c.caught = .rejected e → c.finished = false →
      Callback c { c with finished := true }

theorem callback_cases {c c' : Delivery Buffer .legacy} (h : callback c = some c') :
    Callback c c' := by
  unfold callback at h
  split at h
  · cases h
  · next hc ho =>
    cases h
    exact .handled hc ho
  · next e hc ho =>
    cases h
    exact .failed e hc ho
  · next hc =>
    split_ifs at h with hf
    cases h
    exact .acknowledged hc (by simpa using hf)
  · next e hc =>
    split_ifs at h with hf
    cases h
    exact .rethrown e hc (by simpa using hf)

end HttpReaderService

def HttpReaderService : Reader Buffer .legacy where
  arrived _ := ([], false)
  callback := HttpReaderService.callback
  callback_keeps c c' h := by
    cases HttpReaderService.callback_cases h <;> exact ⟨rfl, rfl⟩

namespace GrpcReaderService

/-- The `data` listener calls `onEvent`, which does not throw but returns a promise, and then
tells the client to ack. -/
def data (a : Arrival Buffer .next) : List (ℕ × Settlement) × Bool :=
  -- the `catch` around the two calls sees an `ack` that throws, never a rejected write
  if a.ackThrows then ([(a.subscription, .nack "park" "An error occured...")], true)
  else ([(a.subscription, .ack)], true)

/-- `onEvent` goes on after its await of `handle(event)`. -/
def onEvent (c : Delivery Buffer .next) : Option (Delivery Buffer .next) :=
  match c.caught, c.handle.outcome with
  | .pending, .fulfilled => some { c with caught := .fulfilled }
  | .pending, .rejected e => some { c with caught := logDetails e }
  | _, _ => none

theorem onEvent_eq {c c' : Delivery Buffer .next} (h : onEvent c = some c') :
    c' = { c with caught := c'.caught } := by
  unfold onEvent at h
  split at h <;> cases h <;> rfl

end GrpcReaderService

def GrpcReaderService : Reader Buffer .next where
  arrived := GrpcReaderService.data
  callback := GrpcReaderService.onEvent
  callback_keeps c c' h := by
    rw [GrpcReaderService.onEvent_eq h]
    exact ⟨rfl, rfl⟩

def readerOf : (v : Version) → Reader Buffer v
  | .legacy => HttpReaderService
  | .next => GrpcReaderService

variable {v d : Version}

namespace Delivery

variable (cfg : Configuration Buffer) (reader : Reader Buffer v)

def start (p : Process Buffer v d) (a : Arrival Buffer v) : Process Buffer v d × Delivery Buffer v :=
  let r := HandleCall.start cfg p a.event
  let settled := reader.arrived a
  (r.1, ⟨a.subscription, r.2, .pending, settled.1, settled.2⟩)

def step (p : Process Buffer v d) (i : ℕ) (c : Delivery Buffer v) :
    DeliveryAct → Option (Process Buffer v d × Delivery Buffer v)
  | .handle a => (HandleCall.step cfg p i c.handle a).map fun r => (r.1, { c with handle := r.2 })
  | .callback => (reader.callback c).map fun c' => (p, c')

inductive Step (p : Process Buffer v d) (i : ℕ) (c : Delivery Buffer v) :
    DeliveryAct → Process Buffer v d → Delivery Buffer v → Prop
  | handle (a : HandleAct) (p' : Process Buffer v d) (h : HandleCall Buffer v) :
      HandleCall.Step cfg p i c.handle a p' h → Step p i c (.handle a) p' { c with handle := h }
  | callback (c' : Delivery Buffer v) : reader.callback c = some c' → Step p i c .callback p c'

variable {cfg reader} {p p' : Process Buffer v d} {i : ℕ} {c c' : Delivery Buffer v}
  {a : DeliveryAct}

theorem step_cases (h : step cfg reader p i c a = some (p', c')) :
    Step cfg reader p i c a p' c' := by
  cases a with
  | handle a =>
    obtain ⟨⟨q, h'⟩, hs, he⟩ := Option.map_eq_some_iff.mp h
    cases he
    exact .handle a q h' (HandleCall.step_cases hs)
  | callback =>
    obtain ⟨c'', hs, he⟩ := Option.map_eq_some_iff.mp h
    cases he
    exact .callback _ hs

theorem step_subscription (h : Step cfg reader p i c a p' c') : c'.subscription = c.subscription := by
  cases h with
  | handle => rfl
  | callback _ hc => exact (reader.callback_keeps _ _ hc).2

/-- What the steps of `handle` keep, the steps of a delivery keep of its `handle` call. -/
theorem step_handle {Q : HandleCall Buffer v → Prop}
    (hQ : ∀ {p p' : Process Buffer v d} {i h a h'}, Q h → HandleCall.Step cfg p i h a p' h' → Q h')
    (hc : Q c.handle) (h : Step cfg reader p i c a p' c') : Q c'.handle := by
  cases h with
  | handle _ _ _ hs => exact hQ hc hs
  | callback _ hs =>
    rw [(reader.callback_keeps _ _ hs).1]
    exact hc

theorem step_writeStep (h : Step cfg reader p i c a p' c') :
    HandleCall.WriteStep cfg p i c.handle p' c'.handle := by
  cases h with
  | handle _ _ _ hs => exact HandleCall.step_writeStep hs
  | callback _ hs => exact .unchanged rfl (by rw [(reader.callback_keeps _ _ hs).1])

end Delivery

/-- A reader's subscriptions: any number of deliveries on each, handled concurrently in one
process, while time passes. -/
def deliveries (cfg : Configuration Buffer) (reader : Reader Buffer v) (d : Version) :
    Behaviour (Process Buffer v d) (Delivery Buffer v) (Arrival Buffer v) DeliveryAct Unit where
  start p _ a :=
    if p.exited = false ∧ a.subscription < cfg.subscriptions then
      some (Delivery.start cfg reader p a)
    else none
  step p i c a := if p.exited = false then Delivery.step cfg reader p i c a else none
  env p _ := if p.exited = false then some { p with now := p.now + 1 } else none

section

variable {cfg : Configuration Buffer} {reader : Reader Buffer v} {p p' : Process Buffer v d} {i : ℕ}
  {c c' : Delivery Buffer v}

theorem deliveries_start {a : Arrival Buffer v}
    (h : (deliveries cfg reader d).start p i a = some (p', c)) :
    p.exited = false ∧ a.subscription < cfg.subscriptions ∧
      (p', c) = Delivery.start cfg reader p a := by
  simp only [deliveries] at h
  split_ifs at h with hp
  exact ⟨hp.1, hp.2, (Option.some.inj h).symm⟩

theorem deliveries_step {a : DeliveryAct}
    (h : (deliveries cfg reader d).step p i c a = some (p', c')) :
    p.exited = false ∧ Delivery.Step cfg reader p i c a p' c' := by
  simp only [deliveries] at h
  split_ifs at h with hp
  exact ⟨hp, Delivery.step_cases h⟩

theorem deliveries_env {e : Unit} (h : (deliveries cfg reader d).env p e = some p') :
    p.exited = false ∧ p' = { p with now := p.now + 1 } := by
  simp only [deliveries] at h
  split_ifs at h with hp
  exact ⟨hp, (Option.some.inj h).symm⟩

end

abbrev ReaderState (Buffer : Type) (v d : Version) := State (Process Buffer v d) (Delivery Buffer v)

abbrev ReaderLabel (Buffer : Type) (v : Version) := Label (Arrival Buffer v) DeliveryAct Unit

abbrev ReaderStep (cfg : Configuration Buffer) (reader : Reader Buffer v) (d : Version) :
    ReaderState Buffer v d → ReaderLabel Buffer v → ReaderState Buffer v d → Prop :=
  Steps (next (deliveries cfg reader d))

section

variable {cfg : Configuration Buffer} {reader : Reader Buffer v} {s s' : ReaderState Buffer v d}

theorem deliveries_next_start {a : Arrival Buffer v}
    (h : next (deliveries cfg reader d) s (.start a) = some s') :
    s.shared.exited = false ∧ s'.shared = (Delivery.start cfg reader s.shared a).1 ∧
      s'.calls = s.calls ++ [(Delivery.start cfg reader s.shared a).2] := by
  obtain ⟨c, hc, hcalls⟩ := next_start h
  obtain ⟨hp, -, he⟩ := deliveries_start hc
  obtain ⟨hsh, rfl⟩ := Prod.mk.inj he
  exact ⟨hp, hsh, hcalls⟩

theorem deliveries_next_act {i : ℕ} {a : DeliveryAct}
    (h : next (deliveries cfg reader d) s (.act i a) = some s') :
    s.shared.exited = false ∧ ∃ c c', Moves s s' i c c' ∧
      Delivery.Step cfg reader s.shared i c a s'.shared c' := by
  obtain ⟨c, c', hm, hstep⟩ := next_act h
  obtain ⟨hp, hstep⟩ := deliveries_step hstep
  exact ⟨hp, c, c', hm, hstep⟩

theorem deliveries_handles {i : ℕ} {c : Delivery Buffer v} {a : HandleAct} {p' : Process Buffer v d}
    {h' : HandleCall Buffer v} (hex : s.shared.exited = false) (hc : s.calls[i]? = some c)
    (h : HandleCall.step cfg s.shared i c.handle a = some (p', h')) :
    ReaderStep cfg reader d s (.act i (.handle a)) ⟨p', s.calls.set i { c with handle := h' }⟩ := by
  simp [Steps, next, deliveries, hc, hex, Delivery.step, h]

theorem not_exited_of_next {l : ReaderLabel Buffer v}
    (h : next (deliveries cfg reader d) s l = some s') : s.shared.exited = false := by
  cases l with
  | start a => exact (deliveries_next_start h).1
  | act i a => exact (deliveries_next_act h).1
  | env e => exact (deliveries_env (next_env h).1).1

theorem eq_of_exited {as : List (ReaderLabel Buffer v)} (hex : s.shared.exited = true)
    (h : Run (ReaderStep cfg reader d) s as s') : s' = s := by
  induction h with
  | nil => rfl
  | snoc _ hs ih =>
    subst ih
    exact nomatch hex.symm.trans (not_exited_of_next hs)

theorem forall_deliveries (okAct : DeliveryAct → Prop) (P : Delivery Buffer v → Prop)
    (hstart : ∀ (p : Process Buffer v d) a, P (Delivery.start cfg reader p a).2)
    (hstep : ∀ {p p' : Process Buffer v d} {i c a c'}, P c → okAct a →
      Delivery.Step cfg reader p i c a p' c' → P c')
    {as : List (ReaderLabel Buffer v)}
    (h : Run (ReaderStep cfg reader d) (State.init .init) as s)
    (hact : ∀ i a, Label.act i a ∈ as → okAct a) : ∀ c ∈ s.calls, P c := by
  refine forall_calls (fun _ => True) okAct P ?_ ?_ h (fun _ _ => trivial) hact
  · intro p i a p' c _ hs
    obtain ⟨-, -, he⟩ := deliveries_start hs
    obtain ⟨-, rfl⟩ := Prod.mk.inj he
    exact hstart p a
  · intro p i c a p' c' hc ha hs
    exact hstep hc ha (deliveries_step hs).2

theorem forall_handles (Q : HandleCall Buffer v → Prop)
    (hstart : ∀ (p : Process Buffer v d) e, Q (HandleCall.start cfg p e).2)
    (hstep : ∀ {p p' : Process Buffer v d} {i h a h'}, Q h → HandleCall.Step cfg p i h a p' h' → Q h')
    {as : List (ReaderLabel Buffer v)}
    (h : Run (ReaderStep cfg reader d) (State.init .init) as s) :
    ∀ c ∈ s.calls, Q c.handle := by
  refine forall_deliveries (fun _ => True) (fun c => Q c.handle) (fun p a => hstart p a.event) ?_ h
    (fun _ _ _ => trivial)
  intro p p' i c a c' hc _ hs
  exact Delivery.step_handle hstep hc hs

theorem handles_settled {as : List (ReaderLabel Buffer v)}
    (h : Run (ReaderStep cfg reader d) (State.init .init) as s) :
    ∀ c ∈ s.calls, HandleCall.Settled cfg c.handle :=
  forall_handles _ HandleCall.settled_start HandleCall.settled_step h

end

end Interconnect
