import Interconnect.Model.EventStore

/-! An interconnect between its source and its destination, over its restarts. A persistent
subscription delivers an event again and again until a settlement of it has reached the source, and
the destination confirms an append only when it holds the event. -/

namespace Interconnect

open Runs Pools Journals

variable {Buffer : Type} {v d : Version}

/-- The events of the source's subscriptions: `feed q n` is the `n`-th of the `q`-th. -/
abbrev Feed (Buffer : Type) (v : Version) := ℕ → ℕ → Option (ResolvedEvent (Recorded Buffer v))

structure Delivered (Buffer : Type) (v : Version) where
  position : ℕ
  delivery : Delivery Buffer v

structure Interconnection (Buffer : Type) (v d : Version) where
  world : World Buffer v d
  /-- the positions of the events that the running process was given -/
  positions : List ℕ
  /-- the deliveries of the processes before it, as these left them -/
  past : List (Delivered Buffer v)
  /-- the events whose settlement has reached the source, by subscription and position -/
  retired : List (ℕ × ℕ)

inductive InterconnectionLabel
  | deliver (subscription position : ℕ) (ackThrows : Bool)
  | act (i : ℕ) (a : DeliveryAct)
  | tick
  | apply (k : ℕ)
  | retire (subscription position : ℕ)
  | restart

def World.holds (w : World Buffer v d) (event : FormattedEvent) : Bool :=
  match event.eventStreamId, event.eventId with
  | .str stream, .str id => (stream, id) ∈ w.destination.entries.map CopiedEvent.key
  | _, _ => false

/-- An append is confirmed only when the destination holds its event. -/
def World.confirms (w : World Buffer v d) (i : ℕ) : DeliveryAct → Bool
  | .handle (.write (.appendAnswers (.ok _))) =>
    (w.process.calls[i]?.bind fun c => c.handle.write).any fun x => w.holds x.event
  | _ => true

namespace Interconnection

def init : Interconnection Buffer v d := ⟨World.init, [], [], []⟩

def delivered (s : Interconnection Buffer v d) : List (Delivered Buffer v) :=
  s.past ++ List.zipWith Delivered.mk s.positions s.world.process.calls

def settled (s : Interconnection Buffer v d) : List (ℕ × ℕ) :=
  s.delivered.flatMap fun x => x.delivery.settlements.map fun y => (y.1, x.position)

variable (cfg : Configuration Buffer) (feed : Feed Buffer v)

def next (s : Interconnection Buffer v d) :
    InterconnectionLabel → Option (Interconnection Buffer v d)
  | .deliver q n ackThrows =>
    if (q, n) ∈ s.retired then none
    else (feed q n).bind fun event =>
      (World.next cfg s.world (.process (.start ⟨q, event, ackThrows⟩))).map fun world =>
        { s with world, positions := s.positions ++ [n] }
  | .act i a =>
    if s.world.confirms i a then
      (World.next cfg s.world (.process (.act i a))).map fun world => { s with world }
    else none
  | .tick => (World.next cfg s.world (.process (.env ()))).map fun world => { s with world }
  | .apply k => (World.next cfg s.world (.apply k)).map fun world => { s with world }
  | .retire q n =>
    if (q, n) ∈ s.settled then some { s with retired := s.retired ++ [(q, n)] } else none
  | .restart => (World.next cfg s.world .restart).map fun world =>
      { s with world, positions := [], past := s.delivered }

inductive Step (s : Interconnection Buffer v d) :
    InterconnectionLabel → Interconnection Buffer v d → Prop
  | delivers (q n : ℕ) (ackThrows : Bool) (event : ResolvedEvent (Recorded Buffer v))
      (process : ReaderState Buffer v d) : (q, n) ∉ s.retired → feed q n = some event →
      ReaderStep cfg (readerOf v) d s.world.process (.start ⟨q, event, ackThrows⟩) process →
      Step s (.deliver q n ackThrows)
        { s with world := { s.world with process }, positions := s.positions ++ [n] }
  | acts (i : ℕ) (a : DeliveryAct) (process : ReaderState Buffer v d) :
      s.world.confirms i a = true →
      ReaderStep cfg (readerOf v) d s.world.process (.act i a) process →
      Step s (.act i a) { s with world := { s.world with process } }
  | ticks (process : ReaderState Buffer v d) :
      ReaderStep cfg (readerOf v) d s.world.process (.env ()) process →
      Step s .tick { s with world := { s.world with process } }
  | applies (k : ℕ) (a : SentAppend Buffer v d) (record : Recorded Buffer d) :
      s.world.sent[k]? = some a →
      a.request.record d s.world.destination.entries.length = some record →
      Step s (.apply k) { s with
        world := { s.world with destination := s.world.destination.append ⟨a.source, record⟩ } }
  | retires (q n : ℕ) : (q, n) ∈ s.settled →
      Step s (.retire q n) { s with retired := s.retired ++ [(q, n)] }
  | restarts : Step s .restart {
      world := { s.world with process := State.init .init, past := s.world.sent }
      positions := []
      past := s.delivered
      retired := s.retired }

variable {cfg feed} {s s' : Interconnection Buffer v d} {l : InterconnectionLabel}

theorem next_cases (h : s.next cfg feed l = some s') : Step cfg feed s l s' := by
  cases l with
  | deliver q n ackThrows =>
    simp only [next] at h
    split_ifs at h with hret
    obtain ⟨event, hevent, h⟩ := Option.bind_eq_some_iff.mp h
    obtain ⟨world, hworld, rfl⟩ := Option.map_eq_some_iff.mp h
    obtain ⟨process, hprocess, rfl⟩ := Option.map_eq_some_iff.mp hworld
    exact .delivers q n ackThrows event process hret hevent hprocess
  | act i a =>
    simp only [next] at h
    split_ifs at h with hconf
    obtain ⟨world, hworld, rfl⟩ := Option.map_eq_some_iff.mp h
    obtain ⟨process, hprocess, rfl⟩ := Option.map_eq_some_iff.mp hworld
    exact .acts i a process hconf hprocess
  | tick =>
    obtain ⟨world, hworld, rfl⟩ := Option.map_eq_some_iff.mp h
    obtain ⟨process, hprocess, rfl⟩ := Option.map_eq_some_iff.mp hworld
    exact .ticks process hprocess
  | apply k =>
    obtain ⟨world, hworld, rfl⟩ := Option.map_eq_some_iff.mp h
    obtain ⟨a, ha, hworld⟩ := Option.bind_eq_some_iff.mp hworld
    obtain ⟨record, hrecord, rfl⟩ := Option.map_eq_some_iff.mp hworld
    exact .applies k a record ha hrecord
  | retire q n =>
    simp only [next] at h
    split_ifs at h with hset
    cases h
    exact .retires q n hset
  | restart =>
    cases h
    exact .restarts

end Interconnection

abbrev InterconnectionStep (cfg : Configuration Buffer) (feed : Feed Buffer v) (d : Version) :
    Interconnection Buffer v d → InterconnectionLabel → Interconnection Buffer v d → Prop :=
  Steps (Interconnection.next cfg feed)

end Interconnect
