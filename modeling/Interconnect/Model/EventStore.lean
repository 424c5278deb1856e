import Interconnect.Lib.Journal
import Interconnect.Model.Reader

/-! The destination, and an interconnect over its restarts. The destination ignores an append of
an event id that the stream already has. Appends that were sent may be applied at any time,
again, or never, also when the process that sent them is gone. -/

namespace Interconnect

open Pools Journals

variable {Buffer : Type} {v d : Version}

/-- An event as a store of the given version records it. -/
def recordedEvent : (d : Version) → (stream id type : String) → (data metadata : Body Buffer d) →
    (revision : ℤ) → Recorded Buffer d
  | .legacy, eventStreamId, eventId, eventType, data, metadata, _ =>
    (⟨eventStreamId, eventId, eventType, data, metadata⟩ : LegacyRecordedEvent Buffer)
  | .next, streamId, id, type, data, metadata, revision =>
    (⟨streamId, id, type, data, metadata, some revision⟩ : NextRecordedEvent)

/-- What is recorded of an append: exactly what the client was given. The names are texts. -/
def AppendRequest.record (d : Version) (request : AppendRequest (Body Buffer d)) (revision : ℤ) :
    Option (Recorded Buffer d) :=
  match request.stream, request.id, request.type with
  | .str stream, .str id, .str type =>
    some (recordedEvent d stream id type request.data request.metadata revision)
  | _, _, _ => none

theorem recordedEvent_names (stream id type : String) (data metadata : Body Buffer d)
    (revision : ℤ) :
    (recordedEvent d stream id type data metadata revision).stream d = stream ∧
      (recordedEvent d stream id type data metadata revision).id d = id ∧
      (recordedEvent d stream id type data metadata revision).type d = type := by
  cases d <;> exact ⟨rfl, rfl, rfl⟩

theorem AppendRequest.record_eq_some {request : AppendRequest (Body Buffer d)} {revision : ℤ}
    {record : Recorded Buffer d} (h : request.record d revision = some record) :
    ∃ stream id type, request.stream = .str stream ∧ request.id = .str id ∧
      request.type = .str type ∧
      record = recordedEvent d stream id type request.data request.metadata revision := by
  unfold AppendRequest.record at h
  split at h
  · next stream id type hs hi ht => exact ⟨stream, id, type, hs, hi, ht, (Option.some.inj h).symm⟩
  · cases h

/-- A record at the destination with the source event it is a copy of. -/
structure CopiedEvent (Buffer : Type) (v d : Version) where
  source : Recorded Buffer v
  record : Recorded Buffer d

def CopiedEvent.key (e : CopiedEvent Buffer v d) : String × String :=
  (e.record.stream d, e.record.id d)

structure SentAppend (Buffer : Type) (v d : Version) where
  source : Recorded Buffer v
  request : AppendRequest (Body Buffer d)

def sentBy (s : ReaderState Buffer v d) : List (SentAppend Buffer v d) :=
  s.shared.appended.filterMap fun x =>
    (s.calls[x.1]?.bind fun c => c.handle.validation.event.event).map fun source => ⟨source, x.2⟩

/-- An interconnect over its restarts: the process that runs, the appends of those before it, and
the destination. -/
structure World (Buffer : Type) (v d : Version) where
  process : ReaderState Buffer v d
  past : List (SentAppend Buffer v d)
  destination : Journal (CopiedEvent.key : CopiedEvent Buffer v d → String × String)

inductive WorldLabel (Buffer : Type) (v : Version)
  | process (l : ReaderLabel Buffer v)
  | apply (k : ℕ)
  | restart

namespace World

def init : World Buffer v d := ⟨State.init .init, [], .empty⟩

def sent (w : World Buffer v d) : List (SentAppend Buffer v d) := w.past ++ sentBy w.process

/-- The destination applies the append that was sent as the `k`-th. -/
def apply (w : World Buffer v d) (k : ℕ) : Option (World Buffer v d) :=
  w.sent[k]?.bind fun a =>
    (a.request.record d w.destination.entries.length).map fun record =>
      { w with destination := w.destination.append ⟨a.source, record⟩ }

def next (cfg : Configuration Buffer) (w : World Buffer v d) :
    WorldLabel Buffer v → Option (World Buffer v d)
  | .process l => (Pools.next (deliveries cfg (readerOf v) d) w.process l).map fun process =>
      { w with process }
  | .apply k => w.apply k
  | .restart => some { w with process := State.init .init, past := w.sent }

end World

end Interconnect
