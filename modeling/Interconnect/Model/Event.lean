import Interconnect.Js.Value

/-! Events as the two versions of the source deliver them, the formatted event between
reader and driver, and what a driver's client is given to append. -/

namespace Interconnect

/-- The version of an eventstore: v5, reached over TCP and HTTP, or v21, reached over gRPC. -/
inductive Version
  | legacy
  | next
  deriving DecidableEq, Repr

structure LegacyRecordedEvent (Buffer : Type) where
  eventStreamId : String
  eventId : String
  eventType : String
  data : Buffer
  metadata : Buffer

/-- The gRPC client decodes JSON data and metadata; absent metadata is `undefined`. The
revision is a BigInt. -/
structure NextRecordedEvent where
  streamId : String
  id : String
  type : String
  data : JsValue
  metadata : JsValue
  revision : Option ℤ

/-- A delivered event. A link to a deleted event resolves to no `event` part. -/
structure ResolvedEvent (Recorded : Type) where
  event : Option Recorded

abbrev Recorded (Buffer : Type) : Version → Type
  | .legacy => LegacyRecordedEvent Buffer
  | .next => NextRecordedEvent

namespace Recorded

variable {Buffer : Type}

def stream : (v : Version) → Recorded Buffer v → String
  | .legacy, r => LegacyRecordedEvent.eventStreamId r
  | .next, r => NextRecordedEvent.streamId r

def id : (v : Version) → Recorded Buffer v → String
  | .legacy, r => LegacyRecordedEvent.eventId r
  | .next, r => NextRecordedEvent.id r

def type : (v : Version) → Recorded Buffer v → String
  | .legacy, r => LegacyRecordedEvent.eventType r
  | .next, r => NextRecordedEvent.type r

end Recorded

structure FormattedEvent where
  data : JsValue
  metadata : Props

namespace FormattedEvent

def eventStreamId (e : FormattedEvent) : JsValue := e.metadata.get "eventStreamId"

def eventId (e : FormattedEvent) : JsValue := e.metadata.get "eventId"

def eventType (e : FormattedEvent) : JsValue := e.metadata.get "eventType"

end FormattedEvent

/-- The expected versions of the TCP client, with the numbers it sends for them. -/
inductive ExpectedVersion
  | streamExists
  | any
  | noStream
  | emptyStream
  deriving DecidableEq, Repr

/-- The arguments of a client's `appendToStream`: the TCP client is given encoded data and
metadata, the gRPC client the values themselves. -/
structure AppendRequest (Body : Type) where
  stream : JsValue
  expectedVersion : ExpectedVersion
  id : JsValue
  type : JsValue
  data : Body
  metadata : Body

abbrev Body (Buffer : Type) : Version → Type
  | .legacy => Buffer
  | .next => JsValue

end Interconnect
