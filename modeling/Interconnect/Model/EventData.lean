import Interconnect.Model.Event

/-! `createJsonEventData` of the TCP client, which encodes an event for `appendToStream`. It takes
objects and arrays as data, UUIDs as ids and texts as types, and throws on anything else; an empty
type it replaces by the name of the data's class. -/

namespace Interconnect

open JsValue

structure EventData (Buffer : Type) where
  eventId : JsValue
  type : JsValue
  data : Buffer
  metadata : Buffer

variable {Buffer : Type}

/-- What the client is relied on for: what it makes of an event it takes, and what it has checked
of one it has taken. -/
structure EventDataFactory (J : JsonText Buffer) where
  /-- `none` where it throws -/
  createJsonEventData : (eventId data metadata type : JsValue) → Option (EventData Buffer)
  /-- the texts it takes as ids -/
  isUuid : String → Bool
  creates : ∀ id t data metadata d m, isUuid id → t ≠ "" → data.isComposite → metadata.truthy →
    J.encode data = some d → J.encode metadata = some m →
    createJsonEventData (.str id) data metadata (.str t) = some ⟨.str id, .str t, d, m⟩
  created : ∀ eventId data metadata type r,
    createJsonEventData eventId data metadata type = some r →
      (∃ id, eventId = .str id ∧ isUuid id) ∧ r.eventId = eventId ∧
      (∃ t, t ≠ "" ∧ r.type = .str t ∧ (type.truthy → type = .str t)) ∧
      data.isComposite ∧ J.encode data = some r.data ∧
      (metadata.truthy → J.encode metadata = some r.metadata)

def isHexDigit (c : Char) : Bool := c.isDigit || ('a' ≤ c && c ≤ 'f') || ('A' ≤ c && c ≤ 'F')

/-- A UUID in its usual form, but not the one that has no other digit than zero. -/
def isUuidText (s : String) : Bool :=
  let groups := s.toList.splitOn '-'
  groups.map List.length == [8, 4, 4, 4, 12] && groups.flatten.all isHexDigit &&
    groups.flatten.any (· != '0')

def constructorName : JsValue → String
  | .arr _ => "Array"
  | .obj c _ => c
  | _ => ""

def createJsonEventData (J : JsonText Buffer) (eventId data metadata type : JsValue) :
    Option (EventData Buffer) :=
  match eventId, type.orElse (.str (constructorName data)) with
  | .str id, .str t =>
    if isUuidText id && t != "" && data.isComposite then
      (J.encode data).bind fun d =>
        (if metadata.truthy then J.encode metadata else some J.empty).map fun m =>
          ⟨.str id, .str t, d, m⟩
    else none
  | _, _ => none

theorem createJsonEventData_eq_some {J : JsonText Buffer}
    {eventId data metadata type : JsValue} {r : EventData Buffer}
    (h : createJsonEventData J eventId data metadata type = some r) :
    ∃ id t, eventId = .str id ∧ type.orElse (.str (constructorName data)) = .str t ∧
      isUuidText id ∧ t ≠ "" ∧ data.isComposite ∧ r.eventId = .str id ∧ r.type = .str t ∧
      J.encode data = some r.data ∧ (metadata.truthy → J.encode metadata = some r.metadata) := by
  unfold createJsonEventData at h
  split at h
  · next id t ht =>
    cases hok : isUuidText id && t != "" && data.isComposite with
    | false => simp [hok] at h
    | true =>
      rw [hok, if_pos rfl] at h
      obtain ⟨d, hd, h⟩ := Option.bind_eq_some_iff.mp h
      obtain ⟨m, hm, rfl⟩ := Option.map_eq_some_iff.mp h
      simp only [Bool.and_eq_true, bne_iff_ne] at hok
      refine ⟨id, t, rfl, ht, hok.1.1, hok.1.2, hok.2, rfl, rfl, hd, fun hmeta => ?_⟩
      rwa [if_pos hmeta] at hm
  · cases h

def EventDataFactory.documented (J : JsonText Buffer) : EventDataFactory J where
  createJsonEventData := Interconnect.createJsonEventData J
  isUuid := isUuidText
  creates id t data metadata d m hid ht hdata hmeta hd hm := by
    have htype : (JsValue.str t).orElse (.str (constructorName data)) = .str t := by
      simp [orElse, truthy, ht]
    simp [Interconnect.createJsonEventData, htype, hid, ht, hdata, hmeta, hd, hm]
  created eventId data metadata type r h := by
    obtain ⟨id, t, rfl, ht, hid, hne, hdata, hr, hrt, hd, hm⟩ := createJsonEventData_eq_some h
    refine ⟨⟨id, rfl, hid⟩, hr, ⟨t, hne, hrt, fun htype => ?_⟩, hdata, hd, hm⟩
    rwa [orElse, if_pos htype] at ht

end Interconnect
