import Interconnect.Model.Formatter

/-! Which metadata survive formatting: two events that differ in their metadata alone, and what
it takes that a formatted event tells them apart. -/

namespace Interconnect

open JsValue

variable {Buffer : Type}

def nameKeys : List String := ["eventStreamId", "eventId", "eventType"]

def AgreeOutsideNames (p q : Props) : Prop := ∀ key, key ∉ nameKeys → p key = q key

def SameUpToNames : JsValue → JsValue → Prop
  | .obj _ p, .obj _ q => AgreeOutsideNames p q
  | x, y => x = y

theorem SameUpToNames.refl (x : JsValue) : SameUpToNames x x := by
  cases x with
  | obj => exact fun _ _ => rfl
  | _ => rfl

theorem SameUpToNames.cases {x y : JsValue} (h : SameUpToNames x y) :
    x = y ∨ x.isObject ∧ y.isObject := by
  cases x with
  | obj c p =>
    cases y with
    | obj => exact Or.inr ⟨rfl, rfl⟩
    | _ => exact nomatch h
  | _ => exact Or.inl h

theorem sameUpToNames_of_objects {x y : JsValue} (hx : x.isObject) (hy : y.isObject)
    (h : AgreeOutsideNames x.spread y.spread) : SameUpToNames x y := by
  cases x with
  | obj c p =>
    cases y with
    | obj c' q => exact h
    | _ => cases hy
  | _ => cases hx

theorem enriched_eq_iff (m m' : JsValue) (s i t : String) :
    enriched m s i t = enriched m' s i t ↔ AgreeOutsideNames m.spread m'.spread := by
  have hval : ∀ (m : JsValue) key, key ∉ nameKeys → enriched m s i t key = m.spread key := by
    intro m key hkey
    simp only [nameKeys, List.mem_cons, List.not_mem_nil, or_false, not_or] at hkey
    simp [enriched, Props.set, hkey]
  constructor
  · intro he key hkey
    rw [← hval m key hkey, he, hval m' key hkey]
  · intro hagree
    funext key
    by_cases hkey : key ∈ nameKeys
    · simp only [nameKeys, List.mem_cons, List.not_mem_nil, or_false] at hkey
      rcases hkey with rfl | rfl | rfl <;> simp [enriched, Props.set]
    · rw [hval m key hkey, hval m' key hkey, hagree key hkey]

def Recorded.withMetadata : (v : Version) → Recorded Buffer v → Body Buffer v → Recorded Buffer v
  | .legacy, r, m => ({ r with metadata := m } : LegacyRecordedEvent Buffer)
  | .next, r, m => ({ r with metadata := m } : NextRecordedEvent)

/-- The JSON value that metadata stand for. Empty and absent ones stand for the empty object,
malformed ones for nothing. -/
def Denotes (J : JsonText Buffer) : (v : Version) → Body Buffer v → JsValue → Prop
  | .legacy, m, x => m = J.empty ∧ x = literal Props.empty ∨ J.parse m = some x
  | .next, .undefined, x => x = literal Props.empty
  | .next, m, x => x = m

def readMetadata (J : JsonText Buffer) : (v : Version) → Body Buffer v → JsValue
  | .legacy, m => (J.parse m).getD (literal Props.empty)
  | .next, m => m

def HasMalformedData (J : JsonText Buffer) : (v : Version) → Recorded Buffer v → Prop
  | .legacy, r => J.parse (LegacyRecordedEvent.data r) = none
  | .next, _ => False

variable {J : JsonText Buffer} {v : Version} {r : Recorded Buffer v}

theorem spread_of_denotes {m : Body Buffer v} {x : JsValue} (h : Denotes J v m x) :
    (readMetadata J v m).spread = x.spread := by
  cases v with
  | legacy =>
    rcases h with ⟨rfl, rfl⟩ | h
    · rw [readMetadata, J.parse_empty]
      rfl
    · rw [readMetadata, h]
      rfl
  | next =>
    cases m with
    | undefined =>
      cases h
      rfl
    | _ =>
      cases h
      rfl

theorem format_withMetadata (r : Recorded Buffer v) :
    (HasMalformedData J v r ∧
      ∀ m f, format J v ⟨some (r.withMetadata v m)⟩ ≠ .ok f) ∨
    ¬ HasMalformedData J v r ∧ ∃ data, ∀ m, format J v ⟨some (r.withMetadata v m)⟩ =
      .ok ⟨data, enriched (readMetadata J v m) (r.stream v) (r.id v) (r.type v)⟩ := by
  cases v with
  | legacy =>
    cases hdata : J.parse (LegacyRecordedEvent.data r) with
    | none =>
      refine Or.inl ⟨hdata, fun m f h => ?_⟩
      simp [format, LegacyEventFormatterService.format, Recorded.withMetadata, hdata] at h
    | some data =>
      refine Or.inr ⟨by simp [HasMalformedData, hdata], data, fun m => ?_⟩
      simp only [format, LegacyEventFormatterService.format, Recorded.withMetadata, hdata]
      rfl
  | next => exact Or.inr ⟨id, _, fun m => rfl⟩

/-- Where the two events are formatted alike, their metadata stand for the same JSON value up to
the three keys. -/
def LosesNothing (J : JsonText Buffer) (v : Version) (r : Recorded Buffer v) (m m' : Body Buffer v) :
    Prop :=
  ∀ f, format J v ⟨some (r.withMetadata v m)⟩ = .ok f →
    format J v ⟨some (r.withMetadata v m')⟩ = .ok f →
    ∃ x y, Denotes J v m x ∧ Denotes J v m' y ∧ SameUpToNames x y

/-- Formatting tells two metadata apart, or takes them for the same value rightly, exactly where
the event's data is malformed, what the two spread to differs outside the three keys, both stand
for objects, or both stand for the same value. -/
theorem metadata_survive_iff (J : JsonText Buffer) (v : Version) (r : Recorded Buffer v)
    (m m' : Body Buffer v) :
    LosesNothing J v r m m' ↔
      HasMalformedData J v r ∨
      ¬ AgreeOutsideNames (readMetadata J v m).spread (readMetadata J v m').spread ∨
      ∃ x y, Denotes J v m x ∧ Denotes J v m' y ∧ (x = y ∨ x.isObject ∧ y.isObject) := by
  rcases format_withMetadata r with ⟨hbad, hnone⟩ | ⟨hgood, data, hformat⟩
  · exact iff_of_true (fun f hf => absurd hf (hnone m f)) (Or.inl hbad)
  · have hsame : ∀ f, format J v ⟨some (r.withMetadata v m)⟩ = .ok f →
        format J v ⟨some (r.withMetadata v m')⟩ = .ok f →
        AgreeOutsideNames (readMetadata J v m).spread (readMetadata J v m').spread := by
      intro f hf hf'
      rw [hformat] at hf hf'
      cases hf
      injection hf' with he
      injection he with _ he
      exact (enriched_eq_iff ..).mp he.symm
    constructor
    · intro h
      by_cases hagree : AgreeOutsideNames (readMetadata J v m).spread (readMetadata J v m').spread
      · have hequal := (enriched_eq_iff _ _ (r.stream v) (r.id v) (r.type v)).mpr hagree
        obtain ⟨x, y, hx, hy, hxy⟩ := h _ (hformat m) (by rw [hformat m', hequal])
        exact Or.inr (Or.inr ⟨x, y, hx, hy, hxy.cases⟩)
      · exact Or.inr (Or.inl hagree)
    · rintro (hbad | hdiffer | ⟨x, y, hx, hy, hxy⟩) f hf hf'
      · exact absurd hbad hgood
      · exact absurd (hsame f hf hf') hdiffer
      · refine ⟨x, y, hx, hy, ?_⟩
        rcases hxy with rfl | ⟨hobj, hobj'⟩
        · exact .refl x
        · refine sameUpToNames_of_objects hobj hobj' ?_
          rw [← spread_of_denotes hx, ← spread_of_denotes hy]
          exact hsame f hf hf'

-- a character of two code units is not what an object holds that has it under its index
example : ¬ AgreeOutsideNames (JsValue.str "😀").spread (Props.empty.set "0" (.str "😀")) :=
  fun h => nomatch h "0" (by decide)

/-- A JSON text known by the value it denotes, or by itself where it is malformed. -/
def JsonText.written : JsonText (Except String JsValue) where
  parse
    | .ok v => some v
    | .error _ => none
  encode v := some (.ok v)
  empty := .error ""
  parse_empty := rfl
  parse_encode v _ := ⟨.ok v, rfl, rfl⟩

def heroCreated : (v : Version) → Recorded (Except String JsValue) v
  | .legacy =>
    (⟨"hero-1", "c63faa52-4a6f-4aa5-9b0d-1b6f3e0a9d01", "HeroCreated", .ok .null, .error ""⟩ :
      LegacyRecordedEvent _)
  | .next =>
    (⟨"hero-1", "c63faa52-4a6f-4aa5-9b0d-1b6f3e0a9d01", "HeroCreated", .null, .undefined, none⟩ :
      NextRecordedEvent)

/-- Malformed metadata are taken for empty ones, and a number for absent ones. -/
theorem metadata_dropped :
    ¬ LosesNothing .written .legacy (heroCreated .legacy) (.error "[") (.error "") ∧
    ¬ LosesNothing .written .next (heroCreated .next) (.num 5) .undefined := by
  constructor
  · intro h
    obtain ⟨x, -, (⟨he, -⟩ | he), -⟩ := h _ rfl rfl
    · injection he with he
      exact absurd he (by decide)
    · cases he
  · intro h
    obtain ⟨x, y, rfl, rfl, he⟩ := h _ rfl rfl
    cases he

end Interconnect
