import Interconnect.Model.Validator

/-! One sequence of events, presented by a legacy source and by a gRPC one: validators and
formatters of the two versions stay in step, the classes they copy into included. -/

namespace Interconnect

open JsValue

variable {Buffer : Type}

/-- An event at a source, whichever version presents it. Data and metadata are JSON; only the
gRPC client tells a revision. -/
structure SourceEvent where
  stream : String
  id : String
  type : String
  data : JsValue
  metadata : Option JsValue
  revision : Option ℤ
  isJson_data : IsJson data
  isJson_metadata : ∀ m, metadata = some m → IsJson m

namespace SourceEvent

def bytes (J : JsonText Buffer) : Option JsValue → Buffer
  | some v => (J.encode v).getD J.empty
  | none => J.empty

/-- The event as a source of the given version delivers it. -/
def presented (J : JsonText Buffer) (e : SourceEvent) :
    (v : Version) → ResolvedEvent (Recorded Buffer v)
  | .legacy => ⟨some ⟨e.stream, e.id, e.type, bytes J (some e.data), bytes J e.metadata⟩⟩
  | .next => ⟨some ⟨e.stream, e.id, e.type, e.data, e.metadata.getD .undefined, e.revision⟩⟩

def formatted (e : SourceEvent) : FormattedEvent :=
  ⟨e.data, enriched (e.metadata.getD .undefined) e.stream e.id e.type⟩

variable (J : JsonText Buffer) (e : SourceEvent)

theorem parse_bytes {x : JsValue} (hx : IsJson x) : J.parse (bytes J (some x)) = some x := by
  obtain ⟨b, hb, hp⟩ := J.parse_encode x hx
  rw [bytes, hb]
  exact hp

theorem candidate_presented (v : Version) :
    candidate J v (e.presented J v) = .ok (some (e.type, e.data)) := by
  cases v with
  | legacy => simp only [candidate, presented, parse_bytes J e.isJson_data]
  | next => rfl

theorem format_presented (v : Version) : format J v (e.presented J v) = .ok e.formatted := by
  cases v with
  | legacy =>
    simp only [format, LegacyEventFormatterService.format, presented, parse_bytes J e.isJson_data,
      formatted]
    cases hm : e.metadata with
    | none =>
      -- empty bytes are caught as a parse failure, and `undefined` spreads to nothing
      rw [bytes, J.parse_empty]
      rfl
    | some m => rw [parse_bytes J (e.isJson_metadata m hm)]; rfl
  | next => rfl

end SourceEvent

structure EventOutcome where
  accepted : Bool
  invalidEventHookCalls : ℕ
  formatted : Option FormattedEvent

variable (J : JsonText Buffer) (copy : PlainToClassFromExist) (allowed : AllowedEvents)
  (rules : JsValue → Validation)

def validated (v : Version) (s : ValidatorState (HookArgument Buffer v))
    (e : ResolvedEvent (Recorded Buffer v)) :
    ValidatorState (HookArgument Buffer v) × Except Rejection Unit :=
  match validate J copy allowed v s e with
  | (s', .error r) => (s', .error r)
  | (s', .ok o) => report J v s' e (rules o)

/-- The validator and then, for an accepted event, the formatter of a version. -/
def validateAndFormat (v : Version) (s : ValidatorState (HookArgument Buffer v))
    (e : ResolvedEvent (Recorded Buffer v)) :
    ValidatorState (HookArgument Buffer v) × EventOutcome :=
  match validated J copy allowed rules v s e with
  | (s', .error _) => (s', ⟨false, s'.invalidEventHook.length, none⟩)
  | (s', .ok ()) => (s', ⟨true, s'.invalidEventHook.length, (format J v e).toOption⟩)

def validateAndFormatAll (v : Version) (s : ValidatorState (HookArgument Buffer v)) :
    List (ResolvedEvent (Recorded Buffer v)) → List EventOutcome
  | [] => []
  | e :: es =>
    let r := validateAndFormat J copy allowed rules v s e
    r.2 :: validateAndFormatAll v r.1 es

structure InStep {P Q : Type} (s : ValidatorState P) (t : ValidatorState Q) : Prop where
  classes : s.classes = t.classes
  hookCalls : s.invalidEventHook.length = t.invalidEventHook.length

variable {J copy allowed rules}

theorem InStep.callInvalidEventHook {P Q : Type} {s : ValidatorState P} {t : ValidatorState Q}
    (h : InStep s t) (p : P) (q : Q) :
    InStep (s.callInvalidEventHook p) (t.callInvalidEventHook q) := by
  refine ⟨h.classes, ?_⟩
  simp [h.hookCalls]

theorem InStep.copyInto {P Q : Type} {s : ValidatorState P} {t : ValidatorState Q}
    (h : InStep s t) (c : ClassRef) (own : Props) :
    InStep (s.copyInto copy c own) (t.copyInto copy c own) := by
  refine ⟨?_, h.hookCalls⟩
  simp [h.classes]

theorem inStep_tryToInstantiateEvent {P Q : Type} {s : ValidatorState P} {t : ValidatorState Q}
    (h : InStep s t) (p : P) (q : Q) (x : Option (String × JsValue)) :
    InStep (tryToInstantiateEvent copy allowed s p x).1 (tryToInstantiateEvent copy allowed t q x).1 ∧
      (tryToInstantiateEvent copy allowed s p x).2 = (tryToInstantiateEvent copy allowed t q x).2 := by
  unfold tryToInstantiateEvent
  cases x.bind fun x => allowed.instantiate x.1 x.2 with
  | none => exact ⟨h.callInvalidEventHook p q, rfl⟩
  | some y =>
    obtain ⟨c, own⟩ := y
    dsimp only
    rw [h.classes]
    split_ifs
    · exact ⟨(h.copyInto c own).callInvalidEventHook p q, rfl⟩
    · exact ⟨h.copyInto c own, by simp [h.classes]⟩

/-- The two may reject with different errors, not one reject and the other accept. -/
theorem inStep_afterClassValidator {P Q : Type} {s : ValidatorState P} {t : ValidatorState Q}
    (h : InStep s t) (p : P) (q : Q) (b b' : Bool) (a : Validation) :
    InStep (afterClassValidator J s p b a).1 (afterClassValidator J t q b' a).1 ∧
      ((afterClassValidator J s p b a).2 = .ok () ↔ (afterClassValidator J t q b' a).2 = .ok ()) := by
  cases a with
  | error r => exact ⟨h, by simp [afterClassValidator]⟩
  | ok errors =>
    cases errors with
    | nil => exact ⟨h, Iff.rfl⟩
    | cons => exact ⟨h.callInvalidEventHook p q, by simp [afterClassValidator]⟩

theorem inStep_report {s : ValidatorState (HookArgument Buffer .legacy)}
    {t : ValidatorState (HookArgument Buffer .next)} (h : InStep s t)
    (e : ResolvedEvent (Recorded Buffer .legacy)) (e' : ResolvedEvent (Recorded Buffer .next))
    (a : Validation) :
    InStep (report J .legacy s e a).1 (report J .next t e' a).1 ∧
      ((report J .legacy s e a).2 = .ok () ↔ (report J .next t e' a).2 = .ok ()) :=
  inStep_afterClassValidator h _ _ _ _ a

theorem inStep_validated {s : ValidatorState (HookArgument Buffer .legacy)}
    {t : ValidatorState (HookArgument Buffer .next)} (h : InStep s t) (e : SourceEvent) :
    InStep (validated J copy allowed rules .legacy s (e.presented J .legacy)).1
        (validated J copy allowed rules .next t (e.presented J .next)).1 ∧
      ((validated J copy allowed rules .legacy s (e.presented J .legacy)).2 = .ok () ↔
        (validated J copy allowed rules .next t (e.presented J .next)).2 = .ok ()) := by
  unfold validated
  rw [validate_of_ok (e.candidate_presented J .legacy), validate_of_ok (e.candidate_presented J .next)]
  obtain ⟨hs, hr⟩ := inStep_tryToInstantiateEvent h
    (notInstantiated .legacy (e.presented J .legacy)) (notInstantiated .next (e.presented J .next))
    (some (e.type, e.data))
  rw [hr]
  cases (tryToInstantiateEvent copy allowed t (notInstantiated .next (e.presented J .next))
      (some (e.type, e.data))).2 with
  | error r => exact ⟨hs, Iff.rfl⟩
  | ok own => exact inStep_report hs _ _ _

theorem inStep_validateAndFormat {s : ValidatorState (HookArgument Buffer .legacy)}
    {t : ValidatorState (HookArgument Buffer .next)} (h : InStep s t) (e : SourceEvent) :
    InStep (validateAndFormat J copy allowed rules .legacy s (e.presented J .legacy)).1
        (validateAndFormat J copy allowed rules .next t (e.presented J .next)).1 ∧
      (validateAndFormat J copy allowed rules .legacy s (e.presented J .legacy)).2 =
        (validateAndFormat J copy allowed rules .next t (e.presented J .next)).2 := by
  obtain ⟨hs, hacc⟩ := inStep_validated h e
  unfold validateAndFormat
  rw [e.format_presented J .legacy, e.format_presented J .next]
  generalize validated J copy allowed rules .legacy s (e.presented J .legacy) = x at hs hacc
  generalize validated J copy allowed rules .next t (e.presented J .next) = y at hs hacc
  obtain ⟨s', r⟩ := x
  obtain ⟨t', r'⟩ := y
  cases r with
  | ok =>
    cases r' with
    | ok => exact ⟨hs, by simp [hs.hookCalls]⟩
    | error => exact absurd (hacc.mp rfl) (by simp)
  | error =>
    cases r' with
    | ok => exact absurd (hacc.mpr rfl) (by simp)
    | error => exact ⟨hs, by simp [hs.hookCalls]⟩

/-- From the same event classes, the two pipelines accept the same events of a sequence, have
called `invalidEventHook` equally often at each, and format the accepted ones alike. -/
theorem source_version_does_not_matter (J : JsonText Buffer) (copy : PlainToClassFromExist)
    (allowed : AllowedEvents) (rules : JsValue → Validation) (classes : ClassStore)
    (es : List SourceEvent) :
    validateAndFormatAll J copy allowed rules .legacy ⟨classes, []⟩
        (es.map fun e => e.presented J .legacy) =
      validateAndFormatAll J copy allowed rules .next ⟨classes, []⟩
        (es.map fun e => e.presented J .next) := by
  suffices key : ∀ (s : ValidatorState (HookArgument Buffer .legacy))
      (t : ValidatorState (HookArgument Buffer .next)), InStep s t →
      validateAndFormatAll J copy allowed rules .legacy s (es.map fun e => e.presented J .legacy) =
        validateAndFormatAll J copy allowed rules .next t (es.map fun e => e.presented J .next) from
    key _ _ ⟨rfl, rfl⟩
  induction es with
  | nil =>
    intro s t _
    rfl
  | cons e es ih =>
    intro s t h
    obtain ⟨hs, hout⟩ := inStep_validateAndFormat h e
    simp only [List.map_cons, validateAndFormatAll]
    rw [hout, ih _ _ hs]

end Interconnect
