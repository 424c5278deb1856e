import Interconnect.Model.Example

/-! What a rejected event is reported with: the calls of `invalidEventHook` that one call of
`validate` makes, and the error it rejects with. -/

namespace Interconnect

open JsValue

variable {Buffer : Type}

def deliveredEvent : (v : Version) → ResolvedEvent (Recorded Buffer v) → HookArgument Buffer v
  | .legacy, e => e
  | .next, e => .resolved e

/-- A whole call of `validate`: the calls of the hook it makes, oldest first, and what it answers.
The service is in state `s` when the call starts, and in state `t` when class-validator answers. -/
def wholeValidate (J : JsonText Buffer) (copy : PlainToClassFromExist) (allowed : AllowedEvents)
    (v : Version) (s t : ValidatorState (HookArgument Buffer v))
    (e : ResolvedEvent (Recorded Buffer v)) (answer : Validation) :
    List (HookArgument Buffer v) × Except Rejection Unit :=
  let started := validate J copy allowed v s e
  let before := started.1.invalidEventHook.drop s.invalidEventHook.length
  match started.2 with
  | .error r => (before, .error r)
  | .ok _ =>
    let finished := report J v t e answer
    (before ++ finished.1.invalidEventHook.drop t.invalidEventHook.length, finished.2)

/-- Whether `tryToInstantiateEvent` returns, on what the classes hold. -/
def Instantiates (J : JsonText Buffer) (copy : PlainToClassFromExist) (allowed : AllowedEvents)
    (v : Version) (classes : ClassStore) (e : ResolvedEvent (Recorded Buffer v)) : Prop :=
  (askedOf J copy allowed v classes e).isSome

instance (J : JsonText Buffer) (copy : PlainToClassFromExist) (allowed : AllowedEvents)
    (v : Version) (classes : ClassStore) (e : ResolvedEvent (Recorded Buffer v)) :
    Decidable (Instantiates J copy allowed v classes e) :=
  inferInstanceAs (Decidable (_ = true))

/-- A rejection comes after one call of the hook, with the delivered event, and with the error
for it; an event that is accepted is not reported. -/
def ReportedOnce (J : JsonText Buffer) (copy : PlainToClassFromExist) (allowed : AllowedEvents)
    (v : Version) (classes : ClassStore) (e : ResolvedEvent (Recorded Buffer v)) :
    List (HookArgument Buffer v) × Except Rejection Unit → Prop
  | (hooks, .ok _) => hooks = []
  | (hooks, .error r) => hooks = [deliveredEvent v e] ∧
    if Instantiates J copy allowed v classes e then ∃ details, r = .invalidEventError details
    else r = .notAllowedEventError allowed.keys

def stringifiesEvent (J : JsonText Buffer) :
    (v : Version) → ResolvedEvent (Recorded Buffer v) → Bool
  | .legacy, _ => true
  | .next, e => NextEventsValidatorService.stringifies J e

/-- An event that is not instantiated is reported where the source is a legacy one and its data
could be read; any other where class-validator finds no error, or finds errors and both these and
the event can be written into the text of the error. -/
def Reportable (J : JsonText Buffer) (copy : PlainToClassFromExist) (allowed : AllowedEvents)
    (v : Version) (classes : ClassStore) (e : ResolvedEvent (Recorded Buffer v))
    (answer : Validation) : Prop :=
  if Instantiates J copy allowed v classes e then
    ∃ errors, answer = .ok errors ∧
      (errors ≠ [] → stringifiesEvent J v e ∧ (J.encode (.arr errors)).isSome)
  else v = .legacy ∧ ∃ c, candidate J v e = .ok c

variable {J : JsonText Buffer} {copy : PlainToClassFromExist} {allowed : AllowedEvents}
  {v : Version} {s t : ValidatorState (HookArgument Buffer v)}
  {e : ResolvedEvent (Recorded Buffer v)}

theorem report_eq (answer : Validation) : report J v t e answer =
    afterClassValidator J t (deliveredEvent v e) (stringifiesEvent J v e) answer := by
  cases v <;> rfl

theorem notInstantiated_eq_iff : notInstantiated v e = deliveredEvent v e ↔ v = .legacy := by
  cases v with
  | legacy => exact iff_of_true rfl rfl
  | next => exact iff_of_false (fun h => nomatch h) (fun h => nomatch h)

theorem wholeValidate_of_error {r : Rejection} (h : candidate J v e = .error r)
    (answer : Validation) : wholeValidate J copy allowed v s t e answer = ([], .error r) := by
  simp [wholeValidate, validate_of_error h]

theorem wholeValidate_of_not_instantiated {c : Option (String × JsValue)}
    (h : candidate J v e = .ok c) (hinst : ¬ Instantiates J copy allowed v s.classes e)
    (answer : Validation) : wholeValidate J copy allowed v s t e answer =
      ([notInstantiated v e], .error (.notAllowedEventError allowed.keys)) := by
  have hnone := Option.not_isSome_iff_eq_none.mp hinst
  rw [askedOf_of_ok h, Option.map_eq_none_iff] at hnone
  obtain ⟨hres, hhook⟩ := tryToInstantiateEvent_none (notInstantiated v e) hnone
  simp [wholeValidate, validate_of_ok h, hres, hhook, Except.map]

theorem wholeValidate_of_instance (h : Instantiates J copy allowed v s.classes e)
    (answer : Validation) : wholeValidate J copy allowed v s t e answer =
      ((report J v t e answer).1.invalidEventHook.drop t.invalidEventHook.length,
        (report J v t e answer).2) := by
  obtain ⟨o, ho⟩ := Option.isSome_iff_exists.mp h
  obtain ⟨hres, hhook⟩ := validate_of_asked ho
  simp [wholeValidate, hres, hhook]

theorem invalidEventError_iff (errors : List JsValue) (b : Bool) :
    (∃ details, (if b && (J.encode (.arr errors)).isSome then Rejection.invalidEventError errors
        else .typeError) = .invalidEventError details) ↔
      b ∧ (J.encode (.arr errors)).isSome := by
  cases b <;> cases (J.encode (.arr errors)).isSome <;> simp

theorem reportedOnce_of_instance (h : Instantiates J copy allowed v s.classes e)
    (answer : Validation) :
    ReportedOnce J copy allowed v s.classes e (wholeValidate J copy allowed v s t e answer) ↔
      ∃ errors, answer = .ok errors ∧
        (errors ≠ [] → stringifiesEvent J v e ∧ (J.encode (.arr errors)).isSome) := by
  rw [wholeValidate_of_instance h, report_eq]
  rcases answer with err | _ | ⟨x, xs⟩
  · simp [afterClassValidator, ReportedOnce]
  · simp [afterClassValidator, ReportedOnce]
  · have hkind := invalidEventError_iff (J := J) (x :: xs) (stringifiesEvent J v e)
    simp only [afterClassValidator, ReportedOnce, h, if_true, hkind,
      ValidatorState.callInvalidEventHook_invalidEventHook, List.drop_left, true_and]
    simp

theorem reportedOnce_of_no_instance (h : ¬ Instantiates J copy allowed v s.classes e)
    (answer : Validation) :
    ReportedOnce J copy allowed v s.classes e (wholeValidate J copy allowed v s t e answer) ↔
      v = .legacy ∧ ∃ c, candidate J v e = .ok c := by
  cases hc : candidate J v e with
  | error r =>
    rw [wholeValidate_of_error hc]
    simp [ReportedOnce]
  | ok c =>
    rw [wholeValidate_of_not_instantiated hc h]
    simp [ReportedOnce, h, notInstantiated_eq_iff]

/-- A call of `validate` reports what it rejects once, with the delivered event and the error for
it, and does not report what it accepts, exactly where the event is reportable. -/
theorem reported_once_iff (J : JsonText Buffer) (copy : PlainToClassFromExist)
    (allowed : AllowedEvents) (v : Version) (s t : ValidatorState (HookArgument Buffer v))
    (e : ResolvedEvent (Recorded Buffer v)) (answer : Validation) :
    ReportedOnce J copy allowed v s.classes e (wholeValidate J copy allowed v s t e answer) ↔
      Reportable J copy allowed v s.classes e answer := by
  unfold Reportable
  split_ifs with h
  · exact reportedOnce_of_instance h answer
  · exact reportedOnce_of_no_instance h answer

def malformedEvent : ResolvedEvent (Recorded (Option JsValue) .legacy) :=
  ⟨some ⟨"hero-1", exampleId, "Example2Event", none, none⟩⟩

def revisedEvent (type : String) (data : JsValue) :
    ResolvedEvent (Recorded (Option JsValue) .next) :=
  ⟨some ⟨"hero-1", exampleId, type, data, .undefined, some 0⟩⟩

/-- `{"constructor": 5}` -/
def misnamed : JsValue := .literal (Props.empty.set "constructor" (.num 5))

def ExampleReportedOnce (v : Version) (e : ResolvedEvent (Recorded (Option JsValue) v))
    (answer : Validation) : Prop :=
  ReportedOnce .denoted exampleTransformer.plainToClassFromExist exampleEvents v ClassStore.fresh e
    (wholeValidate .denoted exampleTransformer.plainToClassFromExist exampleEvents v .fresh .fresh e
      answer)

/-- Malformed data and data that class-validator refuses to look at are not reported at all, a
type that is not allowed and data that cannot be copied are reported with another argument, and an
invalid event with a revision is rejected with a `TypeError`. -/
theorem rejections_reported_badly :
    ¬ ExampleReportedOnce .legacy malformedEvent (.ok []) ∧
    ¬ ExampleReportedOnce .next (revisedEvent "Example2Event" .null) (exampleRules .null) ∧
    ¬ ExampleReportedOnce .next (revisedEvent "Example9Event" .null) (.ok []) ∧
    ¬ ExampleReportedOnce .next (revisedEvent "Example2Event" misnamed) (.ok []) ∧
    ¬ ExampleReportedOnce .next (revisedEvent "Example1Event" .null) (.ok [.str "id"]) := by
  have hmalformed : wholeValidate .denoted exampleTransformer.plainToClassFromExist exampleEvents
      .legacy .fresh .fresh malformedEvent (.ok []) = ([], .error .syntaxError) := rfl
  have hnull : wholeValidate .denoted exampleTransformer.plainToClassFromExist exampleEvents .next
      .fresh .fresh (revisedEvent "Example2Event" .null) (exampleRules .null) =
        ([], .error .typeError) := rfl
  have hunknown : wholeValidate .denoted exampleTransformer.plainToClassFromExist exampleEvents
      .next .fresh .fresh (revisedEvent "Example9Event" .null) (.ok []) =
        ([.recorded (revisedEvent "Example9Event" .null).event],
          .error (.notAllowedEventError exampleEvents.keys)) := rfl
  have hmisnamed : wholeValidate .denoted exampleTransformer.plainToClassFromExist exampleEvents
      .next .fresh .fresh (revisedEvent "Example2Event" misnamed) (.ok []) =
        ([.recorded (revisedEvent "Example2Event" misnamed).event],
          .error (.notAllowedEventError exampleEvents.keys)) := rfl
  have hrevised : wholeValidate .denoted exampleTransformer.plainToClassFromExist exampleEvents
      .next .fresh .fresh (revisedEvent "Example1Event" .null) (.ok [.str "id"]) =
        ([.resolved (revisedEvent "Example1Event" .null)], .error .typeError) := rfl
  have hinst : Instantiates .denoted exampleTransformer.plainToClassFromExist exampleEvents .next
      ClassStore.fresh (revisedEvent "Example1Event" .null) := rfl
  refine ⟨?_, ?_, ?_, ?_, ?_⟩
  · rw [ExampleReportedOnce, hmalformed]
    exact fun h => nomatch h.1
  · rw [ExampleReportedOnce, hnull]
    exact fun h => nomatch h.1
  · rw [ExampleReportedOnce, hunknown]
    exact fun h => nomatch h.1
  · rw [ExampleReportedOnce, hmisnamed]
    exact fun h => nomatch h.1
  · rw [ExampleReportedOnce, hrevised]
    simp [ReportedOnce, hinst]

end Interconnect
