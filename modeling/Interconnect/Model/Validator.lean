import Interconnect.Js.ClassTransformer
import Interconnect.Model.Formatter

/-! The two validators. The map of allowed events is an object literal whose values are
classes; instances are copied into the class registered for their type, which lives as long
as the service, and class-validator is given what that class then holds under `data`. -/

namespace Interconnect

open JsValue

/-- What looking a property up can give, as far as `new` can tell. -/
inductive Property
  | undefined
  | notConstructor
  | constructible (c : ClassRef)

/-- `new` accepts `Object`, and refuses every other member. -/
def objectPrototype (key : String) : Property :=
  if key = "constructor" then .constructible .object
  else if key ∈ prototypeMembers then .notConstructor
  else .undefined

structure AllowedEvents where
  /-- own keys and their values -/
  entries : List (String × Property)
  /-- own properties of the instance that `new` on a class makes of its argument, `none` where
  the constructor throws -/
  construct : ℕ → JsValue → Option Props

namespace AllowedEvents

variable (allowed : AllowedEvents)

def keys : List String := allowed.entries.map (·.1)

/-- `allowedEvents[key]`: own keys first, then what object literals inherit. -/
def get (key : String) : Property := (allowed.entries.lookup key).getD (objectPrototype key)

def IsOwnKey (key : String) : Prop := (allowed.entries.lookup key).isSome

instance (key : String) : Decidable (allowed.IsOwnKey key) :=
  inferInstanceAs (Decidable (_ = true))

/-- `new c(data)`. On `Object` it gives the object it is passed, or one with the own keys of
the wrapped value. -/
def new : ClassRef → JsValue → Option Props
  | .object, data => some (spread data)
  | .user n, data => allowed.construct n data

/-- `new allowedEvents[type](data)`, with the class it was made from; `none` where it throws. -/
def instantiate (type : String) (data : JsValue) : Option (ClassRef × Props) :=
  match allowed.get type with
  | .constructible c => (allowed.new c data).map fun instance' => (c, instance')
  | _ => none

end AllowedEvents

abbrev ClassStore := ClassRef → Props

def ClassStore.fresh : ClassStore := fun _ => Props.empty

/-- What a validator service changes: the classes it was given, and the calls it makes to
`invalidEventHook`, oldest first. -/
structure ValidatorState (Payload : Type) where
  classes : ClassStore
  invalidEventHook : List Payload

namespace ValidatorState

variable {Payload : Type}

def fresh : ValidatorState Payload := ⟨ClassStore.fresh, []⟩

def callInvalidEventHook (s : ValidatorState Payload) (p : Payload) : ValidatorState Payload :=
  { s with invalidEventHook := s.invalidEventHook ++ [p] }

def copyInto (s : ValidatorState Payload) (copy : PlainToClassFromExist) (c : ClassRef)
    (own : Props) : ValidatorState Payload :=
  { s with classes := Function.update s.classes c (copy c (s.classes c) own).1 }

@[simp] theorem callInvalidEventHook_classes (s : ValidatorState Payload) (p : Payload) :
    (s.callInvalidEventHook p).classes = s.classes := rfl

@[simp] theorem callInvalidEventHook_invalidEventHook (s : ValidatorState Payload) (p : Payload) :
    (s.callInvalidEventHook p).invalidEventHook = s.invalidEventHook ++ [p] := rfl

@[simp] theorem copyInto_invalidEventHook (s : ValidatorState Payload)
    (copy : PlainToClassFromExist) (c : ClassRef) (own : Props) :
    (s.copyInto copy c own).invalidEventHook = s.invalidEventHook := rfl

@[simp] theorem copyInto_classes (s : ValidatorState Payload) (copy : PlainToClassFromExist)
    (c : ClassRef) (own : Props) : (s.copyInto copy c own).classes =
      Function.update s.classes c (copy c (s.classes c) own).1 := rfl

end ValidatorState

variable {Buffer Payload : Type}

/-- `tryToInstantiateEvent` of both validators. `candidate` is the type and data read from the
event, `none` where reading them throws; every failure is caught, also that of the copy into the
class. -/
def tryToInstantiateEvent (copy : PlainToClassFromExist) (allowed : AllowedEvents)
    (s : ValidatorState Payload) (payload : Payload) (candidate : Option (String × JsValue)) :
    ValidatorState Payload × Except Rejection Props :=
  match candidate.bind fun x => allowed.instantiate x.1 x.2 with
  | none => (s.callInvalidEventHook payload, .error (.notAllowedEventError allowed.keys))
  | some (c, own) =>
    if (copy c (s.classes c) own).2 then
      ((s.copyInto copy c own).callInvalidEventHook payload,
        .error (.notAllowedEventError allowed.keys))
    else (s.copyInto copy c own, .ok ((s.copyInto copy c own).classes c))

/-- What becomes of an event whose type and data have been read: what its class then holds, and
`none` where it could not be turned into an instance. -/
def copied (copy : PlainToClassFromExist) (allowed : AllowedEvents) (classes : ClassStore)
    (candidate : Option (String × JsValue)) : Option Props :=
  (candidate.bind fun x => allowed.instantiate x.1 x.2).bind fun x =>
    if (copy x.1 (classes x.1) x.2).2 then none else some (copy x.1 (classes x.1) x.2).1

section

variable {copy : PlainToClassFromExist} {allowed : AllowedEvents} {s : ValidatorState Payload}
  {payload : Payload} {x : Option (String × JsValue)}

theorem tryToInstantiateEvent_some (payload : Payload) {held : Props}
    (h : copied copy allowed s.classes x = some held) :
    (tryToInstantiateEvent copy allowed s payload x).2 = .ok held ∧
      (tryToInstantiateEvent copy allowed s payload x).1.invalidEventHook = s.invalidEventHook := by
  obtain ⟨⟨c, own⟩, hx, h⟩ := Option.bind_eq_some_iff.mp h
  split_ifs at h with ht
  cases h
  simp [tryToInstantiateEvent, hx, ht]

theorem tryToInstantiateEvent_none (payload : Payload)
    (h : copied copy allowed s.classes x = none) :
    (tryToInstantiateEvent copy allowed s payload x).2 =
        .error (.notAllowedEventError allowed.keys) ∧
      (tryToInstantiateEvent copy allowed s payload x).1.invalidEventHook =
        s.invalidEventHook ++ [payload] := by
  unfold copied at h
  unfold tryToInstantiateEvent
  cases hx : x.bind fun x => allowed.instantiate x.1 x.2 with
  | none => exact ⟨rfl, rfl⟩
  | some y =>
    rw [hx, Option.bind_some] at h
    split_ifs at h with ht
    simp [ht]

theorem tryToInstantiateEvent_classes :
    (tryToInstantiateEvent copy allowed s payload x).1.classes =
      match x.bind fun x => allowed.instantiate x.1 x.2 with
      | none => s.classes
      | some (c, own) => Function.update s.classes c (copy c (s.classes c) own).1 := by
  unfold tryToInstantiateEvent
  cases x.bind fun x => allowed.instantiate x.1 x.2 with
  | none => rfl
  | some y =>
    dsimp only
    split_ifs <;> rfl

end

abbrev Validation := Except Rejection (List JsValue)

/-- The rest of `validate` in both validators, once class-validator has answered.
`stringifies` tells whether `JSON.stringify` of the event succeeds. -/
def afterClassValidator (J : JsonText Buffer) (s : ValidatorState Payload) (payload : Payload)
    (stringifies : Bool) : Validation → ValidatorState Payload × Except Rejection Unit
  | .error r => (s, .error r)
  | .ok [] => (s, .ok ())
  | .ok concatErrors =>
    (s.callInvalidEventHook payload,
      .error (if stringifies && (J.encode (.arr concatErrors)).isSome
        then .invalidEventError concatErrors else .typeError))

namespace LegacyEventsValidatorService

/-- `validate` up to the object it gives class-validator. -/
def validate (J : JsonText Buffer) (copy : PlainToClassFromExist) (allowed : AllowedEvents)
    (s : ValidatorState (ResolvedEvent (LegacyRecordedEvent Buffer)))
    (eventAsPayload : ResolvedEvent (LegacyRecordedEvent Buffer)) :
    ValidatorState (ResolvedEvent (LegacyRecordedEvent Buffer)) × Except Rejection JsValue :=
  match eventAsPayload.event with
  | none => (s, .error .typeError)
  | some event =>
    match J.parse event.data with
    | none => (s, .error .syntaxError)
    | some datas =>
      let r := tryToInstantiateEvent copy allowed s eventAsPayload (some (event.eventType, datas))
      (r.1, r.2.map fun eventInstance => eventInstance.get "data")

def report (J : JsonText Buffer)
    (s : ValidatorState (ResolvedEvent (LegacyRecordedEvent Buffer)))
    (eventAsPayload : ResolvedEvent (LegacyRecordedEvent Buffer)) (answer : Validation) :
    ValidatorState (ResolvedEvent (LegacyRecordedEvent Buffer)) × Except Rejection Unit :=
  afterClassValidator J s eventAsPayload true answer

end LegacyEventsValidatorService

/-- The next validator calls the hook with the delivered event when the data is invalid, but
with its inner `event` when it could not be instantiated. -/
inductive NextPayload
  | resolved (event : ResolvedEvent NextRecordedEvent)
  | recorded (event : Option NextRecordedEvent)

namespace NextEventsValidatorService

def validate (copy : PlainToClassFromExist) (allowed : AllowedEvents)
    (s : ValidatorState NextPayload) (event : ResolvedEvent NextRecordedEvent) :
    ValidatorState NextPayload × Except Rejection JsValue :=
  let r := tryToInstantiateEvent copy allowed s (.recorded event.event)
    (event.event.map fun event => (event.type, event.data))
  (r.1, r.2.map fun eventInstance => eventInstance.get "data")

def stringifiesMember (J : JsonText Buffer) : JsValue → Bool
  | .undefined => true
  | v => (J.encode v).isSome

/-- `JSON.stringify(event)` throws where the event carries a BigInt, or data or metadata that
cannot be written. -/
def stringifies (J : JsonText Buffer) (event : ResolvedEvent NextRecordedEvent) : Bool :=
  match event.event with
  | none => true
  | some event => event.revision.isNone && stringifiesMember J event.data &&
      stringifiesMember J event.metadata

def report (J : JsonText Buffer) (s : ValidatorState NextPayload)
    (event : ResolvedEvent NextRecordedEvent) (answer : Validation) :
    ValidatorState NextPayload × Except Rejection Unit :=
  afterClassValidator J s (.resolved event) (stringifies J event) answer

end NextEventsValidatorService

/-- The arguments the validator of a version gives `invalidEventHook`. -/
abbrev HookArgument (Buffer : Type) : Version → Type
  | .legacy => ResolvedEvent (LegacyRecordedEvent Buffer)
  | .next => NextPayload

/-- `validate` of the validator that `ReaderModule` provides for a source of the given version,
up to the object it gives class-validator. -/
def validate (J : JsonText Buffer) (copy : PlainToClassFromExist) (allowed : AllowedEvents) :
    (v : Version) → ValidatorState (HookArgument Buffer v) → ResolvedEvent (Recorded Buffer v) →
      ValidatorState (HookArgument Buffer v) × Except Rejection JsValue
  | .legacy => LegacyEventsValidatorService.validate J copy allowed
  | .next => NextEventsValidatorService.validate copy allowed

def report (J : JsonText Buffer) :
    (v : Version) → ValidatorState (HookArgument Buffer v) → ResolvedEvent (Recorded Buffer v) →
      Validation → ValidatorState (HookArgument Buffer v) × Except Rejection Unit
  | .legacy => LegacyEventsValidatorService.report J
  | .next => NextEventsValidatorService.report J

/-- The type and data that a validator reads from an event: an error where reading them throws
before the instantiation is tried, `none` where it throws inside it. -/
def candidate (J : JsonText Buffer) :
    (v : Version) → ResolvedEvent (Recorded Buffer v) → Except Rejection (Option (String × JsValue))
  | .legacy, e =>
    match e.event with
    | none => .error .typeError
    | some event =>
      match J.parse event.data with
      | none => .error .syntaxError
      | some datas => .ok (some (event.eventType, datas))
  | .next, e => .ok (e.event.map fun event => (event.type, event.data))

def notInstantiated : (v : Version) → ResolvedEvent (Recorded Buffer v) → HookArgument Buffer v
  | .legacy, e => e
  | .next, e => .recorded e.event

section

variable {J : JsonText Buffer} {copy : PlainToClassFromExist} {allowed : AllowedEvents}
  {v : Version}
  {s : ValidatorState (HookArgument Buffer v)} {e : ResolvedEvent (Recorded Buffer v)}

theorem validate_of_error {r : Rejection} (h : candidate J v e = .error r) :
    validate J copy allowed v s e = (s, .error r) := by
  obtain ⟨event⟩ := e
  cases v with
  | legacy =>
    cases event with
    | none =>
      cases h
      rfl
    | some event =>
      simp only [candidate] at h
      simp only [validate, LegacyEventsValidatorService.validate]
      cases hp : J.parse event.data with
      | none =>
        rw [hp] at h
        cases h
        rfl
      | some d =>
        rw [hp] at h
        cases h
  | next => cases h

theorem validate_of_ok {c : Option (String × JsValue)} (h : candidate J v e = .ok c) :
    validate J copy allowed v s e =
      ((tryToInstantiateEvent copy allowed s (notInstantiated v e) c).1,
        (tryToInstantiateEvent copy allowed s (notInstantiated v e) c).2.map
          fun eventInstance => eventInstance.get "data") := by
  obtain ⟨event⟩ := e
  cases v with
  | legacy =>
    cases event with
    | none => cases h
    | some event =>
      simp only [candidate] at h
      simp only [validate, LegacyEventsValidatorService.validate]
      cases hp : J.parse event.data with
      | none =>
        rw [hp] at h
        cases h
      | some d =>
        rw [hp] at h
        cases h
        rfl
  | next =>
    cases h
    rfl

end

/-- The class and the instance that an event is turned into, where it can be. -/
def instanceOf (J : JsonText Buffer) (allowed : AllowedEvents) (v : Version)
    (e : ResolvedEvent (Recorded Buffer v)) : Option (ClassRef × Props) :=
  match candidate J v e with
  | .error _ => none
  | .ok c => c.bind fun x => allowed.instantiate x.1 x.2

/-- What class-validator is asked about when the classes hold `classes`: what the class of the event
then holds under `data`, and nothing where the event is refused at once. -/
def askedOf (J : JsonText Buffer) (copy : PlainToClassFromExist) (allowed : AllowedEvents)
    (v : Version) (classes : ClassStore) (e : ResolvedEvent (Recorded Buffer v)) : Option JsValue :=
  (instanceOf J allowed v e).bind fun x =>
    if (copy x.1 (classes x.1) x.2).2 then none
    else some ((copy x.1 (classes x.1) x.2).1.get "data")

section

variable {J : JsonText Buffer} {copy : PlainToClassFromExist} {allowed : AllowedEvents}
  {v : Version} {s : ValidatorState (HookArgument Buffer v)} {e : ResolvedEvent (Recorded Buffer v)}

theorem instanceOf_of_asked {classes : ClassStore}
    (h : (askedOf J copy allowed v classes e).isSome) : (instanceOf J allowed v e).isSome :=
  Option.isSome_of_isSome_bind h

theorem askedOf_of_ok {classes : ClassStore} {c : Option (String × JsValue)}
    (h : candidate J v e = .ok c) : askedOf J copy allowed v classes e =
      (copied copy allowed classes c).map fun held => held.get "data" := by
  simp only [askedOf, instanceOf, h, copied, Option.map_bind]
  congr 1
  funext x
  simp only [Function.comp_apply, apply_ite (Option.map _), Option.map_none, Option.map_some]

theorem validate_classes : (validate J copy allowed v s e).1.classes =
    match instanceOf J allowed v e with
    | none => s.classes
    | some (c, own) => Function.update s.classes c (copy c (s.classes c) own).1 := by
  unfold instanceOf
  cases hc : candidate J v e with
  | error r => rw [validate_of_error hc]
  | ok x => rw [validate_of_ok hc, tryToInstantiateEvent_classes]

theorem validate_of_asked {o : JsValue} (h : askedOf J copy allowed v s.classes e = some o) :
    (validate J copy allowed v s e).2 = .ok o ∧
      (validate J copy allowed v s e).1.invalidEventHook = s.invalidEventHook := by
  cases hc : candidate J v e with
  | error r => simp [askedOf, instanceOf, hc] at h
  | ok x =>
    rw [askedOf_of_ok hc] at h
    obtain ⟨held, hheld, rfl⟩ := Option.map_eq_some_iff.mp h
    obtain ⟨hres, hhook⟩ := tryToInstantiateEvent_some (notInstantiated v e) hheld
    rw [validate_of_ok hc, hres]
    exact ⟨rfl, hhook⟩

theorem validate_of_not_asked (h : askedOf J copy allowed v s.classes e = none) :
    ∃ r, (validate J copy allowed v s e).2 = .error r := by
  cases hc : candidate J v e with
  | error r =>
    rw [validate_of_error hc]
    exact ⟨r, rfl⟩
  | ok x =>
    rw [askedOf_of_ok hc, Option.map_eq_none_iff] at h
    rw [validate_of_ok hc, (tryToInstantiateEvent_none _ h).1]
    exact ⟨_, rfl⟩

theorem format_of_instance (h : (instanceOf J allowed v e).isSome) : ∃ f, format J v e = .ok f := by
  obtain ⟨event⟩ := e
  unfold instanceOf at h
  cases v with
  | legacy =>
    cases event with
    | none => cases h
    | some event =>
      simp only [candidate] at h
      simp only [format, LegacyEventFormatterService.format]
      cases hp : J.parse event.data with
      | none =>
        rw [hp] at h
        cases h
      | some data => exact ⟨_, rfl⟩
  | next =>
    cases event with
    | none => cases h
    | some event => exact ⟨_, rfl⟩

theorem afterClassValidator_classes {Payload : Type} (s : ValidatorState Payload) (p : Payload)
    (b : Bool) (a : Validation) : (afterClassValidator J s p b a).1.classes = s.classes := by
  unfold afterClassValidator
  split <;> rfl

theorem report_classes (a : Validation) : (report J v s e a).1.classes = s.classes := by
  cases v <;> exact afterClassValidator_classes _ _ _ _

theorem report_ok_iff (a : Validation) : (report J v s e a).2 = .ok () ↔ a = .ok [] := by
  have key : ∀ {Payload : Type} (s : ValidatorState Payload) (p : Payload) (b : Bool),
      (afterClassValidator J s p b a).2 = .ok () ↔ a = .ok [] := by
    intro Payload s p b
    unfold afterClassValidator
    split <;> simp_all
  cases v <;> exact key _ _ _

end

end Interconnect
