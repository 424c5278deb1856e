import Interconnect.Model.Interconnection

/-! The example application: two of its event classes with the rules their decorators state, a
configuration with one subscription, and a delivery on it. -/

namespace Interconnect

open JsValue

/-- `Example1Event` wraps its argument in a `ValidableDatasDto`, `Example2Event` keeps it. -/
def exampleEvents : AllowedEvents where
  entries := [("Example1Event", .constructible (.user 1)),
    ("Example2Event", .constructible (.user 2))]
  construct
    | 1, data => some (Props.empty.set "data" (.obj "ValidableDatasDto" (spread data)))
    | 2, data => some (Props.empty.set "data" data)
    | _, _ => none

def exampleTypes : Place → Option String
  | (.user 1, ["data"]) => some "ValidableDatasDto"
  | (.user 1, ["nestor", "data"]) => some "Nestor"
  | _ => none

def exampleTransformer : ClassTransformer := .documented exampleTypes

def isString : JsValue → Bool
  | .str _ => true
  | .illFormed _ => true
  | _ => false

def isBoolean : JsValue → Bool
  | .bool _ => true
  | _ => false

def isOptional : JsValue → Bool
  | .undefined => true
  | .null => true
  | _ => false

mutual

/-- `@ValidateNested() nestor: Nestor`, which looks into arrays and passes over what is missing. -/
def nestorIsValid : JsValue → Bool
  | .undefined => true
  | .null => true
  | .arr xs => nestorsAreValid xs
  | .obj "Nestor" p => isBoolean (Props.get p "isNestor")
  | .obj _ _ => true
  | _ => false
termination_by structural v => v

def nestorsAreValid : List JsValue → Bool
  | [] => true
  | x :: xs => nestorIsValid x && nestorsAreValid xs
termination_by structural xs => xs

end

/-- class-validator on the decorators of `ValidableDatasDto`: the names of the bad fields. An
object of any other class has no rules; a string is taken for the name of a schema. -/
def exampleRules : JsValue → Validation
  | .undefined => .error .typeError
  | .null => .error .typeError
  | .str _ => .error .typeError
  | .illFormed _ => .error .typeError
  | .obj "ValidableDatasDto" p => .ok <|
      (if isString (Props.get p "id") then [] else [.str "id"]) ++
      (if isOptional (Props.get p "extendedParam") || isString (Props.get p "extendedParam") then []
        else [.str "extendedParam"]) ++
      (if isBoolean (Props.get p "isOk") then [] else [.str "isOk"]) ++
      (if nestorIsValid (Props.get p "nestor") then [] else [.str "nestor"])
  | _ => .ok []

def exampleId : String := "c63faa52-4a6f-4aa5-9b0d-1b6f3e0a9d01"

def delivered (type : String) (data : JsValue) :
    (v : Version) → ResolvedEvent (Recorded (Option JsValue) v)
  | .legacy => ⟨some ⟨"hero-1", exampleId, type, some data, none⟩⟩
  | .next => ⟨some ⟨"hero-1", exampleId, type, data, .undefined, none⟩⟩

/-- Data that both drivers can write. -/
def exampleData : JsValue := .literal (Props.empty.set "power" (.num 1))

def exampleFactory : EventDataFactory JsonText.denoted := .documented .denoted

def exampleConfiguration : Configuration (Option JsValue) where
  json := .denoted
  eventDataFactory := exampleFactory
  classTransformer := exampleTransformer
  allowedEvents := exampleEvents
  safetyNet := DefaultSafetyNetService
  eventWriterTimeout := 5000
  subscriptions := 1

def exampleFeed (type : String) (data : JsValue) (v : Version) : Feed (Option JsValue) v
  | 0, 0 => some (delivered type data v)
  | _, _ => none

theorem exampleFeed_eq {type : String} {data : JsValue} {v : Version} {q n : ℕ}
    {e : ResolvedEvent (Recorded (Option JsValue) v)} (h : exampleFeed type data v q n = some e) :
    e = delivered type data v := by
  unfold exampleFeed at h
  split at h
  · exact (Option.some.inj h).symm
  · cases h

def arrival (type : String) (data : JsValue) (v : Version) : Arrival (Option JsValue) v :=
  ⟨0, delivered type data v, false⟩

end Interconnect
