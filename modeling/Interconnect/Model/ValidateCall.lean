import Interconnect.Lib.Pool
import Interconnect.Model.Validator

/-! Calls of `validate` that run concurrently on one service. A call reads and writes the
service up to the point where it asks class-validator; the answer may come at any later time,
or never. -/

namespace Interconnect

open Pools

variable {Buffer : Type}

structure ValidateCall (Event : Type) where
  event : Event
  /-- the object given to class-validator -/
  asked : Option JsValue
  answer : Option Validation
  outcome : Promise

namespace ValidateCall

def start (J : JsonText Buffer) (copy : PlainToClassFromExist) (allowed : AllowedEvents)
    (v : Version) (s : ValidatorState (HookArgument Buffer v))
    (e : ResolvedEvent (Recorded Buffer v)) :
    ValidatorState (HookArgument Buffer v) × ValidateCall (ResolvedEvent (Recorded Buffer v)) :=
  match validate J copy allowed v s e with
  | (s', .error r) => (s', ⟨e, none, none, .rejected r⟩)
  | (s', .ok o) => (s', ⟨e, some o, none, .pending⟩)

def classValidatorAnswers (J : JsonText Buffer) (v : Version)
    (s : ValidatorState (HookArgument Buffer v))
    (c : ValidateCall (ResolvedEvent (Recorded Buffer v))) (a : Validation) :
    Option (ValidatorState (HookArgument Buffer v) ×
      ValidateCall (ResolvedEvent (Recorded Buffer v))) :=
  if c.outcome.isPending then
    let r := report J v s c.event a
    some (r.1, { c with answer := some a, outcome := .ofExcept r.2 })
  else none

section

variable {J : JsonText Buffer} {copy : PlainToClassFromExist} {allowed : AllowedEvents}
  {v : Version} {s : ValidatorState (HookArgument Buffer v)} {e : ResolvedEvent (Recorded Buffer v)}

theorem start_state : (start J copy allowed v s e).1 = (validate J copy allowed v s e).1 := by
  unfold start
  split <;> simp_all

theorem start_of_ok {o : JsValue} (h : (validate J copy allowed v s e).2 = .ok o) :
    (start J copy allowed v s e).2 = ⟨e, some o, none, .pending⟩ := by
  unfold start
  split <;> simp_all

theorem start_of_rejected {r : Rejection} (h : (validate J copy allowed v s e).2 = .error r) :
    (start J copy allowed v s e).2 = ⟨e, none, none, .rejected r⟩ := by
  unfold start
  split <;> simp_all

theorem start_classes : (start J copy allowed v s e).1.classes =
    match instanceOf J allowed v e with
    | none => s.classes
    | some (c, own) => Function.update s.classes c (copy c (s.classes c) own).1 := by
  rw [start_state]
  exact validate_classes

theorem start_of_asked {o : JsValue} (h : askedOf J copy allowed v s.classes e = some o) :
    (start J copy allowed v s e).2 = ⟨e, some o, none, .pending⟩ ∧
      (start J copy allowed v s e).1.invalidEventHook = s.invalidEventHook := by
  obtain ⟨ho, hhook⟩ := validate_of_asked h
  rw [start_state]
  exact ⟨start_of_ok ho, hhook⟩

theorem start_of_not_asked (h : askedOf J copy allowed v s.classes e = none) :
    ∃ r, (start J copy allowed v s e).2 = ⟨e, none, none, .rejected r⟩ := by
  obtain ⟨r, hr⟩ := validate_of_not_asked h
  exact ⟨r, start_of_rejected hr⟩

theorem start_asked :
    (start J copy allowed v s e).2.asked = askedOf J copy allowed v s.classes e := by
  cases h : askedOf J copy allowed v s.classes e with
  | none =>
    obtain ⟨r, hr⟩ := start_of_not_asked h
    rw [hr]
  | some o => rw [(start_of_asked h).1]

theorem start_of_error {r : Rejection} (h : candidate J v e = .error r) :
    start J copy allowed v s e = (s, ⟨e, none, none, .rejected r⟩) := by
  rw [start, validate_of_error h]

theorem start_of_not_allowed {x : Option (String × JsValue)} (hc : candidate J v e = .ok x)
    (h : askedOf J copy allowed v s.classes e = none) :
    (start J copy allowed v s e).2 =
        ⟨e, none, none, .rejected (.notAllowedEventError allowed.keys)⟩ ∧
      (start J copy allowed v s e).1.invalidEventHook =
        s.invalidEventHook ++ [notInstantiated v e] := by
  rw [askedOf_of_ok hc, Option.map_eq_none_iff] at h
  obtain ⟨hres, hhook⟩ := tryToInstantiateEvent_none (notInstantiated v e) h
  have hvalidate : validate J copy allowed v s e = _ := validate_of_ok hc
  rw [start_state, hvalidate]
  exact ⟨start_of_rejected (by rw [hvalidate, hres]; rfl), hhook⟩

theorem classValidatorAnswers_eq {c c' : ValidateCall (ResolvedEvent (Recorded Buffer v))}
    {s' : ValidatorState (HookArgument Buffer v)} {a : Validation}
    (h : classValidatorAnswers J v s c a = some (s', c')) :
    c.outcome = .pending ∧ s' = (report J v s c.event a).1 ∧
      c' = { c with answer := some a, outcome := .ofExcept (report J v s c.event a).2 } := by
  obtain ⟨e, asked, answer, outcome⟩ := c
  cases outcome with
  | pending =>
    cases h
    exact ⟨rfl, rfl, rfl⟩
  | fulfilled => cases h
  | rejected r => cases h

end

end ValidateCall

/-- The validator service: any number of `validate` calls, and class-validator's answers to
them in any order. -/
def validations (J : JsonText Buffer) (copy : PlainToClassFromExist) (allowed : AllowedEvents)
    (v : Version) : Behaviour (ValidatorState (HookArgument Buffer v))
      (ValidateCall (ResolvedEvent (Recorded Buffer v))) (ResolvedEvent (Recorded Buffer v))
      Validation Empty where
  start s _ e := some (ValidateCall.start J copy allowed v s e)
  step s _ c a := ValidateCall.classValidatorAnswers J v s c a
  env _ e := nomatch e

end Interconnect
