import Interconnect.Model.Example
import Interconnect.Model.ValidateCall

/-! What earlier events do to the verdict on a later one. Instances are copied into the class
registered for their type, so a class holds the data of all events of its type merged; an event
is judged on its own data exactly where its data covers what its class holds. -/

namespace Interconnect

open Runs Pools

variable {Buffer : Type} (J : JsonText Buffer) (copy : PlainToClassFromExist)
  (allowed : AllowedEvents) (v : Version)

def verdict (rules : JsValue → Validation) (s : ValidatorState (HookArgument Buffer v))
    (e : ResolvedEvent (Recorded Buffer v)) : Except Rejection Unit :=
  match validate J copy allowed v s e with
  | (_, .error r) => .error r
  | (s', .ok o) => (report J v s' e (rules o)).2

/-- `validate(e)` ends the same way on `s` as on a service that has seen no event, whatever
the rules of class-validator are. -/
def HistoryIndependent (s : ValidatorState (HookArgument Buffer v))
    (e : ResolvedEvent (Recorded Buffer v)) : Prop :=
  ∀ rules, verdict J copy allowed v rules s e = .ok () ↔
    verdict J copy allowed v rules ValidatorState.fresh e = .ok ()

def called {New Act Env : Type} (as : List (Label New Act Env)) : List New :=
  as.filterMap fun
    | .start e => some e
    | _ => none

def copiedInto (c : ClassRef) (es : List (ResolvedEvent (Recorded Buffer v))) : Props :=
  es.foldl (fun held e =>
    match instanceOf J allowed v e with
    | some (c', own) => if c = c' then (copy c held own).1 else held
    | none => held) Props.empty

variable {J copy allowed v}

theorem start_copies (s : ValidatorState (HookArgument Buffer v))
    (e : ResolvedEvent (Recorded Buffer v)) (c : ClassRef) :
    (ValidateCall.start J copy allowed v s e).1.classes c =
      match instanceOf J allowed v e with
      | some (c', own) => if c = c' then (copy c (s.classes c) own).1 else s.classes c
      | none => s.classes c := by
  rw [ValidateCall.start_classes]
  cases h : instanceOf J allowed v e with
  | none => rfl
  | some x =>
    obtain ⟨c', own⟩ := x
    by_cases hc : c = c'
    · subst hc
      simp
    · simp [hc]

theorem copiedInto_concat (c : ClassRef) (es : List (ResolvedEvent (Recorded Buffer v)))
    (e : ResolvedEvent (Recorded Buffer v)) :
    copiedInto J copy allowed v c (es ++ [e]) =
      match instanceOf J allowed v e with
      | some (c', own) =>
        if c = c' then (copy c (copiedInto J copy allowed v c es) own).1
        else copiedInto J copy allowed v c es
      | none => copiedInto J copy allowed v c es := by
  rw [copiedInto, List.foldl_append]
  rfl

theorem classes_eq_copiedInto
    {as : List (Label (ResolvedEvent (Recorded Buffer v)) Validation Empty)}
    {s : State (ValidatorState (HookArgument Buffer v))
      (ValidateCall (ResolvedEvent (Recorded Buffer v)))}
    (h : Run (Steps (next (validations J copy allowed v))) (State.init ValidatorState.fresh) as s)
    (c : ClassRef) : s.shared.classes c = copiedInto J copy allowed v c (called as) := by
  induction h with
  | nil => rfl
  | @snoc as s s' a _ hs ih =>
    cases a with
    | start e =>
      obtain ⟨call, hcall, -⟩ := next_start hs
      have hcalled : called (as ++ [Label.start e]) = called as ++ [e] := by
        simp [called]
      have hs' : s'.shared = (ValidateCall.start J copy allowed v s.shared e).1 :=
        congrArg Prod.fst (Option.some.inj hcall).symm
      rw [hs', start_copies, hcalled, copiedInto_concat, ih]
    | act i a =>
      obtain ⟨call, call', -, hcall⟩ := next_act hs
      have hcalled : called (as ++ [Label.act i a]) = called as := by
        simp [called]
      obtain ⟨-, hs', -⟩ := ValidateCall.classValidatorAnswers_eq hcall
      rw [hs', report_classes, hcalled, ih]
    | env e => exact nomatch e

theorem verdict_iff {rules : JsValue → Validation} {s : ValidatorState (HookArgument Buffer v)}
    {e : ResolvedEvent (Recorded Buffer v)} : verdict J copy allowed v rules s e = .ok () ↔
      ∃ o, askedOf J copy allowed v s.classes e = some o ∧ rules o = .ok [] := by
  rw [verdict]
  cases h : askedOf J copy allowed v s.classes e with
  | none =>
    obtain ⟨r, hr⟩ := validate_of_not_asked h
    generalize validate J copy allowed v s e = x at hr
    obtain ⟨s', o⟩ := x
    cases hr
    simp
  | some o =>
    obtain ⟨ho, -⟩ := validate_of_asked h
    generalize validate J copy allowed v s e = x at ho
    obtain ⟨s', r⟩ := x
    cases ho
    simp [report_ok_iff]

noncomputable def acceptOnly (x y : JsValue) : Validation :=
  open Classical in if y = x then .ok [] else .error .typeError

theorem acceptOnly_iff (x y : JsValue) : acceptOnly x y = .ok [] ↔ y = x := by
  unfold acceptOnly
  split_ifs with h <;> simp [h]

/-- The rules that accept a single value tell any two objects apart. -/
theorem historyIndependent_iff_asked (s : ValidatorState (HookArgument Buffer v))
    (e : ResolvedEvent (Recorded Buffer v)) : HistoryIndependent J copy allowed v s e ↔
      askedOf J copy allowed v s.classes e = askedOf J copy allowed v ClassStore.fresh e := by
  have hfresh : (ValidatorState.fresh : ValidatorState (HookArgument Buffer v)).classes =
      ClassStore.fresh := rfl
  refine ⟨fun h => Option.ext fun o => ?_, fun h rules => ?_⟩
  · have hrules := h (acceptOnly o)
    simpa only [verdict_iff, acceptOnly_iff, exists_eq_right, hfresh] using hrules
  · rw [verdict_iff, verdict_iff, hfresh, h]

variable {ct : ClassTransformer}

/-- The data of an instance covers what its class holds under `data`; an instance without
data must find nothing there. -/
def DataCovers (ct : ClassTransformer) (c : ClassRef) (own held : Props) : Prop :=
  match own "data" with
  | none => held.get "data" = .undefined
  | some d => Covers ct (c, ["data"]) d (held.get "data")

theorem copied_eq_copyData_iff {c : ClassRef} {held own : Props}
    (h : (ct.plainToClassFromExist c held own).2 = false) :
    (ct.plainToClassFromExist c held own).1.get "data" = ct.copyData c own ↔
      DataCovers ct c own held := by
  unfold DataCovers Props.get ClassTransformer.copyData
  rw [ct.assigns c held own h]
  cases hown : own "data" with
  | none =>
    rw [assign_none hown]
    rfl
  | some d =>
    rw [assign_some hown rfl]
    exact ct.transform_eq_iff _ d _

/-- What an instance is judged on does not depend on what its class holds: it can be copied into it
just as into an empty one, and then its data covers what the class holds. -/
def OwnDataDecides (ct : ClassTransformer) (c : ClassRef) (own held : Props) : Prop :=
  (ct.plainToClassFromExist c held own).2 = (ct.plainToClassFromExist c Props.empty own).2 ∧
    ((ct.plainToClassFromExist c Props.empty own).2 = false → DataCovers ct c own held)

theorem asked_eq_fresh_iff {classes : ClassStore} {e : ResolvedEvent (Recorded Buffer v)} :
    askedOf J ct.plainToClassFromExist allowed v classes e =
        askedOf J ct.plainToClassFromExist allowed v ClassStore.fresh e ↔
      ∀ c own, instanceOf J allowed v e = some (c, own) → OwnDataDecides ct c own (classes c) := by
  unfold askedOf
  cases hinst : instanceOf J allowed v e with
  | none => simp
  | some x =>
    obtain ⟨c, own⟩ := x
    have hone : (∀ c' own', some (c, own) = some (c', own') →
        OwnDataDecides ct c' own' (classes c')) ↔ OwnDataDecides ct c own (classes c) :=
      ⟨fun h => h c own rfl, fun h _ _ he => by cases he; exact h⟩
    rw [hone, OwnDataDecides]
    change (if (ct.plainToClassFromExist c (classes c) own).2 then _ else _) =
      (if (ct.plainToClassFromExist c Props.empty own).2 then _ else _) ↔ _
    by_cases hheld : (ct.plainToClassFromExist c (classes c) own).2 = true <;>
      by_cases hfresh : (ct.plainToClassFromExist c Props.empty own).2 = true <;>
      simp [hheld, hfresh, ClassStore.fresh, ct.copyData_eq, copied_eq_copyData_iff]

/-- The validator service of the example application. -/
abbrev exampleValidations (v : Version) :=
  validations JsonText.denoted exampleTransformer.plainToClassFromExist exampleEvents v

abbrev ExampleIndependent (v : Version) :=
  HistoryIndependent JsonText.denoted exampleTransformer.plainToClassFromExist exampleEvents v

def validData : Props :=
  ((Props.empty.set "id" (.str "a")).set "isOk" (.bool true)).set
    "nestor" (.literal (Props.empty.set "isNestor" (.bool true)))

/-- An event that has been accepted supplies the fields that a later one lacks. -/
theorem accepted_event_supplies_fields (v : Version) :
    ∃ s, exec (next (exampleValidations v)) (State.init ValidatorState.fresh)
        [.start (delivered "Example1Event" (.literal validData) v), .act 0 (.ok [])] = some s ∧
      ¬ ExampleIndependent v s.shared (delivered "Example1Event" (.literal Props.empty) v) := by
  cases v <;> exact ⟨_, rfl, fun h => nomatch (h exampleRules).mp rfl⟩

/-- The bad field of an event that has been rejected makes a later, valid one be rejected. -/
theorem rejected_event_leaves_bad_field (v : Version) :
    ∃ s, exec (next (exampleValidations v)) (State.init ValidatorState.fresh)
        [.start (delivered "Example1Event"
            (.literal (validData.set "extendedParam" (.bool true))) v),
          .act 0 (.ok [.str "extendedParam"])] = some s ∧
      ¬ ExampleIndependent v s.shared (delivered "Example1Event" (.literal validData) v) := by
  cases v <;> exact ⟨_, rfl, fun h => nomatch (h exampleRules).mpr rfl⟩

end Interconnect
