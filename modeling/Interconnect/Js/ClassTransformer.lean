import Interconnect.Js.Value

/-! `plainToClassFromExist` of class-transformer, which copies the own keys of a plain object into
the target and may throw part way. An object that the target already holds under a key is merged
into and keeps the keys the plain object lacks; arrays are merged index by index. Keys that would
hide a method are skipped. -/

namespace Interconnect

open JsValue

/-- A class by identity: two keys of a map may hold the same one. -/
inductive ClassRef
  | object
  | user (n : ℕ)
  deriving DecidableEq, Repr

/-- From a class, what it holds and an instance of it: what the class holds afterwards, and whether
the call throws. -/
abbrev PlainToClassFromExist := ClassRef → Props → Props → Props × Bool

/-- A property by the class it is declared in and the keys that lead to it, innermost first. -/
abbrev Place := ClassRef × List String

def Place.under (p : Place) (key : String) : Place := (p.1, key :: p.2)

/-- Copies the own keys of `own` over `held`, where `t key h v` is what a key becomes when it
held `h` and is given `v`. -/
def assign (t : String → JsValue → JsValue → JsValue) (skips : String → Bool) (held own : Props) :
    Props := fun key =>
  match own key with
  | none => held key
  | some v => if skips key then held key else some (t key (held.get key) v)

section

variable {t : String → JsValue → JsValue → JsValue} {skips : String → Bool} {held own : Props}
  {key : String}

theorem assign_none (h : own key = none) : assign t skips held own key = held key := by
  simp only [assign, h]

theorem assign_skips (h : skips key = true) : assign t skips held own key = held key := by
  unfold assign
  split <;> simp [h]

theorem assign_some {v : JsValue} (h : own key = some v) (hs : skips key = false) :
    assign t skips held own key = some (t key (held.get key) v) := by
  simp [assign, h, hs]

end

/-- class-transformer on classes that decorate their properties with `@Type` only. -/
structure ClassTransformer where
  plainToClassFromExist : PlainToClassFromExist
  /-- what a property becomes, from the value it holds and the one it is given -/
  transform : Place → JsValue → JsValue → JsValue
  /-- the class of the object that is made for one of the named class where nothing is held -/
  makes : Place → String → String
  /-- what its constructor, called without arguments, gives that object -/
  constructed : Place → String → Props
  /-- the keys that an object of the named class is never given -/
  skips : String → String → Bool
  assigns : ∀ c target plain, (plainToClassFromExist c target plain).2 = false →
    (plainToClassFromExist c target plain).1 "data" =
      assign (fun key => transform (c, [key])) (fun _ => false) target plain "data"
  replaces : ∀ p held v, v.isComposite = false → transform p held v = transform p .undefined v
  elements : ∀ p held xs,
    transform p held (.arr xs) = .arr (xs.mapIdx fun i x => transform p (held.element i) x)
  creates : ∀ p held c own, held.truthy = false → transform p held (.obj c own) = .obj (makes p c)
    (assign (fun key _ => transform (p.under key) .undefined) (skips (makes p c)) (constructed p c)
      own)
  merges : ∀ p c held c' own, transform p (.obj c held) (.obj c' own) =
    .obj c (assign (fun key => transform (p.under key)) (skips c) held own)
  /-- what is neither an object nor nothing is not replaced by an object -/
  keeps : ∀ p held c own, held.truthy = true → held.isObject = false →
    (transform p held (.obj c own)).isObject = false

theorem element_of_not_truthy {held : JsValue} (h : held.truthy = false) (i : ℕ) :
    held.element i = .undefined := by
  cases held with
  | arr => cases h
  | obj => cases h
  | illFormed => cases h
  | str s =>
    have hs : s = "" := by simpa [truthy] using h
    subst hs
    rfl
  | _ => rfl

def skipsMembers (key : String) : Bool := key == "constructor" || prototypeMembers.contains key

mutual

/-- The merge of class-transformer, as a program; `declared` are the types of the properties that
are classes. -/
def merge (declared : Place → Option String) : Place → JsValue → JsValue → JsValue
  | p, held, .arr xs => .arr (mergeElements declared p held 0 xs)
  | p, .obj c held, .obj _ own => .obj c fun key =>
    if skipsMembers key then held key else mergeProp declared (p.under key) (held key) (own key)
  | p, held, .obj c own =>
    if held.truthy then held
    else .obj ((declared p).getD c) fun key =>
      if skipsMembers key then none else mergeProp declared (p.under key) none (own key)
  | _, _, v => v
termination_by structural _ _ v => v

def mergeElements (declared : Place → Option String) (p : Place) (held : JsValue) :
    ℕ → List JsValue → List JsValue
  | _, [] => []
  | i, x :: xs => merge declared p (held.element i) x :: mergeElements declared p held (i + 1) xs
termination_by structural _ xs => xs

def mergeProp (declared : Place → Option String) (p : Place) :
    Option JsValue → Option JsValue → Option JsValue
  | held, none => held
  | held, some v => some (merge declared p (held.getD .undefined) v)
termination_by structural _ v => v

end

section

variable {declared : Place → Option String} {p : Place}

theorem mergeProp_eq (held own : Props) (key : String) :
    (if skipsMembers key then held key
      else mergeProp declared (p.under key) (held key) (own key)) =
      assign (fun key => merge declared (p.under key)) skipsMembers held own key := by
  unfold assign
  cases own key <;> simp [mergeProp, Props.get]

theorem mergeElements_eq (held : JsValue) (i : ℕ) (xs : List JsValue) :
    mergeElements declared p held i xs =
      xs.mapIdx fun j x => merge declared p (held.element (i + j)) x := by
  induction xs generalizing i with
  | nil => rfl
  | cons x xs ih =>
    rw [mergeElements, ih, List.mapIdx_cons]
    simp only [Nat.add_zero, Nat.add_assoc, Nat.add_comm 1]

theorem merge_creates {held : JsValue} (c : String) (own : Props) (h : held.truthy = false) :
    merge declared p held (.obj c own) = .obj ((declared p).getD c)
      (assign (fun key _ => merge declared (p.under key) .undefined) skipsMembers Props.empty
        own) := by
  have hnew : (fun key => if skipsMembers key then none
        else mergeProp declared (p.under key) none (own key)) =
      assign (fun key _ => merge declared (p.under key) .undefined) skipsMembers Props.empty own :=
    funext fun key => mergeProp_eq Props.empty own key
  cases held with
  | arr => cases h
  | obj => cases h
  | _ => simpa [merge, h] using hnew

theorem merge_empty (c : String) :
    merge declared p .undefined (.obj c Props.empty) = .obj ((declared p).getD c) Props.empty := by
  rw [merge_creates c _ rfl]
  exact congrArg _ (funext fun key => assign_none rfl)

end

/-- A plain object that names something other than a class as its constructor. -/
def misnamesClass : JsValue → Bool
  | .obj "Object" p => (Props.get p "constructor").truthy
  | _ => false

/-- class-transformer, as far as it does not throw. Of the data that make it throw, only an object
that misnames its class is told, where no type is declared and nothing is held. -/
def ClassTransformer.documented (declared : Place → Option String) : ClassTransformer where
  plainToClassFromExist c target plain :=
    if (declared (c, ["data"])).isNone && !(Props.get target "data").truthy &&
        misnamesClass (Props.get plain "data") then (target, true)
    else (assign (fun key => merge declared (c, [key])) (fun _ => false) target plain, false)
  transform := merge declared
  makes p c := (declared p).getD c
  constructed _ _ := Props.empty
  skips _ := skipsMembers
  assigns c target plain h := by
    split_ifs at h ⊢
    rfl
  replaces p held v h := by
    cases v with
    | arr => cases h
    | obj => cases h
    | _ => cases held <;> rfl
  elements p held xs := by
    rw [merge, mergeElements_eq]
    simp only [Nat.zero_add]
  creates p held c own h := merge_creates c own h
  merges p c held c' own := by
    rw [merge]
    congr 1
    funext key
    exact mergeProp_eq held own key
  keeps p held c own htruthy hobj := by
    cases held with
    | obj => cases hobj
    | arr => rfl
    | illFormed => rfl
    | _ => simp [merge, htruthy, isObject]

mutual

/-- Given `own`, nothing that `held` holds shows through: at every depth and every index `own` gives
every key that `held` holds and the constructor of the object does not set alike, in objects of the
class that would be made and in place of nothing else. -/
def Covers (ct : ClassTransformer) : Place → JsValue → JsValue → Prop
  | p, .arr xs, held => CoversElements ct p held 0 xs
  | p, .obj c own, .obj c' held => c' = ct.makes p c ∧ ∀ key,
    if ct.skips c' key then held key = ct.constructed p c key
    else CoversProp ct (p.under key) (ct.constructed p c key) (own key) (held key)
  | _, .obj _ _, held => held.truthy = false
  | _, _, _ => True
termination_by structural _ v => v

def CoversElements (ct : ClassTransformer) (p : Place) (held : JsValue) :
    ℕ → List JsValue → Prop
  | _, [] => True
  | i, x :: xs => Covers ct p x (held.element i) ∧ CoversElements ct p held (i + 1) xs
termination_by structural _ xs => xs

def CoversProp (ct : ClassTransformer) (p : Place) (constructed : Option JsValue) :
    Option JsValue → Option JsValue → Prop
  | none, held => held = constructed
  | some v, held => Covers ct p v (held.getD .undefined)
termination_by structural v => v

end

namespace ClassTransformer

variable (ct : ClassTransformer)

def copy (p : Place) (v : JsValue) : JsValue := ct.transform p .undefined v

def copyData (c : ClassRef) (own : Props) : JsValue :=
  (own "data").elim .undefined (ct.copy (c, ["data"]))

theorem copyData_eq {c : ClassRef} {own : Props}
    (h : (ct.plainToClassFromExist c Props.empty own).2 = false) :
    (ct.plainToClassFromExist c Props.empty own).1.get "data" = ct.copyData c own := by
  rw [Props.get, ct.assigns c _ own h, copyData]
  cases hown : own "data" with
  | none => rw [assign_none hown]; rfl
  | some d => rw [assign_some hown rfl]; rfl

theorem copy_arr (p : Place) (xs : List JsValue) :
    ct.copy p (.arr xs) = .arr (xs.mapIdx fun _ => ct.copy p) :=
  ct.elements _ _ _

theorem copy_obj (p : Place) (c : String) (own : Props) : ct.copy p (.obj c own) =
    .obj (ct.makes p c) (assign (fun key _ => ct.copy (p.under key)) (ct.skips (ct.makes p c))
      (ct.constructed p c) own) :=
  ct.creates _ _ _ _ rfl

theorem transform_over_value {p : Place} {held : JsValue} (c : String) (own : Props)
    (hobj : held.isObject = false) :
    ct.transform p held (.obj c own) = ct.copy p (.obj c own) ↔ held.truthy = false := by
  cases ht : held.truthy with
  | true =>
    have hkept := ct.keeps p held c own ht hobj
    refine iff_of_false (fun h => ?_) (by simp)
    rw [h, copy_obj] at hkept
    cases hkept
  | false => exact iff_of_true ((ct.creates p held c own ht).trans (ct.copy_obj p c own).symm) rfl

/-- What is held makes no difference exactly where the given value covers it. -/
theorem transform_eq_iff (p : Place) (v held : JsValue) :
    ct.transform p held v = ct.copy p v ↔ Covers ct p v held := by
  induction v using JsValue.rec
    (motive_2 := fun xs => ∀ (p : Place) (held : JsValue) (i : ℕ),
      xs.mapIdx (fun j x => ct.transform p (held.element (i + j)) x) =
        xs.mapIdx (fun _ => ct.copy p) ↔ CoversElements ct p held i xs)
    (motive_3 := fun v => ∀ (p : Place) (held made own : Props) (key : String)
      (skips : String → Bool), own key = v →
      (assign (fun key => ct.transform (p.under key)) skips held own key =
          assign (fun key _ => ct.copy (p.under key)) skips made own key ↔
        if skips key then held key = made key
        else CoversProp ct (p.under key) (made key) v (held key)))
    generalizing p held with
  | arr xs ih =>
    rw [ct.elements, copy_arr, Covers, JsValue.arr.injEq, ← ih p held 0]
    simp only [Nat.zero_add]
  | obj c own ih =>
    cases held with
    | obj c' h =>
      rw [ct.merges, copy_obj, Covers]
      constructor
      · intro he
        injection he with hc hp
        subst hc
        exact ⟨rfl, fun key => (ih key p h _ own key _ rfl).mp (congrFun hp key)⟩
      · rintro ⟨rfl, hp⟩
        exact congrArg _ (funext fun key => (ih key p h _ own key _ rfl).mpr (hp key))
    | _ => exact ct.transform_over_value c own rfl
  | nil =>
    rename_i p held i
    simp [CoversElements]
  | cons x xs ih ihs =>
    rename_i p held i
    rw [List.mapIdx_cons, List.mapIdx_cons, List.cons.injEq, CoversElements, ← ihs p held (i + 1),
      Nat.add_zero, ih]
    simp only [Nat.add_assoc, Nat.add_comm 1]
  | none =>
    rename_i p held made own key skips h
    rw [assign_none h, assign_none h, CoversProp, ite_self]
  | some v ih =>
    rename_i p held made own key skips h
    cases hs : skips key with
    | true =>
      rw [assign_skips hs, assign_skips hs, if_pos rfl]
    | false =>
      rw [assign_some h hs, assign_some h hs, Option.some.injEq, if_neg (by simp), CoversProp]
      exact ih (p.under key) (held.get key)
  | _ => exact iff_of_true (ct.replaces _ _ _ rfl) trivial

end ClassTransformer

end Interconnect
