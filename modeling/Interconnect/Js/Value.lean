import Mathlib.Data.Rat.Defs
import Mathlib.Logic.Function.Basic

/-! The JavaScript values the interconnect handles, object spread, the values JSON can
carry, rejection reasons and promises. An object is its constructor's name and its own
properties; the order of properties is not kept, since nothing here depends on it. -/

namespace Interconnect

/-! ### UTF-16 -/

def codeUnits (c : Char) : List UInt16 :=
  if c.val < 0x10000 then [c.val.toUInt16]
  else [(0xD800 + (c.val - 0x10000) / 0x400).toUInt16,
    (0xDC00 + (c.val - 0x10000) % 0x400).toUInt16]

def isHighSurrogate (u : UInt16) : Bool := 0xD800 ≤ u && u < 0xDC00

def isLowSurrogate (u : UInt16) : Bool := 0xDC00 ≤ u && u < 0xE000

/-- Each surrogate is half of a pair. -/
def wellFormed : List UInt16 → Bool
  | [] => true
  | [u] => !isHighSurrogate u && !isLowSurrogate u
  | u :: w :: us =>
    if isHighSurrogate u then isLowSurrogate w && wellFormed us
    else !isLowSurrogate u && wellFormed (w :: us)

inductive JsValue
  | undefined
  | null
  | bool (b : Bool)
  | num (q : ℚ)
  | str (s : String)
  /-- a string that is no text, since it has a surrogate on its own -/
  | illFormed (units : { us : List UInt16 // wellFormed us = false })
  | arr (xs : List JsValue)
  | obj (ctor : String) (props : String → Option JsValue)

abbrev Props := String → Option JsValue

/-- The members of `Object.prototype` other than `constructor`. -/
def prototypeMembers : List String :=
  ["__proto__", "__defineGetter__", "__defineSetter__", "__lookupGetter__", "__lookupSetter__",
    "hasOwnProperty", "isPrototypeOf", "propertyIsEnumerable", "toLocaleString", "toString",
    "valueOf"]

namespace Props

def empty : Props := fun _ => none

/-- `o[key]`, looking at own properties only -/
def get (p : Props) (key : String) : JsValue := (p key).getD .undefined

def set (p : Props) (key : String) (v : JsValue) : Props := Function.update p key (some v)

/-- `{ ...p, ...q }` -/
def overriddenBy (p q : Props) : Props := fun key => (q key).or (p key)

@[simp] theorem get_set_self (p : Props) (key : String) (v : JsValue) : (p.set key v).get key = v := by
  simp [get, set]

@[simp] theorem get_set_ne (p : Props) {key key' : String} (v : JsValue) (h : key' ≠ key) :
    (p.set key v).get key' = p.get key' := by
  simp [get, set, h]

theorem set_eq_self {p : Props} {key : String} {v : JsValue} (h : p key = some v) :
    p.set key v = p := by
  rw [set, ← h, Function.update_eq_self]

end Props

namespace JsValue

def isObject : JsValue → Bool
  | obj _ _ => true
  | _ => false

/-- `v && typeof v === 'object'` -/
def isComposite : JsValue → Bool
  | arr _ => true
  | obj _ _ => true
  | _ => false

def truthy : JsValue → Bool
  | undefined => false
  | null => false
  | bool b => b
  | num q => q != 0
  | str s => s != ""
  | illFormed _ => true
  | arr _ => true
  | obj _ _ => true

/-- `v || w` -/
def orElse (v w : JsValue) : JsValue := if v.truthy then v else w

@[simp] theorem truthy_orElse (v w : JsValue) : (v.orElse w).truthy = (v.truthy || w.truthy) := by
  unfold orElse
  split_ifs with h <;> simp [h]

def indexed (xs : List JsValue) : Props :=
  fun key => (xs.zipIdx.find? fun x => toString x.2 == key).map (·.1)

def unit (u : UInt16) : JsValue :=
  if h : wellFormed [u] = false then illFormed ⟨[u], h⟩
  else str (String.singleton (Char.ofNat u.toNat))

/-- What a string holds at its indices: its code units. -/
def units : JsValue → List JsValue
  | str s => (s.toList.flatMap codeUnits).map unit
  | illFormed us => us.1.map unit
  | _ => []

/-- `{...v}`: objects give their own properties, arrays and strings their indices, and
every other value nothing. -/
def spread : JsValue → Props
  | obj _ p => p
  | arr xs => indexed xs
  | v => indexed v.units

/-- `v[i]`, and `undefined` where `v` has no properties -/
def element : JsValue → ℕ → JsValue
  | obj _ p, i => Props.get p (toString i)
  | arr xs, i => xs.getD i undefined
  | v, i => v.units.getD i undefined

@[simp] theorem spread_obj (ctor : String) (p : Props) : spread (obj ctor p) = p := rfl

def literal (p : Props) : JsValue := obj "Object" p

/-- The values JSON can carry. Objects are plain and have finitely many keys. -/
inductive IsJson : JsValue → Prop
  | null : IsJson null
  | bool (b : Bool) : IsJson (bool b)
  | num (q : ℚ) : IsJson (num q)
  | str (s : String) : IsJson (str s)
  | illFormed (us : { us : List UInt16 // wellFormed us = false }) : IsJson (illFormed us)
  | arr (xs : List JsValue) : (∀ x ∈ xs, IsJson x) → IsJson (arr xs)
  | obj (p : Props) (keys : List String) : (∀ key, p key ≠ none → key ∈ keys) →
      (∀ key v, p key = some v → IsJson v) → IsJson (obj "Object" p)

theorem isJson_literal_empty : IsJson (literal Props.empty) :=
  .obj _ [] (fun _ h => absurd rfl h) fun _ _ h => nomatch h

theorem IsJson.literal_set {p : Props} (h : IsJson (literal p)) (key : String) {x : JsValue}
    (hx : IsJson x) : IsJson (literal (p.set key x)) := by
  cases h with
  | obj _ keys hkeys hvals =>
    refine .obj _ (key :: keys) (fun k hk => ?_) (fun k v hv => ?_)
    · by_cases hkey : k = key
      · exact hkey ▸ List.mem_cons_self
      · refine List.mem_cons_of_mem _ (hkeys k ?_)
        rwa [Props.set, Function.update_of_ne hkey] at hk
    · by_cases hkey : k = key
      · simp only [hkey, Props.set, Function.update_self, Option.some.injEq] at hv
        exact hv ▸ hx
      · rw [Props.set, Function.update_of_ne hkey] at hv
        exact hvals k v hv

theorem indexed_some {xs : List JsValue} {key : String} {v : JsValue}
    (h : indexed xs key = some v) : v ∈ xs ∧ key ∈ (List.range xs.length).map toString := by
  obtain ⟨⟨w, i⟩, hfind, rfl⟩ := Option.map_eq_some_iff.mp h
  have hkey := List.find?_some hfind
  obtain ⟨-, hi, hw⟩ := List.mem_zipIdx (List.mem_of_find?_eq_some hfind)
  refine ⟨hw ▸ List.getElem_mem _, List.mem_map.mpr ⟨i, List.mem_range.mpr ?_, ?_⟩⟩
  · omega
  · simpa using hkey

theorem isJson_indexed {xs : List JsValue} (h : ∀ x ∈ xs, IsJson x) :
    IsJson (literal (indexed xs)) := by
  refine .obj _ ((List.range xs.length).map toString) (fun key hkey => ?_) (fun key v hv => ?_)
  · obtain ⟨v, hv⟩ := Option.ne_none_iff_exists'.mp hkey
    exact (indexed_some hv).2
  · exact h v (indexed_some hv).1

theorem isJson_unit (u : UInt16) : IsJson (unit u) := by
  unfold unit
  split_ifs
  · exact .illFormed _
  · exact .str _

theorem isJson_units (v : JsValue) : ∀ x ∈ v.units, IsJson x := by
  intro x hx
  cases v with
  | str s =>
    obtain ⟨u, -, rfl⟩ := List.mem_map.mp hx
    exact isJson_unit u
  | illFormed us =>
    obtain ⟨u, -, rfl⟩ := List.mem_map.mp hx
    exact isJson_unit u
  | _ => cases hx

theorem IsJson.spread {v : JsValue} (h : IsJson v) : IsJson (literal v.spread) := by
  cases h with
  | arr xs hxs => exact isJson_indexed hxs
  | obj p keys hkeys hvals => exact .obj p keys hkeys hvals
  | _ => exact isJson_indexed (isJson_units _)

end JsValue

open JsValue

/-- JSON text held in a `Buffer`: `parse b` is `JSON.parse(b.toString())`, `none` where it
throws, and `encode v` is `Buffer.from(JSON.stringify(v))`, `none` where that throws. -/
structure JsonText (Buffer : Type) where
  parse : Buffer → Option JsValue
  encode : JsValue → Option Buffer
  empty : Buffer
  parse_empty : parse empty = none
  parse_encode : ∀ v, IsJson v → ∃ b, encode v = some b ∧ parse b = some v

/-- A JSON text known by the value it denotes; malformed texts and the empty one denote none. -/
def JsonText.denoted : JsonText (Option JsValue) where
  parse := id
  encode v := some (some v)
  empty := none
  parse_empty := rfl
  parse_encode v _ := ⟨some v, rfl, rfl⟩

inductive Rejection
  | nullish
  | syntaxError
  | typeError
  | notAllowedEventError (allowed : List String)
  | invalidEventError (details : List JsValue)
  | error (message : String)

def Rejection.isNullish : Rejection → Bool
  | nullish => true
  | _ => false

inductive Promise
  | pending
  | fulfilled
  | rejected (r : Rejection)

namespace Promise

def isPending : Promise → Bool
  | pending => true
  | _ => false

def isFulfilled : Promise → Bool
  | fulfilled => true
  | _ => false

def ofExcept : Except Rejection Unit → Promise
  | .ok _ => fulfilled
  | .error r => rejected r

theorem isFulfilled_iff {p : Promise} : p.isFulfilled = true ↔ p = fulfilled := by
  cases p <;> simp [isFulfilled]

theorem ofExcept_fulfilled {x : Except Rejection Unit} (h : ofExcept x = fulfilled) : x = .ok () := by
  cases x with
  | ok => rfl
  | error r => cases h

end Promise

end Interconnect
