import Mathlib.Data.List.Forall2
import Mathlib.Data.List.Nodup
import Mathlib.Data.Option.Basic

/-! Dependency injection. A tree of modules binds tokens to values and to classes; a container gives
each class what its module sees of the tokens it asks for. What can be built, and as what, follows
from what is seen. -/

namespace Containers

variable {μ τ ν κ : Type*}

inductive Provider (ν κ : Type*)
  | useValue (v : ν)
  | useClass (c : κ)

def Provider.registered (registers : ν → Bool) : Provider ν κ → Bool
  | .useValue v => registers v
  | .useClass _ => true

inductive Exported (μ τ : Type*)
  | token (t : τ)
  | module (m : μ)
  deriving DecidableEq

structure Module (μ τ ν κ : Type*) where
  module : μ
  providers : List (τ × Provider ν κ)
  imports : List (Module μ τ ν κ)
  exports : List (Exported μ τ)
  /-- every module of the application imports it -/
  global : Bool

/-- A provider with the module it is of, in which its class looks for what it asks for. -/
abbrev Binding (μ τ ν κ : Type*) := Module μ τ ν κ × Provider ν κ

namespace Module

mutual

def modules : Module μ τ ν κ → List (Module μ τ ν κ)
  | ⟨m, providers, imports, exports, global⟩ =>
    ⟨m, providers, imports, exports, global⟩ :: modulesOf imports

def modulesOf : List (Module μ τ ν κ) → List (Module μ τ ν κ)
  | [] => []
  | m :: ms => modules m ++ modulesOf ms

end

variable [DecidableEq μ] [DecidableEq τ] (registers : ν → Bool)

/-- The provider bound to a token, the last one if there are several. -/
def own (m : Module μ τ ν κ) (t : τ) : Option (Provider ν κ) :=
  (m.providers.reverse.find? fun b => decide (b.1 = t) && b.2.registered registers).map Prod.snd

mutual

/-- What a module that imports this one gets from it under a token. -/
def offers (t : τ) : Module μ τ ν κ → List (Binding μ τ ν κ)
  | ⟨m, providers, imports, exports, global⟩ =>
    (if .token t ∈ exports then
      ((own registers ⟨m, providers, imports, exports, global⟩ t).map
        (⟨m, providers, imports, exports, global⟩, ·)).toList
     else []) ++ offersAmong t exports imports

def offersAmong (t : τ) (exports : List (Exported μ τ)) :
    List (Module μ τ ν κ) → List (Binding μ τ ν κ)
  | [] => []
  | m :: ms => (if .module m.module ∈ exports then offers t m else []) ++ offersAmong t exports ms

end

/-- What the classes of a module of the application can be given for a token: its own provider, or
what it imports if it has none. -/
def sees (app m : Module μ τ ν κ) (t : τ) : List (Binding μ τ ν κ) :=
  match own registers m t with
  | some p => [(m, p)]
  | none => (m.imports ++ app.modules.filter (·.global)).flatMap (offers registers t)

variable {registers} {m : Module μ τ ν κ} {t : τ} {p : Provider ν κ}

omit [DecidableEq μ] in
theorem own_of_mem (hnodup : (m.providers.map Prod.fst).Nodup) (hmem : (t, p) ∈ m.providers)
    (hp : p.registered registers = true) : own registers m t = some p := by
  rw [own, Option.map_eq_some_iff]
  refine ⟨(t, p), ?_, rfl⟩
  cases hfind : m.providers.reverse.find? fun b => decide (b.1 = t) && b.2.registered registers with
  | none =>
    rw [List.find?_eq_none] at hfind
    exact absurd (hfind (t, p) (List.mem_reverse.mpr hmem)) (by simp [hp])
  | some b =>
    have hb := List.mem_reverse.mp (List.mem_of_find?_eq_some hfind)
    have ht : b.1 = t ∧ b.2.registered registers = true := by simpa using List.find?_some hfind
    rw [List.inj_on_of_nodup_map hnodup hb hmem ht.1]

omit [DecidableEq μ] in
theorem own_eq_none (h : ∀ p, (t, p) ∈ m.providers → p.registered registers = false) :
    own registers m t = none := by
  rw [own, Option.map_eq_none_iff, List.find?_eq_none]
  rintro ⟨t', p⟩ hmem
  simp only [Bool.and_eq_true, decide_eq_true_eq, not_and]
  rintro rfl
  simp [h p (List.mem_reverse.mp hmem)]

theorem offersAmong_eq (exports : List (Exported μ τ)) (ms : List (Module μ τ ν κ)) :
    offersAmong registers t exports ms =
      ms.flatMap fun i => if .module i.module ∈ exports then offers registers t i else [] := by
  induction ms with
  | nil => rw [offersAmong, List.flatMap_nil]
  | cons i ms ih => rw [offersAmong, ih, List.flatMap_cons]

theorem offers_eq : offers registers t m =
    (if .token t ∈ m.exports then ((own registers m t).map (m, ·)).toList else []) ++
      m.imports.flatMap fun i =>
        if .module i.module ∈ m.exports then offers registers t i else [] := by
  cases m
  rw [offers, offersAmong_eq]

end Module

/-- What a class is given: a value, the instance that a module has under a token, with the objects
that its constructor was given, or what the container itself gives the module. -/
inductive Object (μ τ ν κ : Type*)
  | value (v : ν)
  | instance (module : μ) (token : τ) (c : κ) (arguments : List (Object μ τ ν κ))
  | supplied (module : μ) (token : τ)

/-- For each token the container takes one of the providers that are seen; where none is, it may
have an object of its own. -/
structure Container (μ τ ν κ : Type*) [DecidableEq μ] [DecidableEq τ] where
  registers : ν → Bool
  supplies : τ → Bool
  find : Module μ τ ν κ → Module μ τ ν κ → τ → Option (Binding μ τ ν κ)
  find_mem : ∀ app m t b, find app m t = some b → b ∈ Module.sees registers app m t
  find_isSome : ∀ app m t b, b ∈ Module.sees registers app m t → (find app m t).isSome

section

variable [DecidableEq μ] [DecidableEq τ]

def Container.first (registers : ν → Bool) (supplies : τ → Bool) : Container μ τ ν κ where
  registers := registers
  supplies := supplies
  find app m t := (Module.sees registers app m t).head?
  find_mem _ _ _ _ h := List.mem_of_mem_head? h
  find_isSome _ _ _ _ h := by
    rw [List.isSome_head?]
    exact List.ne_nil_of_mem h

theorem mapM_eq_some {α β : Type*} {f : α → Option β} {xs : List α} {ys : List β} :
    xs.mapM f = some ys ↔ List.Forall₂ (fun x y => f x = some y) xs ys := by
  induction xs generalizing ys with
  | nil => simp [eq_comm]
  | cons x xs ih =>
    cases ys with
    | nil => simp [Option.bind_eq_some_iff]
    | cons y ys => simp [Option.bind_eq_some_iff, ih]

theorem mapM_defined {α β : Type*} {f : α → Option β} {xs : List α} {ys : List β}
    (h : xs.mapM f = some ys) : ∀ x ∈ xs, ∃ y, f x = some y := by
  have hall := (mapM_eq_some.mp h).imp fun x y hxy => And.intro (Exists.intro y hxy) hxy
  exact ((List.forall₂_and_left _ _).mp hall).1

namespace Container

variable (N : Container μ τ ν κ) (deps : κ → List τ) (app : Module μ τ ν κ)

/-- The object of a token, with at most `n` nested constructor calls. -/
def make : ℕ → Module μ τ ν κ → τ → Option (Object μ τ ν κ)
  | 0, _, _ => none
  | n + 1, m, t => match N.find app m t with
    | none => if N.supplies t then some (.supplied m.module t) else none
    | some (_, .useValue v) => some (.value v)
    | some (m', .useClass c) => ((deps c).mapM (make n m')).map (.instance m'.module t c)

def Builds (m : Module μ τ ν κ) (t : τ) (o : Object μ τ ν κ) : Prop :=
  ∃ n, N.make deps app n m t = some o

def Starts : Prop := ∀ m ∈ app.modules, ∀ b ∈ m.providers, ∃ o, N.Builds deps app m b.1 o

variable {N deps app} {m m' : Module μ τ ν κ} {t : τ} {b : Binding μ τ ν κ} {o o' : Object μ τ ν κ}
  {v : ν} {c : κ}

theorem find_of_sees (h : Module.sees N.registers app m t = [b]) : N.find app m t = some b := by
  have hb : b ∈ Module.sees N.registers app m t := by rw [h]; exact List.mem_singleton_self b
  obtain ⟨b', hb'⟩ := Option.isSome_iff_exists.mp (N.find_isSome app m t b hb)
  have hmem := N.find_mem app m t b' hb'
  rw [h] at hmem
  rw [hb', List.mem_singleton.mp hmem]

theorem find_of_own {p : Provider ν κ} (h : Module.own N.registers m t = some p) :
    N.find app m t = some (m, p) := find_of_sees (by rw [Module.sees, h])

theorem find_eq_none (h : Module.sees N.registers app m t = []) : N.find app m t = none := by
  by_contra hne
  obtain ⟨b, hb⟩ := Option.ne_none_iff_exists'.mp hne
  have hmem := N.find_mem app m t b hb
  rw [h] at hmem
  exact List.not_mem_nil hmem

theorem make_mono {n k : ℕ} (hle : n ≤ k) (h : N.make deps app n m t = some o) :
    N.make deps app k m t = some o := by
  induction n generalizing k m t o with
  | zero => cases h
  | succ n ih =>
    obtain ⟨k, rfl⟩ : ∃ j, k = j + 1 := ⟨k - 1, by omega⟩
    unfold make at h ⊢
    cases hfind : N.find app m t with
    | none =>
      rw [hfind] at h
      exact h
    | some b =>
      obtain ⟨m', p⟩ := b
      rw [hfind] at h
      cases p with
      | useValue v => exact h
      | useClass c =>
        obtain ⟨arguments, harguments, rfl⟩ := Option.map_eq_some_iff.mp h
        have hall := mapM_eq_some.mp harguments
        have hall' := hall.imp fun d a hd => ih (show n ≤ k by omega) hd
        exact Option.map_eq_some_iff.mpr ⟨arguments, mapM_eq_some.mpr hall', rfl⟩

theorem Builds.functional (h : N.Builds deps app m t o) (h' : N.Builds deps app m t o') :
    o = o' := by
  obtain ⟨n, hn⟩ := h
  obtain ⟨k, hk⟩ := h'
  have hmax := make_mono (Nat.le_max_left n k) hn
  exact Option.some.inj (hmax.symm.trans (make_mono (Nat.le_max_right n k) hk))

/-- Modules that find one provider are given the same object. -/
theorem Builds.shared (h : N.Builds deps app m t o) (hfind : N.find app m t = some b)
    (hfind' : N.find app m' t = some b) : N.Builds deps app m' t o := by
  obtain ⟨n, hn⟩ := h
  refine ⟨n, ?_⟩
  cases n with
  | zero => cases hn
  | succ n =>
    obtain ⟨home, p⟩ := b
    rw [make, hfind] at hn
    rw [make, hfind']
    cases p <;> exact hn

theorem builds_supplied (h : N.find app m t = none) (hs : N.supplies t = true) :
    N.Builds deps app m t (.supplied m.module t) := ⟨1, by rw [make, h, hs]; rfl⟩

theorem builds_value (h : N.find app m t = some (m', .useValue v)) :
    N.Builds deps app m t (.value v) := ⟨1, by rw [make, h]⟩

theorem builds_instance {arguments : List (Object μ τ ν κ)}
    (h : N.find app m t = some (m', .useClass c))
    (hdeps : List.Forall₂ (N.Builds deps app m') (deps c) arguments) :
    N.Builds deps app m t (.instance m'.module t c arguments) := by
  obtain ⟨n, hn⟩ : ∃ n,
      List.Forall₂ (fun d a => N.make deps app n m' d = some a) (deps c) arguments := by
    generalize deps c = ds at hdeps
    induction hdeps with
    | nil => exact ⟨0, .nil⟩
    | cons hd _ ih =>
      obtain ⟨n, hn⟩ := hd
      obtain ⟨k, hk⟩ := ih
      exact ⟨max n k, .cons (make_mono (Nat.le_max_left n k) hn)
        (hk.imp fun d a h => make_mono (Nat.le_max_right n k) h)⟩
  refine ⟨n + 1, ?_⟩
  simp only [make, h]
  exact Option.map_eq_some_iff.mpr ⟨arguments, mapM_eq_some.mpr hn, rfl⟩

theorem supplies_of_builds (h : N.find app m t = none) (hb : N.Builds deps app m t o) :
    N.supplies t = true := by
  obtain ⟨n, hn⟩ := hb
  cases n with
  | zero => cases hn
  | succ n =>
    rw [make, h] at hn
    by_contra hs
    simp [hs] at hn

theorem Builds.dependency (h : N.Builds deps app m t o)
    (hfind : N.find app m t = some (m', .useClass c)) {d : τ} (hd : d ∈ deps c) :
    ∃ a, N.Builds deps app m' d a := by
  obtain ⟨n, hn⟩ := h
  cases n with
  | zero => cases hn
  | succ n =>
    simp only [make, hfind] at hn
    obtain ⟨arguments, harguments, -⟩ := Option.map_eq_some_iff.mp hn
    obtain ⟨a, ha⟩ := mapM_defined harguments _ hd
    exact ⟨a, n, ha⟩

theorem not_builds_of_self (hself : N.find app m t = some (m, .useClass c)) (hd : t ∈ deps c) :
    ¬ N.Builds deps app m t o := by
  rintro ⟨n, hn⟩
  induction n generalizing o with
  | zero => cases hn
  | succ n ih =>
    simp only [make, hself] at hn
    obtain ⟨arguments, harguments, -⟩ := Option.map_eq_some_iff.mp hn
    obtain ⟨a, ha⟩ := mapM_defined harguments _ hd
    exact ih ha

end Container

end

end Containers
