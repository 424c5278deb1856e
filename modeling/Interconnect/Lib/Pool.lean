import Interconnect.Lib.Run

/-! Pools of calls that run concurrently over a shared state: new calls are started
at any time, any call may take the next step, and the environment may move the
shared state. A call is known by its position, which never changes. -/

namespace Pools

open Runs

/-- What one call does: how it starts, and its steps. Each sees the shared state and
the position of the call; `none` means that the step is not enabled. -/
structure Behaviour (Shared Call New Act Env : Type*) where
  start : Shared → ℕ → New → Option (Shared × Call)
  step : Shared → ℕ → Call → Act → Option (Shared × Call)
  env : Shared → Env → Option Shared

structure State (Shared Call : Type*) where
  shared : Shared
  calls : List Call

inductive Label (New Act Env : Type*)
  | start (n : New)
  | act (i : ℕ) (a : Act)
  | env (e : Env)

variable {Shared Call New Act Env : Type*} (B : Behaviour Shared Call New Act Env)

def next (s : State Shared Call) : Label New Act Env → Option (State Shared Call)
  | .start n => (B.start s.shared s.calls.length n).map fun r => ⟨r.1, s.calls ++ [r.2]⟩
  | .act i a => s.calls[i]?.bind fun c =>
      (B.step s.shared i c a).map fun r => ⟨r.1, s.calls.set i r.2⟩
  | .env e => (B.env s.shared e).map fun sh => ⟨sh, s.calls⟩

def State.init (sh : Shared) : State Shared Call := ⟨sh, []⟩

@[simp] theorem State.init_shared (sh : Shared) : (State.init sh : State Shared Call).shared = sh :=
  rfl

@[simp] theorem State.init_calls (sh : Shared) : (State.init sh : State Shared Call).calls = [] :=
  rfl

variable {B} {s s' : State Shared Call}

theorem next_start {n : New} (h : next B s (.start n) = some s') :
    ∃ c, B.start s.shared s.calls.length n = some (s'.shared, c) ∧ s'.calls = s.calls ++ [c] := by
  obtain ⟨r, hr, rfl⟩ := Option.map_eq_some_iff.mp h
  exact ⟨r.2, hr, rfl⟩

/-- A step of the call at position `i` leaves all others as they are. -/
structure Moves (s s' : State Shared Call) (i : ℕ) (c c' : Call) : Prop where
  before : s.calls[i]? = some c
  after : s'.calls[i]? = some c'
  others : ∀ j, j ≠ i → s'.calls[j]? = s.calls[j]?

theorem next_act {i : ℕ} {a : Act} (h : next B s (.act i a) = some s') :
    ∃ c c', Moves s s' i c c' ∧ B.step s.shared i c a = some (s'.shared, c') := by
  obtain ⟨c, hc, h⟩ := Option.bind_eq_some_iff.mp h
  obtain ⟨r, hr, rfl⟩ := Option.map_eq_some_iff.mp h
  have hlt : i < s.calls.length := (List.getElem?_eq_some_iff.mp hc).1
  exact ⟨c, r.2, ⟨hc, List.getElem?_set_self hlt, fun j hj => List.getElem?_set_ne (Ne.symm hj)⟩, hr⟩

theorem next_env {e : Env} (h : next B s (.env e) = some s') :
    B.env s.shared e = some s'.shared ∧ s'.calls = s.calls := by
  obtain ⟨sh, hsh, rfl⟩ := Option.map_eq_some_iff.mp h
  exact ⟨hsh, rfl⟩

theorem Moves.cases {i j : ℕ} {c c' x : Call} (hm : Moves s s' i c c') (hj : s'.calls[j]? = some x) :
    j = i ∧ x = c' ∨ j ≠ i ∧ s.calls[j]? = some x := by
  by_cases hij : j = i
  · subst hij
    exact Or.inl ⟨rfl, Option.some.inj (hj.symm.trans hm.after)⟩
  · rw [hm.others j hij] at hj
    exact Or.inr ⟨hij, hj⟩

theorem Moves.mem_cases {i : ℕ} {c c' x : Call} (hm : Moves s s' i c c') (hx : x ∈ s'.calls) :
    x = c' ∨ x ∈ s.calls := by
  obtain ⟨j, hj⟩ := List.mem_iff_getElem?.mp hx
  rcases hm.cases hj with ⟨-, rfl⟩ | ⟨-, hj⟩
  · exact Or.inl rfl
  · exact Or.inr (List.mem_of_getElem? hj)

theorem Moves.calls_eq {i : ℕ} {c c' : Call} (hm : Moves s s' i c c') :
    s'.calls = s.calls.set i c' := by
  have hlt : i < s.calls.length := (List.getElem?_eq_some_iff.mp hm.before).1
  refine List.ext_getElem? fun j => ?_
  by_cases hij : j = i
  · rw [hij, hm.after, List.getElem?_set_self hlt]
  · rw [hm.others j hij, List.getElem?_set_ne (Ne.symm hij)]

theorem Moves.map_eq {β : Type*} {i : ℕ} {c c' : Call} (hm : Moves s s' i c c') {f : Call → β}
    (hf : f c' = f c) : s'.calls.map f = s.calls.map f := by
  refine List.ext_getElem? fun j => ?_
  rw [List.getElem?_map, List.getElem?_map]
  by_cases hij : j = i
  · rw [hij, hm.after, hm.before, Option.map_some, Option.map_some, hf]
  · rw [hm.others j hij]

theorem getElem?_append_cases {cs : List Call} {j : ℕ} {c d : Call}
    (hj : (cs ++ [c])[j]? = some d) : j = cs.length ∧ d = c ∨ cs[j]? = some d := by
  rcases Nat.lt_or_ge j cs.length with hlt | hge
  · rw [List.getElem?_append_left hlt] at hj
    exact Or.inr hj
  · rw [List.getElem?_append_right hge] at hj
    rcases Nat.eq_zero_or_pos (j - cs.length) with h0 | hpos
    · rw [h0] at hj
      exact Or.inl ⟨by omega, (Option.some.inj hj).symm⟩
    · rw [List.getElem?_eq_none (by rw [List.length_singleton]; exact hpos)] at hj
      exact absurd hj (by simp)

/-- One step keeps a property of all calls if it holds of a call it starts and is kept of the
call that moves. -/
theorem forall_calls_step (P : Call → Prop) {l : Label New Act Env} (h : next B s l = some s')
    (hs : ∀ c ∈ s.calls, P c)
    (hstart : ∀ n c, l = .start n → B.start s.shared s.calls.length n = some (s'.shared, c) → P c)
    (hstep : ∀ i a c c', l = .act i a → s.calls[i]? = some c → P c →
      B.step s.shared i c a = some (s'.shared, c') → P c') : ∀ c ∈ s'.calls, P c := by
  intro d hd
  cases l with
  | start n =>
    obtain ⟨c, hc, hcalls⟩ := next_start h
    rw [hcalls, List.mem_append, List.mem_singleton] at hd
    rcases hd with hd | rfl
    · exact hs d hd
    · exact hstart n d rfl hc
  | act i a =>
    obtain ⟨c, c', hm, hc'⟩ := next_act h
    rcases hm.mem_cases hd with rfl | hd
    · exact hstep i a c d rfl hm.before (hs c (List.mem_of_getElem? hm.before)) hc'
    · exact hs d hd
  | env e =>
    rw [(next_env h).2] at hd
    exact hs d hd

/-- A property of single calls that holds when a call starts and that its own steps keep
holds of every call in every reachable pool. `okNew` and `okAct` restrict the labels. -/
theorem forall_calls (okNew : New → Prop) (okAct : Act → Prop) (P : Call → Prop)
    (hstart : ∀ sh i n sh' c, okNew n → B.start sh i n = some (sh', c) → P c)
    (hstep : ∀ sh i c a sh' c', P c → okAct a → B.step sh i c a = some (sh', c') → P c')
    {sh : Shared} {as : List (Label New Act Env)}
    (h : Run (Steps (next B)) (State.init sh) as s)
    (hnew : ∀ n, Label.start n ∈ as → okNew n) (hact : ∀ i a, Label.act i a ∈ as → okAct a) :
    ∀ c ∈ s.calls, P c := by
  let ok : Label New Act Env → Prop
    | .start n => okNew n
    | .act _ a => okAct a
    | .env _ => True
  have hok : ∀ l ∈ as, ok l := by
    intro l hl
    cases l with
    | start n => exact hnew n hl
    | act i a => exact hact i a hl
    | env e => trivial
  refine h.invariant_of_labels ok (fun s => ∀ c ∈ s.calls, P c) hok (by simp) ?_
  intro s l s' hs hl hn
  refine forall_calls_step P hn hs ?_ ?_
  · rintro n c rfl hc
    exact hstart _ _ _ _ _ hl hc
  · rintro i a c c' rfl - hc hc'
    exact hstep _ _ _ _ _ _ hc hl hc'

/-- What the steps of a call never change about it holds of it for the rest of the run. -/
theorem call_persists (Q : Call → Prop)
    (hstep : ∀ sh i c a sh' c', Q c → B.step sh i c a = some (sh', c') → Q c')
    {as : List (Label New Act Env)} (h : Run (Steps (next B)) s as s') {i : ℕ} {c : Call}
    (hc : s.calls[i]? = some c) (hQ : Q c) : ∃ c', s'.calls[i]? = some c' ∧ Q c' := by
  induction h with
  | nil => exact ⟨c, hc, hQ⟩
  | @snoc as t t' l _ hs ih =>
    obtain ⟨d, hd, hQd⟩ := ih
    cases l with
    | start n =>
      obtain ⟨e, -, hcalls⟩ := next_start hs
      have hlt : i < t.calls.length := (List.getElem?_eq_some_iff.mp hd).1
      exact ⟨d, by rw [hcalls, List.getElem?_append_left hlt, hd], hQd⟩
    | act j a =>
      obtain ⟨e, e', hm, he'⟩ := next_act hs
      by_cases hij : i = j
      · subst hij
        cases hd.symm.trans hm.before
        exact ⟨e', hm.after, hstep _ _ _ _ _ _ hQd he'⟩
      · exact ⟨d, by rw [hm.others i hij, hd], hQd⟩
    | env e => exact ⟨d, by rw [(next_env hs).2, hd], hQd⟩

end Pools
