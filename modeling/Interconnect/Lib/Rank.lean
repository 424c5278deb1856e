import Interconnect.Lib.Projection

/-! Calls that come to an end. Where each step of a call uses up some of its rank, or stops the whole
pool, a call takes no more steps than its first rank, and from any state the calls can go on until
none of them has a step left. -/

namespace Pools

open Runs

variable {Shared Call New Act Env : Type*} {B : Behaviour Shared Call New Act Env}
  {rank : Call → ℕ} {stopped : Shared → Prop} {bound : ℕ} {s s' : State Shared Call}

/-- A step lowers the rank of its call or stops the pool. -/
structure Ranked (B : Behaviour Shared Call New Act Env) (rank : Call → ℕ) (stopped : Shared → Prop)
    (bound : ℕ) : Prop where
  start : ∀ {sh i n sh' c}, B.start sh i n = some (sh', c) → rank c ≤ bound
  step : ∀ {sh i c a sh' c'}, B.step sh i c a = some (sh', c') →
    rank c' < rank c ∨ 0 < rank c ∧ stopped sh'
  live : ∀ {s : State Shared Call} {l s'}, next B s l = some s' → ¬ stopped s.shared

def stepsOf (i : ℕ) (as : List (Label New Act Env)) : ℕ :=
  as.countP fun
    | .act j _ => j == i
    | _ => false

@[simp] theorem stepsOf_nil (i : ℕ) : stepsOf i ([] : List (Label New Act Env)) = 0 := rfl

theorem stepsOf_concat (i : ℕ) (as : List (Label New Act Env)) (l : Label New Act Env) :
    stepsOf i (as ++ [l]) = stepsOf i as + stepsOf i [l] := by
  simp [stepsOf, List.countP_append]

theorem stepsOf_act (i j : ℕ) (a : Act) :
    stepsOf i ([.act j a] : List (Label New Act Env)) = if j = i then 1 else 0 := by
  by_cases h : j = i <;> simp [stepsOf, h]

def AtRest (B : Behaviour Shared Call New Act Env) (s : State Shared Call) : Prop :=
  ∀ i a, next B s (.act i a) = none

structure Used (rank : Call → ℕ) (stopped : Shared → Prop) (bound : ℕ)
    (as : List (Label New Act Env)) (s : State Shared Call) (i : ℕ) : Prop where
  le : stepsOf i as ≤ bound
  none_before : s.calls[i]? = none → stepsOf i as = 0
  left : ¬ stopped s.shared → ∀ c, s.calls[i]? = some c → stepsOf i as + rank c ≤ bound

theorem used_start (h : Ranked B rank stopped bound) {as : List (Label New Act Env)} {i : ℕ} {n : New}
    (hu : Used rank stopped bound as s i) (hn : next B s (.start n) = some s') :
    Used rank stopped bound (as ++ [.start n]) s' i := by
  obtain ⟨c, hc, hcalls⟩ := next_start hn
  have hsteps : stepsOf i (as ++ [.start n]) = stepsOf i as := by
    rw [stepsOf_concat]
    rfl
  refine ⟨hsteps ▸ hu.le, fun hnone => hsteps ▸ hu.none_before ?_, fun _ d hd => ?_⟩
  · rw [hcalls, List.getElem?_eq_none_iff, List.length_append] at hnone
    exact List.getElem?_eq_none_iff.mpr (by omega)
  · rw [hsteps]
    rw [hcalls] at hd
    rcases getElem?_append_cases hd with ⟨rfl, rfl⟩ | hd
    · have hzero := hu.none_before (List.getElem?_eq_none_iff.mpr (Nat.le_refl _))
      have hrank := h.start hc
      omega
    · exact hu.left (h.live hn) d hd

theorem used_act (h : Ranked B rank stopped bound) {as : List (Label New Act Env)} {i j : ℕ} {a : Act}
    (hu : Used rank stopped bound as s i) (hn : next B s (.act j a) = some s') :
    Used rank stopped bound (as ++ [.act j a]) s' i := by
  obtain ⟨c, c', hm, hc⟩ := next_act hn
  have hlive := h.live hn
  have hsteps := stepsOf_concat i as (.act j a)
  rw [stepsOf_act] at hsteps
  by_cases hij : j = i
  · subst hij
    rw [if_pos rfl] at hsteps
    have hleft := hu.left hlive c hm.before
    refine ⟨?_, fun hnone => (nomatch hnone.symm.trans hm.after), fun hgoes d hd => ?_⟩
    · rcases h.step hc with hlt | ⟨hpos, -⟩ <;> omega
    · cases hm.after.symm.trans hd
      rcases h.step hc with hlt | ⟨-, hstop⟩
      · omega
      · exact absurd hstop hgoes
  · rw [if_neg hij, Nat.add_zero] at hsteps
    have hget := hm.others i (Ne.symm hij)
    refine ⟨hsteps ▸ hu.le, fun hnone => hsteps ▸ hu.none_before (hget ▸ hnone), fun _ d hd => ?_⟩
    rw [hsteps]
    exact hu.left hlive d (hget ▸ hd)

/-- No call takes more steps than `bound`. -/
theorem Ranked.steps_le (h : Ranked B rank stopped bound) {sh : Shared}
    {as : List (Label New Act Env)} (hr : Run (Steps (next B)) (State.init sh) as s) (i : ℕ) :
    stepsOf i as ≤ bound := by
  have hused : Used rank stopped bound as s i := by
    induction hr with
    | nil => exact ⟨Nat.zero_le _, fun _ => rfl, fun _ _ hc => nomatch hc⟩
    | @snoc as s s' l _ hs ih =>
      cases l with
      | start n => exact used_start h ih hs
      | act j a => exact used_act h ih hs
      | env e =>
        have hcalls := (next_env hs).2
        have hsteps : stepsOf i (as ++ [.env e]) = stepsOf i as := by
          rw [stepsOf_concat]
          rfl
        refine ⟨hsteps ▸ ih.le, fun hnone => hsteps ▸ ih.none_before (hcalls ▸ hnone), ?_⟩
        intro _ c hc
        rw [hsteps]
        exact ih.left (h.live hs) c (hcalls ▸ hc)
  exact hused.le

def State.total (rank : Call → ℕ) (s : State Shared Call) : ℕ :=
  s.calls.foldr (fun c n => rank c + n) 0

theorem Moves.total_lt {i : ℕ} {c c' : Call} (hm : Moves s s' i c c') (hlt : rank c' < rank c) :
    s'.total rank < s.total rank := by
  obtain ⟨rest, hbefore, hafter⟩ := hm.perm
  have : LeftCommutative fun (c : Call) n => rank c + n := ⟨fun a b n => by omega⟩
  rw [State.total, State.total, hbefore.foldr_eq 0, hafter.foldr_eq 0, List.foldr_cons,
    List.foldr_cons]
  omega

/-- Steps of calls alone, in whatever order, lead to rest, unless one of them stops the pool. -/
theorem Ranked.comes_to_rest (h : Ranked B rank stopped bound) (s : State Shared Call) :
    ∃ as t, (∀ l ∈ as, ∃ i a, l = .act i a) ∧ Run (Steps (next B)) s as t ∧
      (stopped t.shared ∨ AtRest B t) := by
  induction hk : s.total rank using Nat.strong_induction_on generalizing s with
  | _ k ih =>
    by_cases hrest : AtRest B s
    · exact ⟨[], s, fun _ hl => (nomatch hl), .nil, Or.inr hrest⟩
    · unfold AtRest at hrest
      push Not at hrest
      obtain ⟨i, a, hne⟩ := hrest
      obtain ⟨s', hs⟩ := Option.ne_none_iff_exists'.mp hne
      obtain ⟨c, c', hm, hc⟩ := next_act hs
      rcases h.step hc with hlt | ⟨-, hstop⟩
      · obtain ⟨as, t, hacts, hrun, hend⟩ := ih _ (hk ▸ hm.total_lt hlt) s' rfl
        refine ⟨.act i a :: as, t, fun l hl => ?_, Run.cons hs hrun, hend⟩
        rcases List.mem_cons.mp hl with rfl | hl
        · exact ⟨i, a, rfl⟩
        · exact hacts l hl
      · refine ⟨[.act i a], s', fun l hl => ?_, Run.single hs, Or.inl hstop⟩
        exact ⟨i, a, List.mem_singleton.mp hl⟩

theorem length_of_acts {as : List (Label New Act Env)} {t : State Shared Call}
    (h : Run (Steps (next B)) s as t) (hacts : ∀ l ∈ as, ∃ i a, l = .act i a) :
    t.calls.length = s.calls.length := by
  refine h.invariant_of_labels (fun l => ∃ i a, l = .act i a)
    (fun t => t.calls.length = s.calls.length) hacts rfl ?_
  rintro t l t' ht ⟨i, a, rfl⟩ hn
  obtain ⟨c, c', hm, -⟩ := next_act hn
  rw [hm.calls_eq, List.length_set, ht]

end Pools
