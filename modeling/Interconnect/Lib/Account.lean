import Interconnect.Lib.Pool

/-! What the calls of a pool write into a log they share. Where every step adds to the log exactly
what it adds to its own call's account, the log holds what the accounts hold, in some order. -/

namespace Pools

open Runs

variable {Shared Call New Act Env β : Type*} {B : Behaviour Shared Call New Act Env}
  {s s' : State Shared Call}

def accounts (own : ℕ → Call → List β) (k : ℕ) (calls : List Call) : List β :=
  (calls.zipIdx k).flatMap fun x => own x.2 x.1

theorem mem_accounts {own : ℕ → Call → List β} {calls : List Call} {x : β} :
    x ∈ accounts own 0 calls ↔ ∃ i c, calls[i]? = some c ∧ x ∈ own i c := by
  simp only [accounts, List.mem_flatMap, Prod.exists, List.mem_zipIdx_iff_getElem?]
  exact ⟨fun ⟨c, i, hc, hx⟩ => ⟨i, c, hc, hx⟩, fun ⟨i, c, hc, hx⟩ => ⟨c, i, hc, hx⟩⟩

theorem accounts_const (f : Call → List β) (calls : List Call) (k : ℕ) :
    accounts (fun _ => f) k calls = calls.flatMap f := by
  induction calls generalizing k with
  | nil => rfl
  | cons c calls ih =>
    have hrest := ih (k + 1)
    simp only [accounts] at hrest
    simp [accounts, List.zipIdx_cons, hrest]

theorem accounts_increasing {own : ℕ → Call → List β} (key : β → ℕ)
    (hkey : ∀ i c, (own i c).map key = [] ∨ (own i c).map key = [i]) (k : ℕ) (calls : List Call) :
    ((accounts own k calls).map key).Pairwise (· < ·) := by
  have hge : ∀ (calls : List Call) (k : ℕ), ∀ x ∈ (accounts own k calls).map key, k ≤ x := by
    intro calls
    induction calls with
    | nil => simp [accounts]
    | cons c calls ih =>
      intro k x hx
      simp only [accounts, List.zipIdx_cons, List.flatMap_cons, List.map_append,
        List.mem_append] at hx
      rcases hx with hx | hx
      · rcases hkey k c with h | h <;> rw [h] at hx <;> simp_all
      · have := ih (k + 1) x hx
        omega
  induction calls generalizing k with
  | nil => simp [accounts]
  | cons c calls ih =>
    have hlater := hge calls (k + 1)
    have hrest := ih (k + 1)
    simp only [accounts] at hlater hrest
    simp only [accounts, List.zipIdx_cons, List.flatMap_cons, List.map_append,
      List.pairwise_append]
    refine ⟨?_, hrest, fun x hx y hy => ?_⟩
    · rcases hkey k c with h | h <;> simp [h]
    · have hy' := hlater y hy
      rcases hkey k c with h | h <;> rw [h] at hx <;> simp at hx
      omega

theorem accounts_append (own : ℕ → Call → List β) (k : ℕ) (calls : List Call) (c : Call) :
    accounts own k (calls ++ [c]) = accounts own k calls ++ own (k + calls.length) c := by
  simp [accounts, List.zipIdx_append]

theorem accounts_set {own : ℕ → Call → List β} {calls : List Call} {k i : ℕ} {c c' : Call}
    {new : List β} (hc : calls[i]? = some c) (hown : own (k + i) c' = own (k + i) c ++ new) :
    (accounts own k (calls.set i c')).Perm (accounts own k calls ++ new) := by
  induction calls generalizing k i with
  | nil => cases hc
  | cons d calls ih =>
    cases i with
    | zero =>
      cases hc
      simp only [accounts, List.set_cons_zero, List.zipIdx_cons, List.flatMap_cons]
      rw [Nat.add_zero] at hown
      rw [hown, List.append_assoc, List.append_assoc]
      exact List.perm_append_comm.append_left _
    | succ i =>
      have hrest := ih (k := k + 1) hc (by rwa [Nat.add_right_comm, Nat.add_assoc])
      simp only [accounts, List.set_cons_succ, List.zipIdx_cons, List.flatMap_cons,
        List.append_assoc] at hrest ⊢
      exact hrest.append_left _

/-- The log of a reachable pool holds what its calls' accounts hold. -/
theorem log_perm_accounts (log : Shared → List β) (own : ℕ → Call → List β)
    (hstart : ∀ sh i n sh' c, B.start sh i n = some (sh', c) → log sh' = log sh ++ own i c)
    (hstep : ∀ sh i c a sh' c', B.step sh i c a = some (sh', c') →
      ∃ new, log sh' = log sh ++ new ∧ own i c' = own i c ++ new)
    (henv : ∀ sh e sh', B.env sh e = some sh' → log sh' = log sh)
    {sh : Shared} (h₀ : log sh = []) {as : List (Label New Act Env)}
    (h : Run (Steps (next B)) (State.init sh) as s) :
    (log s.shared).Perm (accounts own 0 s.calls) := by
  refine h.invariant (fun s => (log s.shared).Perm (accounts own 0 s.calls)) ?_ ?_
  · rw [State.init_shared, h₀]
    exact .nil
  · intro s l s' hs hn
    cases l with
    | start n =>
      obtain ⟨c, hc, hcalls⟩ := next_start hn
      rw [hstart _ _ _ _ _ hc, hcalls, accounts_append, Nat.zero_add]
      exact hs.append_right _
    | act i a =>
      obtain ⟨c, c', hm, hc⟩ := next_act hn
      obtain ⟨new, hlog, hown⟩ := hstep _ _ _ _ _ _ hc
      rw [hlog, hm.calls_eq]
      exact (hs.append_right _).trans
        (accounts_set hm.before (by rwa [Nat.zero_add])).symm
    | env e =>
      obtain ⟨hsh, hcalls⟩ := next_env hn
      rw [henv _ _ _ hsh, hcalls]
      exact hs

end Pools
