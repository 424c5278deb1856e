import Interconnect.Model.ModuleInit
import Interconnect.Proofs.ConnectionGuard

/-! How often each connection is checked once the reader and the driver have started: the gRPC
reader's is checked twice in every interval. -/

namespace Interconnect

open Runs Pools

theorem filter_set_of_not {α : Type} (p : α → Bool) {xs : List α} {k : ℕ} {x y : α}
    (hk : xs[k]? = some x) (hx : p x = false) (hy : p y = false) :
    (xs.set k y).filter p = xs.filter p := by
  induction xs generalizing k with
  | nil => rfl
  | cons z zs ih =>
    cases k with
    | zero =>
      cases hk
      rw [List.set_cons_zero, List.filter_cons_of_neg (by simp [hy]),
        List.filter_cons_of_neg (by simp [hx])]
    | succ k =>
      rw [List.set_cons_succ, List.filter_cons, List.filter_cons, ih hk]

theorem filter_set_of_singleton {α : Type} (p : α → Bool) {xs : List α} {k : ℕ} {x y z : α}
    (hk : xs[k]? = some x) (hx : p x = true) (hy : p y = true) (h : xs.filter p = [z]) :
    x = z ∧ (xs.set k y).filter p = [y] := by
  induction xs generalizing k with
  | nil => cases hk
  | cons w ws ih =>
    cases k with
    | zero =>
      cases hk
      rw [List.filter_cons_of_pos hx] at h
      obtain ⟨rfl, hnil⟩ := List.cons.inj h
      exact ⟨rfl, by rw [List.set_cons_zero, List.filter_cons_of_pos hy, hnil]⟩
    | succ k =>
      rw [List.set_cons_succ]
      by_cases hw : p w = true
      · rw [List.filter_cons_of_pos hw] at h
        have hmem : x ∈ ws.filter p := List.mem_filter.mpr ⟨List.mem_of_getElem? hk, hx⟩
        rw [(List.cons.inj h).2] at hmem
        cases hmem
      · rw [List.filter_cons_of_neg hw] at h ⊢
        exact ih hk h

/-! ### Chains of checks -/

section Chains

variable {κ : Type} [DecidableEq κ] {version : κ → Version} {interval timeout : ℕ}
  {s s' : GuardState κ} {connection : κ}

def pingsOf (connection : κ) (s : GuardState κ) : List (κ × ℕ) :=
  s.shared.pings.filter fun x => x.1 = connection

def checksOf (connection : κ) (s : GuardState κ) : List ℕ :=
  ((started s).filter fun x => x.1 = connection).map (·.2)

/-- One check is scheduled, and every one so far was made an interval after the one before. -/
def OneChain (interval : ℕ) (connection : κ) (s : GuardState κ) : Prop :=
  ∃ t n, pingsOf connection s = [(connection, t + n * interval)] ∧
    checksOf connection s = (List.range n).map fun k => t + k * interval

def NoChain (connection : κ) (s : GuardState κ) : Prop :=
  pingsOf connection s = [] ∧ checksOf connection s = []

structure SameChain (connection : κ) (s s' : GuardState κ) : Prop where
  pings : pingsOf connection s' = pingsOf connection s
  checks : checksOf connection s' = checksOf connection s

theorem SameChain.noChain (h : SameChain connection s s') (hs : NoChain connection s) :
    NoChain connection s' :=
  ⟨h.pings.trans hs.1, h.checks.trans hs.2⟩

theorem SameChain.oneChain (h : SameChain connection s s') (hs : OneChain interval connection s) :
    OneChain interval connection s' := by
  obtain ⟨t, n, hpings, hchecks⟩ := hs
  exact ⟨t, n, h.pings.trans hpings, h.checks.trans hchecks⟩

theorem sameChain_of_other {l : GuardLabel κ} (hl : ∀ pinger, l ≠ .start pinger)
    (hn : GuardStep version interval timeout s l s') : SameChain connection s s' := by
  obtain ⟨hpings, hstarted⟩ := pings_of_other hl hn
  exact ⟨by rw [pingsOf, hpings]; rfl, by rw [checksOf, hstarted]; rfl⟩

theorem checksOf_append {k : κ} {now : ℕ} (h : started s' = started s ++ [(k, now)]) :
    checksOf connection s' = checksOf connection s ++ if k = connection then [now] else [] := by
  rw [checksOf, h, List.filter_append, List.map_append]
  by_cases hk : k = connection
  · simp [checksOf, hk]
  · simp [checksOf, hk]

theorem sameChain_of_caller {k : κ} (hk : k ≠ connection)
    (hn : GuardStep version interval timeout s (.start (.caller k)) s') :
    SameChain connection s s' := by
  obtain ⟨hpings, hstarted⟩ := pings_of_caller hn
  refine ⟨?_, ?_⟩
  · rw [pingsOf, hpings, List.filter_append]
    simp [pingsOf, hk]
  · rw [checksOf_append hstarted, if_neg hk, List.append_nil]

theorem oneChain_of_caller (hs : NoChain connection s)
    (hn : GuardStep version interval timeout s (.start (.caller connection)) s') :
    OneChain interval connection s' := by
  obtain ⟨hpings, hstarted⟩ := pings_of_caller hn
  obtain ⟨hnone, hnone'⟩ := hs
  refine ⟨s.shared.now, 1, ?_, ?_⟩
  · rw [pingsOf, hpings, List.filter_append, ← pingsOf, hnone]
    simp
  · rw [checksOf_append hstarted, hnone']
    simp

theorem chain_of_ping {i : ℕ} (hahead : Ahead s)
    (hn : GuardStep version interval timeout s (.start (.ping i)) s') :
    SameChain connection s s' ∨
      ¬ NoChain connection s ∧
        (OneChain interval connection s → OneChain interval connection s') := by
  obtain ⟨k, due, hi, hdue, hpings, hstarted⟩ := pings_of_ping hn
  by_cases hk : k = connection
  · subst hk
    refine Or.inr ⟨fun hs => ?_, ?_⟩
    · have hmem : (k, due) ∈ pingsOf k s :=
        List.mem_filter.mpr ⟨List.mem_of_getElem? hi, by simp⟩
      rw [hs.1] at hmem
      cases hmem
    · rintro ⟨t, n, hone, hchecks⟩
      obtain ⟨he, hone'⟩ := filter_set_of_singleton (fun x : κ × ℕ => decide (x.1 = k))
        (y := (k, s.shared.now + interval)) hi (by simp) (by simp) hone
      have hnow : s.shared.now = t + n * interval := by
        have hle := hahead _ (List.mem_of_getElem? hi)
        have hdue' : due = t + n * interval := congrArg Prod.snd he
        omega
      refine ⟨t, n + 1, ?_, ?_⟩
      · rw [pingsOf, hpings, hone', hnow, Nat.add_assoc, ← Nat.succ_mul]
      · rw [checksOf_append hstarted, if_pos rfl, hchecks, List.range_succ, List.map_append, hnow]
        rfl
  · refine Or.inl ⟨?_, ?_⟩
    · rw [pingsOf, hpings]
      exact filter_set_of_not _ hi (by simpa using hk) (by simpa using hk)
    · rw [checksOf_append hstarted, if_neg hk, List.append_nil]

end Chains

/-! ### The start-up -/

variable {version : Side → Version} {interval timeout : ℕ} {side : Side} {s s' : StartUpState}

/-- The timers of all guards run when they are due. -/
def StartUpState.OnTime (s : StartUpState) (l : StartUpLabel) : Prop :=
  ∀ m, l = .guard m → Interconnect.OnTime s.guard m

def StartsLeft (side : Side) (s : StartUpState) (n : ℕ) : Prop :=
  ∀ rest, s.todo side = some rest → rest.count .startConnectionLinkPinger = n

def StartedOnce (interval : ℕ) (side : Side) (s : StartUpState) : Prop :=
  NoChain side s.guard ∧ StartsLeft side s 1 ∨
    OneChain interval side s.guard ∧ StartsLeft side s 0

theorem startedOnce_start {rest : List Instruction} {g : GuardState Side} {other : Side}
    (hs : StartedOnce interval side s)
    (hrest : s.todo other = some (.startConnectionLinkPinger :: rest))
    (hn : GuardStep version interval timeout s.guard (.start (.caller other)) g) :
    StartedOnce interval side
      ⟨g, Function.update s.todo other (some (.pinged s.guard.calls.length :: rest))⟩ := by
  by_cases ho : other = side
  · subst ho
    rcases hs with ⟨hnone, hleft⟩ | ⟨-, hleft⟩
    · refine Or.inr ⟨oneChain_of_caller hnone hn, fun rest' hrest' => ?_⟩
      have hcount := hleft _ hrest
      rw [List.count_cons_self] at hcount
      simp only [Function.update_self, Option.some.injEq] at hrest'
      have hne : Instruction.pinged s.guard.calls.length ≠ .startConnectionLinkPinger := nofun
      rw [← hrest', List.count_cons_of_ne hne]
      omega
    · have hcount := hleft _ hrest
      rw [List.count_cons_self] at hcount
      omega
  · have hsame := sameChain_of_caller ho hn
    have hleft : ∀ n, StartsLeft side s n → StartsLeft side
        ⟨g, Function.update s.todo other (some (.pinged s.guard.calls.length :: rest))⟩ n := by
      intro n h rest' hrest'
      exact h rest' (by simpa [Function.update_of_ne (Ne.symm ho)] using hrest')
    exact hs.imp (fun h => ⟨hsame.noChain h.1, hleft 1 h.2⟩)
      fun h => ⟨hsame.oneChain h.1, hleft 0 h.2⟩

theorem startedOnce_guard {l : GuardLabel Side} {g : GuardState Side}
    (hs : StartedOnce interval side s) (hahead : Ahead s.guard)
    (hl : ∀ k, l ≠ .start (.caller k)) (hn : GuardStep version interval timeout s.guard l g) :
    StartedOnce interval side { s with guard := g } := by
  have hchain : SameChain side s.guard g ∨ ¬ NoChain side s.guard ∧
      (OneChain interval side s.guard → OneChain interval side g) := by
    cases l with
    | start pinger =>
      cases pinger with
      | caller k => exact absurd rfl (hl k)
      | ping i => exact chain_of_ping hahead hn
    | act i a => exact Or.inl (sameChain_of_other (l := .act i a) (fun _ hl => nomatch hl) hn)
    | env u => exact Or.inl (sameChain_of_other (l := .env u) (fun _ hl => nomatch hl) hn)
  rcases hchain with hsame | ⟨hsome, hone⟩
  · exact hs.imp (fun h => ⟨hsame.noChain h.1, h.2⟩) fun h => ⟨hsame.oneChain h.1, h.2⟩
  · exact hs.imp (fun h => absurd h.1 hsome) fun h => ⟨hone h.1, h.2⟩

theorem startedOnce_todo {other : Side} {t : Option (List Instruction)}
    (hs : StartedOnce interval side s)
    (ht : ∀ n, StartsLeft other s n → ∀ rest, t = some rest →
      rest.count .startConnectionLinkPinger = n) :
    StartedOnce interval side { s with todo := Function.update s.todo other t } := by
  have hleft : ∀ n, StartsLeft side s n →
      StartsLeft side { s with todo := Function.update s.todo other t } n := by
    intro n h rest hrest
    by_cases ho : side = other
    · subst ho
      exact ht n h rest (by simpa using hrest)
    · exact h rest (by simpa [Function.update_of_ne ho] using hrest)
  exact hs.imp (fun h => ⟨h.1, hleft 1 h.2⟩) fun h => ⟨h.1, hleft 0 h.2⟩

theorem startedOnce_step {l : StartUpLabel} (hs : StartedOnce interval side s)
    (hahead : Ahead s.guard) (h : s.Step version interval timeout l s') :
    StartedOnce interval side s' := by
  cases h with
  | starts other rest g hrest hn => exact startedOnce_start hs hrest hn
  | guard l g hl hn => exact startedOnce_guard hs hahead hl hn
  | advances _ other x rest hx hne =>
    refine startedOnce_todo hs fun n h rest' he => ?_
    cases he
    have hcount := h _ hx
    rwa [List.count_cons_of_ne hne] at hcount
  | fails _ other => exact startedOnce_todo hs fun _ _ _ he => nomatch he

theorem startUp_ahead_step {l : StartUpLabel} (hs : Ahead s.guard) (htime : s.OnTime l)
    (h : s.Step version interval timeout l s') : Ahead s'.guard := by
  cases h with
  | starts other rest g _ hn => exact ahead_step hs (htime _ rfl) hn
  | guard l g _ hn => exact ahead_step hs (htime _ rfl) hn
  | advances => exact hs
  | fails => exact hs

theorem startedOnce_run {t₀ : ℕ} {as : List StartUpLabel}
    (hone : (onModuleInit version side).count .startConnectionLinkPinger = 1)
    (h : Run (Guarded StartUpState.OnTime (StartUpStep version interval timeout))
      (.init version t₀) as s) : StartedOnce interval side s := by
  have hinit : StartedOnce interval side (.init version t₀) := by
    refine Or.inl ⟨⟨rfl, rfl⟩, fun rest hrest => ?_⟩
    cases hrest
    exact hone
  have hboth := h.invariant (fun s => Ahead s.guard ∧ StartedOnce interval side s)
    ⟨fun x hx => (by cases hx), hinit⟩ fun s l s' hs hn =>
      ⟨startUp_ahead_step hs.1 hn.1 (StartUpState.next_cases hn.2),
        startedOnce_step hs.2 hs.1 (StartUpState.next_cases hn.2)⟩
  exact hboth.2

theorem count_onModuleInit (side : Side) (h : version .source = .legacy) :
    (onModuleInit version side).count .startConnectionLinkPinger = 1 := by
  cases side with
  | source => simp only [onModuleInit, h]; rfl
  | destination =>
    cases hd : version .destination with
    | legacy => simp only [onModuleInit, hd]; rfl
    | next => simp only [onModuleInit, hd]; rfl

/-- Each connection is checked once in every interval, in every state after start-up. -/
def OnePingChainEach (version : Side → Version) (interval timeout t₀ : ℕ) : Prop :=
  ∀ as s, Run (Guarded StartUpState.OnTime (StartUpStep version interval timeout))
    (.init version t₀) as s → s.Started → ∀ side, OneChain interval side s.guard

def versions (v d : Version) : Side → Version
  | .source => v
  | .destination => d

def driverLabels : Version → List StartUpLabel
  | .legacy => [.answered .destination true, .guard (.start (.caller .destination)),
      .guard (.act 0 (.answers .ok)), .continues .destination]
  | .next => [.guard (.start (.caller .destination)), .guard (.act 0 (.answers .ok)),
      .continues .destination]

def grpcReaderLabels : List StartUpLabel :=
  [.guard (.start (.caller .source)), .guard (.act 1 (.answers .ok)), .continues .source,
    .guard (.start (.caller .source)), .guard (.act 2 (.answers .ok)), .continues .source,
    .answered .source true]

/-- Once the gRPC reader has started, two checks of its connection are scheduled. -/
theorem grpc_reader_starts_two_chains (d : Version) (interval timeout t₀ : ℕ) :
    ∃ s, exec (StartUpState.next (versions .next d) interval timeout) (.init (versions .next d) t₀)
        (driverLabels d ++ grpcReaderLabels) = some s ∧ s.Started ∧
      pingsOf .source s.guard = [(.source, t₀ + interval), (.source, t₀ + interval)] := by
  cases d with
  | legacy =>
    refine ⟨_, rfl, fun side => ?_, rfl⟩
    cases side <;> rfl
  | next =>
    refine ⟨_, rfl, fun side => ?_, rfl⟩
    cases side <;> rfl

theorem onTime_of_no_tick {l : StartUpLabel} (hl : l ≠ .guard (.env ())) (s : StartUpState) :
    s.OnTime l := by
  rintro m rfl he
  exact absurd (congrArg StartUpLabel.guard he) hl

theorem no_tick_at_start (d : Version) :
    ∀ l ∈ driverLabels d ++ grpcReaderLabels, l ≠ .guard (.env ()) := by
  cases d <;> simp [driverLabels, grpcReaderLabels]

theorem not_onePingChainEach (d : Version) (interval timeout t₀ : ℕ) :
    ¬ OnePingChainEach (versions .next d) interval timeout t₀ := by
  intro h
  obtain ⟨s, hexec, hstarted, hpings⟩ := grpc_reader_starts_two_chains d interval timeout t₀
  have hrun := (run_of_exec hexec).guarded fun l hl => onTime_of_no_tick (no_tick_at_start d l hl)
  obtain ⟨t, n, hone, -⟩ := h _ s hrun hstarted .source
  rw [hpings] at hone
  exact absurd (congrArg List.length hone) (by simp)

/-- Both connections are checked once in every interval exactly if the source is a legacy one. -/
theorem one_ping_chain_each_iff (version : Side → Version) (interval timeout t₀ : ℕ) :
    OnePingChainEach version interval timeout t₀ ↔ version .source = .legacy := by
  constructor
  · intro h
    cases hv : version .source with
    | legacy => rfl
    | next =>
      have hversions : version = versions .next (version .destination) := by
        funext side
        cases side with
        | source => exact hv
        | destination => rfl
      rw [hversions] at h
      exact absurd h (not_onePingChainEach (version .destination) interval timeout t₀)
  · intro hv as s h hstarted side
    rcases startedOnce_run (count_onModuleInit side hv) h with ⟨-, hleft⟩ | ⟨hone, -⟩
    · have hcount := hleft [] (hstarted side)
      cases hcount
    · exact hone

theorem grpc_source_is_checked_twice :
    ¬ OnePingChainEach (versions .next .legacy) 10000 5000 0 ∧
    ¬ OnePingChainEach (versions .next .next) 10000 5000 0 :=
  ⟨not_onePingChainEach .legacy 10000 5000 0, not_onePingChainEach .next 10000 5000 0⟩

end Interconnect
