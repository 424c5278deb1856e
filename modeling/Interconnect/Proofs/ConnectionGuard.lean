import Interconnect.Model.ConnectionGuard

/-! When the guards end the process, and how many checks they have scheduled. -/

namespace Interconnect

open Runs Pools

variable {κ : Type} {version : κ → Version} {interval timeout : ℕ}

/-- Every timer runs when it is due: time goes on only once none is left. -/
def OnTime (s : GuardState κ) (l : GuardLabel κ) : Prop :=
  l = .env () → (∀ x ∈ s.shared.pings, s.shared.now < x.2) ∧
    ∀ c ∈ s.calls, (∀ due, c.timer = .armed due → s.shared.now < due) ∧
      ∀ tryCount due, c.test = .waiting tryCount due → s.shared.now < due

structure Deadline (timeout : ℕ) (p : GuardProcess κ) (c : Check κ) : Prop where
  armed : ∀ due, c.timer = .armed due →
    due = c.startedAt + timeout ∧ p.now ≤ due ∧ ∀ t, c.test ≠ .fulfilled t
  cleared : c.timer = .cleared → ∃ t, c.test = .fulfilled t ∧ t ≤ c.startedAt + timeout
  fired : c.timer = .fired → p.exited = true

theorem testConnection_fulfilled {v : Version} {now tryCount t : ℕ} {answer : Answer}
    (h : testConnection v now tryCount answer = .fulfilled t) : answer = .ok ∧ t = now := by
  cases v with
  | legacy =>
    cases answer with
    | ok =>
      cases h
      exact ⟨rfl, rfl⟩
    | unavailableError => cases h
    | error => cases h
  | next =>
    cases answer with
    | ok =>
      cases h
      exact ⟨rfl, rfl⟩
    | unavailableError =>
      simp only [testConnection, NextConnectionGuardService.testConnection] at h
      split_ifs at h
    | error => cases h

theorem deadline_start (p p' : GuardProcess κ) (connection : κ) (h : p'.now = p.now) :
    Deadline timeout p' (startConnectionLinkPinger timeout p.now connection) := by
  refine ⟨fun due ht => ?_, fun ht => (nomatch ht), fun ht => (nomatch ht)⟩
  cases ht
  exact ⟨rfl, by rw [h]; exact Nat.le_add_right _ _, fun t ht => nomatch ht⟩

theorem Deadline.frame {p p' : GuardProcess κ} {c : Check κ} (h : Deadline timeout p c)
    (hnow : ∀ due, c.timer = .armed due → p.now ≤ due → p'.now ≤ due)
    (hex : p.exited = true → p'.exited = true) : Deadline timeout p' c :=
  ⟨fun due ht => ⟨(h.armed due ht).1, hnow due ht (h.armed due ht).2.1, (h.armed due ht).2.2⟩,
    h.cleared, fun ht => hex (h.fired ht)⟩

theorem deadline_step {p : GuardProcess κ} {c c' : Check κ} {a : CheckAct}
    (h : Deadline timeout p c) (hex : p.exited = false) (hs : Check.Step version p.now c a c') :
    Deadline timeout { p with exited := a.exits } c' := by
  cases hs with
  | fulfils tryCount answer t hask htest =>
    obtain ⟨-, rfl⟩ := testConnection_fulfilled htest
    cases ht : c.timer with
    | armed due =>
      obtain ⟨rfl, hle, -⟩ := h.armed due ht
      refine ⟨fun due' ht' => ?_, fun _ => ⟨p.now, rfl, hle⟩, fun ht' => ?_⟩
      · exact nomatch ht'
      · exact nomatch ht'
    | cleared =>
      obtain ⟨t, hful, -⟩ := h.cleared ht
      exact nomatch hask.symm.trans hful
    | fired => exact nomatch hex.symm.trans (h.fired ht)
  | goesOn tryCount answer test hask htest hnot =>
    refine ⟨fun due ht => ?_, fun ht => ?_, fun ht => ?_⟩
    · obtain ⟨hdue, hle, -⟩ := h.armed due ht
      exact ⟨hdue, hle, hnot⟩
    · obtain ⟨t, hful, -⟩ := h.cleared ht
      exact nomatch hask.symm.trans hful
    · exact nomatch hex.symm.trans (h.fired ht)
  | retries tryCount due hwait hdue =>
    refine ⟨fun due ht => ?_, fun ht => ?_, fun ht => ?_⟩
    · obtain ⟨hdue, hle, -⟩ := h.armed due ht
      exact ⟨hdue, hle, fun t ht => nomatch ht⟩
    · obtain ⟨t, hful, -⟩ := h.cleared ht
      exact nomatch hwait.symm.trans hful
    · exact nomatch hex.symm.trans (h.fired ht)
  | timedOut due ht hdue =>
    exact ⟨fun due ht => (nomatch ht), fun ht => (nomatch ht), fun _ => rfl⟩

theorem deadlines_step {s s' : GuardState κ} {l : GuardLabel κ}
    (hs : ∀ c ∈ s.calls, Deadline timeout s.shared c) (htime : OnTime s l)
    (hn : GuardStep version interval timeout s l s') :
    ∀ c ∈ s'.calls, Deadline timeout s'.shared c := by
  refine forall_calls_step (Deadline timeout s'.shared) hn (fun c hc => ?_) ?_ ?_
  · cases l with
    | start pinger =>
      obtain ⟨d, hd, -⟩ := next_start hn
      obtain ⟨hex, -, hnow, -⟩ := checks_start hd
      exact (hs c hc).frame (fun _ _ hle => hnow ▸ hle) fun h => nomatch hex.symm.trans h
    | act i a =>
      obtain ⟨d, d', -, hd⟩ := next_act hn
      obtain ⟨hex, hp, -⟩ := checks_step hd
      exact (hs c hc).frame (fun _ _ hle => by rwa [hp]) fun h => nomatch hex.symm.trans h
    | env u =>
      obtain ⟨henv, -⟩ := next_env hn
      obtain ⟨hex, hp⟩ := checks_env henv
      refine (hs c hc).frame (fun due ht _ => ?_) fun h => nomatch hex.symm.trans h
      rw [hp]
      exact ((htime rfl).2 c hc).1 due ht
  · rintro pinger c rfl hc
    obtain ⟨-, -, hnow, hstart⟩ := checks_start hc
    rw [hstart]
    exact deadline_start s.shared s'.shared c.connection hnow
  · rintro i a c c' rfl hget - hc
    obtain ⟨hex, hp, hstep⟩ := checks_step hc
    rw [hp]
    exact deadline_step (hs c (List.mem_of_getElem? hget)) hex hstep

def Ahead (s : GuardState κ) : Prop := ∀ x ∈ s.shared.pings, s.shared.now ≤ x.2

theorem ahead_step {s s' : GuardState κ} {l : GuardLabel κ} (hs : Ahead s) (htime : OnTime s l)
    (hn : GuardStep version interval timeout s l s') : Ahead s' := by
  intro x hx
  cases l with
  | start pinger =>
    obtain ⟨c, hc, -⟩ := next_start hn
    cases pinger with
    | caller k =>
      obtain ⟨-, -, hp⟩ := checks_caller hc
      rw [hp] at hx ⊢
      rcases List.mem_append.mp hx with hx | hx
      · exact hs x hx
      · rw [List.mem_singleton.mp hx]
        exact Nat.le_add_right _ _
    | ping i =>
      obtain ⟨-, k, due, -, -, -, hp⟩ := checks_ping hc
      rw [hp] at hx ⊢
      rcases List.mem_or_eq_of_mem_set hx with hx | rfl
      · exact hs x hx
      · exact Nat.le_add_right _ _
  | act i a =>
    obtain ⟨c, c', -, hc⟩ := next_act hn
    obtain ⟨-, hp, -⟩ := checks_step hc
    rw [hp] at hx ⊢
    exact hs x hx
  | env u =>
    obtain ⟨henv, -⟩ := next_env hn
    obtain ⟨-, hp⟩ := checks_env henv
    rw [hp] at hx ⊢
    exact (htime rfl).1 x hx

def started (s : GuardState κ) : List (κ × ℕ) := s.calls.map fun c => (c.connection, c.startedAt)

theorem started_start {s s' : GuardState κ} {pinger : Pinger κ} {c : Check κ}
    (hcalls : s'.calls = s.calls ++ [c])
    (hc : (checks version interval timeout).start s.shared s.calls.length pinger =
      some (s'.shared, c)) : started s' = started s ++ [(c.connection, s.shared.now)] := by
  obtain ⟨-, -, -, hstart⟩ := checks_start hc
  rw [started, hcalls, List.map_append, hstart]
  rfl

theorem pings_of_caller {s s' : GuardState κ} {k : κ}
    (hn : GuardStep version interval timeout s (.start (.caller k)) s') :
    s'.shared.pings = s.shared.pings ++ [(k, s.shared.now + interval)] ∧
      started s' = started s ++ [(k, s.shared.now)] := by
  obtain ⟨c, hc, hcalls⟩ := next_start hn
  obtain ⟨-, rfl, hp⟩ := checks_caller hc
  exact ⟨by rw [hp]; rfl, started_start hcalls hc⟩

theorem pings_of_ping {s s' : GuardState κ} {i : ℕ}
    (hn : GuardStep version interval timeout s (.start (.ping i)) s') :
    ∃ k due, s.shared.pings[i]? = some (k, due) ∧ due ≤ s.shared.now ∧
      s'.shared.pings = s.shared.pings.set i (k, s.shared.now + interval) ∧
      started s' = started s ++ [(k, s.shared.now)] := by
  obtain ⟨c, hc, hcalls⟩ := next_start hn
  obtain ⟨-, k, due, hi, hdue, rfl, hp⟩ := checks_ping hc
  exact ⟨k, due, hi, hdue, by rw [hp]; rfl, started_start hcalls hc⟩

theorem pings_of_other {s s' : GuardState κ} {l : GuardLabel κ} (hl : ∀ pinger, l ≠ .start pinger)
    (hn : GuardStep version interval timeout s l s') :
    s'.shared.pings = s.shared.pings ∧ started s' = started s := by
  cases l with
  | start pinger => exact absurd rfl (hl pinger)
  | act i a =>
    obtain ⟨c, c', hm, hc⟩ := next_act hn
    obtain ⟨-, hp, hstep⟩ := checks_step hc
    refine ⟨by rw [hp], hm.map_eq ?_⟩
    cases hstep <;> rfl
  | env u =>
    obtain ⟨henv, hcalls⟩ := next_env hn
    obtain ⟨-, hp⟩ := checks_env henv
    exact ⟨by rw [hp], by rw [started, hcalls]; rfl⟩

def OnePing (connection : κ) (p : GuardProcess κ) : Prop :=
  ∃ due, p.pings = [(connection, due)] ∧ p.now ≤ due

theorem onePing_step {connection : κ} {s s' : GuardState κ} {l : GuardLabel κ}
    (hs : OnePing connection s.shared) (hnew : ∀ k, l ≠ .start (.caller k)) (htime : OnTime s l)
    (hn : GuardStep version interval timeout s l s') : OnePing connection s'.shared := by
  obtain ⟨due, hpings, hle⟩ := hs
  have hahead : Ahead s := by
    intro x hx
    rw [hpings] at hx
    rw [List.mem_singleton.mp hx]
    exact hle
  have hone : ∃ due', s'.shared.pings = [(connection, due')] := by
    cases l with
    | start pinger =>
      cases pinger with
      | caller k => exact absurd rfl (hnew k)
      | ping i =>
        obtain ⟨k, due', hi, -, hp, -⟩ := pings_of_ping hn
        rw [hpings, List.getElem?_singleton] at hi
        split_ifs at hi with hi0
        cases hi
        exact ⟨s.shared.now + interval, by rw [hp, hpings, hi0]; rfl⟩
    | act i a =>
      have hother := pings_of_other (l := .act i a) (fun _ hl => nomatch hl) hn
      exact ⟨due, hother.1.trans hpings⟩
    | env u =>
      have hother := pings_of_other (l := .env u) (fun _ hl => nomatch hl) hn
      exact ⟨due, hother.1.trans hpings⟩
  obtain ⟨due', hpings'⟩ := hone
  exact ⟨due', hpings', ahead_step hahead htime hn (connection, due') (by simp [hpings'])⟩

def Check.FulfilledWithin (timeout : ℕ) (c : Check κ) : Prop :=
  ∃ t, c.test = .fulfilled t ∧ t ≤ c.startedAt + timeout

/-- What is promised of the guard of one connection, where a single call started it. -/
structure EndsProcessRightly (version : κ → Version) (interval timeout : ℕ) (connection : κ)
    (s : GuardState κ) : Prop where
  alive : s.shared.exited = false → ∀ c ∈ s.calls, c.startedAt + timeout < s.shared.now →
    c.FulfilledWithin timeout
  exits : ∀ l s', GuardStep version interval timeout s l s' → s'.shared.exited = true →
    ∃ i c, l = .act i .timeout ∧ s.calls[i]? = some c ∧
      s.shared.now = c.startedAt + timeout ∧ ∀ t, c.test ≠ .fulfilled t
  others : ∀ l s', GuardStep version interval timeout s l s' → ∀ i c, s.calls[i]? = some c →
    (∀ a, l ≠ .act i a) → s'.calls[i]? = some c
  onePing : OnePing connection s.shared

theorem step_keeps_others {s s' : GuardState κ} {l : GuardLabel κ}
    (hn : GuardStep version interval timeout s l s') {i : ℕ} {c : Check κ}
    (hc : s.calls[i]? = some c) (hl : ∀ a, l ≠ .act i a) : s'.calls[i]? = some c := by
  cases l with
  | start pinger =>
    obtain ⟨d, -, hcalls⟩ := next_start hn
    rw [hcalls, List.getElem?_append_left (List.getElem?_eq_some_iff.mp hc).1, hc]
  | act j a =>
    obtain ⟨d, d', hm, -⟩ := next_act hn
    rw [hm.others i fun hij => hl a (by rw [hij]), hc]
  | env u => rw [(next_env hn).2, hc]

theorem exits_at_deadline {s s' : GuardState κ} {l : GuardLabel κ}
    (hs : ∀ c ∈ s.calls, Deadline timeout s.shared c)
    (hn : GuardStep version interval timeout s l s') (hex : s'.shared.exited = true) :
    ∃ i c, l = .act i .timeout ∧ s.calls[i]? = some c ∧
      s.shared.now = c.startedAt + timeout ∧ ∀ t, c.test ≠ .fulfilled t := by
  cases l with
  | start pinger =>
    obtain ⟨d, hd, -⟩ := next_start hn
    obtain ⟨-, hex', -⟩ := checks_start hd
    exact nomatch hex'.symm.trans hex
  | act i a =>
    obtain ⟨c, c', hm, hc⟩ := next_act hn
    obtain ⟨-, hp, hstep⟩ := checks_step hc
    rw [hp] at hex
    cases a with
    | answers answer => cases hex
    | retries => cases hex
    | timeout =>
      cases hstep with
      | timedOut due ht hdue =>
        obtain ⟨rfl, hle, hnot⟩ := (hs c (List.mem_of_getElem? hm.before)).armed due ht
        exact ⟨i, c, rfl, hm.before, Nat.le_antisymm hle hdue, hnot⟩
  | env u =>
    obtain ⟨henv, -⟩ := next_env hn
    obtain ⟨hex', hp⟩ := checks_env henv
    rw [hp] at hex
    exact nomatch hex'.symm.trans hex

/-- In every run that one call of `startConnectionLinkPinger` starts, whatever the client answers
and whenever, the guard ends the process rightly. -/
theorem one_call_ends_process_rightly (version : κ → Version) (interval timeout t₀ : ℕ)
    (connection : κ) {as : List (GuardLabel κ)} {s : GuardState κ}
    (h : Run (Guarded OnTime (GuardStep version interval timeout)) (State.init (.init t₀))
      (.start (.caller connection) :: as) s)
    (hone : ∀ l ∈ as, ∀ k, l ≠ .start (.caller k)) :
    EndsProcessRightly version interval timeout connection s := by
  obtain ⟨s₁, ⟨htime, hfirst⟩, hrest⟩ := h.uncons
  have hpool : ∀ c ∈ s₁.calls, Deadline timeout s₁.shared c :=
    deadlines_step (by simp) htime hfirst
  have hping : OnePing connection s₁.shared := by
    have hpings := (pings_of_caller hfirst).1
    have hahead : Ahead s₁ := ahead_step (fun x hx => by cases hx) htime hfirst
    refine ⟨t₀ + interval, hpings, hahead (connection, t₀ + interval) ?_⟩
    rw [hpings]
    exact List.mem_singleton_self _
  obtain ⟨hdeadlines, hone'⟩ := hrest.invariant_of_labels (fun l => ∀ k, l ≠ .start (.caller k))
    (fun s => (∀ c ∈ s.calls, Deadline timeout s.shared c) ∧ OnePing connection s.shared) hone
    ⟨hpool, hping⟩ fun s l s' hs hl hn =>
      ⟨deadlines_step hs.1 hn.1 hn.2, onePing_step hs.2 hl hn.1 hn.2⟩
  refine ⟨fun hex c hc hlate => ?_, fun l s' hn => exits_at_deadline hdeadlines hn,
    fun l s' hn i c hc hl => step_keeps_others hn hc hl, hone'⟩
  obtain ⟨harmed, hcleared, hfired⟩ := hdeadlines c hc
  cases ht : c.timer with
  | armed due =>
    obtain ⟨rfl, hle, -⟩ := harmed due ht
    exact absurd hlate (Nat.not_lt.mpr hle)
  | cleared => exact hcleared ht
  | fired => exact nomatch hex.symm.trans (hfired ht)

def overlappingChecks : List (GuardLabel Unit) :=
  [.env (), .start (.ping 0), .act 1 (.answers .ok), .env ()]

def afterOverlappingChecks : GuardState Unit :=
  ⟨⟨2, false, [((), 2)]⟩, [⟨(), 0, .armed 2, .asking 0⟩, ⟨(), 1, .cleared, .fulfilled 1⟩]⟩

theorem run_overlappingChecks :
    Run (Guarded OnTime (GuardStep (fun _ => .next) 1 2)) (State.init (.init 0))
      (.start (.caller ()) :: overlappingChecks) afterOverlappingChecks := by
  refine Run.cons ⟨?_, rfl⟩ (Run.cons ⟨?_, rfl⟩ (Run.cons ⟨?_, rfl⟩ (Run.cons ⟨?_, rfl⟩
    (Run.cons ⟨?_, rfl⟩ .nil))))
  · exact fun h => nomatch h
  · rintro -
    refine ⟨by simp [loadNextPing, GuardProcess.init], fun c hc => ?_⟩
    cases List.mem_singleton.mp hc
    refine ⟨fun due ht => ?_, fun n due ht => nomatch ht⟩
    cases ht
    exact Nat.zero_lt_two
  · exact fun h => nomatch h
  · exact fun h => nomatch h
  · rintro -
    refine ⟨by simp [loadNextPing, GuardProcess.init], fun c hc => ?_⟩
    rcases List.mem_cons.mp hc with rfl | hc
    · refine ⟨fun due ht => ?_, fun n due ht => nomatch ht⟩
      cases ht
      exact Nat.one_lt_two
    · cases List.mem_singleton.mp hc
      exact ⟨fun due ht => (nomatch ht), fun n due ht => nomatch ht⟩

theorem overlapping_checks_end_process_rightly :
    EndsProcessRightly (fun _ => .next) 1 2 () afterOverlappingChecks := by
  refine one_call_ends_process_rightly _ _ _ _ _ run_overlappingChecks ?_
  intro l hl k he
  rw [he] at hl
  simp [overlappingChecks] at hl

end Interconnect
