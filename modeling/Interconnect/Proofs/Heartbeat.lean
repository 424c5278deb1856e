import Interconnect.Proofs.PingChains

/-! What a live process knows of its connections. From its first check on, each has answered one in
every window that is an interval and a timeout long; a connection that has been silent for longer
has ended the process, and nothing else of the guards' does. -/

namespace Interconnect

open Runs Pools

section Guards

variable {κ : Type} {version : κ → Version} {interval timeout : ℕ} {s s' : GuardState κ}
  {l : GuardLabel κ}

/-- Every check is followed by one an interval later, which is scheduled or has been made. -/
def Chained (interval : ℕ) (s : GuardState κ) : Prop :=
  ∀ x ∈ started s, (x.1, x.2 + interval) ∈ s.shared.pings ∨ (x.1, x.2 + interval) ∈ started s

theorem mem_set_or_eq {α : Type} {xs : List α} {i : ℕ} {x y z : α} (hx : x ∈ xs)
    (hi : xs[i]? = some z) : x = z ∨ x ∈ xs.set i y := by
  obtain ⟨j, hj⟩ := List.mem_iff_getElem?.mp hx
  by_cases hij : i = j
  · subst hij
    exact Or.inl (Option.some.inj (hj.symm.trans hi))
  · refine Or.inr (List.mem_iff_getElem?.mpr ⟨j, ?_⟩)
    rw [List.getElem?_set_ne hij, hj]

theorem chained_step (hs : Chained interval s) (hahead : Ahead s)
    (hn : GuardStep version interval timeout s l s') : Chained interval s' := by
  cases l with
  | start pinger =>
    cases pinger with
    | caller k =>
      obtain ⟨hpings, hstarted⟩ := pings_of_caller hn
      intro x hx
      rw [hstarted] at hx ⊢
      rw [hpings]
      rcases List.mem_append.mp hx with hx | hx
      · exact (hs x hx).imp (List.mem_append_left _) (List.mem_append_left _)
      · rw [List.mem_singleton.mp hx]
        exact Or.inl (List.mem_append_right _ (List.mem_singleton_self _))
    | ping i =>
      obtain ⟨k, due, hi, hdue, hpings, hstarted⟩ := pings_of_ping hn
      have hnow : due = s.shared.now := Nat.le_antisymm hdue (hahead _ (List.mem_of_getElem? hi))
      have hlt : i < s.shared.pings.length := (List.getElem?_eq_some_iff.mp hi).1
      intro x hx
      rw [hstarted] at hx ⊢
      rw [hpings]
      rcases List.mem_append.mp hx with hx | hx
      · rcases hs x hx with hping | hdone
        · -- the ping that runs is the check that its predecessor was to be followed by
          rcases mem_set_or_eq hping hi with he | hping
          · rw [he, hnow]
            exact Or.inr (List.mem_append_right _ (List.mem_singleton_self _))
          · exact Or.inl hping
        · exact Or.inr (List.mem_append_left _ hdone)
      · rw [List.mem_singleton.mp hx]
        exact Or.inl (List.mem_set hlt _)
  | act i a =>
    obtain ⟨hpings, hstarted⟩ := pings_of_other (l := .act i a) (fun _ hl => nomatch hl) hn
    unfold Chained
    rw [hpings, hstarted]
    exact hs
  | env u =>
    obtain ⟨hpings, hstarted⟩ := pings_of_other (l := .env u) (fun _ hl => nomatch hl) hn
    unfold Chained
    rw [hpings, hstarted]
    exact hs

structure Timely (now : ℕ) (c : Check κ) : Prop where
  started : c.startedAt ≤ now
  fulfilled : ∀ t, c.test = .fulfilled t → c.startedAt ≤ t

theorem timely_step {now : ℕ} {c c' : Check κ} {a : CheckAct} (hc : Timely now c)
    (h : Check.Step version now c a c') : Timely now c' := by
  obtain ⟨hstart, hful⟩ := hc
  cases h with
  | fulfils tryCount answer t _ htest =>
    refine ⟨hstart, fun t' ht' => ?_⟩
    cases ht'
    rw [(testConnection_fulfilled htest).2]
    exact hstart
  | goesOn tryCount answer test _ _ hnot => exact ⟨hstart, fun t ht => absurd ht (hnot t)⟩
  | retries => exact ⟨hstart, fun t ht => nomatch ht⟩
  | timedOut => exact ⟨hstart, hful⟩

structure Watched (interval timeout : ℕ) (s : GuardState κ) : Prop where
  deadlines : ∀ c ∈ s.calls, Deadline timeout s.shared c
  ahead : Ahead s
  chained : Chained interval s
  timely : ∀ c ∈ s.calls, Timely s.shared.now c

theorem watched_init (interval timeout now : ℕ) :
    Watched interval timeout (State.init (.init now) : GuardState κ) where
  deadlines _ hc := nomatch hc
  ahead _ hx := nomatch hx
  chained _ hx := nomatch hx
  timely _ hc := nomatch hc

theorem watched_step (hs : Watched interval timeout s) (htime : OnTime s l)
    (hn : GuardStep version interval timeout s l s') : Watched interval timeout s' where
  deadlines := deadlines_step hs.deadlines htime hn
  ahead := ahead_step hs.ahead htime hn
  chained := chained_step hs.chained hs.ahead hn
  timely := by
    have hnow : s.shared.now ≤ s'.shared.now := by
      cases l with
      | start pinger =>
        obtain ⟨c, hc, -⟩ := next_start hn
        exact (checks_start hc).2.2.1.ge
      | act i a =>
        obtain ⟨c, c', -, hc⟩ := next_act hn
        rw [(checks_step hc).2.1]
      | env u =>
        rw [(checks_env (next_env hn).1).2]
        exact Nat.le_succ _
    refine forall_calls_step (Timely s'.shared.now) hn (fun c hc => ?_) ?_ ?_
    · exact ⟨(hs.timely c hc).started.trans hnow, (hs.timely c hc).fulfilled⟩
    · rintro pinger c rfl hc
      obtain ⟨-, -, hnow, hstart⟩ := checks_start hc
      rw [hstart, hnow]
      exact ⟨Nat.le_refl _, fun t ht => nomatch ht⟩
    · rintro i a c c' rfl hget - hc
      obtain ⟨-, hp, hstep⟩ := checks_step hc
      rw [hp]
      exact timely_step (hs.timely c (List.mem_of_getElem? hget)) hstep

/-- From a check on, the next ones leave no window of an interval out. -/
theorem Watched.covers (hs : Watched interval timeout s) (hpos : 0 < interval) {k : κ} {a : ℕ}
    (hlate : a + interval < s.shared.now) (n : ℕ) :
    ∀ t, (k, t) ∈ started s → t ≤ a → a ≤ t + n →
      ∃ t', (k, t') ∈ started s ∧ a ≤ t' ∧ t' ≤ a + interval := by
  induction n with
  | zero => exact fun t ht hle hge => ⟨t, ht, hge, by omega⟩
  | succ n ih =>
    intro t ht hle hge
    rcases hs.chained _ ht with hping | hnext
    · have hahead := hs.ahead _ hping
      dsimp only at hahead
      omega
    · by_cases hreach : t + interval ≤ a
      · exact ih _ hnext hreach (by omega)
      · exact ⟨_, hnext, by omega, by omega⟩

/-- The connection has answered a check between the two times. -/
def HeardBetween (k : κ) (s : GuardState κ) (a b : ℕ) : Prop :=
  ∃ c ∈ s.calls, c.connection = k ∧ ∃ t, c.test = .fulfilled t ∧ a ≤ t ∧ t ≤ b

theorem mem_started {k : κ} {t : ℕ} :
    (k, t) ∈ started s ↔ ∃ c ∈ s.calls, c.connection = k ∧ c.startedAt = t := by
  simp [started]

theorem Watched.heard (hs : Watched interval timeout s) (hpos : 0 < interval)
    (hlive : s.shared.exited = false) {c : Check κ} (hc : c ∈ s.calls) {a : ℕ}
    (ha : c.startedAt ≤ a) (hlate : a + interval + timeout < s.shared.now) :
    HeardBetween c.connection s a (a + interval + timeout) := by
  obtain ⟨t, ht, hat, hta⟩ := hs.covers hpos (k := c.connection) (a := a) (by omega) a c.startedAt
    (mem_started.mpr ⟨c, hc, rfl, rfl⟩) ha (by omega)
  obtain ⟨c', hc', hconn, rfl⟩ := mem_started.mp ht
  obtain ⟨harmed, hcleared, hfired⟩ := hs.deadlines c' hc'
  cases htimer : c'.timer with
  | armed due =>
    obtain ⟨rfl, hle, -⟩ := harmed due htimer
    omega
  | cleared =>
    obtain ⟨t', htest, hle⟩ := hcleared htimer
    have hge := (hs.timely c' hc').fulfilled t' htest
    exact ⟨c', hc', hconn, t', htest, by omega, by omega⟩
  | fired => exact nomatch hlive.symm.trans (hfired htimer)

end Guards

/-! ### After the start-up -/

variable {version : Side → Version} {interval timeout : ℕ} {s s' : StartUpState} {l : StartUpLabel}

theorem startUp_watched_step (hs : Watched interval timeout s.guard) (htime : s.OnTime l)
    (h : s.Step version interval timeout l s') : Watched interval timeout s'.guard := by
  cases h with
  | starts other rest g _ hn => exact watched_step hs (htime _ rfl) hn
  | guard l g _ hn => exact watched_step hs (htime _ rfl) hn
  | advances => exact hs
  | fails => exact hs

def CheckedOrToBe (side : Side) (s : StartUpState) : Prop :=
  (∃ c ∈ s.guard.calls, c.connection = side) ∨
    ∀ rest, s.todo side = some rest → Instruction.startConnectionLinkPinger ∈ rest

theorem checked_stays {g : GuardState Side} {m : GuardLabel Side} {side : Side}
    (h : ∃ c ∈ s.guard.calls, c.connection = side)
    (hn : GuardStep version interval timeout s.guard m g) :
    ∃ c ∈ g.calls, c.connection = side := by
  obtain ⟨c, hc, rfl⟩ := h
  have hstarted : (c.connection, c.startedAt) ∈ started s.guard := mem_started.mpr ⟨c, hc, rfl, rfl⟩
  have hmem : (c.connection, c.startedAt) ∈ started g := by
    cases m with
    | start pinger =>
      obtain ⟨d, hd, hcalls⟩ := next_start hn
      rw [started_start hcalls hd]
      exact List.mem_append_left _ hstarted
    | act i a =>
      rwa [(pings_of_other (l := .act i a) (fun _ hl => nomatch hl) hn).2]
    | env u =>
      rwa [(pings_of_other (l := .env u) (fun _ hl => nomatch hl) hn).2]
  obtain ⟨c', hc', hconn, -⟩ := mem_started.mp hmem
  exact ⟨c', hc', hconn⟩

theorem checkedOrToBe_step {side : Side} (hs : CheckedOrToBe side s)
    (h : s.Step version interval timeout l s') : CheckedOrToBe side s' := by
  cases h with
  | starts other rest g hrest hn =>
    by_cases ho : other = side
    · subst ho
      obtain ⟨c, hc, hcalls⟩ := next_start hn
      obtain ⟨-, rfl, -⟩ := checks_caller hc
      exact Or.inl ⟨_, by rw [hcalls]; exact List.mem_append_right _ (List.mem_singleton_self _), rfl⟩
    · refine hs.imp (fun h => checked_stays h hn) fun h rest' hrest' => h rest' ?_
      simpa [Function.update_of_ne (Ne.symm ho)] using hrest'
  | guard m g _ hn => exact hs.imp (fun h => checked_stays h hn) id
  | advances _ other x rest hx hne =>
    refine hs.imp id fun h rest' hrest' => ?_
    by_cases ho : side = other
    · subst ho
      simp only [Function.update_self, Option.some.injEq] at hrest'
      subst hrest'
      exact (List.mem_cons.mp (h _ hx)).resolve_left (Ne.symm hne)
    · exact h rest' (by simpa [Function.update_of_ne ho] using hrest')
  | fails _ other =>
    refine hs.imp id fun h rest' hrest' => ?_
    by_cases ho : side = other
    · subst ho
      simp at hrest'
    · exact h rest' (by simpa [Function.update_of_ne ho] using hrest')

theorem startUp_exits (hs : Watched interval timeout s.guard)
    (h : s.Step version interval timeout l s') (hlive : s.guard.shared.exited = false)
    (hex : s'.guard.shared.exited = true) :
    ∃ i c, l = .guard (.act i .timeout) ∧ s.guard.calls[i]? = some c ∧
      s.guard.shared.now = c.startedAt + timeout ∧ ∀ t, c.test ≠ .fulfilled t := by
  cases h with
  | starts other rest g _ hn =>
    obtain ⟨i, c, hl, -⟩ := exits_at_deadline hs.deadlines hn hex
    cases hl
  | guard m g _ hn =>
    obtain ⟨i, c, rfl, hc⟩ := exits_at_deadline hs.deadlines hn hex
    exact ⟨i, c, rfl, hc⟩
  | advances => exact nomatch hlive.symm.trans hex
  | fails => exact nomatch hlive.symm.trans hex

theorem mem_onModuleInit (side : Side) :
    Instruction.startConnectionLinkPinger ∈ onModuleInit version side := by
  cases side with
  | source => cases hv : version .source <;> simp only [onModuleInit, hv] <;> decide
  | destination => cases hv : version .destination <;> simp only [onModuleInit, hv] <;> decide

/-- Once the reader and the driver have started, and as long as the process lives, the source and
the destination have each answered a check in every window of an interval and a timeout since their
first; the guards end the process at the deadline of a check that was not answered, only then. -/
theorem live_process_hears_both_sides (version : Side → Version) (interval timeout t₀ : ℕ)
    (hpos : 0 < interval) {as : List StartUpLabel} {s : StartUpState}
    (h : Run (Guarded StartUpState.OnTime (StartUpStep version interval timeout))
      (.init version t₀) as s) :
    (s.Started → s.guard.shared.exited = false → ∀ side,
      (∃ c ∈ s.guard.calls, c.connection = side) ∧
      ∀ c ∈ s.guard.calls, c.connection = side → ∀ a, c.startedAt ≤ a →
        a + interval + timeout < s.guard.shared.now →
        HeardBetween side s.guard a (a + interval + timeout)) ∧
    ∀ l s', StartUpStep version interval timeout s l s' → s.guard.shared.exited = false →
      s'.guard.shared.exited = true →
      ∃ i c, l = .guard (.act i .timeout) ∧ s.guard.calls[i]? = some c ∧
        s.guard.shared.now = c.startedAt + timeout ∧ ∀ t, c.test ≠ .fulfilled t := by
  have hboth := h.invariant
    (fun s => Watched interval timeout s.guard ∧ ∀ side, CheckedOrToBe side s)
    ⟨watched_init .., fun side => Or.inr fun rest hrest => by
      cases hrest
      exact mem_onModuleInit side⟩
    fun s l s' hs hn => ⟨startUp_watched_step hs.1 hn.1 (StartUpState.next_cases hn.2),
      fun side => checkedOrToBe_step (hs.2 side) (StartUpState.next_cases hn.2)⟩
  obtain ⟨hwatched, hchecked⟩ := hboth
  refine ⟨fun hstarted hlive side => ?_, fun l s' hs hlive hex =>
    startUp_exits hwatched (StartUpState.next_cases hs) hlive hex⟩
  refine ⟨(hchecked side).resolve_right fun hto => ?_, ?_⟩
  · cases hto [] (hstarted side)
  · rintro c hc rfl a ha hlate
    exact hwatched.heard hpos hlive hc ha hlate

def bothStart : List StartUpLabel :=
  [.answered .source true, .answered .source true, .guard (.start (.caller .source)),
    .guard (.act 0 (.answers .ok)), .continues .source, .answered .source true,
    .guard (.start (.caller .destination)), .guard (.act 1 (.answers .ok)), .continues .destination]

def bothPing (n : ℕ) : List StartUpLabel :=
  [.guard (.start (.ping 0)), .guard (.start (.ping 1)), .guard (.act n (.answers .ok)),
    .guard (.act (n + 1) (.answers .ok))]

def tick : StartUpLabel := .guard (.env ())

def afterBothStart : StartUpState :=
  (exec (StartUpState.next (versions .legacy .next) 1 1) (.init (versions .legacy .next) 0)
    bothStart).get rfl

def afterOnePing : StartUpState :=
  (exec (StartUpState.next (versions .legacy .next) 1 1) afterBothStart (tick :: bothPing 2)).get rfl

def afterTwoPings : StartUpState :=
  (exec (StartUpState.next (versions .legacy .next) 1 1) afterOnePing (tick :: bothPing 4)).get rfl

theorem onTime_tick {s : StartUpState} {t : ℕ} (hnow : s.guard.shared.now = t)
    (hpings : ∀ x ∈ s.guard.shared.pings, t < x.2)
    (hcalls : ∀ c ∈ s.guard.calls, c.timer = .cleared ∧ c.test = .fulfilled c.startedAt) :
    s.OnTime tick := by
  rintro m hm -
  rw [hnow]
  refine ⟨hpings, fun c hc => ⟨fun due ht => ?_, fun n due ht => ?_⟩⟩
  · exact nomatch ht.symm.trans (hcalls c hc).1
  · exact nomatch ht.symm.trans (hcalls c hc).2

def answeredCheck (side : Side) (t : ℕ) : Check Side := ⟨side, t, .cleared, .fulfilled t⟩

theorem run_bothPing {s t : StartUpState} {now n : ℕ} (hnow : s.guard.shared.now = now)
    (hpings : ∀ x ∈ s.guard.shared.pings, now < x.2)
    (hcalls : ∀ c ∈ s.guard.calls, c.timer = .cleared ∧ c.test = .fulfilled c.startedAt)
    (h : exec (StartUpState.next (versions .legacy .next) 1 1) s (tick :: bothPing n) = some t) :
    Run (Guarded StartUpState.OnTime (StartUpStep (versions .legacy .next) 1 1)) s
      (tick :: bothPing n) t := by
  obtain ⟨u, hu, hrest⟩ := (run_of_exec h).uncons
  refine .cons ⟨onTime_tick hnow hpings hcalls, hu⟩ (hrest.guarded fun l hl => ?_)
  exact onTime_of_no_tick (by rintro rfl; simp [bothPing] at hl)

theorem run_bothSides :
    ∃ s, Run (Guarded StartUpState.OnTime (StartUpStep (versions .legacy .next) 1 1))
        (.init (versions .legacy .next) 0)
        (bothStart ++ (tick :: bothPing 2 ++ (tick :: bothPing 4 ++ [tick]))) s ∧
      s.Started ∧ s.guard.shared = ⟨3, false, [(.source, 3), (.destination, 3)]⟩ ∧
      s.guard.calls = [answeredCheck .source 0, answeredCheck .destination 0,
        answeredCheck .source 1, answeredCheck .destination 1, answeredCheck .source 2,
        answeredCheck .destination 2] := by
  have hcalls : afterBothStart.guard.calls =
      [answeredCheck .source 0, answeredCheck .destination 0] := rfl
  have hcalls₁ : afterOnePing.guard.calls = [answeredCheck .source 0, answeredCheck .destination 0,
      answeredCheck .source 1, answeredCheck .destination 1] := rfl
  have hcalls₂ : afterTwoPings.guard.calls = [answeredCheck .source 0,
      answeredCheck .destination 0, answeredCheck .source 1, answeredCheck .destination 1,
      answeredCheck .source 2, answeredCheck .destination 2] := rfl
  have hstart : Run (Guarded StartUpState.OnTime (StartUpStep (versions .legacy .next) 1 1))
      (.init (versions .legacy .next) 0) bothStart afterBothStart :=
    (run_of_exec rfl).guarded fun l hl => onTime_of_no_tick (by rintro rfl; simp [bothStart] at hl)
  have hping₁ : Run (Guarded StartUpState.OnTime (StartUpStep (versions .legacy .next) 1 1))
      afterBothStart (tick :: bothPing 2) afterOnePing := by
    refine run_bothPing (t := afterOnePing) rfl (by decide) ?_ rfl
    rw [hcalls]
    simp [answeredCheck]
  have hping₂ : Run (Guarded StartUpState.OnTime (StartUpStep (versions .legacy .next) 1 1))
      afterOnePing (tick :: bothPing 4) afterTwoPings := by
    refine run_bothPing (t := afterTwoPings) rfl (by decide) ?_ rfl
    rw [hcalls₁]
    simp [answeredCheck]
  have htick : afterTwoPings.OnTime tick := by
    refine onTime_tick (t := 2) rfl (by decide) ?_
    rw [hcalls₂]
    simp [answeredCheck]
  have hlast : StartUpStep (versions .legacy .next) 1 1 afterTwoPings tick _ := rfl
  refine ⟨_, hstart.append (hping₁.append (hping₂.append (Run.single ⟨htick, hlast⟩))),
    fun side => ?_, rfl, rfl⟩
  cases side <;> rfl

theorem both_sides_answer :
    ∃ s : StartUpState, s.guard.shared.now = 3 ∧ ∀ side, HeardBetween side s.guard 0 2 := by
  obtain ⟨s, hrun, hstarted, hshared, hcalls⟩ := run_bothSides
  have hheard := (live_process_hears_both_sides _ _ _ _ Nat.one_pos hrun).1 hstarted
    (by rw [hshared])
  have hfirst : ∀ side, answeredCheck side 0 ∈ s.guard.calls := by
    intro side
    rw [hcalls]
    cases side <;> simp
  exact ⟨s, by rw [hshared], fun side => (hheard side).2 _ (hfirst side) rfl 0 (Nat.le_refl 0)
    (by rw [hshared]; decide)⟩

end Interconnect
