import Interconnect.Proofs.ConnectionGuard

/-! The retries of the gRPC guard's checks against the timer that ends the process. -/

namespace Interconnect

open Runs Pools

variable {answers : ℕ → Answer} {interval timeout : ℕ}

/-- The first success comes as answer `k`, after failures that are retried. -/
def SucceedsAt (answers : ℕ → Answer) (k : ℕ) : Prop :=
  answers k = .ok ∧ ∀ j < k, answers j = .unavailableError

def FulfilsWithinBudget (answers : ℕ → Answer) : Prop := ∃ k ≤ 10, SucceedsAt answers k

/-- The check at position `i` is given the answers in turn, without delay, and time goes on only
once its due timers have run. -/
structure Prompt {κ : Type} (answers : ℕ → Answer) (i : ℕ) (s : GuardState κ) (l : GuardLabel κ) :
    Prop where
  answered : ∀ c answer n, l = .act i (.answers answer) → s.calls[i]? = some c →
    c.test = .asking n → answer = answers n
  time : ∀ c, l = .env () → s.calls[i]? = some c → (∀ n, c.test ≠ .asking n) ∧
    (∀ due, c.timer = .armed due → s.shared.now < due) ∧
    ∀ n due, c.test = .waiting n due → s.shared.now < due

def Test.IsSettled (test : Test) : Prop := (∃ t, test = .fulfilled t) ∨ test = .rejected

/-- What is promised of a check that is given the answers without delay. -/
structure WithinBudget {κ : Type} (answers : ℕ → Answer) (p : GuardProcess κ) (c : Check κ) :
    Prop where
  tries : ∀ n, c.test = .asking n → n ≤ 10
  stops : p.exited = false → c.startedAt + 5000 < p.now → c.test.IsSettled
  fulfilled : ∀ t, c.test = .fulfilled t → FulfilsWithinBudget answers
  rejected : c.test = .rejected → ¬ FulfilsWithinBudget answers
  notEnded : FulfilsWithinBudget answers → c.timer ≠ .fired

inductive Tried (answers : ℕ → Answer) (now startedAt : ℕ) : Test → Prop
  | asking (n : ℕ) : n ≤ 10 → (∀ j < n, answers j = .unavailableError) →
      now = startedAt + 500 * n → Tried answers now startedAt (.asking n)
  | waiting (n : ℕ) : n < 10 → (∀ j < n + 1, answers j = .unavailableError) →
      now ≤ startedAt + 500 * (n + 1) →
      Tried answers now startedAt (.waiting n (startedAt + 500 * (n + 1)))
  | fulfilled (t k : ℕ) : k ≤ 10 → SucceedsAt answers k → Tried answers now startedAt (.fulfilled t)
  | rejected (k : ℕ) : k ≤ 10 → (∀ j < k, answers j = .unavailableError) → answers k ≠ .ok →
      (answers k = .unavailableError → k = 10) → Tried answers now startedAt .rejected

theorem succeedsAt_le {k n : ℕ} (hk : SucceedsAt answers k)
    (hn : ∀ j < n, answers j = .unavailableError) : n ≤ k := by
  by_contra hlt
  have hun := hn k (by omega)
  rw [hk.1] at hun
  cases hun

theorem tried_answers {now startedAt n : ℕ} (h : Tried answers now startedAt (.asking n)) :
    Tried answers now startedAt (testConnection .next now n (answers n)) := by
  cases h with
  | asking _ hn hun hnow =>
    cases ha : answers n with
    | ok => exact .fulfilled now n hn ⟨ha, hun⟩
    | error => exact .rejected n hn hun (by simp [ha]) (by simp [ha])
    | unavailableError =>
      have hun' : ∀ j < n + 1, answers j = .unavailableError := by
        intro j hj
        rcases Nat.lt_succ_iff_lt_or_eq.mp hj with hj | rfl
        · exact hun j hj
        · exact ha
      simp only [testConnection, NextConnectionGuardService.testConnection]
      split_ifs with hlt
      · have hdue : now + 500 = startedAt + 500 * (n + 1) := by omega
        rw [hdue]
        exact .waiting n hlt hun' (by omega)
      · exact .rejected n hn hun (by simp [ha]) fun _ => by omega

theorem tried_retries {now startedAt n due : ℕ} (h : Tried answers now startedAt (.waiting n due))
    (hdue : due ≤ now) : Tried answers now startedAt (.asking (n + 1)) := by
  cases h with
  | waiting _ hn hun hle => exact .asking (n + 1) hn hun (Nat.le_antisymm hle hdue)

theorem Tried.later {now startedAt : ℕ} {test : Test} (h : Tried answers now startedAt test)
    (hask : ∀ n, test ≠ .asking n) (hwait : ∀ n due, test = .waiting n due → now < due) :
    Tried answers (now + 1) startedAt test := by
  cases h with
  | asking n => exact absurd rfl (hask n)
  | waiting n hn hun _ => exact .waiting n hn hun (hwait n _ rfl)
  | fulfilled t k hk hs => exact .fulfilled t k hk hs
  | rejected k hk hun hok hlast => exact .rejected k hk hun hok hlast

theorem not_fulfils_of_rejected {now startedAt : ℕ} (h : Tried answers now startedAt .rejected) :
    ¬ FulfilsWithinBudget answers := by
  cases h with
  | rejected n hn hun hok hlast =>
    rintro ⟨k, hk, hs⟩
    rcases Nat.lt_or_eq_of_le (succeedsAt_le hs hun) with hlt | rfl
    · have hten := hlast (hs.2 n hlt)
      omega
    · exact hok hs.1

theorem Tried.now_le {now startedAt k : ℕ} {test : Test} (h : Tried answers now startedAt test)
    (hk : SucceedsAt answers k) (hle : k ≤ 10) (hnot : ∀ t, test ≠ .fulfilled t) :
    now ≤ startedAt + 500 * k := by
  cases test with
  | asking n =>
    cases h with
    | asking _ hn hun hnow =>
      have hnk := succeedsAt_le hk hun
      omega
  | waiting n due =>
    cases h with
    | waiting _ hn hun hnow =>
      have hnk := succeedsAt_le hk hun
      omega
  | fulfilled t => exact absurd rfl (hnot t)
  | rejected => exact absurd ⟨k, hle, hk⟩ (not_fulfils_of_rejected h)

structure Punctual {κ : Type} (answers : ℕ → Answer) (timeout : ℕ) (p : GuardProcess κ)
    (c : Check κ) : Prop where
  deadline : Deadline timeout p c
  tried : Tried answers p.now c.startedAt c.test
  fired : c.timer = .fired → p.now = c.startedAt + timeout ∧ ∀ t, c.test ≠ .fulfilled t

theorem Punctual.withinBudget {κ : Type} {p : GuardProcess κ} {c : Check κ}
    (h : Punctual answers timeout p c)
    (hbudget : ∀ k ≤ 10, SucceedsAt answers k → 500 * k < timeout) : WithinBudget answers p c := by
  obtain ⟨-, htried, hfired⟩ := h
  refine ⟨fun n hn => ?_, fun _ hlate => ?_, fun t ht => ?_, fun hr => ?_, ?_⟩
  · rw [hn] at htried
    cases htried with
    | asking _ hle => exact hle
  · cases ht : c.test with
    | asking n =>
      rw [ht] at htried
      cases htried with
      | asking _ hle _ hnow => omega
    | waiting n due =>
      rw [ht] at htried
      cases htried with
      | waiting _ hlt _ hnow => omega
    | fulfilled t => exact Or.inl ⟨t, rfl⟩
    | rejected => exact Or.inr rfl
  · rw [ht] at htried
    cases htried with
    | fulfilled _ k hk hs => exact ⟨k, hk, hs⟩
  · rw [hr] at htried
    exact not_fulfils_of_rejected htried
  · rintro ⟨k, hk, hs⟩ hf
    obtain ⟨hnow, hnot⟩ := hfired hf
    have hle := htried.now_le hs hk hnot
    have hlt := hbudget k hk hs
    omega

theorem punctual_start {κ : Type} (p p' : GuardProcess κ) (connection : κ) (h : p'.now = p.now) :
    Punctual answers timeout p' (startConnectionLinkPinger timeout p.now connection) :=
  ⟨deadline_start p p' connection h, .asking 0 (Nat.zero_le _) (fun _ hj => (nomatch hj)) h,
    fun ht => nomatch ht⟩

theorem Punctual.frame {κ : Type} {p p' : GuardProcess κ} {c : Check κ}
    (h : Punctual answers timeout p c) (hex : p.exited = false) (hnow : p'.now = p.now) :
    Punctual answers timeout p' c :=
  ⟨h.deadline.frame (fun _ _ hle => hnow ▸ hle) fun he => (nomatch hex.symm.trans he),
    hnow ▸ h.tried, fun ht => nomatch hex.symm.trans (h.deadline.fired ht)⟩

theorem punctual_step {κ : Type} {p : GuardProcess κ} {c c' : Check κ} {a : CheckAct}
    (h : Punctual answers timeout p c) (hex : p.exited = false)
    (hans : ∀ answer n, a = .answers answer → c.test = .asking n → answer = answers n)
    (hs : Check.Step (fun _ => .next) p.now c a c') :
    Punctual answers timeout { p with exited := a.exits } c' := by
  refine ⟨deadline_step h.deadline hex hs, ?_, fun ht => ?_⟩
  · cases hs with
    | fulfils n answer t hask htest =>
      have htried := h.tried
      rw [hask] at htried
      cases hans answer n rfl hask
      exact htest ▸ tried_answers htried
    | goesOn n answer test hask htest _ =>
      have htried := h.tried
      rw [hask] at htried
      cases hans answer n rfl hask
      exact htest ▸ tried_answers htried
    | retries n due hwait hdue =>
      have htried := h.tried
      rw [hwait] at htried
      exact tried_retries htried hdue
    | timedOut due _ _ => exact h.tried
  · have hfired : c.timer ≠ .fired := fun hf => nomatch hex.symm.trans (h.deadline.fired hf)
    cases hs with
    | fulfils n answer t hask htest =>
      cases ht' : c.timer with
      | armed due => simp [ht', Timer.clear] at ht
      | cleared => simp [ht', Timer.clear] at ht
      | fired => exact absurd ht' hfired
    | goesOn => exact absurd ht hfired
    | retries => exact absurd ht hfired
    | timedOut due ht' hdue =>
      obtain ⟨rfl, hle, hnot⟩ := h.deadline.armed due ht'
      exact ⟨Nat.le_antisymm hle hdue, hnot⟩

theorem punctual_env {κ : Type} {i : ℕ} {s s' : GuardState κ} {c : Check κ}
    (h : Punctual answers timeout s.shared c) (hprompt : Prompt answers i s (.env ()))
    (hc : s.calls[i]? = some c) (hex : s.shared.exited = false)
    (hp : s'.shared = { s.shared with now := s.shared.now + 1 }) :
    Punctual answers timeout s'.shared c := by
  obtain ⟨hask, harmed, hwait⟩ := hprompt.time c rfl hc
  refine ⟨h.deadline.frame (fun due ht _ => ?_) (fun he => nomatch hex.symm.trans he), ?_, ?_⟩
  · rw [hp]
    exact harmed due ht
  · rw [hp]
    exact h.tried.later hask hwait
  · exact fun ht => nomatch hex.symm.trans (h.deadline.fired ht)

theorem punctual_run {κ : Type} {i t₀ : ℕ} {as : List (GuardLabel κ)} {s : GuardState κ}
    (h : Run (Guarded (Prompt answers i) (GuardStep (fun _ => .next) interval timeout))
      (State.init (.init t₀)) as s) :
    ∀ c, s.calls[i]? = some c → Punctual answers timeout s.shared c := by
  refine h.invariant (fun s => ∀ c, s.calls[i]? = some c → Punctual answers timeout s.shared c)
    (fun c hc => by simp at hc) ?_
  rintro s l s' hs ⟨hprompt, hn⟩ c hc
  cases l with
  | start pinger =>
    obtain ⟨d, hd, hcalls⟩ := next_start hn
    obtain ⟨hex, -, hnow, hstart⟩ := checks_start hd
    rw [hcalls] at hc
    rcases getElem?_append_cases hc with ⟨-, rfl⟩ | hc
    · rw [hstart]
      exact punctual_start s.shared s'.shared c.connection hnow
    · exact (hs c hc).frame hex hnow
  | act j a =>
    obtain ⟨d, d', hm, hd⟩ := next_act hn
    obtain ⟨hex, hp, hstep⟩ := checks_step hd
    rcases hm.cases hc with ⟨rfl, rfl⟩ | ⟨-, hc⟩
    · rw [hp]
      refine punctual_step (hs d hm.before) hex (fun answer n ha hask => ?_) hstep
      exact hprompt.answered d answer n (by rw [ha]) hm.before hask
    · exact (hs c hc).frame hex (by rw [hp])
  | env u =>
    obtain ⟨henv, hcalls⟩ := next_env hn
    obtain ⟨hex, hp⟩ := checks_env henv
    rw [hcalls] at hc
    exact punctual_env (hs c hc) hprompt hc hex hp

/-- Every run keeps what is promised of a check of the gRPC guard that is given the answers. -/
def RetryBudgetUsable (timeout : ℕ) (answers : ℕ → Answer) : Prop :=
  ∀ (interval t₀ i : ℕ) (as : List (GuardLabel Unit)) (s : GuardState Unit) (c : Check Unit),
    Run (Guarded (Prompt answers i) (GuardStep (fun _ => .next) interval timeout))
      (State.init (.init t₀)) as s →
    s.calls[i]? = some c → WithinBudget answers s.shared c

/-! ### A check that is ended while it waits -/

def soloCheck (interval now : ℕ) (exited : Bool) (timer : Timer) (test : Test) : GuardState Unit :=
  ⟨⟨now, exited, [((), 0 + interval)]⟩, [⟨(), 0, timer, test⟩]⟩

theorem prompt_act {i : ℕ} {s : GuardState Unit} {a : CheckAct}
    (h : ∀ c answer n, a = .answers answer → s.calls[i]? = some c → c.test = .asking n →
      answer = answers n) : Prompt answers i s (.act i a) := by
  refine ⟨fun c answer n hl hc hask => ?_, fun _ hl => nomatch hl⟩
  cases hl
  exact h c answer n rfl hc hask

abbrev PromptStep (answers : ℕ → Answer) (interval timeout : ℕ) :
    GuardState Unit → GuardLabel Unit → GuardState Unit → Prop :=
  Guarded (Prompt answers 0) (GuardStep (fun _ => .next) interval timeout)

theorem solo_ticks (interval timeout : ℕ) {now n wake due : ℕ} (hwait : now < wake)
    (hdue : now < due) :
    PromptStep answers interval timeout (soloCheck interval now false (.armed due) (.waiting n wake))
      (.env ()) (soloCheck interval (now + 1) false (.armed due) (.waiting n wake)) := by
  refine ⟨⟨fun _ _ _ hl => (nomatch hl), fun _ _ hc => ?_⟩, rfl⟩
  cases hc
  refine ⟨fun _ hn => (nomatch hn), fun due ht => ?_, fun n due hn => ?_⟩
  · cases ht
    exact hdue
  · cases hn
    exact hwait

theorem solo_retries (interval timeout : ℕ) {now n due : ℕ} (timer : Timer) (h : due ≤ now) :
    PromptStep answers interval timeout
      (soloCheck interval now false timer (.waiting n due)) (.act 0 .retries)
      (soloCheck interval now false timer (.asking (n + 1))) := by
  refine ⟨prompt_act fun _ _ _ ha => (nomatch ha), ?_⟩
  simp [Steps, next, checks, soloCheck, Check.step, Check.retries, h, CheckAct.exits]

theorem solo_unavailable (interval timeout now : ℕ) {n : ℕ} (timer : Timer) (h : n < 10)
    (hun : answers n = .unavailableError) :
    PromptStep answers interval timeout
      (soloCheck interval now false timer (.asking n)) (.act 0 (.answers .unavailableError))
      (soloCheck interval now false timer (.waiting n (now + 500))) := by
  refine ⟨prompt_act fun c answer n ha hc hask => ?_, ?_⟩
  · cases ha
    cases hc
    cases hask
    exact hun.symm
  · simp [Steps, next, checks, soloCheck, Check.step, Check.answers, testConnection,
      NextConnectionGuardService.testConnection, h, CheckAct.exits]

theorem solo_timeout (interval timeout : ℕ) {now due : ℕ} (test : Test) (h : due ≤ now) :
    PromptStep answers interval timeout
      (soloCheck interval now false (.armed due) test) (.act 0 .timeout)
      (soloCheck interval now true .fired test) := by
  refine ⟨prompt_act fun _ _ _ ha => (nomatch ha), ?_⟩
  simp [Steps, next, checks, soloCheck, Check.step, Check.timeout, h, CheckAct.exits]

theorem run_start (answers : ℕ → Answer) (interval timeout : ℕ) :
    Run (PromptStep answers interval timeout) (State.init (.init 0)) [.start (.caller ())]
      (soloCheck interval 0 false (.armed (0 + timeout)) (.asking 0)) :=
  .snoc .nil ⟨⟨fun _ _ _ hl => (nomatch hl), fun _ hl => nomatch hl⟩, rfl⟩

theorem run_waiting (answers : ℕ → Answer) (interval timeout : ℕ) {k : ℕ} (hk : k ≤ 10)
    (hun : ∀ j < k, answers j = .unavailableError) (now : ℕ) (hnow : now < 500 * k)
    (hlt : now < timeout) :
    ∃ n as, now < 500 * n + 500 ∧ 500 * n ≤ now ∧
      Run (PromptStep answers interval timeout) (State.init (.init 0)) as
        (soloCheck interval now false (.armed (0 + timeout)) (.waiting n (500 * n + 500))) := by
  induction now with
  | zero =>
    have hstep := solo_unavailable interval timeout 0 (.armed (0 + timeout)) (n := 0) (by omega)
      (hun 0 (by omega))
    exact ⟨0, _, Nat.zero_lt_succ _, Nat.le_refl _, (run_start answers interval timeout).snoc hstep⟩
  | succ now ih =>
    obtain ⟨n, as, hwait, hn, hrun⟩ := ih (by omega) (by omega)
    have htick := hrun.snoc (solo_ticks interval timeout hwait (by omega))
    rcases Nat.lt_or_eq_of_le (Nat.succ_le_of_lt hwait) with hmore | hwake
    · exact ⟨n, _, hmore, Nat.le_succ_of_le hn, htick⟩
    · have hretry := htick.snoc (solo_retries interval timeout _ hwake.ge)
      have hagain := hretry.snoc
        (solo_unavailable interval timeout _ _ (by omega) (hun (n + 1) (by omega)))
      have hnext : now + 1 + 500 = 500 * (n + 1) + 500 := by omega
      rw [hnext] at hagain
      exact ⟨n + 1, _, by omega, by omega, hagain⟩

theorem run_ended (answers : ℕ → Answer) (interval : ℕ) {timeout k : ℕ} (hk : k ≤ 10)
    (hun : ∀ j < k, answers j = .unavailableError) (hle : timeout ≤ 500 * k) :
    ∃ as now test, Run (PromptStep answers interval timeout) (State.init (.init 0)) as
      (soloCheck interval now true .fired test) := by
  cases timeout with
  | zero =>
    have hrun := run_start answers interval 0
    exact ⟨_, 0, _, hrun.snoc (solo_timeout interval 0 _ (Nat.le_refl 0))⟩
  | succ now =>
    obtain ⟨n, as, hwait, -, hrun⟩ :=
      run_waiting answers interval (now + 1) hk hun now (by omega) (Nat.lt_succ_self now)
    have htick := hrun.snoc (solo_ticks interval (now + 1) hwait (by omega))
    exact ⟨_, _, _, htick.snoc (solo_timeout interval (now + 1) _ (Nat.zero_add (now + 1)).le)⟩

theorem not_usable_of_late {k : ℕ} (hk : k ≤ 10) (hs : SucceedsAt answers k)
    (hle : timeout ≤ 500 * k) : ¬ RetryBudgetUsable timeout answers := by
  intro h
  obtain ⟨as, now, test, hrun⟩ := run_ended answers 0 hk hs.2 hle
  exact (h 0 0 0 as _ _ hrun rfl).notEnded ⟨k, hk, hs⟩ rfl

/-- The checks of the gRPC guard stop, fulfil after at most ten retries, and are not ended while
they wait for a success, exactly if every such success comes before the deadline. -/
theorem retry_budget_usable_iff (timeout : ℕ) (answers : ℕ → Answer) :
    RetryBudgetUsable timeout answers ↔
      ∀ k ≤ 10, SucceedsAt answers k → 500 * k < timeout := by
  constructor
  · intro h k hk hs
    by_contra hlate
    exact not_usable_of_late hk hs (Nat.not_lt.mp hlate) h
  · intro hbudget interval t₀ i as s c hrun hc
    exact (punctual_run hrun c hc).withinBudget hbudget

def succeedsAfter (k : ℕ) : ℕ → Answer := fun n => if n < k then .unavailableError else .ok

theorem succeedsAt_succeedsAfter (k : ℕ) : SucceedsAt (succeedsAfter k) k :=
  ⟨if_neg (Nat.lt_irrefl k), fun _ hj => if_pos hj⟩

/-- A process with a deadline of one second is ended after two retries, and one with the default
deadline before the tenth. -/
theorem retry_budget_not_usable :
    ¬ RetryBudgetUsable 1000 (succeedsAfter 3) ∧ ¬ RetryBudgetUsable 5000 (succeedsAfter 10) :=
  ⟨not_usable_of_late (by decide) (succeedsAt_succeedsAfter 3) (by decide),
    not_usable_of_late (by decide) (succeedsAt_succeedsAfter 10) (by decide)⟩

end Interconnect
