import Interconnect.Lib.Pool
import Interconnect.Model.Driver

/-! The two connection guards: a check of a connection schedules the next one, arms a timer that
ends the process, and disarms it once the client has answered. Any number of connections are
checked at once. -/

namespace Interconnect

open Runs Pools

inductive Answer
  | ok
  | unavailableError
  | error

/-- How far `testConnection`, or `getMetadatasFromMainStream`, has come. -/
inductive Test
  | asking (tryCount : ℕ)
  | waiting (tryCount due : ℕ)
  | fulfilled (time : ℕ)
  | rejected

def NextConnectionGuardService.testConnection (now tryCount : ℕ) : Answer → Test
  | .ok => .fulfilled now
  | .unavailableError => if tryCount < 10 then .waiting tryCount (now + 500) else .rejected
  | .error => .rejected

def LegacyConnectionGuardService.getMetadatasFromMainStream (now : ℕ) : Answer → Test
  | .ok => .fulfilled now
  | .unavailableError => .rejected
  | .error => .rejected

def testConnection : Version → (now tryCount : ℕ) → Answer → Test
  | .legacy => fun now _ => LegacyConnectionGuardService.getMetadatasFromMainStream now
  | .next => NextConnectionGuardService.testConnection

variable {κ : Type}

structure Check (κ : Type) where
  connection : κ
  startedAt : ℕ
  timer : Timer
  test : Test

structure GuardProcess (κ : Type) where
  now : ℕ
  exited : Bool
  /-- the connections to ping again, and when -/
  pings : List (κ × ℕ)

/-- `startConnectionLinkPinger` up to its await. -/
def startConnectionLinkPinger (timeout now : ℕ) (connection : κ) : Check κ :=
  ⟨connection, now, .armed (now + timeout), .asking 0⟩

def loadNextPing (interval now : ℕ) (connection : κ) : κ × ℕ := (connection, now + interval)

inductive Pinger (κ : Type)
  | caller (connection : κ)
  | ping (k : ℕ)

inductive CheckAct
  | answers (answer : Answer)
  | retries
  | timeout

namespace Check

/-- Where the answer is the last one, `startConnectionLinkPinger` goes on at once. -/
def answers (version : κ → Version) (now : ℕ) (c : Check κ) (answer : Answer) : Option (Check κ) :=
  match c.test with
  | .asking tryCount =>
    match testConnection (version c.connection) now tryCount answer with
    | .fulfilled t => some { c with test := .fulfilled t, timer := c.timer.clear }
    | test => some { c with test }
  | _ => none

def retries (now : ℕ) (c : Check κ) : Option (Check κ) :=
  match c.test with
  | .waiting tryCount due =>
    if due ≤ now then some { c with test := .asking (tryCount + 1) } else none
  | _ => none

def timeout (now : ℕ) (c : Check κ) : Option (Check κ) :=
  match c.timer with
  | .armed due => if due ≤ now then some { c with timer := .fired } else none
  | _ => none

def step (version : κ → Version) (now : ℕ) (c : Check κ) : CheckAct → Option (Check κ)
  | .answers answer => c.answers version now answer
  | .retries => c.retries now
  | .timeout => c.timeout now

inductive Step (version : κ → Version) (now : ℕ) (c : Check κ) : CheckAct → Check κ → Prop
  | fulfils (tryCount : ℕ) (answer : Answer) (t : ℕ) : c.test = .asking tryCount →
      testConnection (version c.connection) now tryCount answer = .fulfilled t →
      Step version now c (.answers answer) { c with test := .fulfilled t, timer := c.timer.clear }
  | goesOn (tryCount : ℕ) (answer : Answer) (test : Test) : c.test = .asking tryCount →
      testConnection (version c.connection) now tryCount answer = test →
      (∀ t, test ≠ .fulfilled t) →
      Step version now c (.answers answer) { c with test }
  | retries (tryCount due : ℕ) : c.test = .waiting tryCount due → due ≤ now →
      Step version now c .retries { c with test := .asking (tryCount + 1) }
  | timedOut (due : ℕ) : c.timer = .armed due → due ≤ now →
      Step version now c .timeout { c with timer := .fired }

theorem step_cases {version : κ → Version} {now : ℕ} {c c' : Check κ} {a : CheckAct}
    (h : c.step version now a = some c') : Step version now c a c' := by
  cases a with
  | answers answer =>
    simp only [step, answers] at h
    split at h
    · next n hn =>
      split at h
      · next t ht =>
        cases h
        exact .fulfils n answer t hn ht
      · next hne =>
        cases h
        exact .goesOn n answer _ hn rfl fun t ht => hne t ht
    · cases h
  | retries =>
    simp only [step, retries] at h
    split at h
    · next n due hn =>
      split_ifs at h with hdue
      cases h
      exact .retries n due hn hdue
    · cases h
  | timeout =>
    simp only [step, timeout] at h
    split at h
    · next due ht =>
      split_ifs at h with hdue
      cases h
      exact .timedOut due ht hdue
    · cases h

end Check

/-- `process.exit(1)` -/
def CheckAct.exits : CheckAct → Bool
  | answers _ => false
  | retries => false
  | timeout => true

def checks (version : κ → Version) (interval timeout : ℕ) :
    Behaviour (GuardProcess κ) (Check κ) (Pinger κ) CheckAct Unit where
  start p _ pinger :=
    if p.exited then none
    else match pinger with
      | .caller connection =>
        some ({ p with pings := p.pings ++ [loadNextPing interval p.now connection] },
          startConnectionLinkPinger timeout p.now connection)
      | .ping k => p.pings[k]?.bind fun x =>
        if x.2 ≤ p.now then
          some ({ p with pings := p.pings.set k (loadNextPing interval p.now x.1) },
            startConnectionLinkPinger timeout p.now x.1)
        else none
  step p _ c a :=
    if p.exited then none
    else (c.step version p.now a).map fun c' => ({ p with exited := a.exits }, c')
  env p _ := if p.exited then none else some { p with now := p.now + 1 }

abbrev GuardState (κ : Type) := State (GuardProcess κ) (Check κ)

abbrev GuardLabel (κ : Type) := Label (Pinger κ) CheckAct Unit

abbrev GuardStep (version : κ → Version) (interval timeout : ℕ) :
    GuardState κ → GuardLabel κ → GuardState κ → Prop :=
  Steps (next (checks version interval timeout))

def GuardProcess.init (now : ℕ) : GuardProcess κ := ⟨now, false, []⟩

variable {version : κ → Version} {interval timeout : ℕ} {p p' : GuardProcess κ} {i : ℕ}
  {c c' : Check κ}

theorem checks_caller {connection : κ}
    (h : (checks version interval timeout).start p i (.caller connection) = some (p', c)) :
    p.exited = false ∧ c = startConnectionLinkPinger timeout p.now connection ∧
      p' = { p with pings := p.pings ++ [loadNextPing interval p.now connection] } := by
  simp only [checks] at h
  split_ifs at h with hex
  cases h
  exact ⟨by simpa using hex, rfl, rfl⟩

theorem checks_ping {k : ℕ}
    (h : (checks version interval timeout).start p i (.ping k) = some (p', c)) :
    p.exited = false ∧ ∃ connection due, p.pings[k]? = some (connection, due) ∧ due ≤ p.now ∧
      c = startConnectionLinkPinger timeout p.now connection ∧
      p' = { p with pings := p.pings.set k (loadNextPing interval p.now connection) } := by
  simp only [checks] at h
  split_ifs at h with hex
  obtain ⟨⟨connection, due⟩, hk, h⟩ := Option.bind_eq_some_iff.mp h
  split_ifs at h with hdue
  cases h
  exact ⟨by simpa using hex, connection, due, hk, hdue, rfl, rfl⟩

theorem checks_step {a : CheckAct}
    (h : (checks version interval timeout).step p i c a = some (p', c')) :
    p.exited = false ∧ p' = { p with exited := a.exits } ∧ Check.Step version p.now c a c' := by
  simp only [checks] at h
  split_ifs at h with hex
  obtain ⟨x, hx, he⟩ := Option.map_eq_some_iff.mp h
  cases he
  exact ⟨by simpa using hex, rfl, Check.step_cases hx⟩

theorem checks_env (h : (checks version interval timeout).env p () = some p') :
    p.exited = false ∧ p' = { p with now := p.now + 1 } := by
  simp only [checks] at h
  split_ifs at h with hex
  cases h
  exact ⟨by simpa using hex, rfl⟩

theorem checks_start {pinger : Pinger κ}
    (h : (checks version interval timeout).start p i pinger = some (p', c)) :
    p.exited = false ∧ p'.exited = false ∧ p'.now = p.now ∧
      c = startConnectionLinkPinger timeout p.now c.connection := by
  cases pinger with
  | caller connection =>
    obtain ⟨hex, rfl, rfl⟩ := checks_caller h
    exact ⟨hex, hex, rfl, rfl⟩
  | ping k =>
    obtain ⟨hex, connection, due, -, -, rfl, rfl⟩ := checks_ping h
    exact ⟨hex, hex, rfl, rfl⟩

end Interconnect
