import Interconnect.Lib.Pool
import Interconnect.Model.Driver

/-! A driver on its own: any number of overlapping calls of `writeEvent`, while time passes. Of
the reason an append fails with a driver reads `toString` alone, so that `nullish` stands for
every reason without one. -/

namespace Interconnect

open Runs Pools

structure DriverProcess where
  now : ℕ
  exited : Bool

/-- A call of `writeEvent`, with the times it was made, its append was fulfilled, and its timer was
disarmed. -/
structure TimedWrite where
  startedAt : ℕ
  write : WriteCall
  confirmedAt : Option ℕ
  disarmedAt : Option ℕ

def confirms (now : ℕ) : WriteAct → Option ℕ
  | .appendAnswers (.ok _) => some now
  | _ => none

def disarms (now : ℕ) : Timer → Timer → Option ℕ
  | .armed _, .cleared => some now
  | _, _ => none

variable {Buffer : Type}

def DriverProcess.after (p : DriverProcess) : HookResult → DriverProcess
  | .returns => p
  | .exits => { p with exited := true }

@[simp] theorem DriverProcess.after_now (p : DriverProcess) (r : HookResult) :
    (p.after r).now = p.now := by
  cases r <;> rfl

/-- The driver for a destination of version `d`; the timers it arms run `timeout` later. -/
def writes {J : JsonText Buffer} (E : EventDataFactory J) (d : Version) (net : SafetyNet)
    (timeout : ℕ) :
    Behaviour DriverProcess TimedWrite FormattedEvent WriteAct Unit where
  start p _ event :=
    if p.exited then none
    else some (p, ⟨p.now, (writeEvent E d timeout p.now event).2, none, none⟩)
  step p _ c a :=
    if p.exited then none
    else (c.write.step net p.now a).map fun r =>
      (p.after r.1, { c with
        write := r.2
        confirmedAt := (confirms p.now a).or c.confirmedAt
        disarmedAt := (disarms p.now c.write.timer r.2.timer).or c.disarmedAt })
  env p _ := if p.exited then none else some { p with now := p.now + 1 }

abbrev DriverState := State DriverProcess TimedWrite

abbrev DriverLabel := Label FormattedEvent WriteAct Unit

abbrev DriverStep {J : JsonText Buffer} (E : EventDataFactory J) (d : Version) (net : SafetyNet)
    (timeout : ℕ) : DriverState → DriverLabel → DriverState → Prop :=
  Steps (next (writes E d net timeout))

variable {J : JsonText Buffer} {E : EventDataFactory J} {d : Version} {net : SafetyNet}
  {timeout : ℕ} {p p' : DriverProcess} {i : ℕ} {c c' : TimedWrite}

theorem writes_start {event : FormattedEvent}
    (h : (writes E d net timeout).start p i event = some (p', c)) :
    p' = p ∧ c = ⟨p.now, (writeEvent E d timeout p.now event).2, none, none⟩ := by
  simp only [writes] at h
  split_ifs at h
  cases h
  exact ⟨rfl, rfl⟩

theorem writes_step {a : WriteAct} (h : (writes E d net timeout).step p i c a = some (p', c')) :
    p'.now = p.now ∧ c'.startedAt = c.startedAt ∧
      c'.confirmedAt = (confirms p.now a).or c.confirmedAt ∧
      c'.disarmedAt = (disarms p.now c.write.timer c'.write.timer).or c.disarmedAt ∧
      ∃ r, WriteCall.Step net p.now c.write a r c'.write := by
  simp only [writes] at h
  split_ifs at h
  obtain ⟨⟨r, w⟩, hw, he⟩ := Option.map_eq_some_iff.mp h
  cases he
  exact ⟨p.after_now r, rfl, rfl, rfl, r, WriteCall.step_cases hw⟩

theorem writes_env (h : (writes E d net timeout).env p () = some p') : p'.now = p.now + 1 := by
  simp only [writes] at h
  split_ifs at h
  cases h
  rfl

theorem writes_now_le {s s' : DriverState} {l : DriverLabel}
    (h : DriverStep E d net timeout s l s') : s.shared.now ≤ s'.shared.now := by
  cases l with
  | start event =>
    obtain ⟨c, hc, -⟩ := next_start h
    rw [(writes_start hc).1]
  | act i a =>
    obtain ⟨c, c', -, hc⟩ := next_act h
    rw [(writes_step hc).1]
  | env u =>
    rw [writes_env (next_env h).1]
    exact Nat.le_succ _

end Interconnect
