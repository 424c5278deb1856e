import Interconnect.Model.Writes
import Interconnect.Model.Example

/-! What the drivers tell the safety net: how often, for which writes, and by when. -/

namespace Interconnect

open Runs Pools

variable {Buffer : Type} {J : JsonText Buffer} {E : EventDataFactory J} {d : Version}
  {net : SafetyNet} {timeout : ℕ}

def Timer.IsArmed (t : Timer) : Prop := ∃ due, t = .armed due

theorem Timer.not_isArmed_clear (t : Timer) : ¬ t.clear.IsArmed := by
  rintro ⟨due, h⟩
  cases t <;> cases h

/-! ### At most once -/

/-- The hook was called at most once, and will not be called again once the call has settled. -/
def WriteCall.ToldAtMostOnce (w : WriteCall) : Prop :=
  w.hookCalls.length ≤ 1 ∧ (w.outcome ≠ .pending → ¬ w.timer.IsArmed)

def ToldAtMostOnce (s : DriverState) : Prop := ∀ c ∈ s.calls, c.write.ToldAtMostOnce

/-- A call goes on after a failed append only where its timer has run and the failure has no
`toString`. -/
def WriteCall.GoesOnQuietly (w : WriteCall) : Prop :=
  ∀ err, w.append = .rejected err → err.isNullish = true ∧ w.timer = .fired

def GoesOnQuietly (s : DriverState) (l : DriverLabel) : Prop :=
  ∀ i c, l = .act i .continues → s.calls[i]? = some c → c.write.GoesOnQuietly

structure ToldByTimer (w : WriteCall) : Prop where
  armed : w.timer.IsArmed → w.hookCalls = [] ∧ w.outcome = .pending
  cleared : w.timer = .cleared → w.hookCalls = [] ∧ w.outcome ≠ .pending
  fired : w.timer = .fired → w.hookCalls.length = 1

theorem toldByTimer_start (now : ℕ) (event : FormattedEvent) :
    ToldByTimer (writeEvent E d timeout now event).2 :=
  ⟨fun _ => ⟨rfl, rfl⟩, fun h => (nomatch h), fun h => (nomatch h)⟩

theorem ToldByTimer.toldAtMostOnce {w : WriteCall} (h : ToldByTimer w) : w.ToldAtMostOnce := by
  refine ⟨?_, fun hout harmed => hout (h.armed harmed).2⟩
  cases ht : w.timer with
  | armed due => simp [(h.armed ⟨due, ht⟩).1]
  | cleared => simp [(h.cleared ht).1]
  | fired => rw [h.fired ht]

theorem toldByTimer_step {now : ℕ} {w w' : WriteCall} {a : WriteAct} {r : HookResult}
    (hw : ToldByTimer w) (hquiet : a = .continues → w.GoesOnQuietly)
    (h : WriteCall.Step net now w a r w') : ToldByTimer w' := by
  cases h with
  | answered answer => exact ⟨hw.armed, hw.cleared, hw.fired⟩
  | confirmed hout happ =>
    refine ⟨fun h => absurd h (Timer.not_isArmed_clear _), fun ht => ⟨?_, nofun⟩, fun ht => ?_⟩
    · cases ht' : w.timer with
      | armed due => exact (hw.armed ⟨due, ht'⟩).1
      | cleared => exact (hw.cleared ht').1
      | fired => simp [ht', Timer.clear] at ht
    · cases ht' : w.timer with
      | armed due => simp [ht', Timer.clear] at ht
      | cleared => simp [ht', Timer.clear] at ht
      | fired => exact hw.fired ht'
  | unreadable err hout happ hn =>
    have hfired := (hquiet rfl err happ).2
    refine ⟨fun ⟨due, ht⟩ => ?_, fun ht => ?_, hw.fired⟩
    · exact nomatch hfired.symm.trans ht
    · exact nomatch hfired.symm.trans ht
  | refused err hout happ hn =>
    rw [(hquiet rfl err happ).1] at hn
    cases hn
  | killed err hout happ hn =>
    rw [(hquiet rfl err happ).1] at hn
    cases hn
  | timedOut due ht hdue =>
    refine ⟨fun ⟨due, h⟩ => (nomatch h), fun h => (nomatch h), fun _ => ?_⟩
    simp [WriteCall.callHook, (hw.armed ⟨due, ht⟩).1]

/-- Going on in any other case calls the hook again, or leaves the timer to do so. -/
theorem not_toldAtMostOnce_of_goes_on {now : ℕ} {w w' : WriteCall} {r : HookResult}
    (hnet : ∀ e, net.cannotWriteEventHook e = .returns) (hw : ToldByTimer w)
    (hloud : ¬ w.GoesOnQuietly) (h : WriteCall.Step net now w .continues r w') :
    ¬ w'.ToldAtMostOnce := by
  rintro ⟨honce, hdisarmed⟩
  cases h with
  | confirmed hout happ => exact hloud fun err herr => nomatch happ.symm.trans herr
  | unreadable err hout happ hn =>
    cases ht : w.timer with
    | armed due => exact hdisarmed nofun ⟨due, ht⟩
    | cleared => exact (hw.cleared ht).2 hout
    | fired =>
      refine hloud fun err' happ' => ?_
      cases happ.symm.trans happ'
      exact ⟨hn, ht⟩
  | refused err hout happ hn hret =>
    cases ht : w.timer with
    | armed due => exact hdisarmed nofun ⟨due, ht⟩
    | cleared => exact (hw.cleared ht).2 hout
    | fired => simp [WriteCall.callHook, hw.fired ht] at honce
  | killed err hout happ hn hex =>
    rw [hnet] at hex
    cases hex

/-- Where hooks return, every state of a run keeps the promise exactly if no call goes on after a
failed append otherwise than quietly. -/
theorem told_at_most_once_iff (E : EventDataFactory J) (d : Version) (net : SafetyNet)
    (timeout t₀ : ℕ) (hnet : ∀ e, net.cannotWriteEventHook e = .returns) {as : List DriverLabel}
    {s : DriverState}
    (h : Run (DriverStep E d net timeout) (State.init ⟨t₀, false⟩) as s) :
    Always (DriverStep E d net timeout) (State.init ⟨t₀, false⟩) as ToldAtMostOnce ↔
      Run (Guarded GoesOnQuietly (DriverStep E d net timeout)) (State.init ⟨t₀, false⟩) as s := by
  refine always_iff_guarded (fun s => ∀ c ∈ s.calls, ToldByTimer c.write) (steps_deterministic _)
    (by simp) (fun s hs c hc => (hs c hc).toldAtMostOnce) ?_ ?_ h
  · intro s l s' hs hquiet hn
    refine forall_calls_step (fun c => ToldByTimer c.write) hn hs ?_ ?_
    · rintro event c rfl hc
      obtain ⟨-, rfl⟩ := writes_start hc
      exact toldByTimer_start _ event
    · rintro i a c c' rfl hc hP hc'
      obtain ⟨-, -, -, -, r, hstep⟩ := writes_step hc'
      exact toldByTimer_step hP (fun ha => hquiet i c (by rw [ha]) hc) hstep
  · intro s l s' hs hloud hn hP
    unfold GoesOnQuietly at hloud
    push Not at hloud
    obtain ⟨i, c, rfl, hc, hloud⟩ := hloud
    obtain ⟨c₁, c', hm, hc'⟩ := next_act hn
    cases hc.symm.trans hm.before
    obtain ⟨-, -, -, -, r, hstep⟩ := writes_step hc'
    exact not_toldAtMostOnce_of_goes_on hnet (hs c (List.mem_of_getElem? hc)) hloud hstep
      (hP c' (List.mem_of_getElem? hm.after))

def exampleWrite : FormattedEvent :=
  ⟨exampleData, enriched .undefined "hero-1" exampleId "Example2Event"⟩

theorem confirmed_write_is_told_at_most_once :
    ∃ s, exec (next (writes exampleFactory .next CustomSafetyNet 1)) (State.init ⟨0, false⟩)
        [.start exampleWrite, .act 0 (.appendAnswers (.ok ())), .act 0 .continues, .env ()] =
          some s ∧
      Always (DriverStep exampleFactory .next CustomSafetyNet 1) (State.init ⟨0, false⟩)
        [.start exampleWrite, .act 0 (.appendAnswers (.ok ())), .act 0 .continues, .env ()]
        ToldAtMostOnce := by
  have hexec : exec (next (writes exampleFactory .next CustomSafetyNet 1)) (State.init ⟨0, false⟩)
      [.start exampleWrite, .act 0 (.appendAnswers (.ok ())), .act 0 .continues, .env ()] =
        some _ := rfl
  refine ⟨_, rfl, (told_at_most_once_iff _ _ _ _ _ (fun _ => rfl) (run_of_exec hexec)).mpr ?_⟩
  refine Run.cons ⟨?_, rfl⟩ (Run.cons ⟨?_, rfl⟩ (Run.cons ⟨?_, rfl⟩ (Run.cons ⟨?_, rfl⟩ .nil)))
  · exact fun i c h => nomatch h
  · exact fun i c h => nomatch h
  · intro i c h hc err herr
    cases h
    cases hc
    cases herr
  · exact fun i c h => nomatch h

/-- A refused write is told of at once, settles with its timer armed, and is told of again when
the timer runs. -/
theorem refused_write_is_told_twice (d : Version) :
    ∃ s t c c', exec (next (writes exampleFactory d CustomSafetyNet 1)) (State.init ⟨0, false⟩)
        [.start exampleWrite, .act 0 (.appendAnswers (.error (.error "unavailable"))),
          .act 0 .continues] = some s ∧
      s.calls[0]? = some c ∧ c.write.outcome = .fulfilled ∧ c.write.timer.IsArmed ∧
      exec (next (writes exampleFactory d CustomSafetyNet 1)) s [.env (), .act 0 .timeout] =
        some t ∧
      t.calls[0]? = some c' ∧ c'.write.hookCalls = [exampleWrite, exampleWrite] := by
  cases d <;> exact ⟨_, _, _, _, rfl, rfl, rfl, ⟨_, rfl⟩, rfl, rfl, rfl⟩

theorem hook_is_called_twice (d : Version) :
    ∃ s, Run (DriverStep exampleFactory d CustomSafetyNet 1) (State.init ⟨0, false⟩)
        [.start exampleWrite, .act 0 (.appendAnswers (.error (.error "unavailable"))),
          .act 0 .continues, .env (), .act 0 .timeout] s ∧ ¬ ToldAtMostOnce s := by
  obtain ⟨s, t, c, c', hs, -, -, -, ht, hc', hcalls⟩ := refused_write_is_told_twice d
  refine ⟨t, (run_of_exec hs).append (run_of_exec ht), fun h => ?_⟩
  have honce := (h c' (List.mem_of_getElem? hc')).1
  rw [hcalls] at honce
  exact absurd honce (by decide)

theorem writes_told_badly :
    (∃ s, Run (DriverStep exampleFactory .legacy CustomSafetyNet 1) (State.init ⟨0, false⟩)
        [.start exampleWrite, .act 0 (.appendAnswers (.error (.error "unavailable"))),
          .act 0 .continues, .env (), .act 0 .timeout] s ∧ ¬ ToldAtMostOnce s) ∧
    (∃ s, Run (DriverStep exampleFactory .next CustomSafetyNet 1) (State.init ⟨0, false⟩)
        [.start exampleWrite, .act 0 (.appendAnswers (.error (.error "unavailable"))),
          .act 0 .continues, .env (), .act 0 .timeout] s ∧ ¬ ToldAtMostOnce s) :=
  ⟨hook_is_called_twice .legacy, hook_is_called_twice .next⟩

/-! ### In time -/

/-- Whatever an answered append makes ready goes on before the next timer runs. -/
def MicrotasksFirst (s : DriverState) (l : DriverLabel) : Prop :=
  ∀ i c, l = .act i .timeout → s.calls[i]? = some c → c.write.append ≠ .pending →
    c.write.outcome ≠ .pending

def TimedWrite.FulfilledWithin (timeout : ℕ) (c : TimedWrite) : Prop :=
  ∃ t, c.confirmedAt = some t ∧ t < c.startedAt + timeout

theorem fulfilledWithin_iff {c c' : TimedWrite} (hstart : c'.startedAt = c.startedAt)
    (hconf : c'.confirmedAt = c.confirmedAt) :
    c'.FulfilledWithin timeout ↔ c.FulfilledWithin timeout := by
  unfold TimedWrite.FulfilledWithin
  rw [hstart, hconf]

/-- Every timer that came due has run: none is waiting, and none was disarmed when it was due. -/
def DueTimersHaveRun (timeout : ℕ) (s : DriverState) : Prop :=
  ∀ c ∈ s.calls, (∀ due, c.write.timer = .armed due → s.shared.now < due) ∧
    ∀ t, c.disarmedAt = some t → t < c.startedAt + timeout

/-- Where a write is: open, with its timer armed; fulfilled in time, and not told of; told of; or
fulfilled too late, but before its timer could run. -/
inductive Progress (timeout now : ℕ) (c : TimedWrite) : Prop
  | unconfirmed : c.confirmedAt = none → c.write.append ≠ .fulfilled →
      (c.write.append = .pending → c.write.outcome = .pending) → c.write.hookCalls = [] →
      c.write.timer = .armed (c.startedAt + timeout) → Progress timeout now c
  | confirmed : c.FulfilledWithin timeout → c.write.append = .fulfilled → c.write.hookCalls = [] →
      (c.write.outcome = .pending ∧ c.write.timer = .armed (c.startedAt + timeout) ∨
        c.write.timer = .cleared) → Progress timeout now c
  | told : ¬ c.FulfilledWithin timeout → c.write.event ∈ c.write.hookCalls →
      (c.write.append = .pending → c.startedAt + timeout ≤ now) → Progress timeout now c
  | overtaken : ¬ c.FulfilledWithin timeout → c.write.append = .fulfilled →
      (c.write.timer = .armed (c.startedAt + timeout) ∧ c.startedAt + timeout ≤ now ∨
        c.write.timer = .cleared ∧ ∃ t, c.disarmedAt = some t ∧ c.startedAt + timeout ≤ t) →
      Progress timeout now c

theorem progress_start (now now' : ℕ) (event : FormattedEvent) :
    Progress timeout now ⟨now', (writeEvent E d timeout now' event).2, none, none⟩ := by
  refine .unconfirmed rfl ?_ (fun _ => rfl) rfl rfl
  unfold writeEvent
  dsimp only
  split_ifs <;> exact nofun

theorem Progress.later {now now' : ℕ} {c : TimedWrite} (h : Progress timeout now c)
    (hnow : now ≤ now') : Progress timeout now' c := by
  cases h with
  | unconfirmed hc happ hopen hcalls ht => exact .unconfirmed hc happ hopen hcalls ht
  | confirmed hin happ hcalls hout => exact .confirmed hin happ hcalls hout
  | told hin hmem hdue => exact .told hin hmem fun hp => (hdue hp).trans hnow
  | overtaken hin happ ht =>
    exact .overtaken hin happ (ht.imp_left fun h => ⟨h.1, h.2.trans hnow⟩)

theorem progress_answered {now : ℕ} {c c' : TimedWrite} {answer : Except Rejection Unit}
    (hc : Progress timeout now c) (hp : c.write.append = .pending)
    (hstart : c'.startedAt = c.startedAt)
    (hconf : c'.confirmedAt = (confirms now (.appendAnswers answer)).or c.confirmedAt)
    (hw : c'.write = { c.write with append := .ofExcept answer }) : Progress timeout now c' := by
  cases hc with
  | unconfirmed hnone _ hopen hcalls ht =>
    cases answer with
    | error err =>
      refine .unconfirmed (by rw [hconf, hnone]; rfl) (by rw [hw]; exact nofun) ?_ ?_ ?_
      · rw [hw]
        exact fun h => nomatch h
      · rw [hw]
        exact hcalls
      · rw [hw, hstart]
        exact ht
    | ok u =>
      have hnow : c'.confirmedAt = some now := hconf
      rcases Nat.lt_or_ge now (c'.startedAt + timeout) with hlt | hge
      · refine .confirmed ⟨now, hnow, hlt⟩ (by rw [hw]; rfl) (by rw [hw]; exact hcalls) (Or.inl ?_)
        rw [hw, hstart]
        exact ⟨hopen hp, ht⟩
      · refine .overtaken ?_ (by rw [hw]; rfl) (Or.inl ?_)
        · rintro ⟨t, h, hlt⟩
          cases hnow.symm.trans h
          exact absurd hlt (Nat.not_lt.mpr hge)
        · rw [hw, hstart] at *
          exact ⟨ht, hge⟩
  | confirmed _ happ => exact nomatch hp.symm.trans happ
  | overtaken _ happ => exact nomatch hp.symm.trans happ
  | told hin hmem hdue =>
    refine .told ?_ (by rw [hw]; exact hmem) fun _ => by rw [hstart]; exact hdue hp
    rintro ⟨t, h, hlt⟩
    cases answer with
    | error err => exact hin ⟨t, hconf.symm.trans h, hstart ▸ hlt⟩
    | ok u =>
      cases (hconf.symm.trans h : some now = some t)
      rw [hstart] at hlt
      exact absurd hlt (Nat.not_lt.mpr (hdue hp))

theorem progress_confirmed {now : ℕ} {c c' : TimedWrite} (hc : Progress timeout now c)
    (happ : c.write.append = .fulfilled) (hstart : c'.startedAt = c.startedAt)
    (hconf : c'.confirmedAt = c.confirmedAt)
    (hdis : c'.disarmedAt = (disarms now c.write.timer c'.write.timer).or c.disarmedAt)
    (hw : c'.write = { c.write with timer := c.write.timer.clear, outcome := .fulfilled }) :
    Progress timeout now c' := by
  have hin' : c'.FulfilledWithin timeout ↔ c.FulfilledWithin timeout :=
    fulfilledWithin_iff hstart hconf
  cases hc with
  | unconfirmed _ hnot => exact absurd happ hnot
  | confirmed hin _ hcalls hout =>
    refine .confirmed (hin'.mpr hin) (by rw [hw]; exact happ) (by rw [hw]; exact hcalls) (Or.inr ?_)
    rw [hw]
    rcases hout with ⟨-, ht⟩ | ht
    · simp [ht, Timer.clear]
    · simp [ht, Timer.clear]
  | told hin hmem _ =>
    refine .told (mt hin'.mp hin) (by rw [hw]; exact hmem) fun hp => ?_
    rw [hw] at hp
    exact nomatch happ.symm.trans hp
  | overtaken hin _ ht =>
    refine .overtaken (mt hin'.mp hin) (by rw [hw]; exact happ) (Or.inr ?_)
    rw [hdis, hw, hstart]
    rcases ht with ⟨ht, hlate⟩ | ⟨ht, t, hdis', hlate⟩
    · simp [ht, Timer.clear, disarms, hlate]
    · simp [ht, Timer.clear, disarms, hdis', hlate]

theorem progress_failed {now : ℕ} {c c' : TimedWrite} {err : Rejection} (hc : Progress timeout now c)
    (happ : c.write.append = .rejected err) (hstart : c'.startedAt = c.startedAt)
    (hconf : c'.confirmedAt = c.confirmedAt) (happ' : c'.write.append = c.write.append)
    (ht' : c'.write.timer = c.write.timer) (hevent : c'.write.event = c.write.event)
    (hcalls' : c'.write.hookCalls = c.write.hookCalls ∨
      c'.write.hookCalls = c.write.hookCalls ++ [c.write.event]) : Progress timeout now c' := by
  have hin' : c'.FulfilledWithin timeout ↔ c.FulfilledWithin timeout :=
    fulfilledWithin_iff hstart hconf
  have hopen : c'.write.append ≠ .pending := by
    rw [happ', happ]
    exact nofun
  cases hc with
  | unconfirmed hnone hnot _ hcalls ht =>
    rcases hcalls' with hcalls' | hcalls'
    · refine .unconfirmed (hconf.trans hnone) (by rwa [happ']) (fun hp => absurd hp hopen)
        (hcalls'.trans hcalls) ?_
      rw [ht', ht, hstart]
    · refine .told ?_ (by simp [hcalls', hevent]) fun hp => absurd hp hopen
      rintro ⟨t, h, -⟩
      rw [hconf, hnone] at h
      cases h
  | told hin hmem _ =>
    refine .told (mt hin'.mp hin) ?_ fun hp => absurd hp hopen
    rw [hevent]
    rcases hcalls' with hcalls' | hcalls'
    · rwa [hcalls']
    · rw [hcalls']
      exact List.mem_append_left _ hmem
  | confirmed _ happ₂ => exact nomatch happ.symm.trans happ₂
  | overtaken _ happ₂ => exact nomatch happ.symm.trans happ₂

theorem progress_timedOut {now due : ℕ} {c c' : TimedWrite} (hc : Progress timeout now c)
    (hmicro : c.write.append ≠ .pending → c.write.outcome ≠ .pending)
    (ht : c.write.timer = .armed due) (hdue : due ≤ now) (hstart : c'.startedAt = c.startedAt)
    (hconf : c'.confirmedAt = c.confirmedAt)
    (hw : c'.write = { c.write.callHook with timer := .fired }) : Progress timeout now c' := by
  have hin' : c'.FulfilledWithin timeout ↔ c.FulfilledWithin timeout :=
    fulfilledWithin_iff hstart hconf
  have hmem : c'.write.event ∈ c'.write.hookCalls := by simp [hw, WriteCall.callHook]
  cases hc with
  | unconfirmed hnone _ _ _ ht₂ =>
    cases ht.symm.trans ht₂
    refine .told (fun hin => ?_) hmem fun _ => by rwa [hstart]
    obtain ⟨t, h, -⟩ := hin'.mp hin
    exact nomatch hnone.symm.trans h
  | confirmed _ happ _ hout =>
    rcases hout with ⟨hout, -⟩ | ht₂
    · exact absurd hout (hmicro (by rw [happ]; exact nofun))
    · exact nomatch ht.symm.trans ht₂
  | told hin _ hlate =>
    refine .told (mt hin'.mp hin) hmem fun hp => ?_
    rw [hstart]
    exact hlate (by rwa [hw] at hp)
  | overtaken hin happ _ =>
    refine .told (mt hin'.mp hin) hmem fun hp => ?_
    rw [hw] at hp
    exact nomatch happ.symm.trans hp

theorem progress_step {p p' : DriverProcess} {i : ℕ} {c c' : TimedWrite} {a : WriteAct}
    (hc : Progress timeout p.now c)
    (hmicro : a = .timeout → c.write.append ≠ .pending → c.write.outcome ≠ .pending)
    (h : (writes E d net timeout).step p i c a = some (p', c')) : Progress timeout p'.now c' := by
  obtain ⟨hnow, hstart, hconf, hdis, r, hstep⟩ := writes_step h
  rw [hnow]
  generalize hw : c'.write = w' at hstep
  cases hstep with
  | answered answer hp => exact progress_answered hc hp hstart hconf hw
  | confirmed _ happ => exact progress_confirmed hc happ hstart hconf hdis hw
  | unreadable err _ happ _ =>
    exact progress_failed hc happ hstart hconf (by rw [hw]) (by rw [hw]) (by rw [hw])
      (Or.inl (by rw [hw]))
  | refused err _ happ _ _ =>
    exact progress_failed hc happ hstart hconf (by rw [hw]; rfl) (by rw [hw]; rfl) (by rw [hw]; rfl)
      (Or.inr (by rw [hw]; rfl))
  | killed err _ happ _ _ =>
    exact progress_failed hc happ hstart hconf (by rw [hw]; rfl) (by rw [hw]; rfl) (by rw [hw]; rfl)
      (Or.inr (by rw [hw]; rfl))
  | timedOut due ht hdue => exact progress_timedOut hc (hmicro rfl) ht hdue hstart hconf hw

theorem progress_run (E : EventDataFactory J) (d : Version) (net : SafetyNet) (timeout t₀ : ℕ)
    {as : List DriverLabel} {s : DriverState}
    (h : Run (Guarded MicrotasksFirst (DriverStep E d net timeout)) (State.init ⟨t₀, false⟩) as s) :
    ∀ c ∈ s.calls, Progress timeout s.shared.now c := by
  refine h.invariant (fun s => ∀ c ∈ s.calls, Progress timeout s.shared.now c) (by simp) ?_
  rintro s l s' hs ⟨hmicro, hn⟩
  refine forall_calls_step (Progress timeout s'.shared.now) hn
    (fun c hc => (hs c hc).later (writes_now_le hn)) ?_ ?_
  · rintro event c rfl hc
    obtain ⟨-, rfl⟩ := writes_start hc
    exact progress_start ..
  · rintro i a c c' rfl hget - hc
    exact progress_step (hs c (List.mem_of_getElem? hget))
      (fun ha => hmicro i c (by rw [ha]) hget) hc

/-- The hook is never called for a write that was fulfilled in time, and has been called, with its
event, for every other one whose time is over. A step of one write changes no other. -/
theorem told_of_late_writes_only (E : EventDataFactory J) (d : Version) (net : SafetyNet)
    (timeout t₀ : ℕ) {as : List DriverLabel} {s : DriverState}
    (h : Run (Guarded MicrotasksFirst (DriverStep E d net timeout)) (State.init ⟨t₀, false⟩) as s) :
    (∀ c ∈ s.calls,
      (c.FulfilledWithin timeout → c.write.hookCalls = []) ∧
      (¬ c.FulfilledWithin timeout → c.startedAt + timeout ≤ s.shared.now →
        DueTimersHaveRun timeout s → c.write.event ∈ c.write.hookCalls)) ∧
    ∀ i a s', DriverStep E d net timeout s (.act i a) s' →
      ∀ j, j ≠ i → s'.calls[j]? = s.calls[j]? := by
  refine ⟨fun c hc => ?_, fun i a s' hs => ?_⟩
  · cases progress_run E d net timeout t₀ h c hc with
    | unconfirmed hnone _ _ hcalls ht =>
      refine ⟨fun _ => hcalls, fun _ hlate hdue => ?_⟩
      exact absurd hlate (Nat.not_le.mpr ((hdue c hc).1 _ ht))
    | confirmed hin _ hcalls _ => exact ⟨fun _ => hcalls, fun hnot => absurd hin hnot⟩
    | told hnot hmem _ => exact ⟨fun hin => absurd hin hnot, fun _ _ _ => hmem⟩
    | overtaken hnot _ ht =>
      refine ⟨fun hin => absurd hin hnot, fun _ hlate hdue => ?_⟩
      rcases ht with ⟨ht, -⟩ | ⟨-, t, hdis, hlate'⟩
      · exact absurd hlate (Nat.not_le.mpr ((hdue c hc).1 _ ht))
      · exact absurd hlate' (Nat.not_le.mpr ((hdue c hc).2 t hdis))
  · obtain ⟨c, c', hm, -⟩ := next_act hs
    exact hm.others

def twoWrites : List DriverLabel :=
  [.start exampleWrite, .start exampleWrite, .act 0 (.appendAnswers (.error .nullish)),
    .act 0 .continues, .act 1 (.appendAnswers (.ok ())), .act 1 .continues, .env (),
    .act 0 .timeout]

def refusedWrite : TimedWrite :=
  ⟨0, ⟨exampleWrite, .rejected .nullish, .fired, [exampleWrite], .rejected .typeError⟩, none, none⟩

def fulfilledWrite : TimedWrite :=
  ⟨0, ⟨exampleWrite, .fulfilled, .cleared, [], .fulfilled⟩, some 0, some 0⟩

theorem run_twoWrites :
    Run (Guarded MicrotasksFirst (DriverStep exampleFactory .next CustomSafetyNet 1))
      (State.init ⟨0, false⟩) twoWrites ⟨⟨1, false⟩, [refusedWrite, fulfilledWrite]⟩ := by
  refine Run.cons ⟨?_, rfl⟩ (Run.cons ⟨?_, rfl⟩ (Run.cons ⟨?_, rfl⟩ (Run.cons ⟨?_, rfl⟩
    (Run.cons ⟨?_, rfl⟩ (Run.cons ⟨?_, rfl⟩ (Run.cons ⟨?_, rfl⟩ (Run.cons ⟨?_, rfl⟩ .nil)))))))
  all_goals
    intro i c h hc _
    cases h
  cases hc
  exact nofun

theorem null_refusal_is_told_of :
    refusedWrite.write.event ∈ refusedWrite.write.hookCalls ∧ fulfilledWrite.write.hookCalls = [] := by
  have told := (told_of_late_writes_only _ _ _ _ _ run_twoWrites).1
  refine ⟨(told refusedWrite (by simp)).2 ?_ (Nat.le_refl 1) ?_,
    (told fulfilledWrite (by simp)).1 ⟨0, rfl, Nat.zero_lt_one⟩⟩
  · rintro ⟨t, h, -⟩
    cases h
  · intro c hc
    rcases List.mem_cons.mp hc with rfl | hc
    · exact ⟨fun due h => (nomatch h), fun t h => (nomatch h)⟩
    · cases List.mem_singleton.mp hc
      refine ⟨fun due h => (nomatch h), fun t h => ?_⟩
      cases h
      exact Nat.zero_lt_one

end Interconnect
