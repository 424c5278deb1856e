import Interconnect.Lib.Account
import Interconnect.Model.Example

/-! An interconnect fails fast: its process ends with the first hook call that ends it, and a live
process has no append that is open for longer than the timeout without having told of it. -/

namespace Interconnect

open Runs Pools

variable {Buffer : Type} {v d : Version} {cfg : Configuration Buffer}

def toldOf (c : Delivery Buffer v) : List FormattedEvent :=
  match c.handle.write with
  | none => []
  | some w => w.hookCalls

def SafetyNet.endsProcess (net : SafetyNet) (e : FormattedEvent) : Bool :=
  net.cannotWriteEventHook e = .exits

/-- The hook calls of a delivery that end the process. -/
def endings (net : SafetyNet) (c : Delivery Buffer v) : List FormattedEvent :=
  (toldOf c).filter net.endsProcess

theorem WriteCall.step_told {net : SafetyNet} {now : ℕ} {w w' : WriteCall} {a : WriteAct}
    {r : HookResult} (h : WriteCall.Step net now w a r w') :
    (r = .returns ∧ w'.hookCalls.filter net.endsProcess = w.hookCalls.filter net.endsProcess) ∨
    (r = .exits ∧ w'.hookCalls.filter net.endsProcess =
      w.hookCalls.filter net.endsProcess ++ [w.event]) := by
  cases h with
  | answered => exact Or.inl ⟨rfl, rfl⟩
  | confirmed => exact Or.inl ⟨rfl, rfl⟩
  | unreadable => exact Or.inl ⟨rfl, rfl⟩
  | refused err _ _ _ hnet =>
    exact Or.inl ⟨rfl, by simp [WriteCall.callHook, SafetyNet.endsProcess, hnet]⟩
  | killed err _ _ _ hnet =>
    exact Or.inr ⟨rfl, by simp [WriteCall.callHook, SafetyNet.endsProcess, hnet]⟩
  | timedOut =>
    cases hnet : net.cannotWriteEventHook w.event with
    | returns => exact Or.inl ⟨rfl, by simp [WriteCall.callHook, SafetyNet.endsProcess, hnet]⟩
    | exits => exact Or.inr ⟨rfl, by simp [WriteCall.callHook, SafetyNet.endsProcess, hnet]⟩

theorem Delivery.step_endings {reader : Reader Buffer v} {p p' : Process Buffer v d} {i : ℕ}
    {c c' : Delivery Buffer v} {a : DeliveryAct} (h : Delivery.Step cfg reader p i c a p' c') :
    (p'.exited = p.exited ∧ endings cfg.safetyNet c' = endings cfg.safetyNet c) ∨
    (p'.exited = true ∧ ∃ e, endings cfg.safetyNet c' = endings cfg.safetyNet c ++ [e]) := by
  cases h with
  | callback c' hcb => exact Or.inl ⟨rfl, by simp [endings, toldOf, (reader.callback_keeps _ _ hcb).1]⟩
  | handle a p' h hs =>
    cases hs with
    | write a w w' r hw hs =>
      rcases WriteCall.step_told hs with ⟨rfl, htold⟩ | ⟨rfl, htold⟩
      · exact Or.inl ⟨rfl, by simpa [endings, toldOf, hw] using htold⟩
      · exact Or.inr ⟨rfl, w.event, by simpa [endings, toldOf, hw] using htold⟩
    | writes f _ hw => exact Or.inl ⟨rfl, by simp [endings, toldOf, hw, writeEvent]⟩
    | _ => exact Or.inl ⟨rfl, by simp [endings, toldOf]⟩

variable {reader : Reader Buffer v} {as : List (ReaderLabel Buffer v)} {s : ReaderState Buffer v d}

def Process.ended (p : Process Buffer v d) : List Unit := if p.exited then [()] else []

theorem ended_perm_endings (h : Run (ReaderStep cfg reader d) (State.init .init) as s) :
    s.shared.ended.Perm
      (s.calls.flatMap fun c => (endings cfg.safetyNet c).map fun _ => ()) := by
  rw [← accounts_const _ s.calls 0]
  refine log_perm_accounts Process.ended _ ?_ ?_ ?_ rfl h
  · intro p i a p' c hs
    obtain ⟨hex, -, he⟩ := deliveries_start hs
    obtain ⟨rfl, rfl⟩ := Prod.mk.inj he
    simp [Process.ended, HandleCall.start, endings, toldOf, hex]
  · intro p i c a p' c' hs
    obtain ⟨hex, hstep⟩ := deliveries_step hs
    rcases Delivery.step_endings hstep with ⟨hsame, htold⟩ | ⟨hends, e, htold⟩
    · exact ⟨[], by simp [Process.ended, hsame], by simp [htold]⟩
    · exact ⟨[()], by simp [Process.ended, hex, hends], by simp [htold]⟩
  · intro p e p' hs
    rw [(deliveries_env hs).2]
    rfl

/-- A write of which the safety net has been told has failed readably, or its timer has run. -/
def ToldForReason (w : WriteCall) : Prop :=
  (∀ e ∈ w.hookCalls, e = w.event) ∧ (w.hookCalls ≠ [] →
    (∃ err, w.append = .rejected err ∧ err.isNullish = false) ∨ w.timer = .fired)

theorem toldForReason_step {net : SafetyNet} {now : ℕ} {w w' : WriteCall} {a : WriteAct}
    {r : HookResult} (hw : ToldForReason w) (h : WriteCall.Step net now w a r w') :
    ToldForReason w' := by
  obtain ⟨hown, hreason⟩ := hw
  have hmore : ∀ e ∈ w.hookCalls ++ [w.event], e = w.event := by
    intro e he
    rcases List.mem_append.mp he with he | he
    · exact hown e he
    · exact List.mem_singleton.mp he
  cases h with
  | answered answer hp =>
    refine ⟨hown, fun hne => ?_⟩
    rcases hreason hne with ⟨err, happ, -⟩ | hfired
    · exact nomatch hp.symm.trans happ
    · exact Or.inr hfired
  | confirmed _ happ =>
    refine ⟨hown, fun hne => ?_⟩
    rcases hreason hne with ⟨err, hrej, -⟩ | hfired
    · exact nomatch happ.symm.trans hrej
    · exact Or.inr (by simp [hfired, Timer.clear])
  | unreadable => exact ⟨hown, hreason⟩
  | refused err _ happ hread => exact ⟨hmore, fun _ => Or.inl ⟨err, happ, hread⟩⟩
  | killed err _ happ hread => exact ⟨hmore, fun _ => Or.inl ⟨err, happ, hread⟩⟩
  | timedOut => exact ⟨hmore, fun _ => Or.inr rfl⟩

theorem HandleCall.step_write {P : WriteCall → Prop}
    (hstart : ∀ timeout now event, P (writeEvent cfg.eventDataFactory d timeout now event).2)
    (hstep : ∀ {now w a r w'}, P w → WriteCall.Step cfg.safetyNet now w a r w' → P w')
    {p p' : Process Buffer v d} {i : ℕ} {c c' : HandleCall Buffer v} {a : HandleAct}
    (hc : ∀ w, c.write = some w → P w) (h : HandleCall.Step cfg p i c a p' c') :
    ∀ w, c'.write = some w → P w := by
  intro x hx
  cases HandleCall.step_writeStep h with
  | unchanged _ he => exact hc x (he.symm.trans hx)
  | moved a w w' r _ hw hw' hs =>
    cases hw'.symm.trans hx
    exact hstep (hc w hw) hs
  | started f _ _ _ _ hw' =>
    cases hw'.symm.trans hx
    exact hstart ..

theorem deliveries_toldForReason (h : Run (ReaderStep cfg reader d) (State.init .init) as s) :
    ∀ c ∈ s.calls, ∀ w, c.handle.write = some w → ToldForReason w :=
  forall_handles (fun c => ∀ w, c.write = some w → ToldForReason w) (fun _ _ _ hw => nomatch hw)
    (HandleCall.step_write (fun _ _ _ => ⟨fun _ he => (nomatch he), fun hne => absurd rfl hne⟩)
      toldForReason_step) h

/-- Whatever the safety net does for each event: of all hook calls exactly one has ended the process
if it has ended, and none otherwise, and each was made for a write that failed with a reason the
driver could read, or whose timer ran. -/
theorem process_ends_by_one_hook_call (cfg : Configuration Buffer) (reader : Reader Buffer v)
    (d : Version) {as : List (ReaderLabel Buffer v)} {s : ReaderState Buffer v d}
    (h : Run (ReaderStep cfg reader d) (State.init .init) as s) :
    (s.calls.flatMap (endings cfg.safetyNet)).length = (if s.shared.exited then 1 else 0) ∧
    ∀ c ∈ s.calls, ∀ w, c.handle.write = some w → (∀ e ∈ w.hookCalls, e = w.event) ∧
      (w.hookCalls ≠ [] → (∃ err, w.append = .rejected err ∧ err.isNullish = false) ∨
        w.timer = .fired) := by
  refine ⟨?_, deliveries_toldForReason h⟩
  have hlen := (ended_perm_endings h).length_eq
  have hsum : (s.calls.flatMap fun c => (endings cfg.safetyNet c).map fun _ => ()).length =
      (s.calls.flatMap (endings cfg.safetyNet)).length := by
    simp [List.length_flatMap]
  rw [← hsum, ← hlen]
  unfold Process.ended
  split_ifs <;> rfl

/-! ### Open appends -/

/-- Until its append is answered or the safety net is told, a write waits for its timer. -/
def Waits (due : ℕ) (w : WriteCall) : Prop :=
  w.append ≠ .pending ∨ w.event ∈ w.hookCalls ∨ w.timer = .armed due

theorem waits_step {net : SafetyNet} {now due : ℕ} {w w' : WriteCall} {a : WriteAct}
    {r : HookResult} (hw : Waits due w) (h : WriteCall.Step net now w a r w') : Waits due w' := by
  by_cases hp : w.append = .pending
  · have hwait : w.event ∈ w.hookCalls ∨ w.timer = .armed due := hw.resolve_left fun hn => hn hp
    cases h with
    | answered answer =>
      refine Or.inl ?_
      cases answer <;> exact nofun
    | timedOut => exact Or.inr (Or.inl (by simp [WriteCall.callHook]))
    | confirmed _ happ => exact nomatch hp.symm.trans happ
    | unreadable _ _ happ => exact nomatch hp.symm.trans happ
    | refused _ _ happ => exact nomatch hp.symm.trans happ
    | killed _ _ happ => exact nomatch hp.symm.trans happ
  · refine Or.inl ?_
    rw [WriteCall.step_append h hp]
    exact hp

theorem Delivery.step_now {p p' : Process Buffer v d} {i : ℕ} {c c' : Delivery Buffer v}
    {a : DeliveryAct} (h : Delivery.Step cfg reader p i c a p' c') : p'.now = p.now := by
  cases h with
  | callback => rfl
  | handle a p' h hs =>
    cases hs with
    | write a w w' r => cases r <;> rfl
    | _ => rfl

theorem Delivery.step_waits {due : ℕ} {p p' : Process Buffer v d} {i : ℕ} {c c' : Delivery Buffer v}
    {a : DeliveryAct} (hc : ∃ w, c.handle.write = some w ∧ Waits due w)
    (h : Delivery.Step cfg reader p i c a p' c') :
    ∃ w, c'.handle.write = some w ∧ Waits due w := by
  obtain ⟨w, hw, hwait⟩ := hc
  cases Delivery.step_writeStep h with
  | unchanged _ he => exact ⟨w, he.trans hw, hwait⟩
  | moved a x x' r _ hx hx' hs =>
    cases hx.symm.trans hw
    exact ⟨x', hx', waits_step hwait hs⟩
  | started f hnone => exact nomatch hnone.symm.trans hw

def WaitsSoon (cfg : Configuration Buffer) (now : ℕ) (c : Delivery Buffer v) : Prop :=
  ∀ w, c.handle.write = some w → ∃ due, due ≤ now + cfg.eventWriterTimeout ∧ Waits due w

theorem waitsSoon_step {p p' : Process Buffer v d} {i : ℕ} {c c' : Delivery Buffer v}
    {a : DeliveryAct} (hc : WaitsSoon cfg p.now c)
    (h : Delivery.Step cfg reader p i c a p' c') : WaitsSoon cfg p'.now c' := by
  rw [Delivery.step_now h]
  intro x hx
  cases Delivery.step_writeStep h with
  | unchanged _ he => exact hc x (he.symm.trans hx)
  | moved a w w' r _ hw hw' hs =>
    cases hw'.symm.trans hx
    obtain ⟨due, hdue, hwait⟩ := hc w hw
    exact ⟨due, hdue, waits_step hwait hs⟩
  | started f _ _ _ _ hw' =>
    cases hw'.symm.trans hx
    exact ⟨_, Nat.le_refl _, Or.inr (Or.inr rfl)⟩

theorem deliveries_waitSoon (h : Run (ReaderStep cfg reader d) (State.init .init) as s) :
    ∀ c ∈ s.calls, WaitsSoon cfg s.shared.now c := by
  refine h.invariant (fun s => ∀ c ∈ s.calls, WaitsSoon cfg s.shared.now c) (by simp) ?_
  intro s l s' hs hn
  have hnow : s.shared.now ≤ s'.shared.now := by
    cases l with
    | start a =>
      rw [(deliveries_next_start hn).2.1]
      exact Nat.le_refl _
    | act i a =>
      obtain ⟨-, c, c', -, hstep⟩ := deliveries_next_act hn
      exact (Delivery.step_now hstep).ge
    | env e =>
      rw [(deliveries_env (next_env hn).1).2]
      exact Nat.le_succ _
  refine forall_calls_step (WaitsSoon cfg s'.shared.now) hn (fun c hc w hw => ?_) ?_ ?_
  · obtain ⟨due, hdue, hwait⟩ := hs c hc w hw
    exact ⟨due, by omega, hwait⟩
  · rintro a c - hc w hw
    obtain ⟨-, -, he⟩ := deliveries_start hc
    obtain ⟨-, rfl⟩ := Prod.mk.inj he
    cases hw
  · rintro i a c c' - hi - hc
    exact waitsSoon_step (hs c (List.mem_of_getElem? hi)) (deliveries_step hc).2

/-- Every timer that came due has run. -/
def TimersHaveRun (s : ReaderState Buffer v d) : Prop :=
  ∀ c ∈ s.calls, ∀ w due, c.handle.write = some w → w.timer = .armed due → s.shared.now < due

theorem exited_of_told (hnet : ∀ e, cfg.safetyNet.cannotWriteEventHook e = .exits)
    (h : Run (ReaderStep cfg reader d) (State.init .init) as s) {c : Delivery Buffer v}
    (hc : c ∈ s.calls) {e : FormattedEvent} (he : e ∈ toldOf c) : s.shared.exited = true := by
  have hmem : () ∈ s.calls.flatMap fun c => (endings cfg.safetyNet c).map fun _ => () := by
    refine List.mem_flatMap.mpr ⟨c, hc, List.mem_map.mpr ⟨e, List.mem_filter.mpr ⟨he, ?_⟩, rfl⟩⟩
    simp [SafetyNet.endsProcess, hnet]
  have hended := (ended_perm_endings h).mem_iff.mpr hmem
  unfold Process.ended at hended
  split_ifs at hended with hex
  · exact hex
  · cases hended

/-- A write that has been started at some time of a run: once the timeout is over and the due timers
have run, its append has been answered or the safety net has been told of it. Where every hook call
ends the process, a live process has no append that is open so long. -/
theorem no_append_stays_open (cfg : Configuration Buffer) (reader : Reader Buffer v) (d : Version)
    {as bs : List (ReaderLabel Buffer v)} {s t : ReaderState Buffer v d}
    (h : Run (ReaderStep cfg reader d) (State.init .init) as s)
    (h' : Run (ReaderStep cfg reader d) s bs t)
    (hlate : s.shared.now + cfg.eventWriterTimeout ≤ t.shared.now) (hdue : TimersHaveRun t)
    {i : ℕ} {c : Delivery Buffer v} {w : WriteCall} (hc : s.calls[i]? = some c)
    (hw : c.handle.write = some w) :
    ∃ c' w', t.calls[i]? = some c' ∧ c'.handle.write = some w' ∧
      (w'.append ≠ .pending ∨ w'.event ∈ w'.hookCalls) ∧
      ((∀ e, cfg.safetyNet.cannotWriteEventHook e = .exits) → t.shared.exited = false →
        w'.append ≠ .pending) := by
  obtain ⟨due, hdue₀, hwait⟩ := deliveries_waitSoon h c (List.mem_of_getElem? hc) w hw
  obtain ⟨c', hc', w', hw', hwait'⟩ := call_persists
    (fun c => ∃ w, c.handle.write = some w ∧ Waits due w)
    (fun _ _ _ _ _ _ hc hs => Delivery.step_waits hc (deliveries_step hs).2) h' hc ⟨w, hw, hwait⟩
  have hmem := List.mem_of_getElem? hc'
  have hdone : w'.append ≠ .pending ∨ w'.event ∈ w'.hookCalls := by
    rcases hwait' with hans | htold | htimer
    · exact Or.inl hans
    · exact Or.inr htold
    · have hlt := hdue c' hmem w' due hw' htimer
      omega
  refine ⟨c', w', hc', hw', hdone, fun hnet hlive => hdone.resolve_right fun htold => ?_⟩
  have hof : w'.event ∈ toldOf c' := by simpa [toldOf, hw'] using htold
  exact nomatch hlive.symm.trans (exited_of_told hnet (h.append h') hmem hof)

def openDelivery : List (ReaderLabel (Option JsValue) .next) :=
  [.start (arrival "Example2Event" exampleData .next),
    .act 0 (.handle (.classValidatorAnswers (.ok []))), .act 0 (.handle .continues)]

def shortConfiguration : Configuration (Option JsValue) :=
  { exampleConfiguration with eventWriterTimeout := 2 }

def openState : ReaderState (Option JsValue) .next .legacy :=
  (exec (next (deliveries shortConfiguration GrpcReaderService .legacy)) (State.init .init)
    openDelivery).get rfl

theorem unanswered_append_ends_process :
    ∃ (t : ReaderState (Option JsValue) .next .legacy) (c : Delivery (Option JsValue) .next)
      (w : WriteCall),
      exec (next (deliveries shortConfiguration GrpcReaderService .legacy)) openState
        [.env (), .env (), .act 0 (.handle (.write .timeout))] = some t ∧
      t.calls[0]? = some c ∧ c.handle.write = some w ∧
      (w.append ≠ .pending ∨ w.event ∈ w.hookCalls) ∧ t.shared.exited = true := by
  have hexec : exec (next (deliveries shortConfiguration GrpcReaderService .legacy))
      (State.init .init) openDelivery = some openState := rfl
  have hlater : exec (next (deliveries shortConfiguration GrpcReaderService .legacy)) openState
      [.env (), .env (), .act 0 (.handle (.write .timeout))] = some _ := rfl
  have hdue : ∀ t, exec (next (deliveries shortConfiguration GrpcReaderService .legacy)) openState
      [.env (), .env (), .act 0 (.handle (.write .timeout))] = some t → TimersHaveRun t := by
    intro t ht c hc w due hw htimer
    cases ht
    cases List.mem_singleton.mp hc
    cases hw
    cases htimer
  obtain ⟨c, w, hc, hw, hdone, -⟩ := no_append_stays_open _ _ _ (run_of_exec hexec)
    (run_of_exec hlater) (Nat.le_refl 2) (hdue _ hlater) (i := 0) rfl rfl
  exact ⟨_, c, w, hlater, hc, hw, hdone, rfl⟩

theorem failed_append_ends_process :
    ∃ s : ReaderState (Option JsValue) .next .legacy,
      exec (next (deliveries exampleConfiguration GrpcReaderService .legacy)) (State.init .init)
        (openDelivery ++ [.act 0 (.handle (.write (.appendAnswers (.error (.error "unavailable"))))),
          .act 0 (.handle (.write .continues))]) = some s ∧ s.shared.exited = true ∧
      (s.calls.flatMap (endings DefaultSafetyNetService)).length = 1 := by
  have hexec : exec (next (deliveries exampleConfiguration GrpcReaderService .legacy))
      (State.init .init)
      (openDelivery ++ [.act 0 (.handle (.write (.appendAnswers (.error (.error "unavailable"))))),
        .act 0 (.handle (.write .continues))]) = some _ := rfl
  exact ⟨_, rfl, rfl, (process_ends_by_one_hook_call _ _ _ (run_of_exec hexec)).1⟩

end Interconnect
