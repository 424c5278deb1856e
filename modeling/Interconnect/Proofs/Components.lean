import Interconnect.Lib.Projection
import Interconnect.Proofs.History
import Interconnect.Proofs.SafetyNet

/-! The services of a running process do what they do alone: its `writeEvent` calls are a run of the
driver, its `validate` calls are a run of the validator, and the latter sees the events in the order
in which they arrive. -/

namespace Interconnect

open Runs Pools

variable {Buffer : Type} {v d : Version} {cfg : Configuration Buffer} {reader : Reader Buffer v}

/-- What a driver sees of the process it is in. -/
def Process.driver (p : Process Buffer v d) : DriverProcess := ⟨p.now, p.exited⟩

def Delivery.write (c : Delivery Buffer v) : Option WriteCall := c.handle.write

def Delivery.validation (c : Delivery Buffer v) :
    Option (ValidateCall (ResolvedEvent (Recorded Buffer v))) := some c.handle.validation

def Delivery.writesSo (G : WriteCall → WriteAct → Prop) (c : Delivery Buffer v) : DeliveryAct → Prop
  | .handle (.write a) => ∀ w, c.write = some w → G w a
  | _ => True

theorem Process.driver_after (p : Process Buffer v d) (r : HookResult) :
    (p.after r).driver = p.driver.after r := by
  cases r <;> rfl

theorem Process.validator_after (p : Process Buffer v d) (r : HookResult) :
    (p.after r).validator = p.validator := by
  cases r <;> rfl

theorem continues_moves_write {G : WriteCall → WriteAct → Prop} {p p' : Process Buffer v d} {i : ℕ}
    {c c' : HandleCall Buffer v} (hex : p.exited = false)
    (h : HandleCall.Step cfg p i c .continues p' c') :
    PartMoves (writes cfg.eventDataFactory d cfg.safetyNet cfg.eventWriterTimeout) TimedWrite.write
      G p.driver p'.driver c.write c'.write := by
  cases h with
  | refused => exact .same _ rfl
  | unformatted => exact .same _ rfl
  | settled => exact .same _ rfl
  | writes f _ hw =>
    rw [hw]
    refine .starts f _ fun j =>
      ⟨⟨p.now, (writeEvent cfg.eventDataFactory d cfg.eventWriterTimeout p.now f).2, none, none⟩,
        ?_, rfl⟩
    simp [Interconnect.writes, Process.driver, Process.append, hex]

theorem deliveries_project_writes (G : WriteCall → WriteAct → Prop) :
    Projects (deliveries cfg reader d)
      (writes cfg.eventDataFactory d cfg.safetyNet cfg.eventWriterTimeout)
      Process.driver Delivery.write TimedWrite.write (Delivery.writesSo G) G where
  start h := by
    obtain ⟨-, -, he⟩ := deliveries_start h
    obtain ⟨rfl, rfl⟩ := Prod.mk.inj he
    exact .same _ rfl
  step {p i c a p' c'} hG h := by
    obtain ⟨hex, hs⟩ := deliveries_step h
    cases hs with
    | callback c' hcb =>
      rw [Delivery.write, Delivery.write, (reader.callback_keeps _ _ hcb).1]
      exact .same _ rfl
    | handle a p' h' hs =>
      cases a with
      | classValidatorAnswers answer =>
        cases hs
        exact .same _ rfl
      | continues => exact continues_moves_write hex hs
      | write a =>
        simp only [deliveries, hex, if_true, Delivery.step] at h
        obtain ⟨⟨q, h''⟩, hhandle, he⟩ := Option.map_eq_some_iff.mp h
        cases he
        obtain ⟨w, hw, hhandle⟩ := Option.bind_eq_some_iff.mp hhandle
        obtain ⟨⟨r, w'⟩, hwrite, he⟩ := Option.map_eq_some_iff.mp hhandle
        cases he
        rw [Process.driver_after]
        have hw' : c.write = some w := hw
        rw [hw']
        refine .steps a w w' (hG w hw) fun j x hx => ?_
        subst hx
        refine ⟨⟨x.startedAt, w', (confirms p.now a).or x.confirmedAt,
          (disarms p.now x.write.timer w'.timer).or x.disarmedAt⟩, ?_, rfl⟩
        simp [writes, Process.driver, hex, hwrite]
  env {p e p'} h := by
    obtain ⟨hex, rfl⟩ := deliveries_env h
    refine Or.inr ⟨(), ?_⟩
    simp [writes, Process.driver, hex]

theorem deliveries_project_validations :
    Projects (deliveries cfg reader d)
      (validations cfg.json cfg.classTransformer.plainToClassFromExist cfg.allowedEvents v)
      Process.validator Delivery.validation id (fun _ _ => True) (fun _ _ => True) where
  start {p i a p' c} h := by
    obtain ⟨-, -, he⟩ := deliveries_start h
    obtain ⟨rfl, rfl⟩ := Prod.mk.inj he
    exact .starts a.event _ fun j => ⟨_, rfl, rfl⟩
  step {p i c a p' c'} _ h := by
    obtain ⟨hex, hs⟩ := deliveries_step h
    cases hs with
    | callback c' hcb =>
      rw [Delivery.validation, Delivery.validation, (reader.callback_keeps _ _ hcb).1]
      exact .same _ rfl
    | handle a p' h' hs =>
      cases hs with
      | answered answer ho =>
        refine .steps answer _ _ trivial fun j x hx => ⟨_, ?_, rfl⟩
        cases hx
        simp [validations, ValidateCall.classValidatorAnswers, ho, Promise.isPending]
      | write a w w' r => exact .same _ (Process.validator_after p r)
      | _ => exact .same _ rfl
  env h := by
    obtain ⟨-, rfl⟩ := deliveries_env h
    exact Or.inl rfl

/-- Whatever a process does is a run of its driver, whose steps meet any condition on writes that
those of the process meet, and a run of its validator. -/
theorem services_of_process_run_alone (cfg : Configuration Buffer) (reader : Reader Buffer v)
    (d : Version) (G : WriteCall → WriteAct → Prop) :
    Simulates (Guarded (CallGuard (Delivery.writesSo G)) (ReaderStep cfg reader d))
      (Guarded (CallGuard fun x => G x.write)
        (DriverStep cfg.eventDataFactory d cfg.safetyNet cfg.eventWriterTimeout))
      (Mirrors Process.driver Delivery.write TimedWrite.write) (fun _ => True) (fun _ => True) ∧
    Simulates (ReaderStep cfg reader d)
      (Steps (next
        (validations cfg.json cfg.classTransformer.plainToClassFromExist cfg.allowedEvents v)))
      (Mirrors Process.validator Delivery.validation id) (fun _ => True) (fun _ => True) :=
  ⟨(deliveries_project_writes G).simulates, deliveries_project_validations.simulates.mono
    (fun _ _ _ hs => ⟨fun _ _ _ _ _ => trivial, hs⟩) fun _ _ _ hs => hs.2⟩

/-- A write goes on after a failed append only quietly. -/
def QuietStep (w : WriteCall) (a : WriteAct) : Prop := a = .continues → w.GoesOnQuietly

theorem told_at_most_once_in_process {as : List (ReaderLabel Buffer v)} {s : ReaderState Buffer v d}
    (h : Run (Guarded (CallGuard (Delivery.writesSo QuietStep)) (ReaderStep cfg reader d))
      (State.init .init) as s) :
    ∀ c ∈ s.calls, ∀ w, c.write = some w → w.ToldAtMostOnce := by
  refine (deliveries_project_writes QuietStep).transports (P := fun _ w => w.ToldAtMostOnce) ?_ h
  intro ls t ht x hx
  refine (ht.invariant (fun t => ∀ x ∈ t.calls, ToldByTimer x.write) (by simp) ?_ x hx).toldAtMostOnce
  rintro t l t' ht ⟨hquiet, hn⟩
  refine forall_calls_step (fun x => ToldByTimer x.write) hn ht ?_ ?_
  · rintro event x - hx
    obtain ⟨-, rfl⟩ := writes_start hx
    exact toldByTimer_start _ event
  · rintro i a x x' rfl hget hx hx'
    obtain ⟨-, -, -, -, r, hstep⟩ := writes_step hx'
    exact toldByTimer_step hx (hquiet i a x rfl hget) hstep

/-! ### The order in which a process validates -/

def arrivedEvents (s : ReaderState Buffer v d) : List (ResolvedEvent (Recorded Buffer v)) :=
  s.calls.map fun c => c.handle.validation.event

theorem arrivedEvents_act {s s' : ReaderState Buffer v d} {i : ℕ} {a : DeliveryAct}
    (h : next (deliveries cfg reader d) s (.act i a) = some s') :
    arrivedEvents s' = arrivedEvents s := by
  obtain ⟨-, c, c', hm, hstep⟩ := deliveries_next_act h
  refine hm.map_eq (Delivery.step_handle (Q := fun x => x.validation.event = c.handle.validation.event)
    ?_ rfl hstep)
  intro p p' i x a x' hx hs
  rw [HandleCall.step_event hs, hx]

theorem step_classes {p p' : Process Buffer v d} {i : ℕ} {c c' : Delivery Buffer v} {a : DeliveryAct}
    (h : Delivery.Step cfg reader p i c a p' c') : p'.validator.classes = p.validator.classes := by
  cases h with
  | callback => rfl
  | handle a p' h hs =>
    cases hs with
    | answered answer => exact report_classes answer
    | write a w w' r => rw [Process.validator_after]
    | _ => rfl

/-- A class holds what the events copied into it in the order of their arrival. -/
theorem classes_of_process {as : List (ReaderLabel Buffer v)} {s : ReaderState Buffer v d}
    (h : Run (ReaderStep cfg reader d) (State.init .init) as s) (k : ClassRef) :
    s.shared.validator.classes k =
      copiedInto cfg.json cfg.classTransformer.plainToClassFromExist cfg.allowedEvents v k
        (arrivedEvents s) := by
  refine h.invariant (fun s => s.shared.validator.classes k =
    copiedInto cfg.json cfg.classTransformer.plainToClassFromExist cfg.allowedEvents v k
      (arrivedEvents s)) rfl ?_
  intro s l s' hs hn
  cases l with
  | start a =>
    obtain ⟨-, hsh, hcalls⟩ := deliveries_next_start hn
    have harr : arrivedEvents s' = arrivedEvents s ++ [a.event] := by
      rw [arrivedEvents, hcalls, List.map_append]
      exact congrArg (_ ++ [·]) (HandleCall.start_event s.shared a.event)
    have hcl : s'.shared.validator = (ValidateCall.start cfg.json
        cfg.classTransformer.plainToClassFromExist cfg.allowedEvents v s.shared.validator
        a.event).1 := by
      rw [hsh]
      rfl
    rw [harr, copiedInto_concat, hcl, start_copies, hs]
  | act i a =>
    obtain ⟨-, c, c', -, hstep⟩ := deliveries_next_act hn
    rw [arrivedEvents_act hn, ← hs, step_classes hstep]
  | env e =>
    obtain ⟨henv, hcalls⟩ := next_env hn
    rw [arrivedEvents, hcalls, (deliveries_env henv).2]
    exact hs

def classesAfter (cfg : Configuration Buffer) (before : List (ResolvedEvent (Recorded Buffer v))) :
    ClassStore := fun k =>
  copiedInto cfg.json cfg.classTransformer.plainToClassFromExist cfg.allowedEvents v k before

/-- What class-validator is asked about for an event that arrives after `before`. -/
def askedAfter (cfg : Configuration Buffer) (before : List (ResolvedEvent (Recorded Buffer v)))
    (e : ResolvedEvent (Recorded Buffer v)) : Option JsValue :=
  askedOf cfg.json cfg.classTransformer.plainToClassFromExist cfg.allowedEvents v
    (classesAfter cfg before) e

theorem start_asked {p : Process Buffer v d} {before : List (ResolvedEvent (Recorded Buffer v))}
    (hp : ∀ k, p.validator.classes k = classesAfter cfg before k)
    (e : ResolvedEvent (Recorded Buffer v)) :
    (HandleCall.start cfg p e).2.validation.asked = askedAfter cfg before e := by
  rw [askedAfter, ← funext hp]
  exact ValidateCall.start_asked

theorem take_arrivedEvents_append {s s' : ReaderState Buffer v d} {i : ℕ} {c : Delivery Buffer v}
    (hcalls : s'.calls = s.calls ++ [c]) (hi : i ≤ s.calls.length) :
    (arrivedEvents s').take i = (arrivedEvents s).take i := by
  rw [arrivedEvents, arrivedEvents, hcalls, List.map_append, List.take_append_of_le_length]
  rwa [List.length_map]

/-- Each delivery is validated against the events that arrived before it, however far the handling
of these has come. -/
def AskedInOrder (cfg : Configuration Buffer) (s : ReaderState Buffer v d) : Prop :=
  ∀ i c, s.calls[i]? = some c →
    c.handle.validation.asked = askedAfter cfg ((arrivedEvents s).take i) c.handle.validation.event

theorem askedInOrder_start {as : List (ReaderLabel Buffer v)} {s s' : ReaderState Buffer v d}
    {a : Arrival Buffer v} (hr : Run (ReaderStep cfg reader d) (State.init .init) as s)
    (hs : AskedInOrder cfg s) (h : next (deliveries cfg reader d) s (.start a) = some s') :
    AskedInOrder cfg s' := by
  obtain ⟨-, -, hcalls⟩ := deliveries_next_start h
  intro i c hc
  have hc' := hc
  rw [hcalls] at hc'
  rcases getElem?_append_cases hc' with ⟨rfl, rfl⟩ | hc'
  · rw [take_arrivedEvents_append hcalls (Nat.le_refl _), arrivedEvents,
      List.take_of_length_le (by rw [List.length_map])]
    have hevent : (HandleCall.start cfg s.shared a.event).2.validation.event = a.event :=
      HandleCall.start_event s.shared a.event
    simp only [Delivery.start, hevent]
    exact start_asked (classes_of_process hr) a.event
  · rw [take_arrivedEvents_append hcalls (List.getElem?_eq_some_iff.mp hc').1.le]
    exact hs i c hc'

theorem askedInOrder_act {s s' : ReaderState Buffer v d} {i : ℕ} {a : DeliveryAct}
    (hs : AskedInOrder cfg s) (h : next (deliveries cfg reader d) s (.act i a) = some s') :
    AskedInOrder cfg s' := by
  obtain ⟨-, c, c', hm, hstep⟩ := deliveries_next_act h
  intro j x hx
  rw [arrivedEvents_act h]
  rcases hm.cases hx with ⟨rfl, rfl⟩ | ⟨-, hx⟩
  · have hkeeps := Delivery.step_handle
      (Q := fun y => y.validation.event = c.handle.validation.event ∧
        y.validation.asked = c.handle.validation.asked)
      (fun hy hs => ⟨(HandleCall.step_event hs).trans hy.1, (HandleCall.step_asked hs).trans hy.2⟩)
      ⟨rfl, rfl⟩ hstep
    rw [hkeeps.1, hkeeps.2]
    exact hs j c hm.before
  · exact hs j x hx

theorem askedInOrder_run {as : List (ReaderLabel Buffer v)} {s : ReaderState Buffer v d}
    (h : Run (ReaderStep cfg reader d) (State.init .init) as s) : AskedInOrder cfg s := by
  induction h with
  | nil => exact fun i c hc => nomatch hc
  | @snoc as s s' l hr hs ih =>
    cases l with
    | start a => exact askedInOrder_start hr ih hs
    | act i a => exact askedInOrder_act ih hs
    | env e =>
      obtain ⟨-, hcalls⟩ := next_env hs
      intro i c hc
      rw [arrivedEvents, hcalls]
      exact ih i c (hcalls ▸ hc)

def overlappingArrivals : List (ReaderLabel (Option JsValue) .next) :=
  [.start (arrival "Example1Event" (.literal validData) .next),
    .start (arrival "Example1Event" (.literal Props.empty) .next)]

end Interconnect
