import Interconnect.Model.Example

/-! No acknowledged loss with a legacy source. The drivers turn a failed append into a call of
the safety net and fulfil, so what the source is told afterwards rests on what the hook does. -/

namespace Interconnect

open Runs Pools

variable {Buffer : Type} {v d : Version}

def Acknowledged (c : Delivery Buffer v) : Prop := ∃ q, (q, Settlement.acknowledge) ∈ c.settlements

/-- Nothing is sent before the `catch` behind `handle` is through, and so `handle` is. -/
structure Awaited (c : Delivery Buffer .legacy) : Prop where
  caught : c.settlements ≠ [] → c.caught ≠ .pending
  handle : c.caught ≠ .pending → c.handle.outcome ≠ .pending

theorem awaited_step {cfg : Configuration Buffer} {p p' : Process Buffer .legacy d} {i : ℕ}
    {c c' : Delivery Buffer .legacy} {a : DeliveryAct} (hc : Awaited c)
    (h : Delivery.Step cfg HttpReaderService p i c a p' c') : Awaited c' := by
  obtain ⟨hcaught, hhandle⟩ := hc
  cases h with
  | handle a p' h hs =>
    refine ⟨hcaught, fun hc => ?_⟩
    have hout := hhandle hc
    rw [HandleCall.step_outcome hs hout]
    exact hout
  | callback c' hs =>
    cases HttpReaderService.callback_cases hs with
    | handled _ ho => exact ⟨fun _ h => (nomatch h), fun _ h => nomatch ho.symm.trans h⟩
    | failed e _ ho =>
      refine ⟨fun _ => ?_, fun _ h => nomatch ho.symm.trans h⟩
      unfold logDetails
      split_ifs <;> exact fun h => nomatch h
    | acknowledged hful _ => exact ⟨fun _ h => (nomatch hful.symm.trans h), hhandle⟩
    | rethrown e hrej _ => exact ⟨fun _ h => (nomatch hrej.symm.trans h), hhandle⟩

variable {cfg : Configuration Buffer}

theorem deliveries_awaited {as : List (ReaderLabel Buffer .legacy)} {s : ReaderState Buffer .legacy d}
    (h : Run (ReaderStep cfg HttpReaderService d) (State.init .init) as s) :
    ∀ c ∈ s.calls, Awaited c := by
  refine forall_deliveries (fun _ => True) Awaited ?_ (fun hc _ hs => awaited_step hc hs) h
    (fun _ _ _ => trivial)
  intro p a
  exact ⟨fun hs => absurd rfl hs, fun hc => absurd rfl hc⟩

/-- A `handle` call that has ended was refused, or has written: then its append fulfilled, or
failed with a reason the driver could not read, or failed and the hook let the process live. -/
theorem ended_cases {c : HandleCall Buffer v} (hc : HandleCall.Settled cfg c)
    (ho : c.outcome ≠ .pending) :
    c.Refused ∨ ∃ w, c.write = some w ∧ (w.append = .fulfilled ∨
      ∃ err, w.append = .rejected err ∧ (err.isNullish = false →
        cfg.safetyNet.cannotWriteEventHook w.event = .returns ∧ w.event ∈ w.hookCalls)) := by
  cases hout : c.outcome with
  | pending => exact absurd hout ho
  | fulfilled =>
    obtain ⟨w, hw, hwo⟩ := hc.fulfilled hout
    right
    refine ⟨w, hw, ?_⟩
    rcases (hc.write w hw).fulfilled hwo with happ | ⟨err, happ, -, hnet, hmem⟩
    · exact Or.inl happ
    · exact Or.inr ⟨err, happ, fun _ => ⟨hnet, hmem⟩⟩
  | rejected r =>
    rcases hc.rejected r hout with hval | ⟨hval, hfmt⟩ | ⟨w, hw, hwo⟩
    · exact Or.inl ⟨r, hval⟩
    · -- what has been validated has been read, so formatting it does not fail
      rcases hc.instantiated with hrej | hinst
      · exact Or.inl hrej
      · obtain ⟨f, hf⟩ := format_of_instance hinst
        cases hf.symm.trans hfmt
    · obtain ⟨err, happ, hnull⟩ := (hc.write w hw).rejected r hwo
      right
      exact ⟨w, hw, Or.inr ⟨err, happ, fun h => nomatch hnull.symm.trans h⟩⟩

theorem ended_of_acknowledged {c : Delivery Buffer .legacy} (hc : Awaited c)
    (hack : Acknowledged c) : c.handle.outcome ≠ .pending := by
  obtain ⟨q, hq⟩ := hack
  refine hc.handle (hc.caught ?_)
  intro hnil
  rw [hnil] at hq
  cases hq

/-- With any safety net, a validated event is acknowledged only once its append has answered:
it fulfilled, or it failed and, unless with `null` or `undefined`, the hook was called with the
formatted event before. -/
theorem legacy_acknowledged_only_once_answered (cfg : Configuration Buffer) (d : Version)
    {as : List (ReaderLabel Buffer .legacy)} {s : ReaderState Buffer .legacy d}
    (h : Run (ReaderStep cfg HttpReaderService d) (State.init .init) as s)
    {c : Delivery Buffer .legacy} (hc : c ∈ s.calls)
    (hval : c.handle.validation.outcome = .fulfilled) (hack : Acknowledged c) :
    ∃ w, c.handle.write = some w ∧ format cfg.json .legacy c.handle.validation.event = .ok w.event ∧
      (w.append = .fulfilled ∨
        ∃ err, w.append = .rejected err ∧ (err.isNullish = false → w.event ∈ w.hookCalls)) := by
  have hset := handles_settled h c hc
  have hended := ended_of_acknowledged (deliveries_awaited h c hc) hack
  rcases ended_cases hset hended with ⟨r, hr⟩ | ⟨w, hw, hans⟩
  · exact nomatch hval.symm.trans hr
  · refine ⟨w, hw, hset.formatted w hw, ?_⟩
    rcases hans with happ | ⟨err, happ, hhook⟩
    · exact Or.inl happ
    · exact Or.inr ⟨err, happ, fun hn => (hhook hn).2⟩

def appendedDelivery (answer : Except Rejection Unit) : List (ReaderLabel (Option JsValue) .legacy) :=
  [.start (arrival "Example2Event" exampleData .legacy),
    .act 0 (.handle (.classValidatorAnswers (.ok []))), .act 0 (.handle .continues),
    .act 0 (.handle (.write (.appendAnswers answer)))]

def settledDelivery : List (ReaderLabel (Option JsValue) .legacy) :=
  [.act 0 (.handle (.write .continues)), .act 0 (.handle .continues), .act 0 .callback,
    .act 0 .callback]

def customConfiguration : Configuration (Option JsValue) :=
  { exampleConfiguration with safetyNet := CustomSafetyNet }

theorem legacy_custom_net_was_told :
    ∃ s c w, exec (next (deliveries customConfiguration HttpReaderService .legacy)) (State.init .init)
        (appendedDelivery (.error (.error "unavailable")) ++ settledDelivery) = some s ∧
      s.calls[0]? = some c ∧ c.handle.write = some w ∧
      (w.append = .fulfilled ∨
        ∃ err, w.append = .rejected err ∧ (err.isNullish = false → w.event ∈ w.hookCalls)) := by
  have hexec : exec (next (deliveries customConfiguration HttpReaderService .legacy))
      (State.init .init) (appendedDelivery (.error (.error "unavailable")) ++ settledDelivery) =
        some _ := rfl
  obtain ⟨w, hw, -, hans⟩ := legacy_acknowledged_only_once_answered _ _ (run_of_exec hexec)
    (List.mem_singleton_self _) rfl ⟨0, List.mem_singleton_self _⟩
  exact ⟨_, _, w, rfl, rfl, hw, hans⟩

/-- Where the hook lets the process live, an event the destination has refused is acknowledged. -/
theorem legacy_refused_write_is_acknowledged :
    ∃ s c w, exec (next (deliveries customConfiguration HttpReaderService .legacy)) (State.init .init)
        (appendedDelivery (.error (.error "unavailable")) ++ settledDelivery) = some s ∧
      s.calls[0]? = some c ∧ c.settlements = [(0, .acknowledge)] ∧
      c.handle.validation.outcome = .fulfilled ∧ c.handle.write = some w ∧
      w.append = .rejected (.error "unavailable") :=
  ⟨_, _, _, rfl, rfl, rfl, rfl, rfl, rfl⟩

/-! ### The default safety net -/

/-- The label says that an append answers, or throws, with `null` or `undefined`. -/
def RejectsNullish (l : ReaderLabel Buffer v) : Prop :=
  ∃ i r, l = .act i (.handle (.write (.appendAnswers (.error r)))) ∧ r.isNullish = true

def ReadableFailure (c : HandleCall Buffer v) : Prop :=
  ∀ w err, c.write = some w → w.append = .rejected err → err.isNullish = false

theorem readableFailure_step {p p' : Process Buffer v d} {i : ℕ} {c c' : HandleCall Buffer v}
    {a : HandleAct} (hc : ReadableFailure c)
    (ha : ∀ r, a = .write (.appendAnswers (.error r)) → r.isNullish = false)
    (h : HandleCall.Step cfg p i c a p' c') : ReadableFailure c' := by
  intro x err hx happ
  cases h with
  | answered => exact hc x err hx happ
  | refused => exact hc x err hx happ
  | unformatted => exact hc x err hx happ
  | settled => exact hc x err hx happ
  | writes f =>
    cases hx
    simp only [writeEvent] at happ
    split_ifs at happ
    cases happ
    rfl
  | write a w w' r hw hs =>
    cases hx
    cases hs with
    | answered answer hp =>
      cases answer with
      | ok => cases happ
      | error r' =>
        cases happ
        exact ha _ rfl
    | confirmed => exact hc w err hw happ
    | unreadable => exact hc w err hw happ
    | refused => exact hc w err hw happ
    | killed => exact hc w err hw happ
    | timedOut => exact hc w err hw happ

theorem deliveries_readableFailure {reader : Reader Buffer v} {as : List (ReaderLabel Buffer v)}
    {s : ReaderState Buffer v d}
    (h : Run (ReaderStep cfg reader d) (State.init .init) as s)
    (herr : ∀ l ∈ as, ¬ RejectsNullish l) : ∀ c ∈ s.calls, ReadableFailure c.handle := by
  refine forall_deliveries
    (fun a => ∀ r, a = .handle (.write (.appendAnswers (.error r))) → r.isNullish = false)
    (fun c => ReadableFailure c.handle) (fun p a w err hw => nomatch hw) ?_ h ?_
  · intro p p' i c a c' hc ha hs
    cases hs with
    | handle a _ _ hstep => exact readableFailure_step hc (fun r hr => ha r (congrArg _ hr)) hstep
    | callback c' hcb =>
      rw [(reader.callback_keeps _ _ hcb).1]
      exact hc
  · intro i a ha r hr
    by_contra hn
    exact herr _ ha ⟨i, r, congrArg _ hr, by simpa using hn⟩

theorem acknowledged_accounted {as : List (ReaderLabel Buffer .legacy)}
    {s : ReaderState Buffer .legacy d} (hnet : cfg.safetyNet = DefaultSafetyNetService)
    (h : Run (ReaderStep cfg HttpReaderService d) (State.init .init) as s)
    (herr : ∀ l ∈ as, ¬ RejectsNullish l) {c : Delivery Buffer .legacy} (hc : c ∈ s.calls)
    (hack : Acknowledged c) : c.handle.AppendFulfilled ∨ c.handle.Refused := by
  have hended := ended_of_acknowledged (deliveries_awaited h c hc) hack
  rcases ended_cases (handles_settled h c hc) hended with href | ⟨w, hw, happ | ⟨err, happ, hhook⟩⟩
  · exact Or.inr href
  · exact Or.inl ⟨w, hw, happ⟩
  · have hread := deliveries_readableFailure h herr c hc w err hw happ
    have hret := (hhook hread).1
    rw [hnet] at hret
    cases hret

/-- A timer that has run has ended the process. -/
def TimersEndProcess (s : ReaderState Buffer v d) : Prop :=
  ∀ c ∈ s.calls, ∀ w, c.handle.write = some w → w.timer = .fired → s.shared.exited = true

theorem fired_exits {p p' : Process Buffer v d} {i : ℕ} {c c' : HandleCall Buffer v} {a : HandleAct}
    (hnet : cfg.safetyNet = DefaultSafetyNetService) (h : HandleCall.Step cfg p i c a p' c')
    (hc : ∀ w, c.write = some w → w.timer ≠ .fired) {x : WriteCall} (hx : c'.write = some x)
    (hfired : x.timer = .fired) : p'.exited = true := by
  cases h with
  | answered => exact absurd hfired (hc x hx)
  | refused => exact absurd hfired (hc x hx)
  | unformatted => exact absurd hfired (hc x hx)
  | settled => exact absurd hfired (hc x hx)
  | writes f =>
    cases hx
    cases hfired
  | write a w w' r hw hs =>
    cases hx
    have hnot := hc w hw
    cases hs with
    | answered => exact absurd hfired hnot
    | confirmed =>
      exfalso
      cases ht : w.timer with
      | armed due => simp [ht, Timer.clear] at hfired
      | cleared => simp [ht, Timer.clear] at hfired
      | fired => exact hnot ht
    | unreadable => exact absurd hfired hnot
    | refused => exact absurd hfired hnot
    | killed => rfl
    | timedOut due hdue =>
      rw [hnet]
      rfl

theorem timersEndProcess {reader : Reader Buffer v} (hnet : cfg.safetyNet = DefaultSafetyNetService)
    {as : List (ReaderLabel Buffer v)} {s : ReaderState Buffer v d}
    (h : Run (ReaderStep cfg reader d) (State.init .init) as s) :
    TimersEndProcess s := by
  refine h.invariant TimersEndProcess (fun c hc => nomatch hc) ?_
  intro s l s' hs hn
  -- the process was alive before this step, so no timer had run
  have hnot : ∀ c ∈ s.calls, ∀ w, c.handle.write = some w → w.timer ≠ .fired := by
    intro c hc w hw hfired
    exact nomatch (hs c hc w hw hfired).symm.trans (not_exited_of_next hn)
  refine forall_calls_step
    (fun c => ∀ w, c.handle.write = some w → w.timer = .fired → s'.shared.exited = true) hn
    (fun c hc w hw hfired => absurd hfired (hnot c hc w hw)) ?_ ?_
  · rintro a c - hc w hw
    obtain ⟨-, -, he⟩ := deliveries_start hc
    obtain ⟨-, rfl⟩ := Prod.mk.inj he
    cases hw
  · rintro i a c c' - hi - hstep w hw hfired
    have hc := hnot c (List.mem_of_getElem? hi)
    have hstep := (deliveries_step hstep).2
    generalize s'.shared = p' at hstep ⊢
    cases hstep with
    | handle a _ _ hs => exact fired_exits hnet hs hc hw hfired
    | callback c' hcb =>
      rw [(reader.callback_keeps _ _ hcb).1] at hw
      exact absurd hfired (hc w hw)

/-- The append has failed, or its timer has run before it answered. -/
def WriteFailed (c : HandleCall Buffer v) : Prop :=
  ∃ w, c.write = some w ∧ ((∃ err, w.append = .rejected err) ∨
    (w.append = .pending ∧ w.timer = .fired))

def AppendRejected (c : HandleCall Buffer v) : Prop :=
  c.validation.outcome = .fulfilled ∧ ∃ w err, c.write = some w ∧ w.append = .rejected err

theorem appendRejected_step {p p' : Process Buffer v d} {i : ℕ} {c c' : HandleCall Buffer v}
    {a : HandleAct} (hc : AppendRejected c) (h : HandleCall.Step cfg p i c a p' c') :
    AppendRejected c' := by
  obtain ⟨hval, x, err, hx, happ⟩ := hc
  have hval' : c'.validation.outcome = .fulfilled := by
    rw [HandleCall.step_validation h (fun hp => nomatch hp.symm.trans hval)]
    exact hval
  refine ⟨hval', ?_⟩
  cases h with
  | writes f _ hw => exact nomatch hw.symm.trans hx
  | write a w w' r hw hs =>
    obtain rfl : w = x := Option.some.inj (hw.symm.trans hx)
    have hne : w.append ≠ .pending := fun hp => nomatch hp.symm.trans happ
    exact ⟨w', err, rfl, (WriteCall.step_append hs hne).trans happ⟩
  | _ => exact ⟨x, err, hx, happ⟩

/-- With the default safety net, in every run whose append failures are errors: an acknowledged
event has had its append fulfil or was refused by the validator; and one whose append failed, or
had not answered when its timer ran, is never acknowledged from then on. -/
theorem legacy_no_acknowledged_loss (cfg : Configuration Buffer) (d : Version)
    (hnet : cfg.safetyNet = DefaultSafetyNetService) {as : List (ReaderLabel Buffer .legacy)}
    {s : ReaderState Buffer .legacy d}
    (h : Run (ReaderStep cfg HttpReaderService d) (State.init .init) as s)
    (herr : ∀ l ∈ as, ¬ RejectsNullish l) :
    (∀ c ∈ s.calls, Acknowledged c → c.handle.AppendFulfilled ∨ c.handle.Refused) ∧
    ∀ (i : ℕ) (c : Delivery Buffer .legacy), s.calls[i]? = some c → WriteFailed c.handle →
      ∀ bs t, Run (ReaderStep cfg HttpReaderService d) s bs t →
        (∀ l ∈ bs, ¬ RejectsNullish l) → ∀ c', t.calls[i]? = some c' → ¬ Acknowledged c' := by
  refine ⟨fun c hc hack => acknowledged_accounted hnet h herr hc hack, ?_⟩
  rintro i c hi ⟨w, hw, hfail⟩ bs t hbs hberr c' hi' hack
  have hcmem := List.mem_of_getElem? hi
  have hval := (handles_settled h c hcmem).validated w hw
  rcases hfail with ⟨err, happ⟩ | ⟨happ, hfired⟩
  · obtain ⟨x, hx, hval', w', err', hw', happ'⟩ := call_persists
      (fun c => AppendRejected c.handle)
      (fun p j c a p' c' hc hs =>
        Delivery.step_handle appendRejected_step hc (deliveries_step hs).2)
      hbs hi ⟨hval, w, err, hw, happ⟩
    cases hi'.symm.trans hx
    have hrun := h.append hbs
    have hlabels : ∀ l ∈ as ++ bs, ¬ RejectsNullish l := by
      intro l hl
      rcases List.mem_append.mp hl with hl | hl
      · exact herr l hl
      · exact hberr l hl
    rcases acknowledged_accounted hnet hrun hlabels (List.mem_of_getElem? hi') hack with
      ⟨y, hy, hful⟩ | ⟨r, hr⟩
    · cases hw'.symm.trans hy
      exact nomatch happ'.symm.trans hful
    · exact nomatch hval'.symm.trans hr
  · -- the process has exited, so nothing was done after the timer ran
    have hex := timersEndProcess hnet h c hcmem w hw hfired
    rw [eq_of_exited hex hbs] at hi'
    cases hi.symm.trans hi'
    rcases acknowledged_accounted hnet h herr hcmem hack with ⟨y, hy, hful⟩ | ⟨r, hr⟩
    · cases hw.symm.trans hy
      exact nomatch happ.symm.trans hful
    · exact nomatch hval.symm.trans hr

theorem legacy_default_net_loses_nothing :
    (∃ s c, exec (next (deliveries exampleConfiguration HttpReaderService .legacy)) (State.init .init)
        (appendedDelivery (.ok ()) ++ settledDelivery) = some s ∧ s.calls[0]? = some c ∧
      Acknowledged c ∧ (c.handle.AppendFulfilled ∨ c.handle.Refused)) ∧
    (∃ s t c, exec (next (deliveries exampleConfiguration HttpReaderService .legacy))
        (State.init .init) (appendedDelivery (.error (.error "unavailable"))) = some s ∧
      exec (next (deliveries exampleConfiguration HttpReaderService .legacy)) s
        [.act 0 (.handle (.write .continues))] = some t ∧
      t.calls[0]? = some c ∧ ¬ Acknowledged c) := by
  refine ⟨⟨_, _, rfl, rfl, ⟨0, List.mem_singleton_self _⟩, ?_⟩, ⟨_, _, _, rfl, rfl, rfl, ?_⟩⟩
  · have hexec : exec (next (deliveries exampleConfiguration HttpReaderService .legacy))
        (State.init .init) (appendedDelivery (.ok ()) ++ settledDelivery) = some _ := rfl
    refine (legacy_no_acknowledged_loss _ _ rfl (run_of_exec hexec) ?_).1 _
      (List.mem_singleton_self _) ⟨0, List.mem_singleton_self _⟩
    rintro l hl ⟨i, r, rfl, -⟩
    simp [appendedDelivery, settledDelivery] at hl
  · have hexec : exec (next (deliveries exampleConfiguration HttpReaderService .legacy))
        (State.init .init) (appendedDelivery (.error (.error "unavailable"))) = some _ := rfl
    refine (legacy_no_acknowledged_loss _ _ rfl (run_of_exec hexec) ?_).2 0 _ rfl
      ⟨_, rfl, Or.inl ⟨_, rfl⟩⟩ [.act 0 (.handle (.write .continues))] _ (run_of_exec rfl) ?_ _ rfl
    · rintro l hl ⟨i, r, rfl, hr⟩
      simp [appendedDelivery] at hl
      rw [hl.2] at hr
      cases hr
    · rintro l hl ⟨i, r, rfl, -⟩
      simp at hl

end Interconnect
