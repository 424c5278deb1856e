import Interconnect.Model.EventHandler
import Interconnect.Model.Example

/-! Which events are written. The map of allowed events is looked up as any object is, so a
type that is no own key of it can still find what every object literal inherits, and of that
`new` accepts the constructor `Object`. -/

namespace Interconnect

open Runs Pools

variable {Buffer : Type}

/-- The data of an event as a validator reads it, `none` where it is not JSON. -/
def decoded (J : JsonText Buffer) : (v : Version) → Recorded Buffer v → Option JsValue
  | .legacy, r => J.parse (LegacyRecordedEvent.data r)
  | .next, r => some (NextRecordedEvent.data r)

variable (cfg : Configuration Buffer) (v : Version)

/-- If the call writes, the event's type is an own key, and class-validator found no error in
the data of an instance of the class under that key, as class-transformer copies it. -/
def WritesAllowedAndValid (r : Recorded Buffer v) (c : HandleCall Buffer v) : Prop :=
  c.write.isSome → cfg.allowedEvents.IsOwnKey (r.type v) ∧
    ∃ data cls own, decoded cfg.json v r = some data ∧
      cfg.allowedEvents.get (r.type v) = .constructible cls ∧
      cfg.allowedEvents.new cls data = some own ∧
      c.validation.asked = some (cfg.classTransformer.copyData cls own) ∧
      c.validation.answer = some (.ok [])

/-- `validate` has rejected with `NotAllowedEventError`, nothing is written, and the call has
ended the same way unless it has yet to go on. -/
def RejectsAsNotAllowed (c : HandleCall Buffer v) : Prop :=
  c.validation.outcome = .rejected (.notAllowedEventError cfg.allowedEvents.keys) ∧
    c.write = none ∧ (c.outcome = .pending ∨
      c.outcome = .rejected (.notAllowedEventError cfg.allowedEvents.keys))

/-- In every run that handles the event first, from freshly loaded classes, only an allowed
and valid event is written, and one whose type is no own key is rejected as not allowed. -/
def OnlyAllowedWritten (d : Version) (r : Recorded Buffer v) : Prop :=
  ∀ as s, Run (Steps (next (handling cfg v d))) (State.init .init) (.start ⟨some r⟩ :: as) s →
    ∃ c, s.calls[0]? = some c ∧ WritesAllowedAndValid cfg v r c ∧
      (¬ cfg.allowedEvents.IsOwnKey (r.type v) → RejectsAsNotAllowed cfg v c)

variable {cfg v} {d : Version}

theorem handling_start {s : State (Process Buffer v d) (HandleCall Buffer v)}
    {e : ResolvedEvent (Recorded Buffer v)}
    (h : next (handling cfg v d) (State.init Process.init) (.start e) = some s) :
    s.calls[0]? = some (HandleCall.start (d := d) cfg .init e).2 := by
  cases h
  rfl

theorem first_call_persists (Q : HandleCall Buffer v → Prop)
    (hstep : ∀ {p p' : Process Buffer v d} {i c a c'}, Q c →
      HandleCall.Step cfg p i c a p' c' → Q c')
    {e : ResolvedEvent (Recorded Buffer v)}
    (hQ : Q (HandleCall.start cfg (Process.init : Process Buffer v d) e).2)
    {as : List (Label (ResolvedEvent (Recorded Buffer v)) HandleAct Unit)}
    {s : State (Process Buffer v d) (HandleCall Buffer v)}
    (h : Run (Steps (next (handling cfg v d))) (State.init Process.init) (.start e :: as) s) :
    ∃ c, s.calls[0]? = some c ∧ Q c := by
  obtain ⟨t, hfirst, hrest⟩ := h.uncons
  refine call_persists Q ?_ hrest (handling_start hfirst) hQ
  intro p i c a p' c' hc hs
  have hs' : (if p.exited then none else HandleCall.step cfg p i c a) = some (p', c') := hs
  split_ifs at hs' with hp
  exact hstep hc (HandleCall.step_cases hs')

theorem rejectsAsNotAllowed_step {p p' : Process Buffer v d} {i : ℕ} {c c' : HandleCall Buffer v}
    {a : HandleAct} (hc : RejectsAsNotAllowed cfg v c) (h : HandleCall.Step cfg p i c a p' c') :
    RejectsAsNotAllowed cfg v c' := by
  obtain ⟨hval, hw, hout⟩ := hc
  cases h with
  | answered _ hp => exact nomatch hp.symm.trans hval
  | refused r _ _ hr =>
    cases hval.symm.trans hr
    exact ⟨hval, hw, Or.inr rfl⟩
  | unformatted _ _ _ hf => exact nomatch hf.symm.trans hval
  | writes _ _ _ hf => exact nomatch hf.symm.trans hval
  | settled w _ hw' => exact nomatch hw.symm.trans hw'
  | write _ w _ _ hw' => exact nomatch hw.symm.trans hw'

theorem get_of_not_ownKey {allowed : AllowedEvents} {key : String} (h : ¬ allowed.IsOwnKey key) :
    allowed.get key = objectPrototype key := by
  unfold AllowedEvents.IsOwnKey at h
  rw [AllowedEvents.get, Option.not_isSome_iff_eq_none.mp h]
  rfl

/-- Of all that an object literal inherits, only `Object` can be instantiated. -/
theorem instantiate_of_not_ownKey {allowed : AllowedEvents} {key : String}
    (h : ¬ allowed.IsOwnKey key) (data : JsValue) :
    allowed.instantiate key data =
      if key = "constructor" then some (.object, data.spread) else none := by
  unfold AllowedEvents.instantiate
  rw [get_of_not_ownKey h, objectPrototype]
  by_cases hkey : key = "constructor"
  · rw [if_pos hkey, if_pos hkey]
    rfl
  · rw [if_neg hkey, if_neg hkey]
    split_ifs <;> rfl

theorem candidate_of_decoded {J : JsonText Buffer} {r : Recorded Buffer v} {data : JsValue}
    (h : decoded J v r = some data) : candidate J v ⟨some r⟩ = .ok (some (r.type v, data)) := by
  cases v with
  | legacy =>
    have h' : J.parse (LegacyRecordedEvent.data r) = some data := h
    simp only [candidate, h']
    rfl
  | next =>
    cases h
    rfl

theorem candidate_of_not_decoded {J : JsonText Buffer} {r : Recorded Buffer v}
    (h : decoded J v r = none) : candidate J v ⟨some r⟩ = .error .syntaxError := by
  cases v with
  | legacy =>
    have h' : J.parse (LegacyRecordedEvent.data r) = none := h
    simp only [candidate, h']
  | next => cases h

theorem instanceOf_cases {J : JsonText Buffer} {allowed : AllowedEvents} {r : Recorded Buffer v}
    {c : ClassRef} {own : Props} (h : instanceOf J allowed v ⟨some r⟩ = some (c, own)) :
    ∃ data, decoded J v r = some data ∧ allowed.get (r.type v) = .constructible c ∧
      allowed.new c data = some own := by
  unfold instanceOf at h
  cases hdata : decoded J v r with
  | none =>
    rw [candidate_of_not_decoded hdata] at h
    cases h
  | some data =>
    rw [candidate_of_decoded hdata] at h
    have h' : allowed.instantiate (r.type v) data = some (c, own) := h
    unfold AllowedEvents.instantiate at h'
    split at h'
    · next c' hget =>
      obtain ⟨own', hnew, he⟩ := Option.map_eq_some_iff.mp h'
      cases he
      exact ⟨data, rfl, hget, hnew⟩
    · cases h'

abbrev askedFirst (cfg : Configuration Buffer) (v : Version) (r : Recorded Buffer v) :
    Option JsValue :=
  askedOf cfg.json cfg.classTransformer.plainToClassFromExist cfg.allowedEvents v ClassStore.fresh
    ⟨some r⟩

theorem start_asked_first (r : Recorded Buffer v) :
    (HandleCall.start cfg (Process.init : Process Buffer v d) ⟨some r⟩).2.validation.asked =
      askedFirst cfg v r :=
  ValidateCall.start_asked

theorem askedFirst_eq_some {r : Recorded Buffer v} {o : JsValue}
    (h : askedFirst cfg v r = some o) : ∃ data cls own, decoded cfg.json v r = some data ∧
      cfg.allowedEvents.get (r.type v) = .constructible cls ∧
      cfg.allowedEvents.new cls data = some own ∧
      o = cfg.classTransformer.copyData cls own := by
  obtain ⟨⟨cls, own⟩, hinst, h⟩ := Option.bind_eq_some_iff.mp h
  obtain ⟨data, hdata, hget, hnew⟩ := instanceOf_cases hinst
  split_ifs at h with ht
  cases h
  exact ⟨data, cls, own, hdata, hget, hnew,
    cfg.classTransformer.copyData_eq (Bool.eq_false_iff.mpr ht)⟩

theorem onlyAllowedWritten_of_ownKey {r : Recorded Buffer v}
    (hkey : cfg.allowedEvents.IsOwnKey (r.type v)) : OnlyAllowedWritten cfg v d r := by
  intro as s h
  obtain ⟨c, hc, hset, hasked, hkind⟩ := first_call_persists
    (fun c => HandleCall.Settled cfg c ∧ c.validation.asked = askedFirst cfg v r ∧
      ((∃ o, askedFirst cfg v r = some o) ∨ ∃ r', c.validation.outcome = .rejected r'))
    (fun hc hs => ⟨HandleCall.settled_step hc.1 hs, (HandleCall.step_asked hs).trans hc.2.1,
      hc.2.2.imp_right fun ⟨r', hr'⟩ =>
        ⟨r', by rw [HandleCall.step_validation hs (by simp [hr']), hr']⟩⟩)
    ⟨HandleCall.settled_start _ _, start_asked_first r, by
      cases hasked : askedFirst cfg v r with
      | none =>
        obtain ⟨r', hr'⟩ :=
          ValidateCall.start_of_not_asked (s := ValidatorState.fresh) hasked
        exact Or.inr ⟨r', congrArg ValidateCall.outcome hr'⟩
      | some o => exact Or.inl ⟨o, rfl⟩⟩ h
  refine ⟨c, hc, fun hw => ⟨hkey, ?_⟩, fun hn => absurd hkey hn⟩
  obtain ⟨w, hw⟩ := Option.isSome_iff_exists.mp hw
  have hval := hset.validated w hw
  rcases hkind with ⟨o, ho⟩ | ⟨r', hr'⟩
  · obtain ⟨data, cls, own, hdata, hget, hnew, rfl⟩ := askedFirst_eq_some ho
    exact ⟨data, cls, own, hdata, hget, hnew, hasked.trans ho, hset.accepted hval⟩
  · exact nomatch hval.symm.trans hr'

theorem start_of_not_asked_first {r : Recorded Buffer v} {data : JsValue}
    (hdata : decoded cfg.json v r = some data) (h : askedFirst cfg v r = none) :
    RejectsAsNotAllowed cfg v
      (HandleCall.start cfg (Process.init : Process Buffer v d) ⟨some r⟩).2 := by
  have hrej := ValidateCall.start_of_not_allowed (s := ValidatorState.fresh)
    (candidate_of_decoded hdata) h
  exact ⟨congrArg ValidateCall.outcome hrej.1, rfl, Or.inl rfl⟩

theorem onlyAllowedWritten_of_not_asked {r : Recorded Buffer v} {data : JsValue}
    (hdata : decoded cfg.json v r = some data) (hasked : askedFirst cfg v r = none) :
    OnlyAllowedWritten cfg v d r := by
  intro as s h
  obtain ⟨c, hc, hrej⟩ := first_call_persists (RejectsAsNotAllowed cfg v)
    (fun hc hs => rejectsAsNotAllowed_step hc hs) (start_of_not_asked_first hdata hasked) h
  refine ⟨c, hc, fun hw => ?_, fun _ => hrej⟩
  rw [hrej.2.1] at hw
  cases hw

/-- An event whose data cannot be read is rejected before its type is looked up. -/
theorem start_of_not_decoded {r : Recorded Buffer v} (h : decoded cfg.json v r = none) :
    (HandleCall.start cfg (Process.init : Process Buffer v d) ⟨some r⟩).2.validation.outcome =
      .rejected .syntaxError :=
  congrArg (fun x => x.2.outcome) (ValidateCall.start_of_error (candidate_of_not_decoded h))

/-- Of the types that are no own key, `constructor` alone lets class-validator be asked: about a
copy of the event's data, unless the copying throws. -/
theorem askedFirst_eq_none_iff {r : Recorded Buffer v} {data : JsValue}
    (hkey : ¬ cfg.allowedEvents.IsOwnKey (r.type v)) (hdata : decoded cfg.json v r = some data) :
    askedFirst cfg v r = none ↔ r.type v ≠ "constructor" ∨
      (cfg.classTransformer.plainToClassFromExist .object Props.empty data.spread).2 = true := by
  have hinst : instanceOf cfg.json cfg.allowedEvents v ⟨some r⟩ =
      if r.type v = "constructor" then some (.object, data.spread) else none := by
    rw [← instantiate_of_not_ownKey hkey data]
    unfold instanceOf
    rw [candidate_of_decoded hdata]
    rfl
  rw [askedFirst, askedOf, hinst]
  by_cases htype : r.type v = "constructor"
  · rw [if_pos htype, Option.bind_some]
    change (if (cfg.classTransformer.plainToClassFromExist .object Props.empty data.spread).2
      then none else some _) = none ↔ _
    simp [htype]
  · simp [htype]

/-- The first event is handled as the allow list promises exactly if its type is an own key, or its
data can be read and either its type is not `constructor` or its data cannot be copied. -/
theorem only_allowed_written_iff (cfg : Configuration Buffer) (v d : Version)
    (r : Recorded Buffer v) :
    OnlyAllowedWritten cfg v d r ↔ cfg.allowedEvents.IsOwnKey (r.type v) ∨
      ∃ data, decoded cfg.json v r = some data ∧ (r.type v ≠ "constructor" ∨
        (cfg.classTransformer.plainToClassFromExist .object Props.empty data.spread).2 = true) := by
  by_cases hkey : cfg.allowedEvents.IsOwnKey (r.type v)
  · exact iff_of_true (onlyAllowedWritten_of_ownKey hkey) (Or.inl hkey)
  refine ⟨fun h => Or.inr ?_, ?_⟩
  · obtain ⟨t, ht⟩ : ∃ t, next (handling cfg v d) (State.init .init) (.start ⟨some r⟩) = some t :=
      ⟨_, rfl⟩
    obtain ⟨c, hc, -, hrej⟩ := h [] t (Run.snoc .nil ht)
    obtain rfl := Option.some.inj ((handling_start ht).symm.trans hc)
    have hout := (hrej hkey).1
    cases hdata : decoded cfg.json v r with
    | none =>
      rw [start_of_not_decoded hdata] at hout
      cases hout
    | some data =>
      refine ⟨data, rfl, (askedFirst_eq_none_iff hkey hdata).mp ?_⟩
      by_contra hne
      obtain ⟨o, ho⟩ := Option.ne_none_iff_exists'.mp hne
      exact nomatch (congrArg ValidateCall.outcome
        (ValidateCall.start_of_asked ho).1).symm.trans hout
  · rintro (h | ⟨data, hdata, hcond⟩)
    · exact absurd h hkey
    · exact onlyAllowedWritten_of_not_asked hdata ((askedFirst_eq_none_iff hkey hdata).mpr hcond)

/-- `{"data": {}}` -/
def objectUnderData : JsValue := .literal (Props.empty.set "data" (.literal Props.empty))

/-- An event of type `constructor` is an `Object` to both validators. Where its data holds a
plain object under `data`, class-validator finds no rules to break and the event is written. -/
theorem constructor_event_is_written :
    (∃ s c, exec (next (handling exampleConfiguration .legacy .legacy)) (State.init .init)
        [.start (delivered "constructor" objectUnderData .legacy),
          .act 0 (.classValidatorAnswers (.ok [])), .act 0 .continues] = some s ∧
      s.calls[0]? = some c ∧ c.write.isSome ∧ c.validation.asked = some (.literal Props.empty)) ∧
    (∃ s c, exec (next (handling exampleConfiguration .next .next)) (State.init .init)
        [.start (delivered "constructor" objectUnderData .next),
          .act 0 (.classValidatorAnswers (.ok [])), .act 0 .continues] = some s ∧
      s.calls[0]? = some c ∧ c.write.isSome ∧ c.validation.asked = some (.literal Props.empty)) ∧
    ¬ exampleEvents.IsOwnKey "constructor" :=
  ⟨⟨_, _, rfl, rfl, rfl, congrArg some (merge_empty _)⟩,
    ⟨_, _, rfl, rfl, rfl, congrArg some (merge_empty _)⟩, by decide⟩

end Interconnect
