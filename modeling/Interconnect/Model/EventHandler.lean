import Interconnect.Model.Driver
import Interconnect.Model.ValidateCall

/-! `EventHandlerService.handle`: validate, format, write. Each call runs on its own; what calls
share is the process they run in. -/

namespace Interconnect

open Pools

/-- What one interconnect is set up with, apart from the two versions. -/
structure Configuration (Buffer : Type) where
  json : JsonText Buffer
  eventDataFactory : EventDataFactory json
  classTransformer : ClassTransformer
  allowedEvents : AllowedEvents
  safetyNet : SafetyNet
  /-- `EVENT_WRITER_TIMEOUT_IN_MS` -/
  eventWriterTimeout : ℕ
  /-- the number of subscriptions; each is known by its position in the list -/
  subscriptions : ℕ

/-- The process of an interconnect that reads from version `v` and writes to version `d`. -/
structure Process (Buffer : Type) (v d : Version) where
  validator : ValidatorState (HookArgument Buffer v)
  now : ℕ
  exited : Bool
  /-- the calls of the client's `appendToStream`, oldest first, with the call of `handle` that
  made each -/
  appended : List (ℕ × AppendRequest (Body Buffer d))

variable {Buffer : Type} {v d : Version}

namespace Process

def init : Process Buffer v d := ⟨ValidatorState.fresh, 0, false, []⟩

def after (p : Process Buffer v d) : HookResult → Process Buffer v d
  | .returns => p
  | .exits => { p with exited := true }

def append (p : Process Buffer v d) (i : ℕ) (request : Option (AppendRequest (Body Buffer d))) :
    Process Buffer v d :=
  { p with appended := p.appended ++ request.toList.map fun r => (i, r) }

@[simp] theorem after_appended (p : Process Buffer v d) (r : HookResult) :
    (p.after r).appended = p.appended := by
  cases r <;> rfl

end Process

structure HandleCall (Buffer : Type) (v : Version) where
  validation : ValidateCall (ResolvedEvent (Recorded Buffer v))
  write : Option WriteCall
  outcome : Promise

def HandleCall.Refused (c : HandleCall Buffer v) : Prop := ∃ r, c.validation.outcome = .rejected r

def HandleCall.AppendFulfilled (c : HandleCall Buffer v) : Prop :=
  ∃ w, c.write = some w ∧ w.append = .fulfilled

inductive HandleAct
  | classValidatorAnswers (answer : Validation)
  | continues
  | write (a : WriteAct)

namespace HandleCall

variable (cfg : Configuration Buffer)

def start (p : Process Buffer v d) (e : ResolvedEvent (Recorded Buffer v)) :
    Process Buffer v d × HandleCall Buffer v :=
  let r := ValidateCall.start cfg.json cfg.classTransformer.plainToClassFromExist
    cfg.allowedEvents v p.validator e
  ({ p with validator := r.1 }, { validation := r.2, write := none, outcome := .pending })

/-- `handle` goes on after the await of `validate` or after the one of `writeEvent`. -/
def continues (p : Process Buffer v d) (i : ℕ) (c : HandleCall Buffer v) :
    Option (Process Buffer v d × HandleCall Buffer v) :=
  match c.outcome, c.write, c.validation.outcome with
  | .pending, none, .rejected r => some (p, { c with outcome := .rejected r })
  | .pending, none, .fulfilled =>
    match format cfg.json v c.validation.event with
    | .error r => some (p, { c with outcome := .rejected r })
    | .ok formattedEvent =>
      let r := writeEvent cfg.eventDataFactory d cfg.eventWriterTimeout p.now formattedEvent
      some (p.append i r.1, { c with write := some r.2 })
  | .pending, some w, _ =>
    if w.outcome.isPending then none else some (p, { c with outcome := w.outcome })
  | _, _, _ => none

def step (p : Process Buffer v d) (i : ℕ) (c : HandleCall Buffer v) :
    HandleAct → Option (Process Buffer v d × HandleCall Buffer v)
  | .classValidatorAnswers answer =>
    (ValidateCall.classValidatorAnswers cfg.json v p.validator c.validation answer).map fun r =>
      ({ p with validator := r.1 }, { c with validation := r.2 })
  | .continues => continues cfg p i c
  | .write a =>
    c.write.bind fun w => (w.step cfg.safetyNet p.now a).map fun r =>
      (p.after r.1, { c with write := some r.2 })

inductive Step (p : Process Buffer v d) (i : ℕ) (c : HandleCall Buffer v) :
    HandleAct → Process Buffer v d → HandleCall Buffer v → Prop
  | answered (answer : Validation) : c.validation.outcome = .pending →
      Step p i c (.classValidatorAnswers answer)
        { p with validator := (report cfg.json v p.validator c.validation.event answer).1 }
        { c with validation := { c.validation with
            answer := some answer
            outcome := .ofExcept (report cfg.json v p.validator c.validation.event answer).2 } }
  | refused (r : Rejection) : c.outcome = .pending → c.write = none →
      c.validation.outcome = .rejected r →
      Step p i c .continues p { c with outcome := .rejected r }
  | unformatted (r : Rejection) : c.outcome = .pending → c.write = none →
      c.validation.outcome = .fulfilled → format cfg.json v c.validation.event = .error r →
      Step p i c .continues p { c with outcome := .rejected r }
  | writes (f : FormattedEvent) : c.outcome = .pending → c.write = none →
      c.validation.outcome = .fulfilled → format cfg.json v c.validation.event = .ok f →
      Step p i c .continues
        (p.append i (appendEventToStreamteEvent cfg.eventDataFactory d f))
        { c with
          write := some (writeEvent cfg.eventDataFactory d cfg.eventWriterTimeout p.now f).2 }
  | settled (w : WriteCall) : c.outcome = .pending → c.write = some w → w.outcome ≠ .pending →
      Step p i c .continues p { c with outcome := w.outcome }
  | write (a : WriteAct) (w w' : WriteCall) (r : HookResult) : c.write = some w →
      WriteCall.Step cfg.safetyNet p.now w a r w' →
      Step p i c (.write a) (p.after r) { c with write := some w' }

variable {cfg} {p p' : Process Buffer v d} {i : ℕ} {c c' : HandleCall Buffer v} {a : HandleAct}

theorem step_cases (h : step cfg p i c a = some (p', c')) : Step cfg p i c a p' c' := by
  cases a with
  | classValidatorAnswers answer =>
    obtain ⟨⟨s, val⟩, hval, he⟩ := Option.map_eq_some_iff.mp h
    obtain ⟨hp, rfl, rfl⟩ := ValidateCall.classValidatorAnswers_eq hval
    cases he
    exact .answered answer hp
  | continues =>
    simp only [step, continues] at h
    split at h
    · next r ho hw hv =>
      cases h
      exact .refused r ho hw hv
    · next ho hw hv =>
      split at h
      · next r hf =>
        cases h
        exact .unformatted r ho hw hv hf
      · next f hf =>
        cases h
        exact .writes f ho hw hv hf
    · next _ w ho hw =>
      split_ifs at h with hp
      cases h
      refine .settled w ho hw fun hpend => hp ?_
      rw [hpend]
      rfl
    · cases h
  | write a =>
    obtain ⟨w, hw, h⟩ := Option.bind_eq_some_iff.mp h
    obtain ⟨⟨r, w'⟩, hstep, he⟩ := Option.map_eq_some_iff.mp h
    cases he
    exact .write a w w' r hw (WriteCall.step_cases hstep)

/-- What a step does to the write of its call and to the list of appends: nothing, a step of the
write itself, or its start. -/
inductive WriteStep (cfg : Configuration Buffer) (p : Process Buffer v d) (i : ℕ)
    (c : HandleCall Buffer v) (p' : Process Buffer v d) (c' : HandleCall Buffer v) : Prop
  | unchanged : p'.appended = p.appended → c'.write = c.write → WriteStep cfg p i c p' c'
  | moved (a : WriteAct) (w w' : WriteCall) (r : HookResult) : p'.appended = p.appended →
      c.write = some w → c'.write = some w' → WriteCall.Step cfg.safetyNet p.now w a r w' →
      WriteStep cfg p i c p' c'
  | started (f : FormattedEvent) : c.write = none → c.validation.outcome = .fulfilled →
      format cfg.json v c.validation.event = .ok f →
      p'.appended = p.appended ++
        (appendEventToStreamteEvent cfg.eventDataFactory d f).toList.map (fun r => (i, r)) →
      c'.write = some (writeEvent cfg.eventDataFactory d cfg.eventWriterTimeout p.now f).2 →
      WriteStep cfg p i c p' c'

theorem step_writeStep (h : Step cfg p i c a p' c') : WriteStep cfg p i c p' c' := by
  cases h with
  | writes f _ hw hv hf => exact .started f hw hv hf rfl rfl
  | write a w w' r hw hs => exact .moved a w w' r (by simp) hw rfl hs
  | _ => exact .unchanged rfl rfl

theorem step_event (h : Step cfg p i c a p' c') : c'.validation.event = c.validation.event := by
  cases h <;> rfl

theorem step_asked (h : Step cfg p i c a p' c') : c'.validation.asked = c.validation.asked := by
  cases h <;> rfl

theorem step_validation (h : Step cfg p i c a p' c') (hc : c.validation.outcome ≠ .pending) :
    c'.validation = c.validation := by
  cases h with
  | answered _ ho => exact absurd ho hc
  | _ => rfl

theorem step_outcome (h : Step cfg p i c a p' c') (hc : c.outcome ≠ .pending) :
    c'.outcome = c.outcome := by
  cases h with
  | answered => rfl
  | write => rfl
  | refused _ ho => exact absurd ho hc
  | unformatted _ ho => exact absurd ho hc
  | writes _ ho => exact absurd ho hc
  | settled _ ho => exact absurd ho hc

structure Settled (cfg : Configuration Buffer) (c : HandleCall Buffer v) : Prop where
  instantiated : (∃ r, c.validation.outcome = .rejected r) ∨
    (instanceOf cfg.json cfg.allowedEvents v c.validation.event).isSome
  accepted : c.validation.outcome = .fulfilled → c.validation.answer = some (.ok [])
  validated : ∀ w, c.write = some w → c.validation.outcome = .fulfilled
  formatted : ∀ w, c.write = some w → format cfg.json v c.validation.event = .ok w.event
  write : ∀ w, c.write = some w → w.Settled cfg.safetyNet
  fulfilled : c.outcome = .fulfilled → ∃ w, c.write = some w ∧ w.outcome = .fulfilled
  rejected : ∀ r, c.outcome = .rejected r → c.validation.outcome = .rejected r ∨
    c.validation.outcome = .fulfilled ∧ format cfg.json v c.validation.event = .error r ∨
    ∃ w, c.write = some w ∧ w.outcome = .rejected r

theorem settled_start (p : Process Buffer v d) (e : ResolvedEvent (Recorded Buffer v)) :
    Settled cfg (start cfg p e).2 := by
  refine ⟨?_, ?_, fun w h => (nomatch h), fun w h => (nomatch h), fun w h => (nomatch h),
    fun h => (nomatch h), fun r h => (nomatch h)⟩
  all_goals
    cases hasked : askedOf cfg.json cfg.classTransformer.plainToClassFromExist cfg.allowedEvents v
        p.validator.classes e with
    | none =>
      obtain ⟨r, hr⟩ := ValidateCall.start_of_not_asked hasked
      simp [start, hr]
    | some o =>
      have hinst := instanceOf_of_asked (Option.isSome_of_mem hasked)
      simp [start, (ValidateCall.start_of_asked hasked).1, hinst]

theorem start_event (p : Process Buffer v d) (e : ResolvedEvent (Recorded Buffer v)) :
    (start cfg p e).2.validation.event = e := by
  simp only [start, ValidateCall.start]
  split <;> rfl

theorem settled_step (hc : Settled cfg c) (h : Step cfg p i c a p' c') : Settled cfg c' := by
  obtain ⟨hinst, hacc, hval, hfmt, hwrite, hful, hrej⟩ := hc
  cases h with
  | answered answer hp =>
    have hnone : c.write = none := by
      cases hw : c.write with
      | none => rfl
      | some w => exact nomatch hp.symm.trans (hval w hw)
    refine ⟨?_, fun hr => ?_, fun w hw => ?_, fun w hw => ?_, hwrite, hful, fun r hr => ?_⟩
    · rcases hinst with ⟨r, hr⟩ | hinst
      · exact nomatch hp.symm.trans hr
      · exact Or.inr hinst
    · exact congrArg some ((report_ok_iff answer).mp (Promise.ofExcept_fulfilled hr))
    · exact nomatch hnone.symm.trans hw
    · exact nomatch hnone.symm.trans hw
    · rcases hrej r hr with h | ⟨h, -⟩ | ⟨w, hw, -⟩
      · exact nomatch hp.symm.trans h
      · exact nomatch hp.symm.trans h
      · exact nomatch hnone.symm.trans hw
  | refused r ho hw hv =>
    refine ⟨hinst, hacc, hval, hfmt, hwrite, fun h => (nomatch h), fun r' h => ?_⟩
    cases h
    exact Or.inl hv
  | unformatted r ho hw hv hf =>
    refine ⟨hinst, hacc, hval, hfmt, hwrite, fun h => (nomatch h), fun r' h => ?_⟩
    cases h
    exact Or.inr (Or.inl ⟨hv, hf⟩)
  | writes f ho hw hv hf =>
    refine ⟨hinst, hacc, fun _ _ => hv, fun w h => ?_, fun w h => ?_, fun h => ?_, fun r h => ?_⟩
    · cases h
      exact hf
    · cases h
      exact WriteCall.settled_start ..
    · exact nomatch ho.symm.trans h
    · exact nomatch ho.symm.trans h
  | settled w ho hw hs =>
    exact ⟨hinst, hacc, hval, hfmt, hwrite, fun h => ⟨w, hw, h⟩,
      fun r h => Or.inr (Or.inr ⟨w, hw, h⟩)⟩
  | write a w w' r hw hs =>
    have hout : ∀ {o}, o ≠ Promise.pending → w.outcome = o → w'.outcome = o := fun ho he =>
      (WriteCall.step_outcome hs (he ▸ ho)).trans he
    refine ⟨hinst, hacc, fun _ _ => hval w hw, fun x hx => ?_, fun x hx => ?_, fun h => ?_,
      fun r h => ?_⟩
    · cases hx
      rw [WriteCall.step_event hs]
      exact hfmt w hw
    · cases hx
      exact WriteCall.settled_step (hwrite w hw) hs
    · obtain ⟨x, hx, ho⟩ := hful h
      cases hw.symm.trans hx
      exact ⟨w', rfl, hout (fun hn => nomatch hn) ho⟩
    · rcases hrej r h with h | h | ⟨x, hx, ho⟩
      · exact Or.inl h
      · exact Or.inr (Or.inl h)
      · cases hw.symm.trans hx
        exact Or.inr (Or.inr ⟨w', rfl, hout (fun hn => nomatch hn) ho⟩)

end HandleCall

def handling (cfg : Configuration Buffer) (v d : Version) :
    Behaviour (Process Buffer v d) (HandleCall Buffer v) (ResolvedEvent (Recorded Buffer v))
      HandleAct Unit where
  start p _ e := if p.exited then none else some (HandleCall.start cfg p e)
  step p i c a := if p.exited then none else HandleCall.step cfg p i c a
  env p _ := if p.exited then none else some { p with now := p.now + 1 }

end Interconnect
