import Interconnect.Proofs.Losses

/-! Order from the source to the destination, over all restarts. With a legacy source that delivers
one event of a subscription at a time, copies stand at the destination in the order of the
subscription, though appends of lost processes may still be applied at any time. -/

namespace Interconnect

open Runs Pools Journals

variable {Buffer : Type} {v d : Version} {cfg : Configuration Buffer} {feed : Feed Buffer v}

/-- The source delivers an event only when it has let go of the earlier ones of its subscription, as
with a buffer of one. -/
def OneAtATime (feed : Feed Buffer v) (s : Interconnection Buffer v d) (l : InterconnectionLabel) :
    Prop :=
  ∀ q n ackThrows, l = .deliver q n ackThrows → ∀ m < n, (feed q m).isSome → (q, m) ∈ s.retired

def RefusedAt (s : Interconnection Buffer v d) (q n : ℕ) : Prop :=
  ∃ x ∈ s.delivered, x.position = n ∧ x.delivery.subscription = q ∧ x.delivery.handle.Refused

/-- Where an event has been delivered, the source has let go of the earlier ones. -/
def EarlierRetired (feed : Feed Buffer v) (s : Interconnection Buffer v d) : Prop :=
  ∀ x ∈ s.delivered, ∀ m < x.position, (feed x.delivery.subscription m).isSome →
    (x.delivery.subscription, m) ∈ s.retired

section

variable {s s' : Interconnection Buffer v d} {l : InterconnectionLabel}

theorem retired_grows (h : Interconnection.Step cfg feed s l s') :
    ∀ y ∈ s.retired, y ∈ s'.retired := by
  cases h with
  | retires => exact fun y hy => List.mem_append_left _ hy
  | _ => exact fun y hy => hy

theorem earlierRetired_step (hs : EarlierRetired feed s)
    (hal : s.positions.length = s.world.process.calls.length) (hone : OneAtATime feed s l)
    (h : Interconnection.Step cfg feed s l s') : EarlierRetired feed s' := by
  intro y hy m hm hfeed
  refine retired_grows h _ ?_
  rcases (grows_step hal h).origin y hy with ⟨x, hx, hn, hmoved⟩ | ⟨p, a, -, hl, hnew⟩
  · rw [hmoved.subscription] at hfeed ⊢
    exact hs x hx m (hn ▸ hm) hfeed
  · rw [hnew] at hfeed ⊢
    exact hone _ _ _ hl m hm hfeed

theorem refusedAt_step {q n : ℕ} (hs : RefusedAt s q n)
    (hal : s.positions.length = s.world.process.calls.length)
    (h : Interconnection.Step cfg feed s l s') : RefusedAt s' q n := by
  obtain ⟨x, hx, hn, hq, href⟩ := hs
  obtain ⟨y, hy, hpos, hmoved⟩ := (grows_step hal h).kept x hx
  exact ⟨y, hy, hpos.trans hn, hmoved.subscription.trans hq, hmoved.handle refused_step href⟩

/-- An append of a later event has been sent only if the source has let go of the earlier one. -/
theorem retired_of_sent {ok : DeliveryAct → Prop} (hs : Sound cfg feed ok s)
    (hearlier : EarlierRetired feed s) {q n : ℕ} {r' : Recorded Buffer v} (hn : (feed q n).isSome)
    (hafter : ∀ q' m, feed q' m = some ⟨some r'⟩ → q' = q ∧ n < m) {a : SentAppend Buffer v d}
    (ha : a ∈ s.world.sent) (hsource : a.source = r') : (q, n) ∈ s.retired := by
  obtain ⟨x, hx, hsent⟩ := hs.allSent ha
  have hev : x.delivery.handle.validation.event = ⟨some r'⟩ := by
    have hevent := hsent.event
    generalize x.delivery.handle.validation.event = event at hevent ⊢
    obtain ⟨o⟩ := event
    exact hsource ▸ congrArg _ hevent
  have hfed := hs.fed x hx
  rw [hev] at hfed
  obtain ⟨hq, hlt⟩ := hafter _ _ hfed
  rw [← hq] at hn ⊢
  exact hearlier x hx n hlt hn

end

/-! ### A legacy source -/

variable {feed : Feed Buffer .legacy} {s s' : Interconnection Buffer .legacy d}
  {l : InterconnectionLabel} {q n : ℕ} {r r' : Recorded Buffer .legacy}

/-- A copy of the later event is added only where the earlier one was refused or has been copied. -/
theorem precedes_step (hnet : cfg.safetyNet = DefaultSafetyNetService) (huniq : NamesUnique feed)
    (hs : Sound cfg feed FailsReadably s) (hnamed : Named cfg s.world)
    (hearlier : EarlierRetired feed s) (hr : feed q n = some ⟨some r⟩)
    (hafter : ∀ q' m, feed q' m = some ⟨some r'⟩ → q' = q ∧ n < m) (hnot : ¬ RefusedAt s q n)
    (hp : Precedes (fun e : CopiedEvent Buffer .legacy d => e.source = r) (fun e => e.source = r')
      s.world.destination.entries) (h : Interconnection.Step cfg feed s l s') :
    Precedes (fun e : CopiedEvent Buffer .legacy d => e.source = r) (fun e => e.source = r')
      s'.world.destination.entries := by
  cases h with
  | applies k a record ha hrec =>
    refine hp.append fun hsource => ?_
    have hret : (q, n) ∈ s.retired :=
      retired_of_sent hs hearlier (by simp [hr]) hafter (List.mem_of_getElem? ha) hsource
    rcases retired_accounted hnet huniq hs hnamed hret with href | ⟨x, hx, i, e, hi, he, -⟩
    · exact absurd href hnot
    · cases hr.symm.trans hx
      exact ⟨e, List.mem_of_getElem? hi, he⟩
  | _ => exact hp

theorem earlierRetired_run {as : List InterconnectionLabel}
    (h : Run (Guarded (OneAtATime feed) (InterconnectionStep cfg feed d)) Interconnection.init as s)
    (hok : ∀ i a, InterconnectionLabel.act i a ∈ as → FailsReadably a) :
    Sound cfg feed FailsReadably s ∧ EarlierRetired feed s := by
  refine h.invariant_of_labels (fun l => ∀ i a, l = .act i a → FailsReadably a)
    (fun s => Sound cfg feed FailsReadably s ∧ EarlierRetired feed s)
    (fun l hl i a he => hok i a (he ▸ hl)) ⟨Sound.run FailsReadably .nil ?_, fun x hx => ?_⟩ ?_
  · intro i a ha
    cases ha
  · cases hx
  · rintro s l s' ⟨hs, hearlier⟩ hl ⟨hone, hn⟩
    have hstep := Interconnection.next_cases hn
    exact ⟨hs.step hl hstep, earlierRetired_step hearlier hs.aligned hone hstep⟩

/-- With a legacy source that delivers one event of a subscription at a time, and the default safety
net, over any redeliveries, restarts and late or repeated appends: unless the earlier of two events
was refused, no copy of the later one stands at the destination without one of the earlier before
it. -/
theorem copies_keep_source_order (cfg : Configuration Buffer) (feed : Feed Buffer .legacy)
    (d : Version) (hnet : cfg.safetyNet = DefaultSafetyNetService) (huniq : NamesUnique feed)
    {as : List InterconnectionLabel} {s : Interconnection Buffer .legacy d}
    (h : Run (Guarded (OneAtATime feed) (InterconnectionStep cfg feed d)) Interconnection.init as s)
    (hok : ∀ i a, InterconnectionLabel.act i a ∈ as → FailsReadably a) {q n : ℕ}
    {r r' : Recorded Buffer .legacy} (hr : feed q n = some ⟨some r⟩)
    (hafter : ∀ q' m, feed q' m = some ⟨some r'⟩ → q' = q ∧ n < m) :
    RefusedAt s q n ∨ Precedes (fun e : CopiedEvent Buffer .legacy d => e.source = r)
      (fun e => e.source = r') s.world.destination.entries := by
  induction h with
  | nil =>
    right
    intro j y hj
    cases hj
  | @snoc as s s' l hrun hs ih =>
    have hok' : ∀ i a, InterconnectionLabel.act i a ∈ as → FailsReadably a :=
      fun i a ha => hok i a (List.mem_append_left _ ha)
    obtain ⟨hsound, hearlier⟩ := earlierRetired_run hrun hok'
    have hnamed := named_of_interconnection (hrun.mono fun _ _ _ hs => hs.2)
    have hstep := Interconnection.next_cases hs.2
    by_cases href : RefusedAt s q n
    · exact Or.inl (refusedAt_step href hsound.aligned hstep)
    · have hp := (ih hok').resolve_left href
      exact Or.inr (precedes_step hnet huniq hsound hnamed hearlier hr hafter href hp hstep)

def laterId : String := "7d1d3a3e-0b6f-4c8e-9a52-5f0c2b9e4d02"

def twoEvents : Feed (Option JsValue) .legacy
  | 0, 0 => some ⟨some ⟨"hero-1", exampleId, "Example2Event", some exampleData, none⟩⟩
  | 0, 1 => some ⟨some ⟨"hero-1", laterId, "Example2Event", some exampleData, none⟩⟩
  | _, _ => none

theorem twoEvents_eq {q n : ℕ} {r : Recorded (Option JsValue) .legacy}
    (h : twoEvents q n = some ⟨some r⟩) :
    q = 0 ∧ (n = 0 ∧ r.id .legacy = exampleId ∨ n = 1 ∧ r.id .legacy = laterId) := by
  unfold twoEvents at h
  split at h
  · cases h
    exact ⟨rfl, Or.inl ⟨rfl, rfl⟩⟩
  · cases h
    exact ⟨rfl, Or.inr ⟨rfl, rfl⟩⟩
  · cases h

theorem twoEvents_namesUnique : NamesUnique twoEvents := by
  intro q n q' n' r r' h h' _ hid
  obtain ⟨rfl, hn⟩ := twoEvents_eq h
  obtain ⟨rfl, hn'⟩ := twoEvents_eq h'
  have hsame : n = n' := by
    rcases hn with ⟨rfl, hr⟩ | ⟨rfl, hr⟩ <;> rcases hn' with ⟨rfl, hr'⟩ | ⟨rfl, hr'⟩
    · rfl
    · exact absurd (hr.symm.trans (hid.trans hr')) (by decide)
    · exact absurd (hr.symm.trans (hid.trans hr')) (by decide)
    · rfl
  subst hsame
  exact Option.some.inj (congrArg ResolvedEvent.event (Option.some.inj (h.symm.trans h')))

/-- The first event is written twice, the first time by a process that is lost before its append is
applied, and the source is told. -/
def copyFirstTwice : List InterconnectionLabel :=
  copyFirst ++ [.restart] ++ copyFirst ++ [.apply 1] ++ retireFirst

def copySecond : List InterconnectionLabel :=
  [.deliver 0 1 false, .act 1 (.handle (.classValidatorAnswers (.ok []))),
    .act 1 (.handle .continues), .apply 2, .apply 0]

theorem run_copySecond : ∃ s : Interconnection (Option JsValue) .legacy .next,
    Run (Guarded (OneAtATime twoEvents) (InterconnectionStep exampleConfiguration twoEvents .next))
      Interconnection.init (copyFirstTwice ++ copySecond) s ∧
    s.world.destination.entries.map (fun e => e.source.id .legacy) = [exampleId, laterId] := by
  obtain ⟨t, ht, hret, s, hs, hids⟩ : ∃ t : Interconnection (Option JsValue) .legacy .next,
      exec (Interconnection.next exampleConfiguration twoEvents) Interconnection.init
        copyFirstTwice = some t ∧ t.retired = [(0, 0)] ∧
      ∃ s, exec (Interconnection.next exampleConfiguration twoEvents) t copySecond = some s ∧
        s.world.destination.entries.map (fun e => e.source.id .legacy) = [exampleId, laterId] :=
    ⟨_, rfl, rfl, _, rfl, rfl⟩
  obtain ⟨u, hu, hrest⟩ := (run_of_exec hs).uncons
  refine ⟨s, ((run_of_exec ht).guarded ?_).append (.cons ⟨?_, hu⟩ (hrest.guarded ?_)), hids⟩
  · rintro a ha u q n ackThrows rfl m hm
    simp [copyFirstTwice, copyFirst, retireFirst] at ha
    omega
  · intro q n ackThrows hl m hm _
    cases hl
    rw [hret, Nat.lt_one_iff.mp hm]
    exact List.mem_singleton_self _
  · rintro a ha u q n ackThrows rfl
    simp at ha

theorem late_append_keeps_order : ∃ s : Interconnection (Option JsValue) .legacy .next,
    s.world.destination.entries.map (fun e => e.source.id .legacy) = [exampleId, laterId] ∧
    (RefusedAt s 0 0 ∨ Precedes
      (fun e : CopiedEvent (Option JsValue) .legacy .next =>
        e.source = (⟨"hero-1", exampleId, "Example2Event", some exampleData, none⟩ :
          LegacyRecordedEvent _))
      (fun e => e.source = (⟨"hero-1", laterId, "Example2Event", some exampleData, none⟩ :
          LegacyRecordedEvent _)) s.world.destination.entries) := by
  obtain ⟨s, hrun, hids⟩ := run_copySecond
  refine ⟨s, hids, copies_keep_source_order _ _ _ rfl twoEvents_namesUnique hrun ?_ rfl ?_⟩
  · rintro i a ha r rfl
    simp [copyFirstTwice, copyFirst, retireFirst, copySecond] at ha
  · intro q m hm
    obtain ⟨rfl, ⟨-, hid⟩ | ⟨rfl, -⟩⟩ := twoEvents_eq hm
    · exact absurd hid (by decide)
    · exact ⟨rfl, Nat.one_pos⟩

end Interconnect
