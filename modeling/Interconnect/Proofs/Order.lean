import Interconnect.Model.Example

/-! Order and gaps with a gRPC source. Deliveries run side by side, so events overtake one
another; where each is delivered only after the ones before it on its subscription are done
with, appends follow the order of delivery. -/

namespace Interconnect

open Runs Pools

theorem prefix_of_pairwise_lt {l m : List ℕ} (hl : l.Pairwise (· < ·)) (hm : m.Pairwise (· < ·))
    (hsub : ∀ a ∈ l, a ∈ m) (hdown : ∀ a ∈ m, ∀ b ∈ l, a < b → a ∈ l) : l <+: m := by
  induction m generalizing l with
  | nil =>
    cases l with
    | nil => exact List.prefix_rfl
    | cons b l => exact absurd (hsub b List.mem_cons_self) (by simp)
  | cons a m ih =>
    cases l with
    | nil => exact List.nil_prefix
    | cons b l =>
      obtain ⟨hb, hl'⟩ := List.pairwise_cons.mp hl
      obtain ⟨ha, hm'⟩ := List.pairwise_cons.mp hm
      have hba : b = a := by
        rcases List.mem_cons.mp (hsub b List.mem_cons_self) with h | h
        · exact h
        · -- the head of the longer list is smaller, so it would have to be in the shorter one
          have hmem := hdown a List.mem_cons_self b List.mem_cons_self (ha b h)
          rcases List.mem_cons.mp hmem with h' | h'
          · exact h'.symm
          · have := hb a h'
            have := ha b h
            omega
      subst hba
      refine List.cons_prefix_cons.mpr ⟨rfl, ih hl' hm' (fun x hx => ?_) fun x hx y hy hxy => ?_⟩
      · rcases List.mem_cons.mp (hsub x (List.mem_cons_of_mem _ hx)) with h | h
        · have := hb x hx
          omega
        · exact h
      · rcases List.mem_cons.mp
          (hdown x (List.mem_cons_of_mem _ hx) y (List.mem_cons_of_mem _ hy) hxy) with h | h
        · have := ha x hx
          omega
        · exact h

variable {Buffer : Type} {v d : Version}

def HandleCall.Done (c : HandleCall Buffer v) : Prop := c.Refused ∨ c.AppendFulfilled

variable (s : ReaderState Buffer v d)

/-- the events whose append was called, by their position, in the order of the calls -/
def appendedEvents : List ℕ := s.shared.appended.map Prod.fst

def subscriptionOf (i : ℕ) : Option ℕ := s.calls[i]?.map (·.subscription)

def appendedOn (q : ℕ) : List ℕ := (appendedEvents s).filter fun i => subscriptionOf s i = some q

def writtenOn (q : ℕ) : List ℕ :=
  (appendedOn s q).filter fun i => s.calls[i]?.any fun c =>
    c.handle.write.any fun w => w.append.isFulfilled

/-- the events delivered on a subscription that the validator has accepted, in order of delivery -/
def acceptedOn (q : ℕ) : List ℕ :=
  (List.range s.calls.length).filter fun i => s.calls[i]?.any fun c =>
    c.subscription = q && c.handle.validation.outcome.isFulfilled

/-- Appends follow the order of delivery, without gaps, and one at a time. -/
structure InOrder : Prop where
  earlierDone : ∀ i ∈ appendedEvents s, ∀ j < i, ∀ c c' : Delivery Buffer v, s.calls[i]? = some c →
    s.calls[j]? = some c' → c'.subscription = c.subscription → c'.handle.Done
  appended_prefix : ∀ q, appendedOn s q <+: acceptedOn s q
  written_prefix : ∀ q, writtenOn s q <+: acceptedOn s q
  oneInFlight : ∀ (i j : ℕ) (c c' : Delivery Buffer v) (w w' : WriteCall),
    s.calls[i]? = some c → s.calls[j]? = some c' → c.subscription = c'.subscription → c.handle.write = some w → c'.handle.write = some w' →
    w.append = .pending → w'.append = .pending → i = j

/-- An event is delivered only when the earlier ones of its subscription are done with. -/
def DeliversInTurn (l : ReaderLabel Buffer v) : Prop :=
  ∀ a, l = .start a → ∀ c ∈ s.calls, c.subscription = a.subscription → c.handle.Done

structure InTurn : Prop where
  done : ∀ (i j : ℕ) (c c' : Delivery Buffer v), j < i → s.calls[i]? = some c →
    s.calls[j]? = some c' → c'.subscription = c.subscription → c'.handle.Done
  logged : ∀ i ∈ appendedEvents s, ∃ (c : Delivery Buffer v) (w : WriteCall),
    s.calls[i]? = some c ∧ c.handle.write = some w
  written : ∀ (i : ℕ) (c : Delivery Buffer v) (w : WriteCall), s.calls[i]? = some c →
    c.handle.write = some w → i ∈ appendedEvents s ∨ ∃ err, w.append = .rejected err
  increasing : ∀ q, (appendedOn s q).Pairwise (· < ·)

variable {s} {cfg : Configuration Buffer} {reader : Reader Buffer v}

theorem done_step {p p' : Process Buffer v d} {i : ℕ} {c c' : HandleCall Buffer v} {a : HandleAct}
    (hc : c.Done) (h : HandleCall.Step cfg p i c a p' c') : c'.Done := by
  rcases hc with ⟨r, hr⟩ | ⟨w, hw, happ⟩
  · left
    refine ⟨r, ?_⟩
    rw [HandleCall.step_validation h (fun hp => nomatch hp.symm.trans hr)]
    exact hr
  · right
    cases HandleCall.step_writeStep h with
    | unchanged _ he => exact ⟨w, he.trans hw, happ⟩
    | moved a x x' r _ hx hx' hs =>
      obtain rfl : x = w := Option.some.inj (hx.symm.trans hw)
      have hne : x.append ≠ .pending := fun hp => nomatch hp.symm.trans happ
      exact ⟨x', hx', (WriteCall.step_append hs hne).trans happ⟩
    | started _ hnone => exact nomatch hnone.symm.trans hw

theorem not_done_of_unwritten {c : HandleCall Buffer v} (hval : c.validation.outcome = .fulfilled)
    (hw : c.write = none) : ¬ c.Done := by
  rintro (⟨r, hr⟩ | ⟨w, hw', -⟩)
  · exact nomatch hval.symm.trans hr
  · exact nomatch hw.symm.trans hw'

theorem inTurn_init : InTurn (State.init .init : ReaderState Buffer v d) :=
  ⟨fun _ _ _ _ _ h => (nomatch h), fun _ h => (nomatch h), fun _ _ _ h => (nomatch h),
    fun _ => List.Pairwise.nil⟩

theorem inTurn_start {s' : ReaderState Buffer v d} {a : Arrival Buffer v} (hs : InTurn s)
    (hturn : DeliversInTurn s (.start a))
    (h : next (deliveries cfg reader d) s (.start a) = some s') : InTurn s' := by
  obtain ⟨-, hsh, hcalls⟩ := deliveries_next_start h
  have happ : appendedEvents s' = appendedEvents s := by
    unfold appendedEvents
    rw [hsh]
    rfl
  have hnew : ∀ {j : ℕ} {c : Delivery Buffer v}, s'.calls[j]? = some c →
      j = s.calls.length ∧ c = (Delivery.start cfg reader s.shared a).2 ∨ s.calls[j]? = some c := by
    intro j c hj
    rw [hcalls] at hj
    exact getElem?_append_cases hj
  have hold : ∀ {j : ℕ} {c : Delivery Buffer v}, s.calls[j]? = some c → s'.calls[j]? = some c := by
    intro j c hj
    rw [hcalls, List.getElem?_append_left (List.getElem?_eq_some_iff.mp hj).1]
    exact hj
  refine ⟨fun i j c c' hlt hc hc' hsub => ?_, fun i hi => ?_, fun i c w hc hw => ?_, fun q => ?_⟩
  · have hj : s.calls[j]? = some c' := by
      rcases hnew hc' with ⟨rfl, -⟩ | hj
      · have hi := (List.getElem?_eq_some_iff.mp hc).1
        rw [hcalls, List.length_append, List.length_singleton] at hi
        omega
      · exact hj
    rcases hnew hc with ⟨-, rfl⟩ | hi
    · exact hturn a rfl c' (List.mem_of_getElem? hj) hsub
    · exact hs.done i j c c' hlt hi hj hsub
  · rw [happ] at hi
    obtain ⟨c, w, hc, hw⟩ := hs.logged i hi
    exact ⟨c, w, hold hc, hw⟩
  · rw [happ]
    rcases hnew hc with ⟨-, rfl⟩ | hc
    · cases hw
    · exact hs.written i c w hc hw
  · have hsame : appendedOn s' q = appendedOn s q := by
      unfold appendedOn
      rw [happ]
      refine List.filter_congr fun i hi => ?_
      obtain ⟨c, -, hc, -⟩ := hs.logged i hi
      simp only [subscriptionOf, hc, hold hc]
    rw [hsame]
    exact hs.increasing q

section

variable {s' : ReaderState Buffer v d} {i : ℕ} {c c' : Delivery Buffer v}

theorem subscriptionOf_of_moves (hm : Moves s s' i c c') (hsub : c'.subscription = c.subscription)
    (j : ℕ) : subscriptionOf s' j = subscriptionOf s j := by
  unfold subscriptionOf
  by_cases hij : j = i
  · subst hij
    rw [hm.after, hm.before]
    exact congrArg some hsub
  · rw [hm.others j hij]

theorem appendedOn_of_moves (hm : Moves s s' i c c') (hsub : c'.subscription = c.subscription)
    (q : ℕ) : appendedOn s' q = (appendedEvents s').filter fun j => subscriptionOf s j = some q := by
  unfold appendedOn
  simp only [subscriptionOf_of_moves hm hsub]

theorem done_of_moves (hs : InTurn s) (hm : Moves s s' i c c')
    (hsub : c'.subscription = c.subscription) (hdone : c.handle.Done → c'.handle.Done)
    (k j : ℕ) (x y : Delivery Buffer v) (hjk : j < k) (hx : s'.calls[k]? = some x)
    (hy : s'.calls[j]? = some y) (hxy : y.subscription = x.subscription) : y.handle.Done := by
  rcases hm.cases hx with ⟨rfl, rfl⟩ | ⟨-, hx⟩
  · rcases hm.cases hy with ⟨rfl, -⟩ | ⟨-, hy⟩
    · exact absurd hjk (lt_irrefl _)
    · exact hs.done k j c y hjk hm.before hy (hxy.trans hsub)
  · rcases hm.cases hy with ⟨rfl, rfl⟩ | ⟨-, hy⟩
    · exact hdone (hs.done k j x c hjk hx hm.before (hsub.symm.trans hxy))
    · exact hs.done k j x y hjk hx hy hxy

theorem inTurn_of_same_log (hs : InTurn s) (hm : Moves s s' i c c')
    (hsub : c'.subscription = c.subscription) (hdone : c.handle.Done → c'.handle.Done)
    (hlog : s'.shared.appended = s.shared.appended)
    (hkept : ∀ w, c.handle.write = some w → ∃ w', c'.handle.write = some w')
    (hwas : ∀ w', c'.handle.write = some w' → ∃ w, c.handle.write = some w ∧
      ∀ err, w.append = .rejected err → w'.append = .rejected err) : InTurn s' := by
  have hev : appendedEvents s' = appendedEvents s := congrArg (List.map Prod.fst) hlog
  refine ⟨done_of_moves hs hm hsub hdone, fun k hk => ?_, fun k x w hx hw => ?_, fun q => ?_⟩
  · rw [hev] at hk
    obtain ⟨x, w, hx, hw⟩ := hs.logged k hk
    by_cases hki : k = i
    · subst hki
      obtain rfl : c = x := Option.some.inj (hm.before.symm.trans hx)
      obtain ⟨w', hw'⟩ := hkept w hw
      exact ⟨c', w', hm.after, hw'⟩
    · exact ⟨x, w, (hm.others k hki).trans hx, hw⟩
  · rw [hev]
    rcases hm.cases hx with ⟨rfl, rfl⟩ | ⟨-, hx⟩
    · obtain ⟨y, hy, hrej⟩ := hwas w hw
      rcases hs.written k c y hm.before hy with hk | ⟨err, herr⟩
      · exact Or.inl hk
      · exact Or.inr ⟨err, hrej err herr⟩
    · exact hs.written k x w hx hw
  · rw [appendedOn_of_moves hm hsub, hev]
    exact hs.increasing q

/-- A step that starts the write of a validated event: nothing later of its subscription has been
appended before, since the event itself was not done with. -/
theorem inTurn_of_started (hs : InTurn s) (hm : Moves s s' i c c')
    (hsub : c'.subscription = c.subscription) (hdone : c.handle.Done → c'.handle.Done)
    (hnone : c.handle.write = none) (hval : c.handle.validation.outcome = .fulfilled)
    {request : Option (AppendRequest (Body Buffer d))}
    (hlog : s'.shared.appended = s.shared.appended ++ request.toList.map fun r => (i, r))
    {w' : WriteCall} (hw' : c'.handle.write = some w')
    (hfail : request = none → ∃ err, w'.append = .rejected err) : InTurn s' := by
  have hev : appendedEvents s' = appendedEvents s ++ request.toList.map fun _ => i := by
    unfold appendedEvents
    rw [hlog, List.map_append, List.map_map]
    rfl
  have hne : ∀ {k}, k ∈ appendedEvents s → k ≠ i := by
    rintro k hk rfl
    obtain ⟨x, w, hx, hw⟩ := hs.logged k hk
    obtain rfl : c = x := Option.some.inj (hm.before.symm.trans hx)
    exact nomatch hnone.symm.trans hw
  refine ⟨done_of_moves hs hm hsub hdone, fun k hk => ?_, fun k x w hx hw => ?_, fun q => ?_⟩
  · rw [hev, List.mem_append] at hk
    rcases hk with hk | hk
    · obtain ⟨x, w, hx, hw⟩ := hs.logged k hk
      exact ⟨x, w, (hm.others k (hne hk)).trans hx, hw⟩
    · obtain ⟨_, -, rfl⟩ := List.mem_map.mp hk
      exact ⟨c', w', hm.after, hw'⟩
  · rw [hev]
    rcases hm.cases hx with ⟨rfl, rfl⟩ | ⟨-, hx⟩
    · obtain rfl : w' = w := Option.some.inj (hw'.symm.trans hw)
      cases request with
      | none => exact Or.inr (hfail rfl)
      | some r => exact Or.inl (List.mem_append_right _ (List.mem_singleton_self _))
    · rcases hs.written k x w hx hw with hk | hk
      · exact Or.inl (List.mem_append_left _ hk)
      · exact Or.inr hk
  · rw [appendedOn_of_moves hm hsub, hev, List.filter_append]
    refine List.pairwise_append.mpr ⟨hs.increasing q, ?_, fun k hk j hj => ?_⟩
    · cases request with
      | none => exact List.Pairwise.nil
      | some r => exact List.Pairwise.filter _ (List.pairwise_singleton _ _)
    · obtain ⟨hj, hjq⟩ := List.mem_filter.mp hj
      obtain ⟨_, -, rfl⟩ := List.mem_map.mp hj
      obtain ⟨hk, hkq⟩ := List.mem_filter.mp hk
      obtain ⟨x, -, hx, -⟩ := hs.logged k hk
      simp only [subscriptionOf, hm.before, hx, Option.map_some, Option.some.injEq,
        decide_eq_true_eq] at hjq hkq
      by_contra hle
      have hik : i < k := lt_of_le_of_ne (not_lt.mp hle) (Ne.symm (hne hk))
      exact not_done_of_unwritten hval hnone
        (hs.done k i x c hik hx hm.before (hjq.trans hkq.symm))

end

theorem inTurn_act {s' : ReaderState Buffer v d} {i : ℕ} {a : DeliveryAct} (hs : InTurn s)
    (h : next (deliveries cfg reader d) s (.act i a) = some s') : InTurn s' := by
  obtain ⟨-, c, c', hm, hstep⟩ := deliveries_next_act h
  have hsub : c'.subscription = c.subscription := Delivery.step_subscription hstep
  have hdone : c.handle.Done → c'.handle.Done := fun hc => Delivery.step_handle done_step hc hstep
  cases Delivery.step_writeStep hstep with
  | unchanged hlog hw =>
    refine inTurn_of_same_log hs hm hsub hdone hlog (fun w hw' => ⟨w, hw.trans hw'⟩) fun w hw' => ?_
    exact ⟨w, hw.symm.trans hw', fun _ herr => herr⟩
  | moved a w w' r hlog hw hw' hws =>
    refine inTurn_of_same_log hs hm hsub hdone hlog (fun _ _ => ⟨w', hw'⟩) fun x hx => ?_
    obtain rfl : w' = x := Option.some.inj (hw'.symm.trans hx)
    refine ⟨w, hw, fun err herr => ?_⟩
    have hne : w.append ≠ .pending := fun hp => nomatch hp.symm.trans herr
    exact (WriteCall.step_append hws hne).trans herr
  | started f hnone hval _ hlog hw' =>
    refine inTurn_of_started hs hm hsub hdone hnone hval hlog hw' fun hreq => ?_
    exact ⟨.typeError, by simp [writeEvent, hreq]⟩

theorem inTurn_env {s' : ReaderState Buffer v d} {e : Unit} (hs : InTurn s)
    (h : next (deliveries cfg reader d) s (.env e) = some s') : InTurn s' := by
  obtain ⟨henv, hcalls⟩ := next_env h
  obtain ⟨-, hsh⟩ := deliveries_env henv
  obtain ⟨sh, calls⟩ := s
  obtain ⟨sh', calls'⟩ := s'
  cases hcalls
  cases hsh
  exact ⟨hs.done, hs.logged, hs.written, hs.increasing⟩

theorem inTurn_run {as : List (ReaderLabel Buffer v)}
    (h : Run (Guarded DeliversInTurn (ReaderStep cfg reader d)) (State.init .init) as s) :
    InTurn s := by
  refine h.invariant InTurn inTurn_init ?_
  rintro s l s' hs ⟨hturn, hn⟩
  cases l with
  | start a => exact inTurn_start hs hturn hn
  | act i a => exact inTurn_act hs hn
  | env e => exact inTurn_env hs hn

theorem mem_appendedOn {q i : ℕ} : i ∈ appendedOn s q ↔
    i ∈ appendedEvents s ∧ ∃ c, s.calls[i]? = some c ∧ c.subscription = q := by
  simp [appendedOn, subscriptionOf]

theorem mem_writtenOn {q i : ℕ} : i ∈ writtenOn s q ↔ i ∈ appendedOn s q ∧
    ∃ c, s.calls[i]? = some c ∧ c.handle.AppendFulfilled := by
  simp only [writtenOn, List.mem_filter, Option.any_eq_true, Promise.isFulfilled_iff,
    HandleCall.AppendFulfilled]

theorem mem_acceptedOn {q i : ℕ} : i ∈ acceptedOn s q ↔ ∃ c, s.calls[i]? = some c ∧
    c.subscription = q ∧ c.handle.validation.outcome = .fulfilled := by
  simp only [acceptedOn, List.mem_filter, List.mem_range, Option.any_eq_true, Bool.and_eq_true,
    decide_eq_true_eq, Promise.isFulfilled_iff]
  refine ⟨fun h => h.2, fun ⟨c, hc, h⟩ => ⟨(List.getElem?_eq_some_iff.mp hc).1, c, hc, h⟩⟩

theorem acceptedOn_increasing (q : ℕ) : (acceptedOn s q).Pairwise (· < ·) :=
  List.Pairwise.filter _ List.pairwise_lt_range

theorem fulfilled_of_lt_appended (hs : InTurn s) {q i j : ℕ} {c : Delivery Buffer v}
    (hj : j ∈ appendedOn s q) (hij : i < j) (hc : s.calls[i]? = some c) (hq : c.subscription = q)
    (hval : c.handle.validation.outcome = .fulfilled) :
    i ∈ appendedOn s q ∧ c.handle.AppendFulfilled := by
  obtain ⟨-, x, hx, hxq⟩ := mem_appendedOn.mp hj
  rcases hs.done j i x c hij hx hc (hq.trans hxq.symm) with ⟨r, hr⟩ | ⟨w, hw, happ⟩
  · exact nomatch hval.symm.trans hr
  · rcases hs.written i c w hc hw with hi | ⟨err, herr⟩
    · exact ⟨mem_appendedOn.mpr ⟨hi, c, hc, hq⟩, w, hw, happ⟩
    · exact nomatch happ.symm.trans herr

theorem inOrder_of_inTurn (hs : InTurn s) (hset : ∀ c ∈ s.calls, HandleCall.Settled cfg c.handle) :
    InOrder s := by
  have haccepted : ∀ q, ∀ i ∈ appendedOn s q, i ∈ acceptedOn s q := by
    intro q i hi
    obtain ⟨hi, c, hc, hq⟩ := mem_appendedOn.mp hi
    obtain ⟨x, w, hx, hw⟩ := hs.logged i hi
    obtain rfl : c = x := Option.some.inj (hc.symm.trans hx)
    exact mem_acceptedOn.mpr ⟨c, hc, hq, (hset c (List.mem_of_getElem? hc)).validated w hw⟩
  refine ⟨?_, fun q => ?_, fun q => ?_, ?_⟩
  · intro i _ j hji c c' hc hc' hsub
    exact hs.done i j c c' hji hc hc' hsub
  · refine prefix_of_pairwise_lt (hs.increasing q) (acceptedOn_increasing q) (haccepted q) ?_
    intro i hi j hj hij
    obtain ⟨c, hc, hq, hval⟩ := mem_acceptedOn.mp hi
    exact (fulfilled_of_lt_appended hs hj hij hc hq hval).1
  · refine prefix_of_pairwise_lt (List.Pairwise.filter _ (hs.increasing q))
      (acceptedOn_increasing q) (fun i hi => haccepted q i (mem_writtenOn.mp hi).1) ?_
    intro i hi j hj hij
    obtain ⟨c, hc, hq, hval⟩ := mem_acceptedOn.mp hi
    obtain ⟨hi, hful⟩ := fulfilled_of_lt_appended hs (mem_writtenOn.mp hj).1 hij hc hq hval
    exact mem_writtenOn.mpr ⟨hi, c, hc, hful⟩
  · -- of two writes in flight, the earlier event would have to be done with
    have hnot : ∀ (i j : ℕ) (c c' : Delivery Buffer v) (w : WriteCall), j < i →
        s.calls[i]? = some c → s.calls[j]? = some c' → c'.subscription = c.subscription → c'.handle.write = some w →
        w.append ≠ .pending := by
      intro i j c c' w hji hc hc' hsub hw hpend
      rcases hs.done i j c c' hji hc hc' hsub with ⟨r, hr⟩ | ⟨x, hx, happ⟩
      · have hval := (hset c' (List.mem_of_getElem? hc')).validated w hw
        exact nomatch hval.symm.trans hr
      · obtain rfl : w = x := Option.some.inj (hw.symm.trans hx)
        exact nomatch hpend.symm.trans happ
    intro i j c c' w w' hc hc' hsub hw hw' hpend hpend'
    rcases lt_trichotomy i j with hlt | heq | hgt
    · exact absurd hpend (hnot j i c' c w hlt hc' hc hsub hw)
    · exact heq
    · exact absurd hpend' (hnot i j c c' w' hgt hc hc' hsub.symm hw')

/-- Where each event is delivered only after the earlier ones of its subscription are done with,
the gRPC reader's appends follow the order of delivery. -/
theorem grpc_writes_in_order (cfg : Configuration Buffer) (d : Version)
    {as : List (ReaderLabel Buffer .next)} {s : ReaderState Buffer .next d}
    (h : Run (Guarded DeliversInTurn (ReaderStep cfg GrpcReaderService d))
      (State.init .init) as s) : InOrder s :=
  inOrder_of_inTurn (inTurn_run h) (handles_settled (h.mono fun _ _ _ hs => hs.2))

def inTurnDeliveries : List (ReaderLabel (Option JsValue) .next) :=
  [.start (arrival "Example2Event" exampleData .next),
    .act 0 (.handle (.classValidatorAnswers (.ok []))), .act 0 (.handle .continues),
    .act 0 (.handle (.write (.appendAnswers (.ok ())))),
    .start (arrival "Example2Event" (.bool false) .next),
    .act 1 (.handle (.classValidatorAnswers (.ok []))), .act 1 (.handle .continues)]

theorem grpc_in_turn_is_in_order :
    ∃ s, exec (next (deliveries exampleConfiguration GrpcReaderService .next)) (State.init .init)
        inTurnDeliveries = some s ∧ appendedOn s 0 = [0, 1] ∧ InOrder s := by
  refine ⟨_, rfl, rfl, grpc_writes_in_order exampleConfiguration .next
    (show Run _ _ inTurnDeliveries _ from ?_)⟩
  refine Run.cons ⟨?_, rfl⟩ (Run.cons ⟨?_, rfl⟩ (Run.cons ⟨?_, rfl⟩ (Run.cons ⟨?_, rfl⟩
    (Run.cons ⟨?_, rfl⟩ (Run.cons ⟨?_, rfl⟩ (Run.cons ⟨?_, rfl⟩ .nil))))))
  all_goals
    intro a ha c hc _
    cases ha
  · cases hc
  · rw [List.mem_singleton.mp hc]
    exact Or.inr ⟨_, rfl, rfl⟩

/-- Two events of one subscription: the second is appended first, and both are in flight. -/
theorem grpc_events_overtake :
    ∃ s c, exec (next (deliveries exampleConfiguration GrpcReaderService .next)) (State.init .init)
        [.start (arrival "Example2Event" exampleData .next),
          .start (arrival "Example2Event" (.bool false) .next),
          .act 1 (.handle (.classValidatorAnswers (.ok []))), .act 1 (.handle .continues),
          .act 0 (.handle (.classValidatorAnswers (.ok []))), .act 0 (.handle .continues)] = some s ∧
      appendedEvents s = [1, 0] ∧ appendedOn s 0 = [1, 0] ∧ s.calls[0]? = some c ∧
      ¬ c.handle.Done ∧ ¬ InOrder s := by
  refine ⟨_, _, rfl, rfl, rfl, rfl, ?_, fun h => ?_⟩
  · rintro (⟨r, hr⟩ | ⟨w, hw, happ⟩)
    · cases hr
    · cases hw
      cases happ
  · have hij := h.oneInFlight 0 1 _ _ _ _ rfl rfl rfl rfl rfl rfl rfl
    cases hij

end Interconnect
