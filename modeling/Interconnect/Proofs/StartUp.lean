import Interconnect.Model.StartUp

/-! The calls of both readers' start-up, over any list of subscriptions and any answers: the
gRPC reader upserts all before it opens any, and the legacy one connects each before it goes on
to the next. -/

namespace Interconnect

open Sessions JsValue

variable {σ : Type}

/-! ### gRPC -/

section

open GrpcReaderService

variable {defaults : Props}

inductive Upserted (defaults : Props) (sub : IPersistentSubscriptionConfig) :
    Trace GrpcCall Failure → Prop
  | created : Upserted defaults sub [(createPersistentSubscriptionToStream defaults sub, .ok ())]
  | updated (e : Failure) : AlreadyExists e →
      Upserted defaults sub [(createPersistentSubscriptionToStream defaults sub, .error e),
        (updatePersistentSubscriptionToStream defaults sub, .ok ())]

inductive UpsertFailed (defaults : Props) (sub : IPersistentSubscriptionConfig) :
    Trace GrpcCall Failure → Prop
  | notCreated (e : Failure) : ¬ AlreadyExists e →
      UpsertFailed defaults sub [(createPersistentSubscriptionToStream defaults sub, .error e)]
  | notUpdated (e e' : Failure) : AlreadyExists e →
      UpsertFailed defaults sub [(createPersistentSubscriptionToStream defaults sub, .error e),
        (updatePersistentSubscriptionToStream defaults sub, .error e')]

def subscribeCall (sub : IPersistentSubscriptionConfig) : GrpcCall :=
  .subscribeToPersistentSubscriptionToStream sub.stream sub.group

/-- A start-up: all upserts in order and then all subscriptions in order, or the upserts up to
the first that failed. -/
inductive StartsUp (defaults : Props) (subs : List IPersistentSubscriptionConfig) :
    Trace GrpcCall Failure → Except Rejection Unit → Prop
  | subscribed (ts : List (Trace GrpcCall Failure)) : List.Forall₂ (Upserted defaults) subs ts →
      StartsUp defaults subs (ts.flatten ++ subs.map fun sub => (subscribeCall sub, .ok ()))
        (.ok ())
  | stopped (before : List IPersistentSubscriptionConfig) (sub : IPersistentSubscriptionConfig)
      (after : List IPersistentSubscriptionConfig) (ts : List (Trace GrpcCall Failure))
      (t : Trace GrpcCall Failure) (r : Rejection) : subs = before ++ sub :: after →
      List.Forall₂ (Upserted defaults) before ts → UpsertFailed defaults sub t →
      StartsUp defaults subs (ts.flatten ++ t) (.error r)

variable {C : Client σ GrpcCall Failure}

theorem upserted_of_ends {sub : IPersistentSubscriptionConfig} {t : Trace GrpcCall Failure}
    (h : (upsertPersistentSubscription C defaults sub).Ends t) : Upserted defaults sub t := by
  obtain ⟨s, rfl, hok⟩ := h
  have hran := upsert_cases C defaults sub s
  generalize upsertPersistentSubscription C defaults sub s = r at hok hran ⊢
  cases hran with
  | created => exact .created
  | notCreated => cases hok
  | updated e _ _ _ hexists => exact .updated e hexists
  | notUpdated => cases hok

theorem upsertFailed_of_fails {sub : IPersistentSubscriptionConfig} {t : Trace GrpcCall Failure}
    {e : Rejection} (h : (upsertPersistentSubscription C defaults sub).Fails t e) :
    UpsertFailed defaults sub t := by
  obtain ⟨s, rfl, herr⟩ := h
  have hran := upsert_cases C defaults sub s
  generalize upsertPersistentSubscription C defaults sub s = r at herr hran ⊢
  cases hran with
  | created => cases herr
  | notCreated e _ _ hne => exact .notCreated e hne
  | updated => cases herr
  | notUpdated e e' _ _ _ hexists => exact .notUpdated e e' hexists

theorem calls_upsert (sub : IPersistentSubscriptionConfig) :
    (upsertPersistentSubscription C defaults sub).Calls C := by
  refine (calls_call _).catching fun e => ?_
  rcases afterFailedCreation_cases C defaults sub e with ⟨-, r, h⟩ | ⟨-, h⟩
  · rw [h]
    exact calls_throw r
  · rw [h]
    exact calls_awaitCall C _

/-- The client opens a stream at once: a subscription that fails says so later, on the stream. -/
def OpensStreams (C : Client σ GrpcCall Failure) : Prop :=
  ∀ s stream group, (C.call s (.subscribeToPersistentSubscriptionToStream stream group)).2 = .ok ()

theorem subscribe_all (hopen : OpensStreams C) (subs : List IPersistentSubscriptionConfig) (s : σ) :
    (Program.forEach (subscribeToPersistentSubscriptionToStream C) subs s).trace =
      subs.map (fun sub => (subscribeCall sub, .ok ())) ∧
    (Program.forEach (subscribeToPersistentSubscriptionToStream C) subs s).result = .ok () := by
  induction subs generalizing s with
  | nil => exact ⟨rfl, rfl⟩
  | cons sub subs ih =>
    have hran := awaitCall_of_ok (hopen s sub.stream sub.group)
    obtain ⟨htrace, hresult⟩ := ih (subscribeToPersistentSubscriptionToStream C sub s).client
    have hok : (subscribeToPersistentSubscriptionToStream C sub s).result = .ok () :=
      congrArg Ran.result hran
    rw [Program.forEach, Program.andThen_of_ok hok, htrace]
    exact ⟨congrArg (·.trace ++ _) hran, hresult⟩

def Opens (k : GrpcCall) : Prop :=
  ∃ stream group, k = .subscribeToPersistentSubscriptionToStream stream group

theorem not_opens_of_upserted {sub : IPersistentSubscriptionConfig} {t : Trace GrpcCall Failure}
    (h : Upserted defaults sub t ∨ UpsertFailed defaults sub t) : ∀ x ∈ t, ¬ Opens x.1 := by
  have hcreate : ¬ Opens (createPersistentSubscriptionToStream defaults sub) :=
    fun ⟨_, _, h⟩ => nomatch h
  have hupdate : ¬ Opens (updatePersistentSubscriptionToStream defaults sub) :=
    fun ⟨_, _, h⟩ => nomatch h
  rcases h with h | h
  · cases h <;> simp [hcreate, hupdate]
  · cases h <;> simp [hcreate, hupdate]

theorem StartsUp.opens_none {subs : List IPersistentSubscriptionConfig}
    {t : Trace GrpcCall Failure} {r : Rejection} (h : StartsUp defaults subs t (.error r)) :
    ∀ x ∈ t, ¬ Opens x.1 := by
  cases h with
  | stopped before sub after ts t _ _ hts ht =>
    intro x hx
    rcases List.mem_append.mp hx with hx | hx
    · exact forall_mem_flatten hts (fun _ _ h => not_opens_of_upserted (Or.inl h)) x hx
    · exact not_opens_of_upserted (Or.inr ht) x hx

/-- The upserts alone: all of them in order, or a start-up that stopped. -/
theorem upserts_cases (C : Client σ GrpcCall Failure) (defaults : Props)
    (subs : List IPersistentSubscriptionConfig) (s : σ) :
    ((upsertPersistentSubscriptions C defaults subs s).result = .ok () ∧
      ∃ ts, List.Forall₂ (Upserted defaults) subs ts ∧
        (upsertPersistentSubscriptions C defaults subs s).trace = ts.flatten) ∨
    ∃ r, (upsertPersistentSubscriptions C defaults subs s).result = .error r ∧
      StartsUp defaults subs (upsertPersistentSubscriptions C defaults subs s).trace (.error r) := by
  have hloop := forEach_looped (upsertPersistentSubscription C defaults) subs s
  rw [← upsertPersistentSubscriptions] at hloop
  generalize upsertPersistentSubscriptions C defaults subs s = u at hloop ⊢
  obtain ⟨c, t, result⟩ := u
  cases hloop with
  | ended ts hts => exact Or.inl ⟨rfl, ts, hts.imp fun _ _ => upserted_of_ends, rfl⟩
  | stopped before sub after ts t e hsubs hts ht =>
    exact Or.inr ⟨e, rfl, .stopped before sub after ts t e hsubs
      (hts.imp fun _ _ => upserted_of_ends) (upsertFailed_of_fails ht)⟩

/-- For every list of subscriptions and every client, whatever it answers: the reader calls
`create` once for each entry in order, and `update` exactly where that failed because the group
existed; it stops at the first entry where this fails; otherwise it then opens each entry once, in
order. A start-up that fails opens none. -/
theorem grpc_start_up_upserts_then_subscribes (C : Client σ GrpcCall Failure) (defaults : Props)
    (hopen : OpensStreams C) (subscriptions : Option (List IPersistentSubscriptionConfig)) (s : σ) :
    let r := subscribeToPersistentSubscriptions C defaults subscriptions s
    Answers C s r.trace r.client ∧
      StartsUp defaults (subscriptions.getD []) r.trace r.result ∧
      ((∃ e, r.result = .error e) → ∀ x ∈ r.trace, ¬ Opens x.1) := by
  intro r
  have hcalls : Answers C s r.trace r.client :=
    ((calls_forEach calls_upsert _).andThen (calls_forEach (fun _ => calls_awaitCall C _) _)) s
  have hstarts : StartsUp defaults (subscriptions.getD []) r.trace r.result := by
    rcases upserts_cases C defaults (subscriptions.getD []) s with
      ⟨hok, ts, hts, htrace⟩ | ⟨e, herr, hstop⟩
    · obtain ⟨hopened, hall⟩ := subscribe_all hopen (subscriptions.getD [])
        (upsertPersistentSubscriptions C defaults (subscriptions.getD []) s).client
      have hr : r = _ := Program.andThen_of_ok hok
      rw [hr, hopened, hall, htrace]
      exact .subscribed ts hts
    · have hr : r = _ := Program.andThen_of_error herr
      rw [hr, herr]
      exact hstop
  refine ⟨hcalls, hstarts, ?_⟩
  rintro ⟨e, he⟩
  rw [he] at hstarts
  exact hstarts.opens_none

theorem grpc_start_up_of_example :
    let r := subscribeToPersistentSubscriptions grpcServer Props.empty (some [nextSubscription])
      fun _ => none
    r.result = .ok () ∧ Answers grpcServer (fun _ => none) r.trace r.client ∧
      StartsUp Props.empty [nextSubscription] r.trace r.result ∧
      ((∃ e, r.result = .error e) → ∀ x ∈ r.trace, ¬ Opens x.1) :=
  ⟨rfl, grpc_start_up_upserts_then_subscribes grpcServer Props.empty (fun _ _ _ => rfl)
    (some [nextSubscription]) fun _ => none⟩

end

/-! ### Legacy -/

section

open HttpReaderService

/-- The options sent for an entry: its own, with links resolved where either spelling asks for
it. An entry without options has none of its own. -/
def OptionsOf (sub : IEventStorePersistentSubscriptionConfig) (sent : Props) : Prop :=
  (∀ key, key ≠ "resolveLinkTos" → sent key = sub.options.getD Props.empty key) ∧
  (sent.get "resolveLinkTos").truthy =
    (((sub.options.getD Props.empty).get "resolveLinkTos").truthy ||
      ((sub.options.getD Props.empty).get "resolveLinktos").truthy)

inductive Connected (sub : IEventStorePersistentSubscriptionConfig) :
    Trace LegacyCall Failure → Prop
  | mk (sent : Props) : OptionsOf sub sent →
      Connected sub [(.assert sub.group sub.stream sent, .ok ()), (connectCall sub, .ok ())]

inductive NotConnected (sub : IEventStorePersistentSubscriptionConfig) :
    Trace LegacyCall Failure → Prop
  | notAsserted (sent : Props) (e : Failure) : OptionsOf sub sent →
      NotConnected sub [(.assert sub.group sub.stream sent, .error e)]
  | notConnected (sent : Props) (e : Failure) : OptionsOf sub sent →
      NotConnected sub [(.assert sub.group sub.stream sent, .ok ()), (connectCall sub, .error e)]

/-- A start-up as it should be: every entry asserted and then connected, in order, up to the
first call that fails. -/
inductive ConnectsEach (subs : List IEventStorePersistentSubscriptionConfig) :
    Trace LegacyCall Failure → Except Rejection Unit → Prop
  | connected (ts : List (Trace LegacyCall Failure)) : List.Forall₂ Connected subs ts →
      ConnectsEach subs ts.flatten (.ok ())
  | stopped (before : List IEventStorePersistentSubscriptionConfig)
      (sub : IEventStorePersistentSubscriptionConfig)
      (after : List IEventStorePersistentSubscriptionConfig) (ts : List (Trace LegacyCall Failure))
      (t : Trace LegacyCall Failure) (r : Rejection) : subs = before ++ sub :: after →
      List.Forall₂ Connected before ts → NotConnected sub t →
      ConnectsEach subs (ts.flatten ++ t) (.error r)

variable {C : Client σ LegacyCall Failure}

theorem optionsOf_assertOptions {sub : IEventStorePersistentSubscriptionConfig} {options : Props}
    (h : sub.options = some options) : OptionsOf sub (assertOptions options) := by
  rw [OptionsOf, h]
  refine ⟨fun key hkey => Function.update_of_ne hkey .., ?_⟩
  simp [assertOptions]

def entryCalls (sub : IEventStorePersistentSubscriptionConfig) : List LegacyCall :=
  [assertCall sub (sub.options.getD Props.empty), connectCall sub]

theorem connected_of_ends {sub : IEventStorePersistentSubscriptionConfig}
    {t : Trace LegacyCall Failure} (h : (upsertPersistantSubscription C sub).Ends t) :
    Connected sub t ∧ sub.options ≠ none ∧ t = fulfilled (entryCalls sub) := by
  obtain ⟨s, rfl, hok⟩ := h
  have hran := HttpReaderService.upsert_cases C sub s
  generalize upsertPersistantSubscription C sub s = r at hok hran ⊢
  cases hran with
  | noOptions => cases hok
  | notAsserted => cases hok
  | notConnected => cases hok
  | connected options s₁ hopt =>
    refine ⟨.mk _ (optionsOf_assertOptions hopt), by simp [hopt], ?_⟩
    simp [entryCalls, fulfilled, hopt]

theorem failed_of_fails {sub : IEventStorePersistentSubscriptionConfig}
    {t : Trace LegacyCall Failure} {e : Rejection}
    (h : (upsertPersistantSubscription C sub).Fails t e) :
    sub.options = none ∧ t = [] ∨
      sub.options ≠ none ∧ NotConnected sub t ∧ ∃ ks k ks' failure,
        entryCalls sub = ks ++ k :: ks' ∧ t = fulfilled ks ++ [(k, .error failure)] := by
  obtain ⟨s, rfl, herr⟩ := h
  have hran := HttpReaderService.upsert_cases C sub s
  generalize upsertPersistantSubscription C sub s = r at herr hran ⊢
  cases hran with
  | noOptions hopt => exact Or.inl ⟨hopt, rfl⟩
  | notAsserted options e hopt =>
    refine Or.inr ⟨by simp [hopt], .notAsserted _ e (optionsOf_assertOptions hopt), ?_⟩
    exact ⟨[], assertCall sub options, [connectCall sub], e, by simp [entryCalls, hopt], rfl⟩
  | notConnected options s₁ e hopt =>
    refine Or.inr ⟨by simp [hopt], .notConnected _ e (optionsOf_assertOptions hopt), ?_⟩
    exact ⟨[assertCall sub options], connectCall sub, [], e, by simp [entryCalls, hopt], rfl⟩
  | connected => cases herr

theorem flatten_of_ends {subs : List IEventStorePersistentSubscriptionConfig}
    {ts : List (Trace LegacyCall Failure)}
    (h : List.Forall₂ (fun sub t => (upsertPersistantSubscription C sub).Ends t) subs ts) :
    ts.flatten = fulfilled (subs.flatMap entryCalls) := by
  induction h with
  | nil => rfl
  | cons hsub _ ih =>
    rw [List.flatten_cons, List.flatMap_cons, fulfilled_append, ih, (connected_of_ends hsub).2.2]

theorem calls_upsertPersistantSubscription (sub : IEventStorePersistentSubscriptionConfig) :
    (upsertPersistantSubscription C sub).Calls C := by
  unfold upsertPersistantSubscription
  split
  · exact calls_throw _
  · exact (calls_awaitCall C _).andThen (calls_awaitCall C _)

/-- The list is given, and before each of its entries that has no options some call fails. -/
def ReachesOptions (C : Client σ LegacyCall Failure) (s : σ)
    (subscriptions : Option (List IEventStorePersistentSubscriptionConfig)) : Prop :=
  ∃ subs, subscriptions = some subs ∧ ∀ before sub after, subs = before ++ sub :: after →
    sub.options = none → ¬ Accepts C s (before.flatMap entryCalls)

theorem ConnectsEach.exists_failed {subs : List IEventStorePersistentSubscriptionConfig}
    {t : Trace LegacyCall Failure} {r : Rejection} (h : ConnectsEach subs t (.error r)) :
    ∃ k failure, (k, .error failure) ∈ t := by
  cases h with
  | stopped before sub after ts t _ _ _ ht =>
    cases ht with
    | notAsserted sent e => exact ⟨_, e, List.mem_append_right _ (List.mem_cons_self ..)⟩
    | notConnected sent e =>
      exact ⟨_, e, List.mem_append_right _ (List.mem_cons_of_mem _ (List.mem_cons_self ..))⟩

theorem not_failed_of_fulfilled {ks : List LegacyCall} {k : LegacyCall} {failure : Failure} :
    (k, .error failure) ∉ (fulfilled ks : Trace LegacyCall Failure) := by
  intro hmem
  obtain ⟨_, -, he⟩ := List.mem_map.mp hmem
  cases he

theorem reachesOptions_of_failed {s s' : σ} {before after : List IEventStorePersistentSubscriptionConfig}
    {sub : IEventStorePersistentSubscriptionConfig} {ks ks' : List LegacyCall} {k : LegacyCall}
    {failure : Failure} (hbefore : ∀ x ∈ before, x.options ≠ none) (hsub : sub.options ≠ none)
    (hcalls : entryCalls sub = ks ++ k :: ks')
    (h : Answers C s (fulfilled (before.flatMap entryCalls) ++ (fulfilled ks ++ [(k, .error failure)]))
      s') : ReachesOptions C s (some (before ++ sub :: after)) := by
  refine ⟨_, rfl, fun before₁ sub₁ after₁ hsplit hnone => ?_⟩
  rcases List.append_eq_append_iff.mp hsplit with ⟨mid, hbefore₁, hrest⟩ | ⟨mid, hmid, hrest⟩
  · cases mid with
    | nil =>
      injection hrest with hhead
      exact absurd (hhead ▸ hnone) hsub
    | cons x mid =>
      injection hrest with hhead
      have hfailed : Answers C s
          (fulfilled (before.flatMap entryCalls ++ ks) ++ [(k, .error failure)]) s' := by
        rwa [fulfilled_append, List.append_assoc]
      have hreject := not_accepts_of_answers hfailed (ks' ++ mid.flatMap entryCalls)
      rw [hbefore₁, ← hhead, List.flatMap_append, List.flatMap_cons, hcalls]
      simpa only [List.append_assoc, List.cons_append] using hreject
  · cases mid with
    | nil =>
      injection hrest with hhead
      exact absurd (hhead ▸ hnone) hsub
    | cons x mid =>
      injection hrest with hhead
      refine absurd hnone (hbefore sub₁ ?_)
      rw [hmid, hhead]
      exact List.mem_append_right _ (List.mem_cons_self ..)

/-- For every list of subscriptions, given or not, and any two clients, whatever they answer: the
calls are those the entries ask for, up to the first that fails, exactly where the list is given
and no entry without options is reached. -/
theorem legacy_start_up_connects_each_iff (C : Client σ LegacyCall Failure)
    (subscriptions : Option (List IEventStorePersistentSubscriptionConfig)) (s : σ) :
    let r := upsertPersistantSubscriptions C subscriptions s
    Answers C s r.trace r.client ∧
      (ConnectsEach (subscriptions.getD []) r.trace r.result ↔ ReachesOptions C s subscriptions) := by
  intro r
  cases subscriptions with
  | none =>
    refine ⟨.nil s, fun h => ?_, fun ⟨_, h, _⟩ => nomatch h⟩
    obtain ⟨k, failure, hmem⟩ := h.exists_failed
    cases hmem
  | some subs =>
    have hanswers : Answers C s r.trace r.client :=
      calls_forEach calls_upsertPersistantSubscription subs s
    have hloop : Program.Looped _ subs r.trace r.result := forEach_looped _ subs s
    refine ⟨hanswers, ?_⟩
    generalize r.client = client at hanswers
    generalize r.trace = trace at hanswers hloop
    generalize r.result = result at hloop
    cases hloop with
    | ended ts hts =>
      refine iff_of_true (.connected ts (hts.imp fun _ _ h => (connected_of_ends h).1)) ?_
      refine ⟨subs, rfl, fun before sub after hsubs hnone => absurd hnone ?_⟩
      exact forall_of_forall₂ hts (fun _ _ h => (connected_of_ends h).2.1) sub (by simp [hsubs])
    | stopped before sub after ts t e hsubs hts ht =>
      have hbefore := forall_of_forall₂ hts fun _ _ h => (connected_of_ends h).2.1
      have hflat := flatten_of_ends hts
      rcases failed_of_fails ht with ⟨hnone, rfl⟩ | ⟨hsome, hfail, ks, k, ks', failure, hcalls, rfl⟩
      · -- an entry without options throws before any call of it
        rw [hflat, List.append_nil] at hanswers ⊢
        refine iff_of_false (fun h => ?_) ?_
        · obtain ⟨k, failure, hmem⟩ := h.exists_failed
          exact not_failed_of_fulfilled hmem
        · rintro ⟨subs', hsubs', hreach⟩
          obtain rfl := Option.some.inj hsubs'
          exact hreach before sub after hsubs hnone (accepts_of_answers hanswers)
      · refine iff_of_true (.stopped before sub after ts _ e hsubs
          (hts.imp fun _ _ h => (connected_of_ends h).1) hfail) ?_
        rw [hflat] at hanswers
        rw [hsubs]
        exact reachesOptions_of_failed hbefore hsome hcalls hanswers

def willingClients : Client Unit LegacyCall Failure := ⟨fun s _ => (s, .ok ())⟩

def jobSubscription : IEventStorePersistentSubscriptionConfig :=
  ⟨"$et-JobStartedEvent", "debug-interco-test", none, some true, none⟩

theorem legacy_start_up_fails_without_options :
    upsertPersistantSubscriptions willingClients none () = ⟨(), [], .error .typeError⟩ ∧
      ¬ ConnectsEach [] [] (.error .typeError) ∧
      upsertPersistantSubscriptions willingClients (some [jobSubscription]) () =
        ⟨(), [], .error .typeError⟩ ∧
      ¬ ConnectsEach [jobSubscription] [] (.error .typeError) := by
  refine ⟨rfl, fun h => ?_, rfl, fun h => ?_⟩
  all_goals
    obtain ⟨k, failure, hmem⟩ := h.exists_failed
    cases hmem

end

end Interconnect
