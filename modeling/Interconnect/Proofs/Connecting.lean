import Interconnect.Model.Connecting
import Interconnect.Proofs.StartUp

/-! When `onModuleInit` comes to a good end, and what it has asked of its clients by then. A legacy
reader follows a plan; a gRPC one tests its connection, with its retries, twice before it upserts
anything. -/

namespace Interconnect

open Sessions

variable {σ : Type}

/-! ### Legacy -/

section

variable {C : Client σ LegacyInitCall Failure} {configuration : ConnectionConfiguration}

def thrownBy (configuration : ConnectionConfiguration) : LegacyInitCall → Failure → Rejection
  | .checkStreamExists _, failure => match configuration.tcp with
    | some tcpEndPoint => NoLegacyConnectionError failure.text tcpEndPoint
    | none => failure.rejection
  | _, failure => failure.rejection

def httpPlan (configuration : ConnectionConfiguration) : Plan LegacyInitCall Rejection :=
  match configuration.tcp, configuration.http with
  | none, _ => .throw .typeError
  | some _, none => .throw .typeError
  | some _, some http =>
    (Plan.call (.httpClient (withoutProtocol http.host) http.port configuration.credentials)).andThen
      (.call (.checkStreamExists "$all"))

open StartUp.TCPEventStoreConnectionInitializerService (esConnectionConf connectionName) in
def tcpPlan (configuration : ConnectionConfiguration) (nanoid : String) :
    Plan LegacyInitCall Rejection :=
  match configuration.tcp with
  | none => .throw .typeError
  | some tcpEndPoint =>
    (Plan.call (.createConnection esConnectionConf tcpEndPoint
      (connectionName configuration nanoid))).andThen
    ((Plan.call .connect).andThen (.call (.getStreamMetadataRaw "$all" configuration.credentials)))

def entryPlan (sub : IEventStorePersistentSubscriptionConfig) : Plan LegacyCall Rejection :=
  match sub.options with
  | none => .throw .typeError
  | some options =>
    (Plan.call (HttpReaderService.assertCall sub options)).andThen
      (.call (HttpReaderService.connectCall sub))

def subscriptionsPlan :
    Option (List IEventStorePersistentSubscriptionConfig) → Plan LegacyCall Rejection
  | none => .throw .typeError
  | some subscriptions => .forEach entryPlan subscriptions

def readerPlan (configuration : ConnectionConfiguration) (nanoid : String)
    (subscriptions : Option (List IEventStorePersistentSubscriptionConfig)) :
    Plan LegacyInitCall Rejection :=
  (httpPlan configuration).andThen ((tcpPlan configuration nanoid).andThen
    ((subscriptionsPlan subscriptions).map .subscription))

theorem follows_awaitCall {κ : Type} {C : Client σ κ Failure} {thrown : κ → Failure → Rejection}
    {k : κ} (h : thrown k = Failure.rejection) : (awaitCall C k).Follows C thrown (.call k) :=
  follows_call k Failure.rejection h

theorem http_follows : (StartUp.HttpClientConnectionInitializerService.init C configuration).Follows C
    (thrownBy configuration) (httpPlan configuration) := by
  unfold StartUp.HttpClientConnectionInitializerService.init httpPlan
  cases htcp : configuration.tcp with
  | none => exact follows_throw _
  | some tcpEndPoint =>
    cases configuration.http with
    | none => exact follows_throw _
    | some http =>
      refine (follows_awaitCall rfl).andThen (follows_call _ _ ?_)
      funext failure
      simp only [thrownBy, htcp]

theorem tcp_follows (nanoid : String) :
    (StartUp.TCPEventStoreConnectionInitializerService.init C configuration nanoid).Follows C
      (thrownBy configuration) (tcpPlan configuration nanoid) := by
  unfold StartUp.TCPEventStoreConnectionInitializerService.init tcpPlan
  cases configuration.tcp with
  | none => exact follows_throw _
  | some tcpEndPoint =>
    exact (follows_awaitCall rfl).andThen ((follows_awaitCall rfl).andThen (follows_awaitCall rfl))

theorem subscriptions_follow (C : Client σ LegacyCall Failure)
    (subscriptions : Option (List IEventStorePersistentSubscriptionConfig)) :
    (HttpReaderService.upsertPersistantSubscriptions C subscriptions).Follows C
      (fun _ => Failure.rejection) (subscriptionsPlan subscriptions) := by
  cases subscriptions with
  | none => exact follows_throw _
  | some subs =>
    refine follows_forEach (fun sub => ?_) subs
    unfold HttpReaderService.upsertPersistantSubscription entryPlan
    cases sub.options with
    | none => exact follows_throw _
    | some options => exact (follows_awaitCall rfl).andThen (follows_awaitCall rfl)

theorem reader_follows (C : Client σ LegacyInitCall Failure)
    (configuration : ConnectionConfiguration) (nanoid : String)
    (subscriptions : Option (List IEventStorePersistentSubscriptionConfig)) :
    (StartUp.HttpReaderService.onModuleInit C configuration nanoid subscriptions).Follows C
      (thrownBy configuration) (readerPlan configuration nanoid subscriptions) :=
  http_follows.andThen ((tcp_follows nanoid).andThen
    ((subscriptions_follow _ subscriptions).through fun _ => rfl))

/-- The calls that connect a legacy reader. -/
def connectionCalls (configuration : ConnectionConfiguration) (tcp http : ProtocolConf)
    (nanoid : String) : List LegacyInitCall :=
  [.httpClient (withoutProtocol http.host) http.port configuration.credentials,
    .checkStreamExists "$all",
    .createConnection StartUp.TCPEventStoreConnectionInitializerService.esConnectionConf tcp
      (StartUp.TCPEventStoreConnectionInitializerService.connectionName configuration nanoid),
    .connect, .getStreamMetadataRaw "$all" configuration.credentials]

theorem entryPlan_of_options {sub : IEventStorePersistentSubscriptionConfig}
    (h : sub.options ≠ none) : entryPlan sub = ⟨entryCalls sub, .ok ()⟩ := by
  obtain ⟨options, hopt⟩ := Option.ne_none_iff_exists'.mp h
  simp only [entryPlan, entryCalls, hopt]
  rfl

theorem subscriptionsPlan_of_options {subs : List IEventStorePersistentSubscriptionConfig}
    (h : ∀ sub ∈ subs, sub.options ≠ none) :
    subscriptionsPlan (some subs) = ⟨subs.flatMap entryCalls, .ok ()⟩ := by
  have hall : ∀ sub ∈ subs, entryPlan sub = ⟨entryCalls sub, .ok ()⟩ := fun sub hsub =>
    entryPlan_of_options (h sub hsub)
  rw [subscriptionsPlan, Plan.forEach_of_ok fun sub hsub => by rw [hall sub hsub]]
  congr 1
  exact List.flatMap_congr fun sub hsub => by rw [hall sub hsub]

theorem readerPlan_of_configured {tcp http : ProtocolConf}
    {subs : List IEventStorePersistentSubscriptionConfig} (nanoid : String)
    (htcp : configuration.tcp = some tcp) (hhttp : configuration.http = some http)
    (h : ∀ sub ∈ subs, sub.options ≠ none) :
    readerPlan configuration nanoid (some subs) = ⟨connectionCalls configuration tcp http nanoid ++
      (subs.flatMap entryCalls).map .subscription, .ok ()⟩ := by
  simp only [readerPlan, httpPlan, tcpPlan, htcp, hhttp, subscriptionsPlan_of_options h]
  rfl

theorem readerPlan_ok {nanoid : String}
    {subscriptions : Option (List IEventStorePersistentSubscriptionConfig)}
    (h : (readerPlan configuration nanoid subscriptions).ending = .ok ()) :
    ∃ tcp http subs, configuration.tcp = some tcp ∧ configuration.http = some http ∧
      subscriptions = some subs ∧ ∀ sub ∈ subs, sub.options ≠ none := by
  simp only [readerPlan, Plan.andThen_ending_ok] at h
  obtain ⟨hhttp, -, hsubs⟩ := h
  unfold httpPlan at hhttp
  cases htcp : configuration.tcp with
  | none => simp [htcp, Plan.throw] at hhttp
  | some tcp =>
    cases hhttp' : configuration.http with
    | none => simp [htcp, hhttp', Plan.throw] at hhttp
    | some http =>
      cases subscriptions with
      | none => cases hsubs
      | some subs =>
        refine ⟨tcp, http, subs, rfl, rfl, rfl, fun sub hsub hnone => ?_⟩
        have hall : (Plan.forEach entryPlan subs).ending = .ok () := hsubs
        have hentry := Plan.forEach_ending_ok.mp hall sub hsub
        simp [entryPlan, hnone, Plan.throw] at hentry

/-- A legacy reader starts exactly if both endpoints and the list are configured, each entry has
options, and its clients fulfil every call: those that connect, and then two for each entry in
order. It makes no other call, and stops at the first that fails; where that is the one that checks
the connection, with an error that names the TCP endpoint. -/
theorem legacy_reader_starts_iff (C : Client σ LegacyInitCall Failure)
    (configuration : ConnectionConfiguration) (nanoid : String)
    (subscriptions : Option (List IEventStorePersistentSubscriptionConfig)) (s : σ) :
    let r := StartUp.HttpReaderService.onModuleInit C configuration nanoid subscriptions s
    (r.result = .ok () ↔ ∃ tcp http subs, configuration.tcp = some tcp ∧
      configuration.http = some http ∧ subscriptions = some subs ∧
      (∀ sub ∈ subs, sub.options ≠ none) ∧
      Accepts C s (connectionCalls configuration tcp http nanoid ++
        (subs.flatMap entryCalls).map .subscription)) ∧
    (readerPlan configuration nanoid subscriptions).Ran C (thrownBy configuration) s r := by
  intro r
  have hfollows := reader_follows C configuration nanoid subscriptions
  refine ⟨(hfollows.ok_iff s).trans ⟨?_, ?_⟩, hfollows s⟩
  · rintro ⟨hending, hacc⟩
    obtain ⟨tcp, http, subs, htcp, hhttp, rfl, hopt⟩ := readerPlan_ok hending
    rw [readerPlan_of_configured nanoid htcp hhttp hopt] at hacc
    exact ⟨tcp, http, subs, htcp, hhttp, rfl, hopt, hacc⟩
  · rintro ⟨tcp, http, subs, htcp, hhttp, rfl, hopt, hacc⟩
    rw [readerPlan_of_configured nanoid htcp hhttp hopt]
    exact ⟨rfl, hacc⟩

end

/-! ### gRPC -/

section

variable {C : Client σ GrpcInitCall Failure} {unavailable : Failure → Bool}

def unavailables (es : List Failure) : Trace GrpcInitCall Failure :=
  es.map fun e => (.listAllPersistentSubscriptions, .error e)

inductive Tested (unavailable : Failure → Bool) (n : ℕ) :
    Trace GrpcInitCall Failure → Except Rejection Unit → Prop
  | passed (es : List Failure) : es.length ≤ n → (∀ e ∈ es, unavailable e = true) →
      Tested unavailable n (unavailables es ++ [(.listAllPersistentSubscriptions, .ok ())]) (.ok ())
  | failed (es : List Failure) (e : Failure) : es.length ≤ n → (∀ e ∈ es, unavailable e = true) →
      (unavailable e = true → es.length = n) →
      Tested unavailable n (unavailables es ++ [(.listAllPersistentSubscriptions, .error e)])
        (.error e.rejection)

theorem Tested.again {n : ℕ} {t : Trace GrpcInitCall Failure} {r : Except Rejection Unit}
    {e : Failure} (h : Tested unavailable n t r) (he : unavailable e = true) :
    Tested unavailable (n + 1) ((.listAllPersistentSubscriptions, .error e) :: t) r := by
  have hmore : ∀ es : List Failure, (∀ x ∈ es, unavailable x = true) →
      ∀ x ∈ e :: es, unavailable x = true := by
    intro es hes x hx
    rcases List.mem_cons.mp hx with rfl | hx
    · exact he
    · exact hes x hx
  cases h with
  | passed es hlen hes => exact .passed (e :: es) (Nat.succ_le_succ hlen) (hmore es hes)
  | failed es e' hlen hes hlast =>
    exact .failed (e :: es) e' (Nat.succ_le_succ hlen) (hmore es hes)
      fun hun => congrArg Nat.succ (hlast hun)

theorem testConnection_tested (n : ℕ) : ∀ tryCount s, tryCount + n = 10 →
    Tested unavailable n
      (StartUp.NextConnectionGuardService.testConnection C unavailable tryCount s).trace
      (StartUp.NextConnectionGuardService.testConnection C unavailable tryCount s).result := by
  induction n with
  | zero =>
    intro tryCount s htry
    rw [StartUp.NextConnectionGuardService.testConnection]
    cases hk : (C.call s .listAllPersistentSubscriptions).2 with
    | ok u =>
      rw [Program.catching_of_ok (p := .call C _) hk, Program.call, hk]
      exact .passed [] (Nat.le_refl 0) (by simp)
    | error e =>
      have hno : ¬ (unavailable e = true ∧ tryCount < 10) := fun h => by omega
      rw [Program.catching_of_error (p := .call C _) hk, Program.call, hk, dif_neg hno]
      exact .failed [] e (Nat.le_refl 0) (by simp) fun _ => rfl
  | succ n ih =>
    intro tryCount s htry
    rw [StartUp.NextConnectionGuardService.testConnection]
    cases hk : (C.call s .listAllPersistentSubscriptions).2 with
    | ok u =>
      rw [Program.catching_of_ok (p := .call C _) hk, Program.call, hk]
      exact .passed [] (Nat.zero_le _) (by simp)
    | error e =>
      rw [Program.catching_of_error (p := .call C _) hk, Program.call, hk]
      by_cases he : unavailable e = true
      · rw [dif_pos ⟨he, by omega⟩]
        exact (ih (tryCount + 1) _ (by omega)).again he
      · rw [dif_neg fun h => he h.1]
        exact .failed [] e (Nat.zero_le _) (by simp) fun h => absurd h he

theorem startConnectionLinkPinger_tested (C : Client σ GrpcInitCall Failure)
    (unavailable : Failure → Bool) (s : σ) :
    Tested unavailable 10
      (StartUp.NextConnectionGuardService.startConnectionLinkPinger C unavailable s).trace
      (StartUp.NextConnectionGuardService.startConnectionLinkPinger C unavailable s).result :=
  testConnection_tested 10 0 s rfl

theorem testConnection_calls (n : ℕ) : ∀ tryCount, tryCount + n = 10 →
    (StartUp.NextConnectionGuardService.testConnection C unavailable tryCount).Calls C := by
  induction n with
  | zero =>
    intro tryCount htry
    rw [StartUp.NextConnectionGuardService.testConnection]
    refine (calls_call _).catching fun e => ?_
    rw [dif_neg fun h => by omega]
    exact calls_throw _
  | succ n ih =>
    intro tryCount htry
    rw [StartUp.NextConnectionGuardService.testConnection]
    refine (calls_call _).catching fun e => ?_
    split_ifs
    · exact ih _ (by omega)
    · exact calls_throw _

theorem startsUp_of_subscribe {C : Client σ GrpcCall Failure} (defaults : Props)
    (hopen : OpensStreams C) (subscriptions : Option (List IPersistentSubscriptionConfig)) (s : σ) :
    StartsUp defaults (subscriptions.getD [])
      (Interconnect.GrpcReaderService.subscribeToPersistentSubscriptions C defaults subscriptions
        s).trace
      (Interconnect.GrpcReaderService.subscribeToPersistentSubscriptions C defaults subscriptions
        s).result := by
  unfold Interconnect.GrpcReaderService.subscribeToPersistentSubscriptions
  rcases upserts_cases C defaults (subscriptions.getD []) s with
    ⟨hok, ts, hts, htrace⟩ | ⟨e, herr, hstop⟩
  · obtain ⟨hopened, hall⟩ := subscribe_all hopen (subscriptions.getD [])
      (Interconnect.GrpcReaderService.upsertPersistentSubscriptions C defaults
        (subscriptions.getD []) s).client
    rw [Program.andThen_of_ok hok, hopened, hall, htrace]
    exact .subscribed ts hts
  · rw [Program.andThen_of_error herr, herr]
    exact hstop

/-- The calls of a gRPC reader's `onModuleInit`: it makes its client, tests the connection twice, and
starts up as far as it comes. -/
inductive Initialized (unavailable : Failure → Bool) (configuration : ConnectionConfiguration)
    (defaults : Props) (subs : List IPersistentSubscriptionConfig) :
    Trace GrpcInitCall Failure → Except Rejection Unit → Prop
  | noClient (e : Failure) : Initialized unavailable configuration defaults subs
      [(.connectionString configuration.connectionString, .error e)] (.error e.rejection)
  | notTested (t : Trace GrpcInitCall Failure) (r : Rejection) : Tested unavailable 10 t (.error r) →
      Initialized unavailable configuration defaults subs
        ((.connectionString configuration.connectionString, .ok ()) :: t) (.error r)
  | notTestedAgain (t t' : Trace GrpcInitCall Failure) (r : Rejection) :
      Tested unavailable 10 t (.ok ()) → Tested unavailable 10 t' (.error r) →
      Initialized unavailable configuration defaults subs
        ((.connectionString configuration.connectionString, .ok ()) :: t ++ t') (.error r)
  | tested (t t' : Trace GrpcInitCall Failure) (u : Trace GrpcCall Failure)
      (result : Except Rejection Unit) :
      Tested unavailable 10 t (.ok ()) → Tested unavailable 10 t' (.ok ()) →
      StartsUp defaults subs u result → Initialized unavailable configuration defaults subs
        ((.connectionString configuration.connectionString, .ok ()) :: t ++
          (t' ++ u.map (Prod.map .subscription id))) result

theorem init_ran (C : Client σ GrpcInitCall Failure) (unavailable : Failure → Bool)
    (configuration : ConnectionConfiguration) (s : σ) :
    let r := StartUp.GrpcConnectionInitializerService.init C unavailable configuration s
    (∃ e, r.trace = [(.connectionString configuration.connectionString, .error e)] ∧
      r.result = .error e.rejection) ∨
    ∃ t, r.trace = (.connectionString configuration.connectionString, .ok ()) :: t ∧
      Tested unavailable 10 t r.result := by
  intro r
  cases hk : (C.call s (.connectionString configuration.connectionString)).2 with
  | error e =>
    have hran := awaitCall_of_error hk
    have hr : r = _ := Program.andThen_of_error (congrArg Ran.result hran)
    rw [hr, hran]
    exact Or.inl ⟨e, rfl, rfl⟩
  | ok u =>
    have hran := awaitCall_of_ok hk
    have hr : r = _ := Program.andThen_of_ok (congrArg Ran.result hran)
    rw [hr, hran]
    exact Or.inr ⟨_, rfl, startConnectionLinkPinger_tested C unavailable _⟩

theorem initialized_run (C : Client σ GrpcInitCall Failure) (unavailable : Failure → Bool)
    (configuration : ConnectionConfiguration) (defaults : Props)
    (hopen : OpensStreams (C.through .subscription))
    (subscriptions : Option (List IPersistentSubscriptionConfig)) (s : σ) :
    Initialized unavailable configuration defaults (subscriptions.getD [])
      (StartUp.GrpcReaderService.onModuleInit C unavailable configuration defaults subscriptions
        s).trace
      (StartUp.GrpcReaderService.onModuleInit C unavailable configuration defaults subscriptions
        s).result := by
  unfold StartUp.GrpcReaderService.onModuleInit
  have hinit := init_ran C unavailable configuration s
  generalize hr : StartUp.GrpcConnectionInitializerService.init C unavailable configuration s = r
    at hinit
  rcases hinit with ⟨e, htrace, hresult⟩ | ⟨t, htrace, ht⟩
  · rw [Program.andThen_of_error (by rw [hr, hresult]), hr, htrace, hresult]
    exact .noClient e
  · cases hres : r.result with
    | error e =>
      rw [hres] at ht
      rw [Program.andThen_of_error (by rw [hr, hres]), hr, htrace, hres]
      exact .notTested t e ht
    | ok u =>
      rw [hres] at ht
      rw [Program.andThen_of_ok (by rw [hr, hres]), hr, htrace]
      have ht' := startConnectionLinkPinger_tested C unavailable r.client
      unfold StartUp.GrpcReaderService.startEventstoreClient
      generalize hr' : StartUp.NextConnectionGuardService.startConnectionLinkPinger C unavailable
        r.client = r' at ht'
      cases hres' : r'.result with
      | error e =>
        rw [hres'] at ht'
        rw [Program.andThen_of_error (by rw [hr', hres']), hr', hres']
        exact .notTestedAgain t _ e ht ht'
      | ok u =>
        rw [hres'] at ht'
        rw [Program.andThen_of_ok (by rw [hr', hres']), hr']
        exact .tested t _ _ _ ht ht' (startsUp_of_subscribe defaults hopen subscriptions r'.client)

def isTest (x : GrpcInitCall × Except Failure Unit) : Bool :=
  match x.1 with
  | .listAllPersistentSubscriptions => true
  | _ => false

theorem isTest_of_tries {es : List Failure} {a : Except Failure Unit} :
    ∀ x ∈ unavailables es ++ [(.listAllPersistentSubscriptions, a)], isTest x = true := by
  intro x hx
  rcases List.mem_append.mp hx with hx | hx
  · obtain ⟨e, -, rfl⟩ := List.mem_map.mp hx
    rfl
  · rw [List.mem_singleton.mp hx]
    rfl

theorem Tested.tries {n : ℕ} {t : Trace GrpcInitCall Failure} {r : Except Rejection Unit}
    (h : Tested unavailable n t r) : t.countP isTest ≤ n + 1 ∧ ∀ x ∈ t, isTest x = true := by
  have hlength : ∀ {es : List Failure} {a}, es.length ≤ n →
      (unavailables es ++ [(GrpcInitCall.listAllPersistentSubscriptions, a)]).countP isTest ≤
        n + 1 := by
    intro es a hlen
    refine List.countP_le_length.trans ?_
    simpa [unavailables] using hlen
  cases h with
  | passed es hlen => exact ⟨hlength hlen, isTest_of_tries⟩
  | failed es e hlen => exact ⟨hlength hlen, isTest_of_tries⟩

theorem countP_through (u : Trace GrpcCall Failure) :
    (u.map (Prod.map GrpcInitCall.subscription id)).countP isTest = 0 := by
  rw [List.countP_eq_zero]
  intro x hx
  obtain ⟨y, -, rfl⟩ := List.mem_map.mp hx
  exact Bool.false_ne_true

theorem Initialized.tries {configuration : ConnectionConfiguration} {defaults : Props}
    {subs : List IPersistentSubscriptionConfig} {t : Trace GrpcInitCall Failure}
    {r : Except Rejection Unit} (h : Initialized unavailable configuration defaults subs t r) :
    t.countP isTest ≤ 22 := by
  have hconn : ∀ a, isTest (.connectionString configuration.connectionString, a) ≠ true := nofun
  cases h with
  | noClient e => simp [isTest]
  | notTested t r ht =>
    rw [List.countP_cons_of_neg (hconn _)]
    exact ht.tries.1.trans (by decide)
  | notTestedAgain t t' r ht ht' =>
    rw [List.cons_append, List.countP_cons_of_neg (hconn _), List.countP_append]
    exact Nat.add_le_add ht.tries.1 ht'.tries.1
  | tested t t' u result ht ht' =>
    rw [List.cons_append, List.countP_cons_of_neg (hconn _), List.countP_append, List.countP_append,
      countP_through]
    exact Nat.add_le_add ht.tries.1 ht'.tries.1

theorem Initialized.asks_tested {configuration : ConnectionConfiguration} {defaults : Props}
    {subs : List IPersistentSubscriptionConfig} {t : Trace GrpcInitCall Failure}
    {r : Except Rejection Unit} (h : Initialized unavailable configuration defaults subs t r)
    {k : GrpcCall} {a : Except Failure Unit} (hk : (.subscription k, a) ∈ t) :
    ∃ t₁ t₂ u, t = (.connectionString configuration.connectionString, .ok ()) :: t₁ ++
        (t₂ ++ u.map (Prod.map .subscription id)) ∧
      Tested unavailable 10 t₁ (.ok ()) ∧ Tested unavailable 10 t₂ (.ok ()) ∧
      StartsUp defaults subs u r := by
  have hno : ∀ {t' r'}, Tested unavailable 10 t' r' →
      (GrpcInitCall.subscription k, a) ∉ t' := fun ht hmem => nomatch ht.tries.2 _ hmem
  cases h with
  | noClient e => cases List.mem_singleton.mp hk
  | notTested t r ht => exact absurd ((List.mem_cons.mp hk).resolve_left nofun) (hno ht)
  | notTestedAgain t t' r ht ht' =>
    rcases List.mem_append.mp hk with hk | hk
    · exact absurd ((List.mem_cons.mp hk).resolve_left nofun) (hno ht)
    · exact absurd hk (hno ht')
  | tested t t' u result ht ht' hu => exact ⟨t, t', u, rfl, ht, ht', hu⟩

/-- For every client, whatever it answers: a gRPC reader makes its client, tests the connection with
at most eleven tries, tests it again, and only then upserts and opens its subscriptions; the first
failure it does not catch ends it. -/
theorem grpc_reader_starts_after_tests (C : Client σ GrpcInitCall Failure)
    (unavailable : Failure → Bool) (configuration : ConnectionConfiguration) (defaults : Props)
    (hopen : OpensStreams (C.through .subscription))
    (subscriptions : Option (List IPersistentSubscriptionConfig)) (s : σ) :
    let r := StartUp.GrpcReaderService.onModuleInit C unavailable configuration defaults
      subscriptions s
    Answers C s r.trace r.client ∧
      Initialized unavailable configuration defaults (subscriptions.getD []) r.trace r.result ∧
      r.trace.countP isTest ≤ 22 ∧
      ∀ k a, (.subscription k, a) ∈ r.trace → ∃ t₁ t₂ u,
        r.trace = (.connectionString configuration.connectionString, .ok ()) :: t₁ ++
          (t₂ ++ u.map (Prod.map .subscription id)) ∧
        Tested unavailable 10 t₁ (.ok ()) ∧ Tested unavailable 10 t₂ (.ok ()) ∧
        StartsUp defaults (subscriptions.getD []) u r.result := by
  intro r
  have hinit := initialized_run C unavailable configuration defaults hopen subscriptions s
  have htest : (StartUp.NextConnectionGuardService.startConnectionLinkPinger C unavailable).Calls C :=
    testConnection_calls 10 0 rfl
  have hcalls : Answers C s r.trace r.client :=
    (((calls_awaitCall C _).andThen htest).andThen (htest.andThen
      ((calls_forEach calls_upsert _).andThen
        (calls_forEach (fun _ => calls_awaitCall _ _) _)).through)) s
  exact ⟨hcalls, hinit, hinit.tries, fun k a hk => hinit.asks_tested hk⟩

/-- A client that fulfils every call, the subscriptions' as a server without any would. -/
def freshServer : Client (String × String → Option Props) GrpcInitCall Failure where
  call
    | store, .subscription k => grpcServer.call store k
    | store, _ => (store, .ok ())

def grpcConfiguration : ConnectionConfiguration where
  credentials := ⟨"admin", "changeit"⟩
  tcp := none
  tcpConnectionName := none
  http := none
  connectionString := some "esdb://localhost:20113?tls=false"

theorem grpc_reader_starts_on_fresh_server :
    let r := StartUp.GrpcReaderService.onModuleInit freshServer (fun _ => false) grpcConfiguration
      Props.empty (some [nextSubscription]) fun _ => none
    r.result = .ok () ∧ r.trace.countP isTest = 2 ∧ r.trace.countP isTest ≤ 22 := by
  have htest : StartUp.NextConnectionGuardService.startConnectionLinkPinger freshServer
      (fun _ => false) = fun s => ⟨s, [(.listAllPersistentSubscriptions, .ok ())], .ok ()⟩ := by
    funext s
    rw [StartUp.NextConnectionGuardService.startConnectionLinkPinger,
      StartUp.NextConnectionGuardService.testConnection]
    rfl
  refine ⟨?_, ?_, (grpc_reader_starts_after_tests freshServer (fun _ => false) grpcConfiguration
    Props.empty (fun _ _ _ => rfl) (some [nextSubscription]) fun _ => none).2.2.1⟩
  all_goals
    simp only [StartUp.GrpcReaderService.onModuleInit, StartUp.GrpcConnectionInitializerService.init,
      StartUp.GrpcReaderService.startEventstoreClient, htest]
    rfl

end

end Interconnect
