import Interconnect.Lib.Session
import Interconnect.Js.Value

/-! The start-up of the two readers: each asks its client for the configured subscriptions, in
the order of the list, and gives up at the first failure it does not catch. -/

namespace Interconnect

open Sessions JsValue

/-- What a client's call fails with; `message` is the failure as a text. -/
inductive Failure
  | nullish
  | error (code : Option ℤ) (message : String)

def Failure.rejection : Failure → Rejection
  | nullish => .nullish
  | error _ message => .error message

variable {σ κ : Type}

def awaitCall (C : Client σ κ Failure) (k : κ) : Program σ κ Failure Rejection :=
  (Program.call C k).catching fun e => .throw e.rejection

theorem awaitCall_of_ok {C : Client σ κ Failure} {k : κ} {s : σ} (h : (C.call s k).2 = .ok ()) :
    awaitCall C k s = ⟨(C.call s k).1, [(k, .ok ())], .ok ()⟩ := by
  rw [awaitCall, Program.catching_of_ok (p := .call C k) h, Program.call, h]

theorem awaitCall_of_error {C : Client σ κ Failure} {k : κ} {s : σ} {e : Failure}
    (h : (C.call s k).2 = .error e) :
    awaitCall C k s = ⟨(C.call s k).1, [(k, .error e)], .error e.rejection⟩ := by
  rw [awaitCall, Program.catching_of_error (p := .call C k) h, Program.call, h]
  rfl

theorem calls_awaitCall (C : Client σ κ Failure) (k : κ) : (awaitCall C k).Calls C :=
  (calls_call k).catching fun e => calls_throw e.rejection

/-! ### gRPC -/

structure SettingsForCreation where
  subscriptionSettings : Option Props
  baseOptions : Option Props

structure IPersistentSubscriptionConfig where
  stream : String
  group : String
  settingsForCreation : Option SettingsForCreation

namespace IPersistentSubscriptionConfig

def key (sub : IPersistentSubscriptionConfig) : String × String := (sub.stream, sub.group)

/-- `settingsForCreation?.subscriptionSettings`, where nothing is spread as nothing -/
def subscriptionSettings (sub : IPersistentSubscriptionConfig) : Props :=
  (sub.settingsForCreation.bind (·.subscriptionSettings)).getD Props.empty

def baseOptions (sub : IPersistentSubscriptionConfig) : Option Props :=
  sub.settingsForCreation.bind (·.baseOptions)

end IPersistentSubscriptionConfig

inductive GrpcCall
  | createPersistentSubscriptionToStream (stream group : String) (settings : Props)
      (baseOptions : Option Props)
  | updatePersistentSubscriptionToStream (stream group : String) (settings : Props)
      (baseOptions : Option Props)
  | subscribeToPersistentSubscriptionToStream (stream group : String)

def PERSISTENT_SUBSCRIPTION_ALREADY_EXIST_ERROR_CODE : ℤ := 6

namespace GrpcReaderService

/-- `defaults` is `persistentSubscriptionToStreamSettingsFromDefaults()`. -/
def createPersistentSubscriptionToStream (defaults : Props) (sub : IPersistentSubscriptionConfig) :
    GrpcCall :=
  .createPersistentSubscriptionToStream sub.stream sub.group
    ((defaults.overriddenBy sub.subscriptionSettings).set "liveBufferSize" (.num 1)) sub.baseOptions

def updatePersistentSubscriptionToStream (defaults : Props) (sub : IPersistentSubscriptionConfig) :
    GrpcCall :=
  .updatePersistentSubscriptionToStream sub.stream sub.group
    (defaults.overriddenBy sub.subscriptionSettings) sub.baseOptions

def isNotAlreadyExistsError (code : Option ℤ) : Bool :=
  code != some PERSISTENT_SUBSCRIPTION_ALREADY_EXIST_ERROR_CODE

variable (C : Client σ GrpcCall Failure) (defaults : Props)

/-- The `catch` of an upsert. -/
def afterFailedCreation (sub : IPersistentSubscriptionConfig) :
    Failure → Program σ GrpcCall Failure Rejection
  -- reading `code` throws
  | .nullish => .throw .typeError
  | .error code message =>
    if isNotAlreadyExistsError code then .throw (.error message)
    else awaitCall C (updatePersistentSubscriptionToStream defaults sub)

def upsertPersistentSubscription (sub : IPersistentSubscriptionConfig) :
    Program σ GrpcCall Failure Rejection :=
  (Program.call C (createPersistentSubscriptionToStream defaults sub)).catching
    (afterFailedCreation C defaults sub)

def upsertPersistentSubscriptions :
    List IPersistentSubscriptionConfig → Program σ GrpcCall Failure Rejection :=
  Program.forEach (upsertPersistentSubscription C defaults)

/-- Opening a subscription is not awaited: the client gives back a stream at once. -/
def subscribeToPersistentSubscriptionToStream (sub : IPersistentSubscriptionConfig) :
    Program σ GrpcCall Failure Rejection :=
  awaitCall C (.subscribeToPersistentSubscriptionToStream sub.stream sub.group)

def subscribeToPersistentSubscriptions (subscriptions : Option (List IPersistentSubscriptionConfig)) :
    Program σ GrpcCall Failure Rejection :=
  (upsertPersistentSubscriptions C defaults (subscriptions.getD [])).andThen
    (.forEach (subscribeToPersistentSubscriptionToStream C) (subscriptions.getD []))

/-- The failure that makes the reader update a subscription instead. -/
def AlreadyExists (e : Failure) : Prop :=
  ∃ message, e = .error (some PERSISTENT_SUBSCRIPTION_ALREADY_EXIST_ERROR_CODE) message

inductive Upsert (sub : IPersistentSubscriptionConfig) (s : σ) :
    Ran σ GrpcCall Failure Rejection → Prop
  | created : (C.call s (createPersistentSubscriptionToStream defaults sub)).2 = .ok () →
      Upsert sub s ⟨(C.call s (createPersistentSubscriptionToStream defaults sub)).1,
        [(createPersistentSubscriptionToStream defaults sub, .ok ())], .ok ()⟩
  | notCreated (e : Failure) (r : Rejection) :
      (C.call s (createPersistentSubscriptionToStream defaults sub)).2 = .error e →
      ¬ AlreadyExists e →
      Upsert sub s ⟨(C.call s (createPersistentSubscriptionToStream defaults sub)).1,
        [(createPersistentSubscriptionToStream defaults sub, .error e)], .error r⟩
  | updated (e : Failure) (s₁ : σ) :
      (C.call s (createPersistentSubscriptionToStream defaults sub)).1 = s₁ →
      (C.call s (createPersistentSubscriptionToStream defaults sub)).2 = .error e →
      AlreadyExists e →
      (C.call s₁ (updatePersistentSubscriptionToStream defaults sub)).2 = .ok () →
      Upsert sub s ⟨(C.call s₁ (updatePersistentSubscriptionToStream defaults sub)).1,
        [(createPersistentSubscriptionToStream defaults sub, .error e),
          (updatePersistentSubscriptionToStream defaults sub, .ok ())], .ok ()⟩
  | notUpdated (e e' : Failure) (s₁ : σ) :
      (C.call s (createPersistentSubscriptionToStream defaults sub)).1 = s₁ →
      (C.call s (createPersistentSubscriptionToStream defaults sub)).2 = .error e →
      AlreadyExists e →
      (C.call s₁ (updatePersistentSubscriptionToStream defaults sub)).2 = .error e' →
      Upsert sub s ⟨(C.call s₁ (updatePersistentSubscriptionToStream defaults sub)).1,
        [(createPersistentSubscriptionToStream defaults sub, .error e),
          (updatePersistentSubscriptionToStream defaults sub, .error e')], .error e'.rejection⟩

theorem afterFailedCreation_cases (sub : IPersistentSubscriptionConfig) (e : Failure) :
    (¬ AlreadyExists e ∧ ∃ r, afterFailedCreation C defaults sub e = .throw r) ∨
      (AlreadyExists e ∧ afterFailedCreation C defaults sub e =
        awaitCall C (updatePersistentSubscriptionToStream defaults sub)) := by
  cases e with
  | nullish => exact Or.inl ⟨fun ⟨_, he⟩ => (nomatch he), _, rfl⟩
  | error code message =>
    by_cases hcode : isNotAlreadyExistsError code
    · refine Or.inl ⟨?_, _, if_pos hcode⟩
      rintro ⟨m, he⟩
      cases he
      simp [isNotAlreadyExistsError] at hcode
    · exact Or.inr ⟨⟨message, by simpa [isNotAlreadyExistsError] using hcode⟩, if_neg hcode⟩

theorem upsert_cases (sub : IPersistentSubscriptionConfig) (s : σ) :
    Upsert C defaults sub s (upsertPersistentSubscription C defaults sub s) := by
  unfold upsertPersistentSubscription
  cases hcreate : (C.call s (createPersistentSubscriptionToStream defaults sub)).2 with
  | ok u =>
    rw [Program.catching_of_ok (p := .call C _) hcreate]
    simp only [Program.call]
    rw [hcreate]
    exact .created hcreate
  | error e =>
    rw [Program.catching_of_error (p := .call C _) hcreate]
    simp only [Program.call]
    rw [hcreate]
    rcases afterFailedCreation_cases C defaults sub e with ⟨hne, r, hthrow⟩ | ⟨hexists, hawait⟩
    · rw [hthrow]
      exact .notCreated e r hcreate hne
    · rw [hawait]
      cases hupdate : (C.call (C.call s (createPersistentSubscriptionToStream defaults sub)).1
          (updatePersistentSubscriptionToStream defaults sub)).2 with
      | ok u =>
        rw [awaitCall_of_ok hupdate]
        exact .updated e _ rfl hcreate hexists hupdate
      | error e' =>
        rw [awaitCall_of_error hupdate]
        exact .notUpdated e e' _ rfl hcreate hexists hupdate

end GrpcReaderService

def grpcServer : Client (String × String → Option Props) GrpcCall Failure where
  call
    | store, .createPersistentSubscriptionToStream stream group settings _ =>
      if (store (stream, group)).isSome then
        (store, .error (.error (some 6) "ALREADY_EXISTS"))
      else (Function.update store (stream, group) (some settings), .ok ())
    | store, .updatePersistentSubscriptionToStream stream group settings _ =>
      if (store (stream, group)).isSome then
        (Function.update store (stream, group) (some settings), .ok ())
      else (store, .error (.error (some 5) "NOT_FOUND"))
    | store, .subscribeToPersistentSubscriptionToStream _ _ => (store, .ok ())

def nextSubscription : IPersistentSubscriptionConfig where
  stream := "$ce-hero"
  group := "data"
  settingsForCreation := some {
    subscriptionSettings :=
      some ((Props.empty.set "liveBufferSize" (.num 1)).set "resolveLinkTos" (.bool true))
    baseOptions := none }

/-! ### Legacy -/

structure IEventStorePersistentSubscriptionConfig where
  stream : String
  group : String
  options : Option Props
  autoAck : Option Bool
  bufferSize : Option ℕ

inductive LegacyCall
  | assert (group stream : String) (options : Props)
  | connectToPersistentSubscription (stream group : String) (bufferSize : Option ℕ)
      (autoAck : Option Bool)

namespace HttpReaderService

/-- `{ ...options, ...{ resolveLinkTos: options.resolveLinkTos || options.resolveLinktos } }` -/
def assertOptions (options : Props) : Props :=
  options.set "resolveLinkTos" ((options.get "resolveLinkTos").orElse (options.get "resolveLinktos"))

def assertCall (sub : IEventStorePersistentSubscriptionConfig) (options : Props) : LegacyCall :=
  .assert sub.group sub.stream (assertOptions options)

def connectCall (sub : IEventStorePersistentSubscriptionConfig) : LegacyCall :=
  .connectToPersistentSubscription sub.stream sub.group sub.bufferSize sub.autoAck

variable (C : Client σ LegacyCall Failure)

def connectToPersistentSubscription (sub : IEventStorePersistentSubscriptionConfig) :
    Program σ LegacyCall Failure Rejection :=
  awaitCall C (connectCall sub)

def upsertPersistantSubscription (sub : IEventStorePersistentSubscriptionConfig) :
    Program σ LegacyCall Failure Rejection :=
  match sub.options with
  -- `subscription.options.resolveLinkTos` throws
  | none => .throw .typeError
  | some options =>
    (awaitCall C (assertCall sub options)).andThen (connectToPersistentSubscription C sub)

def upsertPersistantSubscriptions (subscriptions : Option (List IEventStorePersistentSubscriptionConfig)) :
    Program σ LegacyCall Failure Rejection :=
  match subscriptions with
  -- `undefined` cannot be iterated over
  | none => .throw .typeError
  | some subscriptions => .forEach (upsertPersistantSubscription C) subscriptions

inductive Upsert (sub : IEventStorePersistentSubscriptionConfig) (s : σ) :
    Ran σ LegacyCall Failure Rejection → Prop
  | noOptions : sub.options = none → Upsert sub s ⟨s, [], .error .typeError⟩
  | notAsserted (options : Props) (e : Failure) : sub.options = some options →
      (C.call s (assertCall sub options)).2 = .error e →
      Upsert sub s ⟨(C.call s (assertCall sub options)).1, [(assertCall sub options, .error e)],
        .error e.rejection⟩
  | notConnected (options : Props) (s₁ : σ) (e : Failure) : sub.options = some options →
      (C.call s (assertCall sub options)).1 = s₁ →
      (C.call s (assertCall sub options)).2 = .ok () → (C.call s₁ (connectCall sub)).2 = .error e →
      Upsert sub s ⟨(C.call s₁ (connectCall sub)).1,
        [(assertCall sub options, .ok ()), (connectCall sub, .error e)], .error e.rejection⟩
  | connected (options : Props) (s₁ : σ) : sub.options = some options →
      (C.call s (assertCall sub options)).1 = s₁ →
      (C.call s (assertCall sub options)).2 = .ok () → (C.call s₁ (connectCall sub)).2 = .ok () →
      Upsert sub s ⟨(C.call s₁ (connectCall sub)).1,
        [(assertCall sub options, .ok ()), (connectCall sub, .ok ())], .ok ()⟩

theorem upsert_cases (sub : IEventStorePersistentSubscriptionConfig) (s : σ) :
    Upsert C sub s (upsertPersistantSubscription C sub s) := by
  unfold upsertPersistantSubscription
  cases hopt : sub.options with
  | none => exact .noOptions hopt
  | some options =>
    cases hassert : (C.call s (assertCall sub options)).2 with
    | error e =>
      have hran := awaitCall_of_error hassert
      simp only [Program.andThen_of_error (congrArg Ran.result hran)]
      rw [hran]
      exact .notAsserted options e hopt hassert
    | ok u =>
      have hran := awaitCall_of_ok hassert
      simp only [Program.andThen_of_ok (congrArg Ran.result hran)]
      rw [hran, connectToPersistentSubscription]
      cases hconnect : (C.call (C.call s (assertCall sub options)).1 (connectCall sub)).2 with
      | error e =>
        rw [awaitCall_of_error hconnect]
        exact .notConnected options _ e hopt rfl hassert hconnect
      | ok u =>
        rw [awaitCall_of_ok hconnect]
        exact .connected options _ hopt rfl hassert hconnect

end HttpReaderService

end Interconnect
