import Interconnect.Model.StartUp

/-! Upserting the gRPC subscriptions: what is stored in the end, and when it does not depend on
what was stored before. -/

namespace Interconnect

open Sessions JsValue GrpcReaderService

variable {σ : Type}

/-- What the reader relies on. `stored` reads a group's settings off the server's state. -/
structure StoresSettings (C : Client σ GrpcCall Failure)
    (stored : σ → String × String → Option Props) : Prop where
  create_absent : ∀ s stream group settings base, stored s (stream, group) = none →
    (C.call s (.createPersistentSubscriptionToStream stream group settings base)).2 = .ok () →
    stored (C.call s (.createPersistentSubscriptionToStream stream group settings base)).1 =
      Function.update (stored s) (stream, group) (some settings)
  create_absent_error : ∀ s stream group settings base e, stored s (stream, group) = none →
    (C.call s (.createPersistentSubscriptionToStream stream group settings base)).2 = .error e →
    ¬ AlreadyExists e
  create_present : ∀ s stream group settings base, (stored s (stream, group)).isSome →
    (C.call s (.createPersistentSubscriptionToStream stream group settings base)).2 ≠ .ok () ∧
    stored (C.call s (.createPersistentSubscriptionToStream stream group settings base)).1 = stored s
  update_present : ∀ s stream group settings base, (stored s (stream, group)).isSome →
    (C.call s (.updatePersistentSubscriptionToStream stream group settings base)).2 = .ok () →
    stored (C.call s (.updatePersistentSubscriptionToStream stream group settings base)).1 =
      Function.update (stored s) (stream, group) (some settings)

def storedBy (defaults : Props) (sub : IPersistentSubscriptionConfig) (present : Bool) : Props :=
  if present then defaults.overriddenBy sub.subscriptionSettings
  else (defaults.overriddenBy sub.subscriptionSettings).set "liveBufferSize" (.num 1)

def upserted (defaults : Props) (key : String × String) (current : Option Props)
    (sub : IPersistentSubscriptionConfig) : Option Props :=
  if sub.key = key then some (storedBy defaults sub current.isSome) else current

section

variable {C : Client σ GrpcCall Failure} {stored : σ → String × String → Option Props}
  {defaults : Props}

theorem upsert_stored (hC : StoresSettings C stored) {sub : IPersistentSubscriptionConfig} {s : σ}
    (h : (upsertPersistentSubscription C defaults sub s).result = .ok ()) (key : String × String) :
    stored (upsertPersistentSubscription C defaults sub s).client key =
      upserted defaults key (stored s key) sub := by
  have hput : Function.update (stored s) sub.key
      (some (storedBy defaults sub (stored s sub.key).isSome)) key =
        upserted defaults key (stored s key) sub := by
    unfold upserted
    split_ifs with hkey
    · subst hkey
      exact Function.update_self ..
    · exact Function.update_of_ne (Ne.symm hkey) ..
  have hran := upsert_cases C defaults sub s
  generalize upsertPersistentSubscription C defaults sub s = r at h hran ⊢
  cases hran with
  | created hcreate =>
    have habsent : stored s sub.key = none := by
      by_contra hne
      exact (hC.create_present _ _ _ _ _ (Option.isSome_iff_ne_none.mpr hne)).1 hcreate
    rw [← hput, habsent]
    exact congrFun (hC.create_absent _ _ _ _ _ habsent hcreate) key
  | notCreated => cases h
  | updated e s₁ hs₁ hcreate hexists hupdate =>
    have hpresent : (stored s sub.key).isSome := by
      rw [Option.isSome_iff_ne_none]
      intro habsent
      exact hC.create_absent_error _ _ _ _ _ _ habsent hcreate hexists
    have hsame : stored s₁ = stored s := hs₁ ▸ (hC.create_present _ _ _ _ _ hpresent).2
    rw [← hput, hpresent, ← hsame]
    exact congrFun (hC.update_present s₁ _ _ _ _ (hsame ▸ hpresent) hupdate) key
  | notUpdated => cases h

theorem stored_upserts (hC : StoresSettings C stored) {subs : List IPersistentSubscriptionConfig}
    {s : σ} (h : (upsertPersistentSubscriptions C defaults subs s).result = .ok ())
    (key : String × String) :
    stored (upsertPersistentSubscriptions C defaults subs s).client key =
      subs.foldl (upserted defaults key) (stored s key) := by
  induction subs generalizing s with
  | nil => rfl
  | cons sub subs ih =>
    obtain ⟨hfirst, hrest, hclient⟩ := Program.andThen_ok h
    rw [List.foldl_cons, ← upsert_stored hC hfirst key, ← ih hrest]
    exact congrArg (stored · key) hclient

theorem foldl_upserted (subs : List IPersistentSubscriptionConfig) (key : String × String)
    (current : Option Props) : subs.foldl (upserted defaults key) current =
      (subs.filter (·.key = key)).foldl
        (fun current sub => some (storedBy defaults sub current.isSome)) current := by
  rw [List.foldl_filter]
  congr 1
  funext current sub
  by_cases hkey : sub.key = key <;> simp [upserted, hkey]

theorem foldl_upserted_isSome {subs : List IPersistentSubscriptionConfig}
    {sub : IPersistentSubscriptionConfig} (hsub : sub ∈ subs) (current : Option Props) :
    (subs.foldl (upserted defaults sub.key) current).isSome := by
  have hmem : sub ∈ subs.filter (·.key = sub.key) := List.mem_filter.mpr ⟨hsub, by simp⟩
  rw [foldl_upserted]
  generalize subs.filter (·.key = sub.key) = own at hmem
  rcases List.eq_nil_or_concat own with rfl | ⟨own, last, rfl⟩
  · cases hmem
  · rw [List.concat_eq_append, List.foldl_append]
    rfl

end

/-- No other entry of the list is for the same group of the same stream. -/
def ConfiguredOnce (subs : List IPersistentSubscriptionConfig)
    (sub : IPersistentSubscriptionConfig) : Prop :=
  (subs.filter (·.key = sub.key)).length = 1

/-- The settings of the entry, over the defaults, have the buffer size that a creation sets. -/
def BuffersOne (defaults : Props) (sub : IPersistentSubscriptionConfig) : Prop :=
  defaults.overriddenBy sub.subscriptionSettings "liveBufferSize" = some (.num 1)

theorem storedBy_eq_iff (defaults : Props) (sub : IPersistentSubscriptionConfig) (b b' : Bool) :
    storedBy defaults sub b = storedBy defaults sub b' ↔ (b ≠ b' → BuffersOne defaults sub) := by
  have hset : (defaults.overriddenBy sub.subscriptionSettings).set "liveBufferSize" (.num 1) =
      defaults.overriddenBy sub.subscriptionSettings ↔ BuffersOne defaults sub := by
    refine ⟨fun he => ?_, Props.set_eq_self⟩
    rw [BuffersOne, ← he]
    exact Function.update_self ..
  cases b <;> cases b'
  · simp
  · simpa [storedBy] using hset
  · simpa [storedBy, eq_comm] using hset
  · simp

theorem foldl_upserted_eq_iff {defaults : Props} {subs : List IPersistentSubscriptionConfig}
    {sub : IPersistentSubscriptionConfig} (hsub : sub ∈ subs) (a b : Option Props) :
    subs.foldl (upserted defaults sub.key) a = subs.foldl (upserted defaults sub.key) b ↔
      (ConfiguredOnce subs sub → a.isSome ≠ b.isSome → BuffersOne defaults sub) := by
  have hmem : sub ∈ subs.filter (·.key = sub.key) := List.mem_filter.mpr ⟨hsub, by simp⟩
  rw [foldl_upserted, foldl_upserted, ConfiguredOnce]
  generalize subs.filter (·.key = sub.key) = own at hmem
  match own with
  | [] => cases hmem
  | [x] =>
    obtain rfl := List.mem_singleton.mp hmem
    simpa using storedBy_eq_iff defaults sub a.isSome b.isSome
  | x :: y :: rest =>
    -- from the second entry on the group is there
    exact ⟨fun _ h => absurd h (by simp), fun _ => rfl⟩

/-- A second run leaves the stored settings as they are where no creation made a difference. -/
theorem upsert_again_iff {C : Client σ GrpcCall Failure}
    {stored : σ → String × String → Option Props} (hC : StoresSettings C stored) {defaults : Props}
    {subs : List IPersistentSubscriptionConfig} {s s' : σ}
    (hs : (upsertPersistentSubscriptions C defaults subs s).result = .ok ())
    (hs' : (upsertPersistentSubscriptions C defaults subs s).client = s')
    (hagain : (upsertPersistentSubscriptions C defaults subs s').result = .ok ()) :
    stored (upsertPersistentSubscriptions C defaults subs s').client = stored s' ↔
      ∀ sub ∈ subs, ConfiguredOnce subs sub → stored s sub.key = none → BuffersOne defaults sub := by
  have hfirst : ∀ key, stored s' key = subs.foldl (upserted defaults key) (stored s key) :=
    fun key => hs' ▸ stored_upserts hC hs key
  have hkey : ∀ sub ∈ subs,
      (stored (upsertPersistentSubscriptions C defaults subs s').client sub.key =
          stored s' sub.key ↔
        (ConfiguredOnce subs sub → stored s sub.key = none → BuffersOne defaults sub)) := by
    intro sub hsub
    have hpresent : (stored s' sub.key).isSome := hfirst sub.key ▸ foldl_upserted_isSome hsub _
    rw [stored_upserts hC hagain]
    nth_rewrite 2 [hfirst]
    rw [foldl_upserted_eq_iff hsub, hpresent, ne_comm, ne_eq, Bool.not_eq_true,
      Option.isSome_eq_false_iff, Option.isNone_iff_eq_none]
  constructor
  · intro h sub hsub
    exact (hkey sub hsub).mp (congrFun h sub.key)
  · intro h
    funext key
    by_cases hconf : ∃ sub ∈ subs, sub.key = key
    · obtain ⟨sub, hsub, rfl⟩ := hconf
      exact (hkey sub hsub).mpr (h sub hsub)
    · have hown : subs.filter (·.key = key) = [] := by
        rw [List.filter_eq_nil_iff]
        intro sub hsub hk
        exact hconf ⟨sub, hsub, by simpa using hk⟩
      rw [stored_upserts hC hagain, foldl_upserted, hown]
      rfl

/-- For every list and every two states of the server from which upserting it succeeds: each
configured group ends with the same settings exactly where an entry that is the only one for its
group, and whose group was there in one state alone, sets the buffer size that a creation sets.
So a second run changes nothing exactly where the entries that created their group did so. -/
theorem upsert_independent_iff (C : Client σ GrpcCall Failure)
    (stored : σ → String × String → Option Props) (hC : StoresSettings C stored) (defaults : Props)
    (subs : List IPersistentSubscriptionConfig) {s t : σ}
    (hs : (upsertPersistentSubscriptions C defaults subs s).result = .ok ())
    (ht : (upsertPersistentSubscriptions C defaults subs t).result = .ok ()) :
    ((∀ sub ∈ subs, stored (upsertPersistentSubscriptions C defaults subs s).client sub.key =
        stored (upsertPersistentSubscriptions C defaults subs t).client sub.key) ↔
      ∀ sub ∈ subs, ConfiguredOnce subs sub →
        (stored s sub.key).isSome ≠ (stored t sub.key).isSome → BuffersOne defaults sub) ∧
    ∀ s', (upsertPersistentSubscriptions C defaults subs s).client = s' →
      (upsertPersistentSubscriptions C defaults subs s').result = .ok () →
      (stored (upsertPersistentSubscriptions C defaults subs s').client = stored s' ↔
        ∀ sub ∈ subs, ConfiguredOnce subs sub → stored s sub.key = none →
          BuffersOne defaults sub) := by
  refine ⟨?_, fun s' hs' hagain => upsert_again_iff hC hs hs' hagain⟩
  refine forall₂_congr fun sub hsub => ?_
  rw [stored_upserts hC hs, stored_upserts hC ht, foldl_upserted_eq_iff hsub]

theorem grpcServer_storesSettings : StoresSettings grpcServer id where
  create_absent s stream group settings base h _ := by
    simp only [id] at h
    simp [grpcServer, h]
  create_absent_error s stream group settings base e h he := by
    simp only [id] at h
    simp [grpcServer, h] at he
  create_present s stream group settings base h := by
    simp only [id] at h
    simp [grpcServer, h]
  update_present s stream group settings base h _ := by
    simp only [id] at h
    simp [grpcServer, h]

def defaultSettings : Props := Props.empty.set "liveBufferSize" (.num 500)

theorem next_subscription_is_independent :
    (upsertPersistentSubscriptions grpcServer defaultSettings [nextSubscription]
        fun _ => none).client nextSubscription.key =
      (upsertPersistentSubscriptions grpcServer defaultSettings [nextSubscription]
        fun _ => some Props.empty).client nextSubscription.key := by
  have hsame := (upsert_independent_iff grpcServer id grpcServer_storesSettings defaultSettings
    [nextSubscription] (s := fun _ => none) (t := fun _ => some Props.empty) rfl rfl).1
  refine hsame.mpr ?_ nextSubscription (List.mem_singleton_self _)
  intro sub hsub _ _
  rw [List.mem_singleton.mp hsub]
  rfl

def heroSubscription : IPersistentSubscriptionConfig := ⟨"$ce-hero", "data", none⟩

/-- Its group is created with a buffer of one event, and a second run of the same list gives it
the default buffer. -/
theorem second_upsert_changes_buffer_size :
    ∃ first second,
      upsertPersistentSubscriptions grpcServer defaultSettings [heroSubscription] (fun _ => none) =
        first ∧
      upsertPersistentSubscriptions grpcServer defaultSettings [heroSubscription] first.client =
        second ∧
      first.result = .ok () ∧ second.result = .ok () ∧
      (first.client heroSubscription.key).map (·.get "liveBufferSize") = some (.num 1) ∧
      (second.client heroSubscription.key).map (·.get "liveBufferSize") = some (.num 500) ∧
      second.client heroSubscription.key ≠ first.client heroSubscription.key := by
  refine ⟨_, _, rfl, rfl, rfl, rfl, rfl, rfl, fun he => ?_⟩
  have hsize : some (JsValue.num 500) = some (.num 1) :=
    congrArg (fun settings => settings.map (Props.get · "liveBufferSize")) he
  simp at hsize

end Interconnect
