import Interconnect.Model.ConnectionGuard

/-! `onModuleInit` of the reader and of the driver, side by side: each initializes its connection,
and the guards go on checking it. What the other calls do is of no matter here. -/

namespace Interconnect

open Runs Pools

inductive Side
  | source
  | destination
  deriving DecidableEq

/-- What `onModuleInit` awaits, one after the other. -/
inductive Instruction
  | checkLegacyConnectionStatus
  | connect
  | startConnectionLinkPinger
  /-- the end of the call of `startConnectionLinkPinger` at position `i` -/
  | pinged (i : ℕ)
  | upsertPersistantSubscriptions
  deriving DecidableEq

def TCPEventStoreConnectionInitializerService.init : List Instruction :=
  [.connect, .startConnectionLinkPinger]

def HttpClientConnectionInitializerService.init : List Instruction := [.checkLegacyConnectionStatus]

def GrpcConnectionInitializerService.init : List Instruction := [.startConnectionLinkPinger]

def HttpReaderService.onModuleInit : List Instruction :=
  HttpClientConnectionInitializerService.init ++ TCPEventStoreConnectionInitializerService.init ++
    [.upsertPersistantSubscriptions]

def GrpcReaderService.startEventstoreClient : List Instruction := [.startConnectionLinkPinger]

def GrpcReaderService.onModuleInit : List Instruction :=
  GrpcConnectionInitializerService.init ++ GrpcReaderService.startEventstoreClient ++
    [.upsertPersistantSubscriptions]

def HttpDriverService.onModuleInit : List Instruction :=
  TCPEventStoreConnectionInitializerService.init

def GrpcDriverService.onModuleInit : List Instruction := GrpcConnectionInitializerService.init

/-- The reader's for the source, and the driver's for the destination. -/
def onModuleInit (version : Side → Version) : Side → List Instruction
  | .source => match version .source with
    | .legacy => HttpReaderService.onModuleInit
    | .next => GrpcReaderService.onModuleInit
  | .destination => match version .destination with
    | .legacy => HttpDriverService.onModuleInit
    | .next => GrpcDriverService.onModuleInit

/-- The process while it starts and after; `todo` is `none` where an `onModuleInit` has failed. -/
structure StartUpState where
  guard : GuardState Side
  todo : Side → Option (List Instruction)

inductive StartUpLabel
  | guard (l : GuardLabel Side)
  | answered (side : Side) (ok : Bool)
  | continues (side : Side)

/-- What is left after the call of a client, if the first thing awaited is one. -/
def afterAnswer (ok : Bool) : List Instruction → Option (Option (List Instruction))
  | .startConnectionLinkPinger :: _ => none
  | .pinged _ :: _ => none
  | _ :: rest => some (if ok then some rest else none)
  | [] => none

def afterCheck (calls : List (Check Side)) : List Instruction → Option (Option (List Instruction))
  | .pinged i :: rest => match calls[i]?.map Check.test with
    | some (.fulfilled _) => some (some rest)
    | some .rejected => some none
    | _ => none
  | _ => none

namespace StartUpState

def init (version : Side → Version) (now : ℕ) : StartUpState :=
  ⟨State.init (.init now), fun side => some (onModuleInit version side)⟩

def Started (s : StartUpState) : Prop := ∀ side, s.todo side = some []

def next (version : Side → Version) (interval timeout : ℕ) (s : StartUpState) :
    StartUpLabel → Option StartUpState
  | .guard (.start (.caller side)) => match s.todo side with
    | some (.startConnectionLinkPinger :: rest) =>
      (Pools.next (checks version interval timeout) s.guard (.start (.caller side))).map fun g =>
        ⟨g, Function.update s.todo side (some (.pinged s.guard.calls.length :: rest))⟩
    | _ => none
  | .guard l =>
    (Pools.next (checks version interval timeout) s.guard l).map fun g => { s with guard := g }
  | .answered side ok =>
    if s.guard.shared.exited then none
    else ((s.todo side).bind (afterAnswer ok)).map fun t =>
      { s with todo := Function.update s.todo side t }
  | .continues side =>
    if s.guard.shared.exited then none
    else ((s.todo side).bind (afterCheck s.guard.calls)).map fun t =>
      { s with todo := Function.update s.todo side t }

inductive Step (version : Side → Version) (interval timeout : ℕ) (s : StartUpState) :
    StartUpLabel → StartUpState → Prop
  | starts (side : Side) (rest : List Instruction) (g : GuardState Side) :
      s.todo side = some (.startConnectionLinkPinger :: rest) →
      GuardStep version interval timeout s.guard (.start (.caller side)) g →
      Step version interval timeout s (.guard (.start (.caller side)))
        ⟨g, Function.update s.todo side (some (.pinged s.guard.calls.length :: rest))⟩
  | guard (l : GuardLabel Side) (g : GuardState Side) : (∀ side, l ≠ .start (.caller side)) →
      GuardStep version interval timeout s.guard l g →
      Step version interval timeout s (.guard l) { s with guard := g }
  | advances (l : StartUpLabel) (side : Side) (x : Instruction) (rest : List Instruction) :
      s.todo side = some (x :: rest) → x ≠ .startConnectionLinkPinger →
      Step version interval timeout s l { s with todo := Function.update s.todo side (some rest) }
  | fails (l : StartUpLabel) (side : Side) :
      Step version interval timeout s l { s with todo := Function.update s.todo side none }

theorem afterAnswer_cases {ok : Bool} {xs : List Instruction} {t : Option (List Instruction)}
    (h : afterAnswer ok xs = some t) :
    t = none ∨ ∃ x rest, xs = x :: rest ∧ x ≠ .startConnectionLinkPinger ∧ t = some rest := by
  unfold afterAnswer at h
  split at h
  · cases h
  · cases h
  · next x rest hstart _ =>
    cases ok with
    | false =>
      cases h
      exact Or.inl rfl
    | true =>
      cases h
      exact Or.inr ⟨x, rest, rfl, hstart, rfl⟩
  · cases h

theorem afterCheck_cases {calls : List (Check Side)} {xs : List Instruction}
    {t : Option (List Instruction)} (h : afterCheck calls xs = some t) :
    t = none ∨ ∃ x rest, xs = x :: rest ∧ x ≠ .startConnectionLinkPinger ∧ t = some rest := by
  unfold afterCheck at h
  split at h
  · next i rest =>
    split at h
    · cases h
      exact Or.inr ⟨.pinged i, rest, rfl, nofun, rfl⟩
    · cases h
      exact Or.inl rfl
    · cases h
  · cases h

theorem next_cases {version : Side → Version} {interval timeout : ℕ} {s s' : StartUpState}
    {l : StartUpLabel} (h : s.next version interval timeout l = some s') :
    Step version interval timeout s l s' := by
  have advance : ∀ {side t}, (t = none ∨ ∃ x rest, s.todo side = some (x :: rest) ∧
      x ≠ .startConnectionLinkPinger ∧ t = some rest) →
      Step version interval timeout s l { s with todo := Function.update s.todo side t } := by
    rintro side t (rfl | ⟨x, rest, hx, hne, rfl⟩)
    · exact .fails l side
    · exact .advances l side x rest hx hne
  unfold next at h
  split at h
  · next side =>
    split at h
    · next rest hrest =>
      obtain ⟨g, hg, rfl⟩ := Option.map_eq_some_iff.mp h
      exact .starts side rest g hrest hg
    · cases h
  · next l hl =>
    obtain ⟨g, hg, rfl⟩ := Option.map_eq_some_iff.mp h
    exact .guard l g hl hg
  · next side ok =>
    split_ifs at h
    obtain ⟨t, ht, rfl⟩ := Option.map_eq_some_iff.mp h
    obtain ⟨xs, hxs, ht⟩ := Option.bind_eq_some_iff.mp ht
    refine advance ((afterAnswer_cases ht).imp_right ?_)
    rintro ⟨x, rest, rfl, hne, he⟩
    exact ⟨x, rest, hxs, hne, he⟩
  · next side =>
    split_ifs at h
    obtain ⟨t, ht, rfl⟩ := Option.map_eq_some_iff.mp h
    obtain ⟨xs, hxs, ht⟩ := Option.bind_eq_some_iff.mp ht
    refine advance ((afterCheck_cases ht).imp_right ?_)
    rintro ⟨x, rest, rfl, hne, he⟩
    exact ⟨x, rest, hxs, hne, he⟩

end StartUpState

abbrev StartUpStep (version : Side → Version) (interval timeout : ℕ) :
    StartUpState → StartUpLabel → StartUpState → Prop :=
  Steps (StartUpState.next version interval timeout)

end Interconnect
