import Interconnect.Model.Wiring

/-! What the modules put together: the interconnection starts exactly where the subscriptions of the
source's version are configured and a custom safety net asks for the logger alone, or for what the
container itself has. Nothing on the side of the source then holds what belongs to the destination,
apart from the driver. -/

namespace Interconnect

open Containers

theorem versionOf_legacy {connection : ConnectionConfiguration} :
    versionOf connection = .legacy ↔ isLegacyConf connection = true := by
  unfold versionOf
  split_ifs with h <;> simp [h]

theorem versionOf_next {connection : ConnectionConfiguration} :
    versionOf connection = .next ↔ isLegacyConf connection = false := by
  unfold versionOf
  split_ifs with h <;> simp [h]

/-- What is configured to be subscribed to, for the source's version. -/
def subscriptionsOf (configuration : InterconnectionConfiguration) : Option Value :=
  match versionOf configuration.source with
  | .legacy => (configuration.eventStoreBusConfig.bind (·.subscriptions)).map fun s =>
      .ofOption .busSubscriptions s.persistent
  | .next => (configuration.eventStoreSubsystems.bind (·.subscriptions)).map fun s =>
      .ofOption .subsystemSubscriptions s.persistent

/-! ### Who holds what -/

namespace Wired

abbrev Obj := Object ModuleName Token Value Injectable

def logger (configuration : InterconnectionConfiguration) : Obj :=
  .instance .LoggerModule .LOGGER (LoggerModule.logger configuration.showDebugLogs) []

/-- Whatever it asks for is the logger, or the container's. -/
def safetyNet (logger : Obj) (customStrategy : Option (List Token)) : Obj :=
  .instance .SafetyNetModule .SAFETY_NET (SafetyNetModule.strategy customStrategy)
    ((SafetyNetModule.strategy customStrategy).injects.map fun t =>
      if t = .LOGGER then logger else .supplied .SafetyNetModule t)

def guard (home : ModuleName) (logger : Obj) : Version → Obj
  | .legacy => .instance home .EVENTSTORE_CONNECTION_GUARD .LegacyConnectionGuardService [logger]
  | .next => .instance home .EVENTSTORE_CONNECTION_GUARD .NextConnectionGuardService [logger]

def initializer (home : ModuleName) (logger : Obj) (connection : ConnectionConfiguration) :
    Version → Obj
  | .legacy => .instance home .TCP_EVENTSTORE_CLIENT_CONNECTION_INITIALIZER
      .TCPEventStoreConnectionInitializerService
      [.value (.connectionConfiguration connection), guard home logger .legacy, logger]
  | .next => .instance home .GRPC_CONNECTION_INITIALIZER .GrpcConnectionInitializerService
      [.value (.connectionConfiguration connection), guard home logger .next,
        .value .eventStoreDBClient, logger]

def driverClass : Version → Injectable
  | .legacy => .HttpDriverService
  | .next => .GrpcDriverService

def driver (logger net : Obj) (connection : ConnectionConfiguration) : Obj :=
  .instance .DriverModule .DRIVER (driverClass (versionOf connection))
    [.value (.connectionConfiguration connection),
      initializer .DriverModule logger connection (versionOf connection),
      .value (.credentials connection.credentials), net, logger]

def validatorClass : Version → Injectable
  | .legacy => .LegacyEventsValidatorService
  | .next => .NextEventsValidatorService

def formatterClass : Version → Injectable
  | .legacy => .LegacyEventFormatterService
  | .next => .NextEventFormatterService

def eventHandler (home : ModuleName) (allowedEvents : Option AllowedEvents) (net driver : Obj)
    (version : Version) : Obj :=
  .instance home .EVENT_HANDLER .EventHandlerService
    [.instance home .VALIDATOR (validatorClass version)
        [.value (.allowedEvents (allowedEvents.getD ⟨[], fun _ _ => none⟩)), net],
      .instance home .FORMATTER (formatterClass version) [], driver]

def readerService (home : ModuleName) (logger handler : Obj) (connection : ConnectionConfiguration)
    (subscriptions : Value) : Version → Obj
  | .legacy => .instance home .READER .HttpReaderService
      [.value (.connectionConfiguration connection), .value subscriptions, handler,
        .instance home .HTTP_CLIENT_CONNECTION_INITIALIZER .HttpClientConnectionInitializerService
          [.value (.connectionConfiguration connection)],
        initializer home logger connection .legacy, logger]
  | .next => .instance home .READER .GrpcReaderService
      [.value (.connectionConfiguration connection), handler, .value subscriptions,
        .value .eventStoreDBClient, initializer home logger connection .next,
        guard home logger .next, logger]

def reader (configuration : InterconnectionConfiguration) (allowedEvents : Option AllowedEvents)
    (customStrategy : Option (List Token)) (subscriptions : Value) : Obj :=
  let net := safetyNet (logger configuration) customStrategy
  let version := versionOf configuration.source
  readerService .ReaderModule (logger configuration)
    (eventHandler .ReaderModule allowedEvents net
      (driver (logger configuration) net configuration.destination) version) configuration.source subscriptions version

def readerProviders (configuration : InterconnectionConfiguration) (subscriptions : Value) :
    Version → Providers
  | .legacy => ReaderModule.legacyReaderProviders subscriptions
  | .next => ReaderModule.nextReaderProviders configuration subscriptions

def readerModule (configuration : InterconnectionConfiguration)
    (allowedEvents : Option AllowedEvents) (customStrategy : Option (List Token))
    (subscriptions : Value) : DynamicModule :=
  ReaderModule.dynamicModule configuration allowedEvents customStrategy
    (readerProviders configuration subscriptions (versionOf configuration.source))

def application (configuration : InterconnectionConfiguration)
    (allowedEvents : Option AllowedEvents) (customStrategy : Option (List Token))
    (subscriptions : Value) : DynamicModule :=
  EventstoreInterconnectModule.dynamicModule configuration.showDebugLogs
    (readerModule configuration allowedEvents customStrategy subscriptions)

end Wired

theorem connectToSrcAndDest_ok {configuration : InterconnectionConfiguration}
    {allowedEvents : Option AllowedEvents} {customStrategy : Option (List Token)}
    {app : DynamicModule} :
    EventstoreInterconnectModule.connectToSrcAndDest configuration allowedEvents customStrategy =
        .ok app ↔
      ∃ subscriptions, subscriptionsOf configuration = some subscriptions ∧
        app = Wired.application configuration allowedEvents customStrategy subscriptions := by
  unfold EventstoreInterconnectModule.connectToSrcAndDest ReaderModule.get
    ReaderModule.providersForReader subscriptionsOf Wired.application Wired.readerModule
  cases hv : versionOf configuration.source with
  | legacy =>
    rw [if_pos (versionOf_legacy.mp hv), ReaderModule.getLegacyReaderProviders]
    cases configuration.eventStoreBusConfig.bind (·.subscriptions) with
    | none => simp [Except.map]
    | some s => simp [Except.map, Wired.readerProviders, eq_comm]
  | next =>
    rw [if_neg (by simp [versionOf_next.mp hv]), ReaderModule.getNextReaderProviders]
    cases configuration.eventStoreSubsystems.bind (·.subscriptions) with
    | none => simp [Except.map]
    | some s => simp [Except.map, Wired.readerProviders, eq_comm]

/-! ### What the modules offer -/

section

variable {registers : Value → Bool} {configuration : InterconnectionConfiguration}
  {customStrategy : Option (List Token)} {t : Token}

theorem offers_logger :
    Module.offers registers t (LoggerModule.forRoot configuration.showDebugLogs) =
    if t = .LOGGER then
      [(LoggerModule.forRoot configuration.showDebugLogs,
        .useClass (LoggerModule.logger configuration.showDebugLogs))]
    else [] := by
  rw [Module.offers_eq]
  by_cases ht : t = .LOGGER
  · subst ht
    simp [LoggerModule.forRoot, Module.own, Provider.registered]
  · simp [LoggerModule.forRoot, ht]

theorem offers_safetyNet : Module.offers registers t (SafetyNetModule.use customStrategy) =
    if t = .SAFETY_NET then
      [(SafetyNetModule.use customStrategy, .useClass (SafetyNetModule.strategy customStrategy))]
    else [] := by
  rw [Module.offers_eq]
  by_cases ht : t = .SAFETY_NET
  · subst ht
    simp [SafetyNetModule.use, Module.own, Provider.registered]
  · simp [SafetyNetModule.use, ht]

theorem offers_driver : Module.offers registers t (DriverModule.get configuration customStrategy) =
    (if t ∈ (DriverModule.driverProviders configuration).map Prod.fst then
      ((Module.own registers (DriverModule.get configuration customStrategy) t).map
        (DriverModule.get configuration customStrategy, ·)).toList else []) ++
      Module.offers registers t (SafetyNetModule.use customStrategy) := by
  rw [Module.offers_eq]
  congr 1
  · congr 1
    simp [DriverModule.get]
  · simp [DriverModule.get, SafetyNetModule.use]

theorem driverProviders_cases (configuration : InterconnectionConfiguration) :
    (versionOf configuration.destination = .legacy ∧ DriverModule.driverProviders configuration =
        DriverModule.getLegacyEventStoreDriver configuration) ∨
      (versionOf configuration.destination = .next ∧ DriverModule.driverProviders configuration =
        DriverModule.getNextEventStoreDriver configuration) := by
  unfold DriverModule.driverProviders versionOf
  split_ifs <;> simp

theorem driverProviders_nodup :
    ((DriverModule.driverProviders configuration).map Prod.fst).Nodup := by
  rcases driverProviders_cases configuration with ⟨-, h⟩ | ⟨-, h⟩
  · simp [h, DriverModule.getLegacyEventStoreDriver]
  · simp [h, DriverModule.getNextEventStoreDriver]

theorem not_mem_driverProviders (ht : t = .LOGGER ∨ t = .SAFETY_NET ∨ t = .SUBSCRIPTIONS) :
    t ∉ (DriverModule.driverProviders configuration).map Prod.fst := by
  rcases driverProviders_cases configuration with ⟨-, h⟩ | ⟨-, h⟩ <;>
    rcases ht with rfl | rfl | rfl <;>
      simp [h, DriverModule.getLegacyEventStoreDriver, DriverModule.getNextEventStoreDriver]

end

/-! ### What the container finds -/

section

variable {N : Container ModuleName Token Value Injectable} {app m : DynamicModule}
  {configuration : InterconnectionConfiguration} {customStrategy : Option (List Token)} {t : Token}
  {p : Provider Value Injectable}

def LogsWith (app : DynamicModule) (configuration : InterconnectionConfiguration) : Prop :=
  app.modules.filter (·.global) = [LoggerModule.forRoot configuration.showDebugLogs]

theorem sees_of_own_none (hlog : LogsWith app configuration)
    (hown : Module.own N.registers m t = none) :
    Module.sees N.registers app m t =
      m.imports.flatMap (Module.offers N.registers t) ++ Module.offers N.registers t
        (LoggerModule.forRoot configuration.showDebugLogs) := by
  rw [Module.sees, hown, hlog, List.flatMap_append]
  simp

theorem own_driver_none (h : t ∉ (DriverModule.driverProviders configuration).map Prod.fst) :
    Module.own N.registers (DriverModule.get configuration customStrategy) t = none :=
  Module.own_eq_none fun _ hp => absurd (List.mem_map_of_mem hp) h

theorem find_provided (hnodup : (m.providers.map Prod.fst).Nodup) (h : (t, p) ∈ m.providers)
    (hp : p.registered N.registers = true) : N.find app m t = some (m, p) :=
  Container.find_of_own (Module.own_of_mem hnodup h hp)

theorem find_logger (hlog : LogsWith app configuration)
    (hown : Module.own N.registers m .LOGGER = none)
    (himports : m.imports.flatMap (Module.offers N.registers .LOGGER) = []) :
    N.find app m .LOGGER = some (LoggerModule.forRoot configuration.showDebugLogs,
      .useClass (LoggerModule.logger configuration.showDebugLogs)) := by
  apply Container.find_of_sees
  rw [sees_of_own_none hlog hown, himports, offers_logger, if_pos rfl, List.nil_append]

theorem own_net_none (h : t ≠ .SAFETY_NET) :
    Module.own N.registers (SafetyNetModule.use customStrategy) t = none :=
  Module.own_eq_none (by simp [SafetyNetModule.use, h])

theorem find_in_net : N.find app (SafetyNetModule.use customStrategy) .SAFETY_NET =
    some (SafetyNetModule.use customStrategy,
      .useClass (SafetyNetModule.strategy customStrategy)) :=
  find_provided (by simp [SafetyNetModule.use]) (by simp [SafetyNetModule.use]) rfl

theorem find_logger_in_net (hlog : LogsWith app configuration) :
    N.find app (SafetyNetModule.use customStrategy) .LOGGER =
      some (LoggerModule.forRoot configuration.showDebugLogs,
        .useClass (LoggerModule.logger configuration.showDebugLogs)) :=
  find_logger hlog (own_net_none (by simp)) (by simp [SafetyNetModule.use])

theorem find_logger_in_driver (hlog : LogsWith app configuration) :
    N.find app (DriverModule.get configuration customStrategy) .LOGGER =
      some (LoggerModule.forRoot configuration.showDebugLogs,
        .useClass (LoggerModule.logger configuration.showDebugLogs)) :=
  find_logger hlog (own_driver_none (not_mem_driverProviders (.inl rfl)))
    (by simp [DriverModule.get, offers_safetyNet])

theorem find_net_in_driver (hlog : LogsWith app configuration) :
    N.find app (DriverModule.get configuration customStrategy) .SAFETY_NET =
      some (SafetyNetModule.use customStrategy,
        .useClass (SafetyNetModule.strategy customStrategy)) := by
  apply Container.find_of_sees
  rw [sees_of_own_none hlog (own_driver_none (not_mem_driverProviders (.inr (.inl rfl)))),
    offers_logger]
  simp [DriverModule.get, offers_safetyNet]

/-! ### What the container builds -/

theorem builds_logger (hfind : N.find app m .LOGGER = some
    (LoggerModule.forRoot configuration.showDebugLogs,
      .useClass (LoggerModule.logger configuration.showDebugLogs))) :
    N.Builds Injectable.injects app m .LOGGER (Wired.logger configuration) := by
  refine Container.builds_instance hfind ?_
  have hinjects : (LoggerModule.logger configuration.showDebugLogs).injects = [] := by
    unfold LoggerModule.logger
    split_ifs <;> rfl
  rw [hinjects]
  exact .nil

/-- A safety net that asks for the logger, and for what the container has, alone. -/
def LogsOnly (N : Container ModuleName Token Value Injectable)
    (customStrategy : Option (List Token)) : Prop :=
  ∀ t ∈ (SafetyNetModule.strategy customStrategy).injects, t = .LOGGER ∨ N.supplies t = true

/-- A container that registers all values but `undefined`, and has objects of its own under tokens
that are none of the modules'. -/
structure NestLike (N : Container ModuleName Token Value Injectable) : Prop where
  registers : ∀ v, v ≠ .undefined → N.registers v = true
  supplies : ∀ t, N.supplies t = true → ∃ name, t = .other name

theorem find_none_in_net (hlog : LogsWith app configuration) (hself : t ≠ .SAFETY_NET)
    (hne : t ≠ .LOGGER) : N.find app (SafetyNetModule.use customStrategy) t = none := by
  apply Container.find_eq_none
  rw [sees_of_own_none hlog (own_net_none hself), offers_logger, if_neg hne]
  simp [SafetyNetModule.use]

theorem builds_net (hN : NestLike N) (hlog : LogsWith app configuration)
    (hasks : LogsOnly N customStrategy) :
    N.Builds Injectable.injects app (SafetyNetModule.use customStrategy) .SAFETY_NET
      (Wired.safetyNet (Wired.logger configuration) customStrategy) := by
  refine Container.builds_instance find_in_net ?_
  rw [List.forall₂_map_right_iff, List.forall₂_same]
  intro t ht
  by_cases hlogger : t = .LOGGER
  · rw [if_pos hlogger, hlogger]
    exact builds_logger (find_logger_in_net hlog)
  · have hsupplied := (hasks t ht).resolve_left hlogger
    obtain ⟨name, rfl⟩ := hN.supplies t hsupplied
    rw [if_neg hlogger]
    exact Container.builds_supplied (find_none_in_net hlog (by simp) hlogger) hsupplied

theorem logsOnly_of_builds (hlog : LogsWith app configuration) {o : Wired.Obj}
    (h : N.Builds Injectable.injects app (SafetyNetModule.use customStrategy) .SAFETY_NET o) :
    LogsOnly N customStrategy := by
  intro t ht
  by_cases hself : t = .SAFETY_NET
  · subst hself
    exact absurd h (Container.not_builds_of_self find_in_net ht)
  · by_cases hlogger : t = .LOGGER
    · exact Or.inl hlogger
    · obtain ⟨a, ha⟩ := h.dependency find_in_net ht
      exact Or.inr (Container.supplies_of_builds (find_none_in_net hlog hself hlogger) ha)

def initializerToken : Version → Token
  | .legacy => .TCP_EVENTSTORE_CLIENT_CONNECTION_INITIALIZER
  | .next => .GRPC_CONNECTION_INITIALIZER

def Connects (m : DynamicModule) (connection : ConnectionConfiguration) : Version → Prop
  | .legacy =>
    (.CONNECTION_CONFIGURATION, .useValue (.connectionConfiguration connection)) ∈ m.providers ∧
    (.EVENTSTORE_CONNECTION_GUARD, .useClass .LegacyConnectionGuardService) ∈ m.providers ∧
    (.TCP_EVENTSTORE_CLIENT_CONNECTION_INITIALIZER,
      .useClass .TCPEventStoreConnectionInitializerService) ∈ m.providers
  | .next =>
    (.CONNECTION_CONFIGURATION, .useValue (.connectionConfiguration connection)) ∈ m.providers ∧
    (.EVENTSTORE_CONNECTION_GUARD, .useClass .NextConnectionGuardService) ∈ m.providers ∧
    (.GRPC_CONNECTION_INITIALIZER, .useClass .GrpcConnectionInitializerService) ∈ m.providers ∧
    (.EVENTSTORE_DB_CLIENT, .useValue .eventStoreDBClient) ∈ m.providers

theorem builds_provided (hnodup : (m.providers.map Prod.fst).Nodup) {c : Injectable}
    {arguments : List Wired.Obj} (h : (t, .useClass c) ∈ m.providers)
    (hdeps : List.Forall₂ (N.Builds Injectable.injects app m) c.injects arguments) :
    N.Builds Injectable.injects app m t (.instance m.module t c arguments) :=
  Container.builds_instance (find_provided hnodup h rfl) hdeps

variable (app) in
theorem builds_provided_value (hN : NestLike N) (hnodup : (m.providers.map Prod.fst).Nodup)
    {v : Value} (h : (t, .useValue v) ∈ m.providers) (hv : v ≠ .undefined) :
    N.Builds Injectable.injects app m t (.value v) :=
  Container.builds_value (find_provided hnodup h (hN.registers v hv))

theorem builds_initializer (hN : NestLike N) (hnodup : (m.providers.map Prod.fst).Nodup)
    {connection : ConnectionConfiguration} {logger : Wired.Obj}
    (hlogger : N.Builds Injectable.injects app m .LOGGER logger) (version : Version)
    (h : Connects m connection version) :
    N.Builds Injectable.injects app m (initializerToken version)
      (Wired.initializer m.module logger connection version) := by
  cases version with
  | legacy =>
    obtain ⟨hconf, hguard, hinit⟩ := h
    have hbconf := builds_provided_value app hN hnodup hconf (by simp)
    have hbguard := builds_provided hnodup hguard (.cons hlogger .nil)
    exact builds_provided hnodup hinit (.cons hbconf (.cons hbguard (.cons hlogger .nil)))
  | next =>
    obtain ⟨hconf, hguard, hinit, hclient⟩ := h
    have hbconf := builds_provided_value app hN hnodup hconf (by simp)
    have hbguard := builds_provided hnodup hguard (.cons hlogger .nil)
    have hbclient := builds_provided_value app hN hnodup hclient (by simp)
    exact builds_provided hnodup hinit
      (.cons hbconf (.cons hbguard (.cons hbclient (.cons hlogger .nil))))

theorem builds_guard (hnodup : (m.providers.map Prod.fst).Nodup)
    {connection : ConnectionConfiguration} {logger : Wired.Obj}
    (hlogger : N.Builds Injectable.injects app m .LOGGER logger) (version : Version)
    (h : Connects m connection version) :
    ∃ o, N.Builds Injectable.injects app m .EVENTSTORE_CONNECTION_GUARD o := by
  cases version with
  | legacy => exact ⟨_, builds_provided hnodup h.2.1 (.cons hlogger .nil)⟩
  | next => exact ⟨_, builds_provided hnodup h.2.1 (.cons hlogger .nil)⟩

theorem driver_connects : Connects (DriverModule.get configuration customStrategy)
    configuration.destination (versionOf configuration.destination) := by
  rcases driverProviders_cases configuration with ⟨hv, h⟩ | ⟨hv, h⟩
  · simp [hv, Connects, DriverModule.get, h, DriverModule.getLegacyEventStoreDriver]
  · simp [hv, Connects, DriverModule.get, h, DriverModule.getNextEventStoreDriver]

theorem driver_values {v : Value} (h : (t, .useValue v) ∈ DriverModule.driverProviders configuration) :
    v ≠ .undefined := by
  rintro rfl
  rcases driverProviders_cases configuration with ⟨-, hp⟩ | ⟨-, hp⟩
  · simp [hp, DriverModule.getLegacyEventStoreDriver] at h
  · simp [hp, DriverModule.getNextEventStoreDriver] at h

theorem driver_classes {c : Injectable}
    (h : (t, .useClass c) ∈ DriverModule.driverProviders configuration) :
    t = .DRIVER ∨ t = initializerToken (versionOf configuration.destination) ∨
      t = .EVENTSTORE_CONNECTION_GUARD := by
  rcases driverProviders_cases configuration with ⟨hv, hp⟩ | ⟨hv, hp⟩
  · simp only [hp, DriverModule.getLegacyEventStoreDriver, List.mem_cons, Prod.mk.injEq,
      reduceCtorEq, and_false, false_or, List.not_mem_nil, or_false] at h
    rw [hv]
    exact h.imp And.left (Or.imp And.left And.left)
  · simp only [hp, DriverModule.getNextEventStoreDriver, List.mem_cons, Prod.mk.injEq,
      reduceCtorEq, and_false, false_or, List.not_mem_nil, or_false] at h
    rw [hv]
    exact h.imp And.left (Or.imp And.left And.left)

variable (configuration) in
theorem driver_provides :
    (.DRIVER, .useClass (Wired.driverClass (versionOf configuration.destination))) ∈
        DriverModule.driverProviders configuration ∧
      (.CREDENTIALS, .useValue (.credentials configuration.destination.credentials)) ∈
        DriverModule.driverProviders configuration ∧
      (.CONNECTION_CONFIGURATION,
          .useValue (.connectionConfiguration configuration.destination)) ∈
        DriverModule.driverProviders configuration := by
  rcases driverProviders_cases configuration with ⟨hv, h⟩ | ⟨hv, h⟩
  · simp [hv, h, DriverModule.getLegacyEventStoreDriver, Wired.driverClass]
  · simp [hv, h, DriverModule.getNextEventStoreDriver, Wired.driverClass]

theorem builds_driver (hN : NestLike N) (hlog : LogsWith app configuration)
    (hasks : LogsOnly N customStrategy) :
    N.Builds Injectable.injects app (DriverModule.get configuration customStrategy) .DRIVER
      (Wired.driver (Wired.logger configuration)
        (Wired.safetyNet (Wired.logger configuration) customStrategy) configuration.destination) := by
  have hnodup : ((DriverModule.get configuration customStrategy).providers.map Prod.fst).Nodup :=
    driverProviders_nodup
  obtain ⟨hdriver, hcredentials, hconf⟩ := driver_provides configuration
  have hlogger : N.Builds Injectable.injects app (DriverModule.get configuration customStrategy)
      .LOGGER (Wired.logger configuration) := builds_logger (find_logger_in_driver hlog)
  have hnet := (builds_net hN hlog hasks).shared find_in_net (find_net_in_driver hlog)
  have hinit := builds_initializer hN hnodup hlogger _ driver_connects
  have hbconf := builds_provided_value app hN hnodup hconf (by simp)
  have hbcred := builds_provided_value app hN hnodup hcredentials (by simp)
  refine builds_provided hnodup hdriver ?_
  cases hv : versionOf configuration.destination with
  | legacy =>
    rw [hv] at hinit
    exact .cons hbconf (.cons hinit (.cons hbcred (.cons hnet (.cons hlogger .nil))))
  | next =>
    rw [hv] at hinit
    exact .cons hbconf (.cons hinit (.cons hbcred (.cons hnet (.cons hlogger .nil))))

def Handles (m : DynamicModule) (allowedEvents : Option AllowedEvents) (version : Version) : Prop :=
  (.ALLOWED_EVENTS, .useValue (.allowedEvents (allowedEvents.getD ⟨[], fun _ _ => none⟩))) ∈
    m.providers ∧
  (.EVENT_HANDLER, .useClass .EventHandlerService) ∈ m.providers ∧
  match version with
  | .legacy => (.VALIDATOR, .useClass .LegacyEventsValidatorService) ∈ m.providers ∧
    (.FORMATTER, .useClass .LegacyEventFormatterService) ∈ m.providers
  | .next => (.VALIDATOR, .useClass .NextEventsValidatorService) ∈ m.providers ∧
    (.FORMATTER, .useClass .NextEventFormatterService) ∈ m.providers

theorem builds_handler (hN : NestLike N) (hnodup : (m.providers.map Prod.fst).Nodup)
    {net driver : Wired.Obj} (hnet : N.Builds Injectable.injects app m .SAFETY_NET net)
    (hdriver : N.Builds Injectable.injects app m .DRIVER driver)
    {allowedEvents : Option AllowedEvents} (version : Version)
    (h : Handles m allowedEvents version) :
    N.Builds Injectable.injects app m .EVENT_HANDLER
      (Wired.eventHandler m.module allowedEvents net driver version) := by
  obtain ⟨hallowed, hhandler, h⟩ := h
  have hballowed := builds_provided_value app hN hnodup hallowed (by simp)
  cases version with
  | legacy =>
    have hvalidator := builds_provided hnodup h.1 (.cons hballowed (.cons hnet .nil))
    have hformatter : N.Builds Injectable.injects app m .FORMATTER
        (.instance m.module .FORMATTER .LegacyEventFormatterService []) :=
      builds_provided hnodup h.2 .nil
    exact builds_provided hnodup hhandler (.cons hvalidator (.cons hformatter (.cons hdriver .nil)))
  | next =>
    have hvalidator := builds_provided hnodup h.1 (.cons hballowed (.cons hnet .nil))
    have hformatter : N.Builds Injectable.injects app m .FORMATTER
        (.instance m.module .FORMATTER .NextEventFormatterService []) :=
      builds_provided hnodup h.2 .nil
    exact builds_provided hnodup hhandler (.cons hvalidator (.cons hformatter (.cons hdriver .nil)))

def Reads (m : DynamicModule) (subscriptions : Value) : Version → Prop
  | .legacy => (.READER, .useClass .HttpReaderService) ∈ m.providers ∧
    (.SUBSCRIPTIONS, .useValue subscriptions) ∈ m.providers ∧
    (.HTTP_CLIENT_CONNECTION_INITIALIZER, .useClass .HttpClientConnectionInitializerService) ∈
      m.providers
  | .next => (.READER, .useClass .GrpcReaderService) ∈ m.providers ∧
    (.SUBSCRIPTIONS, .useValue subscriptions) ∈ m.providers

theorem builds_readerService (hN : NestLike N) (hnodup : (m.providers.map Prod.fst).Nodup)
    {logger handler : Wired.Obj} (hlogger : N.Builds Injectable.injects app m .LOGGER logger)
    (hhandler : N.Builds Injectable.injects app m .EVENT_HANDLER handler)
    {connection : ConnectionConfiguration} {subscriptions : Value}
    (hsubs : N.registers subscriptions = true) (version : Version)
    (hconnects : Connects m connection version) (hreads : Reads m subscriptions version) :
    N.Builds Injectable.injects app m .READER
      (Wired.readerService m.module logger handler connection subscriptions version) := by
  have hinit := builds_initializer hN hnodup hlogger version hconnects
  cases version with
  | legacy =>
    obtain ⟨hreader, hsub, hhttp⟩ := hreads
    have hbconf := builds_provided_value app hN hnodup hconnects.1 (by simp)
    have hbsubs : N.Builds Injectable.injects app m .SUBSCRIPTIONS (.value subscriptions) :=
      Container.builds_value (find_provided hnodup hsub hsubs)
    have hbhttp := builds_provided hnodup hhttp (.cons hbconf .nil)
    exact builds_provided hnodup hreader
      (.cons hbconf (.cons hbsubs (.cons hhandler (.cons hbhttp (.cons hinit
        (.cons hlogger .nil))))))
  | next =>
    obtain ⟨hreader, hsub⟩ := hreads
    have hbconf := builds_provided_value app hN hnodup hconnects.1 (by simp)
    have hbsubs : N.Builds Injectable.injects app m .SUBSCRIPTIONS (.value subscriptions) :=
      Container.builds_value (find_provided hnodup hsub hsubs)
    have hguard := builds_provided hnodup hconnects.2.1 (.cons hlogger .nil)
    have hclient := builds_provided_value app hN hnodup hconnects.2.2.2 (by simp)
    exact builds_provided hnodup hreader
      (.cons hbconf (.cons hhandler (.cons hbsubs (.cons hclient (.cons hinit
        (.cons hguard (.cons hlogger .nil)))))))

end

/-! ### The reader's module -/

section

variable {N : Container ModuleName Token Value Injectable} {app : DynamicModule}
  (configuration : InterconnectionConfiguration) (allowedEvents : Option AllowedEvents)
  (customStrategy : Option (List Token)) (subscriptions : Value) {t : Token}
  {p : Provider Value Injectable}

theorem application_logs :
    LogsWith (Wired.application configuration allowedEvents customStrategy subscriptions)
      configuration := by
  simp [LogsWith, Wired.application, EventstoreInterconnectModule.dynamicModule,
    Wired.readerModule, ReaderModule.dynamicModule, DriverModule.get, SafetyNetModule.use,
    LoggerModule.forRoot, Module.modules, Module.modulesOf]

theorem mem_readerModule : (t, p) ∈ (Wired.readerModule configuration allowedEvents customStrategy
      subscriptions).providers ↔
    (t, p) ∈ Wired.readerProviders configuration subscriptions (versionOf configuration.source) ∨
      (t, p) = (.ALLOWED_EVENTS,
        .useValue (.allowedEvents (allowedEvents.getD ⟨[], fun _ _ => none⟩))) ∨
      (t, p) = (.CONNECTION_CONFIGURATION,
        .useValue (.connectionConfiguration configuration.source)) ∨
      (t, p) = (.EVENT_HANDLER, .useClass .EventHandlerService) := by
  simp [Wired.readerModule, ReaderModule.dynamicModule]

theorem readerModule_nodup :
    ((Wired.readerModule configuration allowedEvents customStrategy subscriptions).providers.map
      Prod.fst).Nodup := by
  unfold Wired.readerModule
  cases versionOf configuration.source <;>
    simp [ReaderModule.dynamicModule, Wired.readerProviders, ReaderModule.legacyReaderProviders,
      ReaderModule.nextReaderProviders]

theorem reader_connects :
    Connects (Wired.readerModule configuration allowedEvents customStrategy subscriptions)
      configuration.source (versionOf configuration.source) := by
  cases hv : versionOf configuration.source
  · simp [Connects, mem_readerModule, hv, Wired.readerProviders, ReaderModule.legacyReaderProviders]
  · simp [Connects, mem_readerModule, hv, Wired.readerProviders, ReaderModule.nextReaderProviders]

theorem reader_handles :
    Handles (Wired.readerModule configuration allowedEvents customStrategy subscriptions)
      allowedEvents (versionOf configuration.source) := by
  cases hv : versionOf configuration.source
  · simp [Handles, mem_readerModule, hv, Wired.readerProviders, ReaderModule.legacyReaderProviders]
  · simp [Handles, mem_readerModule, hv, Wired.readerProviders, ReaderModule.nextReaderProviders]

theorem reader_reads :
    Reads (Wired.readerModule configuration allowedEvents customStrategy subscriptions)
      subscriptions (versionOf configuration.source) := by
  cases hv : versionOf configuration.source
  · simp [Reads, mem_readerModule, hv, Wired.readerProviders, ReaderModule.legacyReaderProviders]
  · simp [Reads, mem_readerModule, hv, Wired.readerProviders, ReaderModule.nextReaderProviders]

variable {configuration customStrategy}

/-- What the reader's module does not provide, its imports and the logger's module offer. -/
theorem sees_in_reader (hlog : LogsWith app configuration)
    (hown : Module.own N.registers (Wired.readerModule configuration allowedEvents customStrategy
      subscriptions) t = none) :
    Module.sees N.registers app
        (Wired.readerModule configuration allowedEvents customStrategy subscriptions) t =
      Module.offers N.registers t (DriverModule.get configuration customStrategy) ++
        Module.offers N.registers t (LoggerModule.forRoot configuration.showDebugLogs) := by
  rw [sees_of_own_none hlog hown]
  simp [Wired.readerModule, ReaderModule.dynamicModule]

theorem own_reader_none (ht : t = .DRIVER ∨ t = .SAFETY_NET ∨ t = .LOGGER) :
    Module.own N.registers (Wired.readerModule configuration allowedEvents customStrategy
      subscriptions) t = none := by
  apply Module.own_eq_none
  intro p hp
  exfalso
  rw [mem_readerModule] at hp
  revert hp
  rcases ht with rfl | rfl | rfl <;> cases versionOf configuration.source <;>
    simp [Wired.readerProviders, ReaderModule.legacyReaderProviders,
      ReaderModule.nextReaderProviders]

theorem find_logger_in_reader (hlog : LogsWith app configuration) :
    N.find app (Wired.readerModule configuration allowedEvents customStrategy subscriptions)
        .LOGGER =
      some (LoggerModule.forRoot configuration.showDebugLogs,
        .useClass (LoggerModule.logger configuration.showDebugLogs)) := by
  apply Container.find_of_sees
  rw [sees_in_reader allowedEvents subscriptions hlog (own_reader_none _ _ (by simp)),
    offers_driver,
    if_neg (not_mem_driverProviders (by simp)), offers_safetyNet, offers_logger]
  simp

theorem find_net_in_reader (hlog : LogsWith app configuration) :
    N.find app (Wired.readerModule configuration allowedEvents customStrategy subscriptions)
        .SAFETY_NET =
      some (SafetyNetModule.use customStrategy,
        .useClass (SafetyNetModule.strategy customStrategy)) := by
  apply Container.find_of_sees
  rw [sees_in_reader allowedEvents subscriptions hlog (own_reader_none _ _ (by simp)),
    offers_driver,
    if_neg (not_mem_driverProviders (by simp)), offers_safetyNet, offers_logger]
  simp

theorem find_driver_in_reader (hlog : LogsWith app configuration) :
    N.find app (Wired.readerModule configuration allowedEvents customStrategy subscriptions)
        .DRIVER =
      some (DriverModule.get configuration customStrategy,
        .useClass (Wired.driverClass (versionOf configuration.destination))) := by
  have hmem := (driver_provides configuration).1
  have hown : Module.own N.registers (DriverModule.get configuration customStrategy) .DRIVER =
      some (.useClass (Wired.driverClass (versionOf configuration.destination))) :=
    Module.own_of_mem driverProviders_nodup hmem rfl
  apply Container.find_of_sees
  rw [sees_in_reader allowedEvents subscriptions hlog (own_reader_none _ _ (by simp)),
    offers_driver,
    if_pos (List.mem_map_of_mem hmem), hown, offers_safetyNet, offers_logger]
  simp

theorem builds_reader (hN : NestLike N) (hlog : LogsWith app configuration)
    (hasks : LogsOnly N customStrategy) (hsubs : N.registers subscriptions = true) :
    N.Builds Injectable.injects app
      (Wired.readerModule configuration allowedEvents customStrategy subscriptions) .READER
      (Wired.reader configuration allowedEvents customStrategy subscriptions) := by
  have hnodup := readerModule_nodup configuration allowedEvents customStrategy subscriptions
  have hlogger : N.Builds Injectable.injects app (Wired.readerModule configuration allowedEvents
      customStrategy subscriptions) .LOGGER (Wired.logger configuration) :=
    builds_logger (find_logger_in_reader allowedEvents subscriptions hlog)
  have hnet := (builds_net hN hlog hasks).shared find_in_net
    (find_net_in_reader allowedEvents subscriptions hlog)
  have hdriver := (builds_driver hN hlog hasks).shared
    (find_provided driverProviders_nodup (driver_provides configuration).1 rfl)
    (find_driver_in_reader allowedEvents subscriptions hlog)
  have hhandler := builds_handler hN hnodup hnet hdriver _
    (reader_handles configuration allowedEvents customStrategy subscriptions)
  exact builds_readerService hN hnodup hlogger hhandler hsubs _
    (reader_connects configuration allowedEvents customStrategy subscriptions)
    (reader_reads configuration allowedEvents customStrategy subscriptions)

theorem builds_all {m : DynamicModule} (hnodup : (m.providers.map Prod.fst).Nodup)
    (hvalues : ∀ t v, (t, .useValue v) ∈ m.providers → N.registers v = true)
    (hclasses : ∀ t c, (t, .useClass c) ∈ m.providers →
      ∃ o, N.Builds Injectable.injects app m t o) :
    ∀ b ∈ m.providers, ∃ o, N.Builds Injectable.injects app m b.1 o := by
  rintro ⟨t, p⟩ hb
  cases p with
  | useValue v => exact ⟨_, Container.builds_value (find_provided hnodup hb (hvalues t v hb))⟩
  | useClass c => exact hclasses t c hb

theorem driver_builds_all (hN : NestLike N) (hlog : LogsWith app configuration)
    (hasks : LogsOnly N customStrategy) :
    ∀ b ∈ (DriverModule.get configuration customStrategy).providers,
      ∃ o, N.Builds Injectable.injects app (DriverModule.get configuration customStrategy) b.1
        o := by
  have hnodup : ((DriverModule.get configuration customStrategy).providers.map Prod.fst).Nodup :=
    driverProviders_nodup
  have hlogger : N.Builds Injectable.injects app (DriverModule.get configuration customStrategy)
      .LOGGER (Wired.logger configuration) := builds_logger (find_logger_in_driver hlog)
  apply builds_all hnodup
  · exact fun t v hb => hN.registers v (driver_values hb)
  · intro t c hb
    rcases driver_classes hb with rfl | rfl | rfl
    · exact ⟨_, builds_driver hN hlog hasks⟩
    · exact ⟨_, builds_initializer hN hnodup hlogger _ driver_connects⟩
    · exact builds_guard hnodup hlogger _ driver_connects

theorem reader_builds_all (hN : NestLike N) (hlog : LogsWith app configuration)
    (hasks : LogsOnly N customStrategy) (hsubs : N.registers subscriptions = true) :
    ∀ b ∈ (Wired.readerModule configuration allowedEvents customStrategy subscriptions).providers,
      ∃ o, N.Builds Injectable.injects app
        (Wired.readerModule configuration allowedEvents customStrategy subscriptions) b.1 o := by
  have hnodup := readerModule_nodup configuration allowedEvents customStrategy subscriptions
  have hreader := builds_reader allowedEvents subscriptions hN hlog hasks hsubs
  have hreads := reader_reads configuration allowedEvents customStrategy subscriptions
  have hhandles := reader_handles configuration allowedEvents customStrategy subscriptions
  have hconnects := reader_connects configuration allowedEvents customStrategy subscriptions
  have hprovides : ∀ t p, (t, p) ∈ (Wired.readerModule configuration allowedEvents customStrategy
      subscriptions).providers ↔ _ := fun t p =>
    mem_readerModule configuration allowedEvents customStrategy subscriptions
  generalize Wired.readerModule configuration allowedEvents customStrategy subscriptions = m at *
  have hdepends : ∀ {t c o} (d : Token), N.Builds Injectable.injects app m t o →
      (t, .useClass c) ∈ m.providers → d ∈ c.injects → ∃ a, N.Builds Injectable.injects app m d a :=
    fun d ho ht hd => ho.dependency (find_provided hnodup ht rfl) hd
  have hvalues : ∀ t v, (t, .useValue v) ∈ m.providers → N.registers v = true := by
    intro t v hb
    by_cases hsub : v = subscriptions
    · rw [hsub, hsubs]
    · apply hN.registers
      rintro rfl
      rw [hprovides] at hb
      revert hb
      cases versionOf configuration.source <;>
        simp [Wired.readerProviders, ReaderModule.legacyReaderProviders,
          ReaderModule.nextReaderProviders, hsub]
  apply builds_all hnodup hvalues
  cases hv : versionOf configuration.source with
  | legacy =>
    rw [hv] at hreads hhandles hconnects
    obtain ⟨hread, -, -⟩ := hreads
    obtain ⟨-, hhandle, -⟩ := hhandles
    obtain ⟨-, -, hinit⟩ := hconnects
    obtain ⟨_, hbhttp⟩ := hdepends .HTTP_CLIENT_CONNECTION_INITIALIZER hreader hread
      (by simp [Injectable.injects])
    obtain ⟨_, hbinit⟩ := hdepends .TCP_EVENTSTORE_CLIENT_CONNECTION_INITIALIZER hreader hread
      (by simp [Injectable.injects])
    obtain ⟨_, hbguard⟩ := hdepends .EVENTSTORE_CONNECTION_GUARD hbinit hinit
      (by simp [Injectable.injects])
    obtain ⟨_, hbhandler⟩ := hdepends .EVENT_HANDLER hreader hread (by simp [Injectable.injects])
    obtain ⟨_, hbvalidator⟩ := hdepends .VALIDATOR hbhandler hhandle (by simp [Injectable.injects])
    obtain ⟨_, hbformatter⟩ := hdepends .FORMATTER hbhandler hhandle (by simp [Injectable.injects])
    intro t c hb
    rw [hprovides, hv] at hb
    simp only [Wired.readerProviders, ReaderModule.legacyReaderProviders, List.mem_cons,
      Prod.mk.injEq, reduceCtorEq, and_false, false_or, List.not_mem_nil, or_false] at hb
    rcases hb with (⟨rfl, -⟩ | ⟨rfl, -⟩ | ⟨rfl, -⟩ | ⟨rfl, -⟩ | ⟨rfl, -⟩ | ⟨rfl, -⟩) | ⟨rfl, -⟩
    exacts [⟨_, hreader⟩, ⟨_, hbvalidator⟩, ⟨_, hbformatter⟩, ⟨_, hbinit⟩, ⟨_, hbhttp⟩,
      ⟨_, hbguard⟩, ⟨_, hbhandler⟩]
  | next =>
    rw [hv] at hreads hhandles hconnects
    obtain ⟨hread, -⟩ := hreads
    obtain ⟨-, hhandle, -⟩ := hhandles
    obtain ⟨_, hbinit⟩ := hdepends .GRPC_CONNECTION_INITIALIZER hreader hread
      (by simp [Injectable.injects])
    obtain ⟨_, hbguard⟩ := hdepends .EVENTSTORE_CONNECTION_GUARD hreader hread
      (by simp [Injectable.injects])
    obtain ⟨_, hbhandler⟩ := hdepends .EVENT_HANDLER hreader hread (by simp [Injectable.injects])
    obtain ⟨_, hbvalidator⟩ := hdepends .VALIDATOR hbhandler hhandle (by simp [Injectable.injects])
    obtain ⟨_, hbformatter⟩ := hdepends .FORMATTER hbhandler hhandle (by simp [Injectable.injects])
    intro t c hb
    rw [hprovides, hv] at hb
    simp only [Wired.readerProviders, ReaderModule.nextReaderProviders, List.mem_cons,
      Prod.mk.injEq, reduceCtorEq, and_false, false_or, List.not_mem_nil, or_false] at hb
    rcases hb with (⟨rfl, -⟩ | ⟨rfl, -⟩ | ⟨rfl, -⟩ | ⟨rfl, -⟩ | ⟨rfl, -⟩) | ⟨rfl, -⟩
    exacts [⟨_, hreader⟩, ⟨_, hbinit⟩, ⟨_, hbvalidator⟩, ⟨_, hbformatter⟩, ⟨_, hbguard⟩,
      ⟨_, hbhandler⟩]

/-- A reader is not built where its subscriptions are not registered: nobody else offers any. -/
theorem registers_of_builds (hN : NestLike N) (hlog : LogsWith app configuration) {o : Wired.Obj}
    (h : N.Builds Injectable.injects app (Wired.readerModule configuration allowedEvents
      customStrategy subscriptions) .READER o) : N.registers subscriptions = true := by
  have hnodup := readerModule_nodup configuration allowedEvents customStrategy subscriptions
  have hreads := reader_reads configuration allowedEvents customStrategy subscriptions
  obtain ⟨c, hc, hsub, hinjects⟩ : ∃ c : Injectable,
      (.READER, .useClass c) ∈ (Wired.readerModule configuration allowedEvents customStrategy
        subscriptions).providers ∧
      (.SUBSCRIPTIONS, .useValue subscriptions) ∈ (Wired.readerModule configuration allowedEvents
        customStrategy subscriptions).providers ∧ .SUBSCRIPTIONS ∈ c.injects := by
    cases hv : versionOf configuration.source <;> rw [hv] at hreads
    · exact ⟨_, hreads.1, hreads.2.1, by simp [Injectable.injects]⟩
    · exact ⟨_, hreads.1, hreads.2, by simp [Injectable.injects]⟩
  obtain ⟨a, ha⟩ := h.dependency (find_provided hnodup hc rfl) hinjects
  by_contra hreg
  have hown : Module.own N.registers (Wired.readerModule configuration allowedEvents customStrategy
      subscriptions) .SUBSCRIPTIONS = none := by
    apply Module.own_eq_none
    intro p hp
    cases List.inj_on_of_nodup_map hnodup hp hsub rfl
    simpa [Provider.registered] using hreg
  have hnone : N.find app (Wired.readerModule configuration allowedEvents customStrategy
      subscriptions) .SUBSCRIPTIONS = none := by
    apply Container.find_eq_none
    rw [sees_in_reader allowedEvents subscriptions hlog hown, offers_driver,
      if_neg (not_mem_driverProviders (by simp)), offers_safetyNet, offers_logger]
    simp
  obtain ⟨name, hname⟩ := hN.supplies _ (Container.supplies_of_builds hnone ha)
  cases hname

theorem mem_application {m : DynamicModule} :
    m ∈ (Wired.application configuration allowedEvents customStrategy subscriptions).modules ↔
      m = Wired.application configuration allowedEvents customStrategy subscriptions ∨
        m = Wired.readerModule configuration allowedEvents customStrategy subscriptions ∨
        m = DriverModule.get configuration customStrategy ∨
        m = SafetyNetModule.use customStrategy ∨
        m = LoggerModule.forRoot configuration.showDebugLogs := by
  simp [Wired.application, EventstoreInterconnectModule.dynamicModule, Wired.readerModule,
    ReaderModule.dynamicModule, DriverModule.get, SafetyNetModule.use, LoggerModule.forRoot,
    Module.modules, Module.modulesOf]

theorem application_starts_iff (hN : NestLike N) :
    N.Starts Injectable.injects
        (Wired.application configuration allowedEvents customStrategy subscriptions) ↔
      N.registers subscriptions = true ∧ LogsOnly N customStrategy := by
  have hlog := application_logs configuration allowedEvents customStrategy subscriptions
  constructor
  · intro h
    constructor
    · have hreads := reader_reads configuration allowedEvents customStrategy subscriptions
      obtain ⟨c, hc⟩ : ∃ c : Injectable, (.READER, .useClass c) ∈ (Wired.readerModule configuration
          allowedEvents customStrategy subscriptions).providers := by
        cases hv : versionOf configuration.source <;> rw [hv] at hreads <;> exact ⟨_, hreads.1⟩
      obtain ⟨o, ho⟩ := h _ ((mem_application _ _).mpr (.inr (.inl rfl))) _ hc
      exact registers_of_builds allowedEvents subscriptions hN hlog ho
    · obtain ⟨o, ho⟩ := h _ ((mem_application _ _).mpr (.inr (.inr (.inr (.inl rfl)))))
        (.SAFETY_NET, .useClass (SafetyNetModule.strategy customStrategy))
        (by simp [SafetyNetModule.use])
      exact logsOnly_of_builds hlog ho
  · rintro ⟨hsubs, hasks⟩ m hm b hb
    rcases (mem_application _ _).mp hm with rfl | rfl | rfl | rfl | rfl
    · cases hb
    · exact reader_builds_all allowedEvents subscriptions hN hlog hasks hsubs b hb
    · exact driver_builds_all hN hlog hasks b hb
    · cases List.mem_singleton.mp hb
      exact ⟨_, builds_net hN hlog hasks⟩
    · cases List.mem_singleton.mp hb
      have hfind : N.find (Wired.application configuration allowedEvents customStrategy
          subscriptions) (LoggerModule.forRoot configuration.showDebugLogs) .LOGGER = _ :=
        find_provided (by simp [LoggerModule.forRoot]) (List.mem_singleton_self _) rfl
      exact ⟨_, builds_logger hfind⟩

end

theorem logsOnly_iff {N : Container ModuleName Token Value Injectable}
    {customStrategy : Option (List Token)} :
    LogsOnly N customStrategy ↔ ∀ asksFor, customStrategy = some asksFor →
      ∀ t ∈ asksFor, t = .LOGGER ∨ N.supplies t = true := by
  cases customStrategy with
  | none => simp [LogsOnly, SafetyNetModule.strategy, Injectable.injects]
  | some asksFor => simp [LogsOnly, SafetyNetModule.strategy, Injectable.injects]

/-- For every configuration, list of allowed events and custom safety net, in every container that
gives a class what its module provides or imports, or what the container itself has: the
interconnection is put together and all its classes are built exactly if the subscriptions of the
version of the source are configured, and the custom safety net, if there is one, asks for nothing
but the logger and what the container has. -/
theorem interconnection_starts_iff (N : Container ModuleName Token Value Injectable)
    (hN : NestLike N) (configuration : InterconnectionConfiguration)
    (allowedEvents : Option AllowedEvents) (customStrategy : Option (List Token)) :
    (∃ app, EventstoreInterconnectModule.connectToSrcAndDest configuration allowedEvents
        customStrategy = .ok app ∧ N.Starts Injectable.injects app) ↔
      (∃ subscriptions, subscriptionsOf configuration = some subscriptions ∧
        N.registers subscriptions = true) ∧
      ∀ asksFor, customStrategy = some asksFor →
        ∀ t ∈ asksFor, t = .LOGGER ∨ N.supplies t = true := by
  rw [← logsOnly_iff]
  constructor
  · rintro ⟨app, happ, hstarts⟩
    obtain ⟨subscriptions, hsubs, rfl⟩ := connectToSrcAndDest_ok.mp happ
    obtain ⟨hreg, hasks⟩ := (application_starts_iff _ _ hN).mp hstarts
    exact ⟨⟨subscriptions, hsubs, hreg⟩, hasks⟩
  · rintro ⟨⟨subscriptions, hsubs, hreg⟩, hasks⟩
    exact ⟨_, connectToSrcAndDest_ok.mpr ⟨subscriptions, hsubs, rfl⟩,
      (application_starts_iff _ _ hN).mpr ⟨hreg, hasks⟩⟩

def legacyToNext : InterconnectionConfiguration where
  source := {
    credentials := ⟨"admin", "changeit"⟩
    tcp := some ⟨"localhost", 1113⟩
    tcpConnectionName := none
    http := some ⟨"http://localhost", 2113⟩
    connectionString := none }
  destination := {
    credentials := ⟨"admin", "changeit"⟩
    tcp := none
    tcpConnectionName := none
    http := none
    connectionString := some "esdb://localhost:22113?tls=false" }
  eventStoreSubsystems := none
  eventStoreBusConfig := some ⟨some ⟨some []⟩⟩
  showDebugLogs := some false

def exampleContainer : Container ModuleName Token Value Injectable :=
  .first
    (fun
      | .undefined => false
      | _ => true)
    fun t => t == .other "ModuleRef" || t == .other "Reflector"

theorem exampleContainer_nestLike : NestLike exampleContainer where
  registers v hv := by
    cases v with
    | undefined => exact absurd rfl hv
    | _ => rfl
  supplies t ht := by
    simp only [exampleContainer, Container.first, Bool.or_eq_true, beq_iff_eq] at ht
    rcases ht with rfl | rfl <;> exact ⟨_, rfl⟩

theorem legacy_to_next_starts :
    ∃ app, EventstoreInterconnectModule.connectToSrcAndDest legacyToNext none
        (some [.LOGGER, .other "Reflector"]) = .ok app ∧
      exampleContainer.Starts Injectable.injects app := by
  have hstarts := interconnection_starts_iff exampleContainer exampleContainer_nestLike
    legacyToNext none (some [.LOGGER, .other "Reflector"])
  refine hstarts.mpr ⟨⟨_, rfl, rfl⟩, fun asksFor hasks t ht => ?_⟩
  cases hasks
  rcases List.mem_cons.mp ht with rfl | ht
  · exact Or.inl rfl
  · rw [List.mem_singleton.mp ht]
    exact Or.inr rfl

/-- In every interconnection that starts, the reader is the one for the version of the source, and
all that it consists of has the source's connection and the source's subscriptions, but for its
handler's driver: that is for the version of the destination, with the destination's connection and
credentials. Validator and driver are given one safety net: their modules find one provider. -/
theorem reader_is_wired (N : Container ModuleName Token Value Injectable)
    (hN : NestLike N) (configuration : InterconnectionConfiguration)
    (allowedEvents : Option AllowedEvents) (customStrategy : Option (List Token))
    {app : DynamicModule}
    (happ : EventstoreInterconnectModule.connectToSrcAndDest configuration allowedEvents
      customStrategy = .ok app) (hstarts : N.Starts Injectable.injects app) :
    ∃ subscriptions, subscriptionsOf configuration = some subscriptions ∧
      (∀ m ∈ app.modules,
        (m.module = .ReaderModule → ∀ o, N.Builds Injectable.injects app m .READER o ↔
          o = Wired.reader configuration allowedEvents customStrategy subscriptions) ∧
        (m.module = .DriverModule → ∀ o, N.Builds Injectable.injects app m .DRIVER o ↔
          o = Wired.driver (Wired.logger configuration)
            (Wired.safetyNet (Wired.logger configuration) customStrategy)
            configuration.destination)) ∧
      ∀ m ∈ app.modules, m.module = .ReaderModule ∨ m.module = .DriverModule →
        N.find app m .SAFETY_NET = some (SafetyNetModule.use customStrategy,
          .useClass (SafetyNetModule.strategy customStrategy)) := by
  obtain ⟨subscriptions, hsubs, rfl⟩ := connectToSrcAndDest_ok.mp happ
  obtain ⟨hreg, hasks⟩ := (application_starts_iff _ _ hN).mp hstarts
  have hlog := application_logs configuration allowedEvents customStrategy subscriptions
  refine ⟨subscriptions, hsubs, fun m hm => ?_, fun m hm hname => ?_⟩
  · rcases (mem_application _ _).mp hm with rfl | rfl | rfl | rfl | rfl
    · exact ⟨nofun, nofun⟩
    · have hreader := builds_reader allowedEvents subscriptions hN hlog hasks hreg
      exact ⟨fun _ o => ⟨fun ho => ho.functional hreader, fun ho => ho ▸ hreader⟩, nofun⟩
    · have hdriver := builds_driver hN hlog hasks
      exact ⟨nofun, fun _ o => ⟨fun ho => ho.functional hdriver, fun ho => ho ▸ hdriver⟩⟩
    · exact ⟨nofun, nofun⟩
    · exact ⟨nofun, nofun⟩
  · rcases (mem_application _ _).mp hm with rfl | rfl | rfl | rfl | rfl
    · rcases hname with h | h <;> cases h
    · exact find_net_in_reader allowedEvents subscriptions hlog
    · exact find_net_in_driver hlog
    · rcases hname with h | h <;> cases h
    · rcases hname with h | h <;> cases h

theorem legacy_to_next_is_wired :
    ∃ app, EventstoreInterconnectModule.connectToSrcAndDest legacyToNext none none = .ok app ∧
      (∀ m ∈ app.modules, m.module = .ReaderModule →
        ∀ o, exampleContainer.Builds Injectable.injects app m .READER o ↔
          o = Wired.reader legacyToNext none none (.busSubscriptions [])) ∧
      ∀ m ∈ app.modules, m.module = .ReaderModule ∨ m.module = .DriverModule →
        exampleContainer.find app m .SAFETY_NET =
          some (SafetyNetModule.use none, .useClass .DefaultSafetyNetService) := by
  have happ : EventstoreInterconnectModule.connectToSrcAndDest legacyToNext none none =
      .ok (Wired.application legacyToNext none none (.busSubscriptions [])) :=
    connectToSrcAndDest_ok.mpr ⟨_, rfl, rfl⟩
  have hstarts : exampleContainer.Starts Injectable.injects
      (Wired.application legacyToNext none none (.busSubscriptions [])) :=
    (application_starts_iff none (.busSubscriptions []) exampleContainer_nestLike).mpr
      ⟨rfl, logsOnly_iff.mpr nofun⟩
  obtain ⟨_, hsubs, h, hnet⟩ := reader_is_wired exampleContainer exampleContainer_nestLike
    legacyToNext none none happ hstarts
  cases hsubs
  exact ⟨_, happ, fun m hm => (h m hm).1, hnet⟩

end Interconnect
