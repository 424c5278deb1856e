import Interconnect.Lib.Container
import Interconnect.Model.Connecting
import Interconnect.Model.Validator

/-! The modules: which class stands behind each token on the side of the source and on that of the
destination, by the configuration, and what each class asks for. -/

namespace Interconnect

open Containers

structure Subscriptions (α : Type) where
  persistent : Option (List α)

structure IEventStoreSubsystems where
  subscriptions : Option (Subscriptions IPersistentSubscriptionConfig)

structure IEventStoreBusConfig where
  subscriptions : Option (Subscriptions IEventStorePersistentSubscriptionConfig)

structure InterconnectionConfiguration where
  source : ConnectionConfiguration
  destination : ConnectionConfiguration
  eventStoreSubsystems : Option IEventStoreSubsystems
  eventStoreBusConfig : Option IEventStoreBusConfig
  showDebugLogs : Option Bool

/-- What classes ask for; `other` is a token of no module here, such as `ModuleRef`. -/
inductive Token
  | CREDENTIALS
  | ALLOWED_EVENTS
  | CONNECTION_CONFIGURATION
  | EVENTSTORE_DB_CLIENT
  | READER
  | SUBSCRIPTIONS
  | VALIDATOR
  | FORMATTER
  | EVENT_HANDLER
  | DRIVER
  | SAFETY_NET
  | LOGGER
  | TCP_EVENTSTORE_CLIENT_CONNECTION_INITIALIZER
  | HTTP_CLIENT_CONNECTION_INITIALIZER
  | GRPC_CONNECTION_INITIALIZER
  | EVENTSTORE_CONNECTION_GUARD
  | other (name : String)
  deriving DecidableEq

inductive Value
  | undefined
  | connectionConfiguration (configuration : ConnectionConfiguration)
  | credentials (credentials : Credentials)
  | busSubscriptions (subscriptions : List IEventStorePersistentSubscriptionConfig)
  | subsystemSubscriptions (subscriptions : List IPersistentSubscriptionConfig)
  | allowedEvents (allowed : AllowedEvents)
  | eventStoreDBClient

def Value.ofOption {α : Type} (f : α → Value) : Option α → Value
  | none => undefined
  | some x => f x

/-- The classes; a custom safety net is known by what its constructor asks for. -/
inductive Injectable
  | HttpReaderService
  | GrpcReaderService
  | HttpDriverService
  | GrpcDriverService
  | LegacyEventsValidatorService
  | NextEventsValidatorService
  | LegacyEventFormatterService
  | NextEventFormatterService
  | EventHandlerService
  | TCPEventStoreConnectionInitializerService
  | HttpClientConnectionInitializerService
  | GrpcConnectionInitializerService
  | LegacyConnectionGuardService
  | NextConnectionGuardService
  | Logger
  | NoDebugLoggerService
  | DefaultSafetyNetService
  | customSafetyNet (asksFor : List Token)

namespace Injectable

def injects : Injectable → List Token
  | HttpReaderService => [.CONNECTION_CONFIGURATION, .SUBSCRIPTIONS, .EVENT_HANDLER,
      .HTTP_CLIENT_CONNECTION_INITIALIZER, .TCP_EVENTSTORE_CLIENT_CONNECTION_INITIALIZER, .LOGGER]
  | GrpcReaderService => [.CONNECTION_CONFIGURATION, .EVENT_HANDLER, .SUBSCRIPTIONS,
      .EVENTSTORE_DB_CLIENT, .GRPC_CONNECTION_INITIALIZER, .EVENTSTORE_CONNECTION_GUARD, .LOGGER]
  | HttpDriverService => [.CONNECTION_CONFIGURATION, .TCP_EVENTSTORE_CLIENT_CONNECTION_INITIALIZER,
      .CREDENTIALS, .SAFETY_NET, .LOGGER]
  | GrpcDriverService => [.CONNECTION_CONFIGURATION, .GRPC_CONNECTION_INITIALIZER, .CREDENTIALS,
      .SAFETY_NET, .LOGGER]
  | LegacyEventsValidatorService | NextEventsValidatorService => [.ALLOWED_EVENTS, .SAFETY_NET]
  | LegacyEventFormatterService | NextEventFormatterService => []
  | EventHandlerService => [.VALIDATOR, .FORMATTER, .DRIVER]
  | TCPEventStoreConnectionInitializerService =>
    [.CONNECTION_CONFIGURATION, .EVENTSTORE_CONNECTION_GUARD, .LOGGER]
  | HttpClientConnectionInitializerService => [.CONNECTION_CONFIGURATION]
  | GrpcConnectionInitializerService => [.CONNECTION_CONFIGURATION, .EVENTSTORE_CONNECTION_GUARD,
      .EVENTSTORE_DB_CLIENT, .LOGGER]
  | LegacyConnectionGuardService | NextConnectionGuardService => [.LOGGER]
  -- the parameters of this constructor are optional
  | Logger | NoDebugLoggerService => []
  | DefaultSafetyNetService => [.LOGGER]
  | customSafetyNet asksFor => asksFor

end Injectable

inductive ModuleName
  | EventstoreInterconnectModule
  | ReaderModule
  | DriverModule
  | SafetyNetModule
  | LoggerModule
  deriving DecidableEq

abbrev DynamicModule := Module ModuleName Token Value Injectable

abbrev Providers := List (Token × Provider Value Injectable)

/-- `customStrategy ?? DefaultSafetyNetService`; a custom strategy is what its constructor asks
for. -/
def SafetyNetModule.strategy (customStrategy : Option (List Token)) : Injectable :=
  customStrategy.elim .DefaultSafetyNetService .customSafetyNet

def SafetyNetModule.use (customStrategy : Option (List Token)) : DynamicModule where
  module := .SafetyNetModule
  imports := []
  providers := [(.SAFETY_NET, .useClass (strategy customStrategy))]
  exports := [.token .SAFETY_NET]
  global := false

def LoggerModule.logger (showDebugLogs : Option Bool) : Injectable :=
  if showDebugLogs = some true then .Logger else .NoDebugLoggerService

/-- What the module exports, and that it is global, its decorator says. -/
def LoggerModule.forRoot (showDebugLogs : Option Bool) : DynamicModule where
  module := .LoggerModule
  imports := []
  providers := [(.LOGGER, .useClass (logger showDebugLogs))]
  exports := [.token .LOGGER]
  global := true

namespace DriverModule

variable (configuration : InterconnectionConfiguration)

def getNextEventStoreDriver : Providers :=
  [(.CONNECTION_CONFIGURATION, .useValue (.connectionConfiguration configuration.destination)),
    (.DRIVER, .useClass .GrpcDriverService),
    (.CREDENTIALS, .useValue (.credentials configuration.destination.credentials)),
    (.GRPC_CONNECTION_INITIALIZER, .useClass .GrpcConnectionInitializerService),
    (.EVENTSTORE_DB_CLIENT, .useValue .eventStoreDBClient),
    (.EVENTSTORE_CONNECTION_GUARD, .useClass .NextConnectionGuardService)]

def getLegacyEventStoreDriver : Providers :=
  [(.DRIVER, .useClass .HttpDriverService),
    (.CREDENTIALS, .useValue (.credentials configuration.destination.credentials)),
    (.CONNECTION_CONFIGURATION, .useValue (.connectionConfiguration configuration.destination)),
    (.TCP_EVENTSTORE_CLIENT_CONNECTION_INITIALIZER,
      .useClass .TCPEventStoreConnectionInitializerService),
    (.EVENTSTORE_CONNECTION_GUARD, .useClass .LegacyConnectionGuardService)]

def driverProviders : Providers :=
  if isLegacyConf configuration.destination then getLegacyEventStoreDriver configuration
  else getNextEventStoreDriver configuration

/-- A provider among the exports stands for its token. -/
def get (customSafetyNetStrategy : Option (List Token)) : DynamicModule where
  module := .DriverModule
  imports := [SafetyNetModule.use customSafetyNetStrategy]
  providers := driverProviders configuration
  exports := (driverProviders configuration).map (fun p => .token p.1) ++ [.module .SafetyNetModule]
  global := false

end DriverModule

namespace ReaderModule

variable (configuration : InterconnectionConfiguration)

def legacyReaderProviders (subscriptions : Value) : Providers :=
  [(.READER, .useClass .HttpReaderService),
    (.SUBSCRIPTIONS, .useValue subscriptions),
    (.VALIDATOR, .useClass .LegacyEventsValidatorService),
    (.FORMATTER, .useClass .LegacyEventFormatterService),
    (.TCP_EVENTSTORE_CLIENT_CONNECTION_INITIALIZER,
      .useClass .TCPEventStoreConnectionInitializerService),
    (.HTTP_CLIENT_CONNECTION_INITIALIZER, .useClass .HttpClientConnectionInitializerService),
    (.EVENTSTORE_CONNECTION_GUARD, .useClass .LegacyConnectionGuardService)]

def nextReaderProviders (subscriptions : Value) : Providers :=
  [(.CREDENTIALS, .useValue (.credentials configuration.source.credentials)),
    (.READER, .useClass .GrpcReaderService),
    (.EVENTSTORE_DB_CLIENT, .useValue .eventStoreDBClient),
    (.GRPC_CONNECTION_INITIALIZER, .useClass .GrpcConnectionInitializerService),
    (.SUBSCRIPTIONS, .useValue subscriptions),
    (.VALIDATOR, .useClass .NextEventsValidatorService),
    (.FORMATTER, .useClass .NextEventFormatterService),
    (.EVENTSTORE_CONNECTION_GUARD, .useClass .NextConnectionGuardService)]

def getLegacyReaderProviders : Except Rejection Providers :=
  match configuration.eventStoreBusConfig.bind (·.subscriptions) with
  -- reading `subscriptions` or `persistent` throws
  | none => .error .typeError
  | some subscriptions =>
    .ok (legacyReaderProviders (.ofOption .busSubscriptions subscriptions.persistent))

def getNextReaderProviders : Except Rejection Providers :=
  match configuration.eventStoreSubsystems.bind (·.subscriptions) with
  -- reading `subscriptions` or `persistent` throws
  | none => .error .typeError
  | some subscriptions =>
    .ok (nextReaderProviders configuration
      (.ofOption .subsystemSubscriptions subscriptions.persistent))

def providersForReader : Except Rejection Providers :=
  if isLegacyConf configuration.source then getLegacyReaderProviders configuration
  else getNextReaderProviders configuration

variable (allowedEvents : Option AllowedEvents) (customStrategy : Option (List Token))

def dynamicModule (providersForReader : Providers) : DynamicModule where
  module := .ReaderModule
  imports := [DriverModule.get configuration customStrategy]
  exports := [.module .DriverModule]
  providers := providersForReader ++
    [(.ALLOWED_EVENTS, .useValue (.allowedEvents (allowedEvents.getD ⟨[], fun _ _ => none⟩))),
      (.CONNECTION_CONFIGURATION, .useValue (.connectionConfiguration configuration.source)),
      (.EVENT_HANDLER, .useClass .EventHandlerService)]
  global := false

def get : Except Rejection DynamicModule :=
  (providersForReader configuration).map (dynamicModule configuration allowedEvents customStrategy)

end ReaderModule

namespace EventstoreInterconnectModule

def dynamicModule (showDebugLogs : Option Bool) (reader : DynamicModule) : DynamicModule where
  module := .EventstoreInterconnectModule
  imports := [reader, LoggerModule.forRoot showDebugLogs]
  providers := []
  exports := []
  global := false

def connectToSrcAndDest (configuration : InterconnectionConfiguration)
    (allowedEvents : Option AllowedEvents) (customStrategy : Option (List Token)) :
    Except Rejection DynamicModule :=
  (ReaderModule.get configuration allowedEvents customStrategy).map
    (dynamicModule configuration.showDebugLogs)

end EventstoreInterconnectModule

end Interconnect
