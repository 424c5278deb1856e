import Interconnect.Lib.Plan
import Interconnect.Model.Event
import Interconnect.Model.StartUp

/-! What `onModuleInit` of the readers and of the drivers asks of its clients: it connects, has the
connection tested, and, for a reader, upserts its subscriptions. The timers that the guards arm
meanwhile are not here. -/

namespace Interconnect

open Sessions JsValue

variable {σ : Type}

structure ProtocolConf where
  host : String
  port : ℤ

structure Credentials where
  username : String
  password : String

structure ConnectionConfiguration where
  credentials : Credentials
  tcp : Option ProtocolConf
  tcpConnectionName : Option String
  http : Option ProtocolConf
  connectionString : Option String

def isLegacyConf (configuration : ConnectionConfiguration) : Bool :=
  match configuration.connectionString with
  | none => true
  | some text => text == ""

def versionOf (configuration : ConnectionConfiguration) : Version :=
  if isLegacyConf configuration then .legacy else .next

/-- A failure as a text; `null` is taken for `undefined`. -/
def Failure.text : Failure → String
  | nullish => "undefined"
  | error _ message => message

def NoLegacyConnectionError (message : String) (tcpEndPoint : ProtocolConf) : Rejection :=
  .error ("Connection to TCP eventstore failed while trying to connect to " ++ tcpEndPoint.host ++
    ":" ++ toString tcpEndPoint.port ++ ". Details: " ++ message)

/-! ### Legacy -/

inductive LegacyInitCall
  | httpClient (hostname : String) (port : ℤ) (credentials : Credentials)
  | checkStreamExists (stream : String)
  | createConnection (settings : Props) (tcpEndPoint : ProtocolConf) (name : String)
  | connect
  | getStreamMetadataRaw (stream : String) (credentials : Credentials)
  | subscription (k : LegacyCall)

/-- `host.replace(/^https?:\/\//, '')` -/
def withoutProtocol (host : String) : String :=
  if "https://".toList.isPrefixOf host.toList then .ofList (host.toList.drop 8)
  else if "http://".toList.isPrefixOf host.toList then .ofList (host.toList.drop 7)
  else host

def INTERCONNECTION_CONNECTION_DEFAULT_NAME : String := "interco-module-connection"

namespace StartUp

section

variable (C : Client σ LegacyInitCall Failure) (configuration : ConnectionConfiguration)

namespace HttpClientConnectionInitializerService

def checkLegacyConnectionStatus (tcpEndPoint : ProtocolConf) :
    Program σ LegacyInitCall Failure Rejection :=
  (Program.call C (.checkStreamExists "$all")).catching fun errMessage =>
    .throw (NoLegacyConnectionError errMessage.text tcpEndPoint)

def init : Program σ LegacyInitCall Failure Rejection :=
  match configuration.tcp, configuration.http with
  -- `this.configuration.tcp.host` or `this.configuration.http.host` throws
  | none, _ => .throw .typeError
  | some _, none => .throw .typeError
  | some tcpEndPoint, some http =>
    (awaitCall C (.httpClient (withoutProtocol http.host) http.port configuration.credentials)).andThen
      (checkLegacyConnectionStatus C tcpEndPoint)

end HttpClientConnectionInitializerService

def LegacyConnectionGuardService.startConnectionLinkPinger :
    Program σ LegacyInitCall Failure Rejection :=
  awaitCall C (.getStreamMetadataRaw "$all" configuration.credentials)

namespace TCPEventStoreConnectionInitializerService

def esConnectionConf : Props :=
  (((((((((Props.empty.set "maxQueueSize" (.num 100000)).set "maxRetries" (.num 10000)).set
    "operationTimeout" (.num 5000)).set "operationTimeoutCheckPeriod" (.num 1000)).set
    "clientConnectionTimeout" (.num 2000)).set "failOnNoServerResponse" (.bool true)).set
    "maxReconnections" (.num 200)).set "reconnectionDelay" (.num 10000)).set
    "heartbeatInterval" (.num 10000)).set "heartbeatTimeout" (.num 3000)

/-- `nanoid` is `nanoid(11)`. -/
def connectionName (nanoid : String) : String :=
  configuration.tcpConnectionName.getD (INTERCONNECTION_CONNECTION_DEFAULT_NAME ++ "-" ++ nanoid)

def init (nanoid : String) : Program σ LegacyInitCall Failure Rejection :=
  match configuration.tcp with
  | none => .throw .typeError
  | some tcpEndPoint =>
    (awaitCall C (.createConnection esConnectionConf tcpEndPoint
      (connectionName configuration nanoid))).andThen
    ((awaitCall C .connect).andThen
      (LegacyConnectionGuardService.startConnectionLinkPinger C configuration))

end TCPEventStoreConnectionInitializerService

def HttpReaderService.onModuleInit (nanoid : String)
    (subscriptions : Option (List IEventStorePersistentSubscriptionConfig)) :
    Program σ LegacyInitCall Failure Rejection :=
  (HttpClientConnectionInitializerService.init C configuration).andThen
    ((TCPEventStoreConnectionInitializerService.init C configuration nanoid).andThen
      ((Interconnect.HttpReaderService.upsertPersistantSubscriptions (C.through .subscription)
        subscriptions).through .subscription))

def HttpDriverService.onModuleInit (nanoid : String) : Program σ LegacyInitCall Failure Rejection :=
  TCPEventStoreConnectionInitializerService.init C configuration nanoid

end

end StartUp

/-! ### gRPC -/

inductive GrpcInitCall
  | connectionString (text : Option String)
  | listAllPersistentSubscriptions
  | subscription (k : GrpcCall)

namespace StartUp

section

variable (C : Client σ GrpcInitCall Failure) (unavailable : Failure → Bool)

/-- `unavailable` tells an `UnavailableError`. -/
def NextConnectionGuardService.testConnection (tryCount : ℕ) :
    Program σ GrpcInitCall Failure Rejection :=
  (Program.call C .listAllPersistentSubscriptions).catching fun error =>
    if _h : unavailable error = true ∧ tryCount < 10 then testConnection (tryCount + 1)
    else .throw error.rejection
termination_by 10 - tryCount

def NextConnectionGuardService.startConnectionLinkPinger : Program σ GrpcInitCall Failure Rejection :=
  NextConnectionGuardService.testConnection C unavailable 0

variable (configuration : ConnectionConfiguration)

def GrpcConnectionInitializerService.init : Program σ GrpcInitCall Failure Rejection :=
  (awaitCall C (.connectionString configuration.connectionString)).andThen
    (NextConnectionGuardService.startConnectionLinkPinger C unavailable)

namespace GrpcReaderService

def startEventstoreClient : Program σ GrpcInitCall Failure Rejection :=
  NextConnectionGuardService.startConnectionLinkPinger C unavailable

def onModuleInit (defaults : Props) (subscriptions : Option (List IPersistentSubscriptionConfig)) :
    Program σ GrpcInitCall Failure Rejection :=
  (GrpcConnectionInitializerService.init C unavailable configuration).andThen
    ((startEventstoreClient C unavailable).andThen
      ((Interconnect.GrpcReaderService.subscribeToPersistentSubscriptions (C.through .subscription)
        defaults subscriptions).through .subscription))

end GrpcReaderService

def GrpcDriverService.onModuleInit : Program σ GrpcInitCall Failure Rejection :=
  GrpcConnectionInitializerService.init C unavailable configuration

end

end StartUp

end Interconnect
