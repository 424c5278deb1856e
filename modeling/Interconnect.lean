import Interconnect.Lib.Run
import Interconnect.Lib.Pool
import Interconnect.Lib.Journal
import Interconnect.Lib.Session
import Interconnect.Lib.Account
import Interconnect.Lib.Simulation
import Interconnect.Lib.Projection
import Interconnect.Lib.Rank
import Interconnect.Lib.Plan
import Interconnect.Lib.Container
import Interconnect.Js.Value
import Interconnect.Js.ClassTransformer
import Interconnect.Model.Event
import Interconnect.Model.EventData
import Interconnect.Model.Formatter
import Interconnect.Model.Validator
import Interconnect.Model.ValidateCall
import Interconnect.Model.Driver
import Interconnect.Model.Writes
import Interconnect.Model.EventHandler
import Interconnect.Model.Reader
import Interconnect.Model.EventStore
import Interconnect.Model.StartUp
import Interconnect.Model.ConnectionGuard
import Interconnect.Model.ModuleInit
import Interconnect.Model.Interconnection
import Interconnect.Model.Example
import Interconnect.Model.Connecting
import Interconnect.Model.Wiring
import Interconnect.Proofs.History
import Interconnect.Proofs.AllowList
import Interconnect.Proofs.SourceVersions
import Interconnect.Proofs.Hops
import Interconnect.Proofs.Metadata
import Interconnect.Proofs.Reports
import Interconnect.Proofs.Settlement
import Interconnect.Proofs.NoLoss
import Interconnect.Proofs.Order
import Interconnect.Proofs.Redelivery
import Interconnect.Proofs.SafetyNet
import Interconnect.Proofs.Upsert
import Interconnect.Proofs.StartUp
import Interconnect.Proofs.ConnectionGuard
import Interconnect.Proofs.RetryBudget
import Interconnect.Proofs.PingChains
import Interconnect.Proofs.Accounts
import Interconnect.Proofs.Interconnection
import Interconnect.Proofs.Copies
import Interconnect.Proofs.ExactlyOnce
import Interconnect.Proofs.Components
import Interconnect.Proofs.Recovery
import Interconnect.Proofs.Losses
import Interconnect.Proofs.SourceOrder
import Interconnect.Proofs.FailFast
import Interconnect.Proofs.FlowControl
import Interconnect.Proofs.Termination
import Interconnect.Proofs.Heartbeat
import Interconnect.Proofs.Connecting
import Interconnect.Proofs.Wiring
