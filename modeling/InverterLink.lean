import InverterLink.Backoff
import InverterLink.Broker.Basic
import InverterLink.Broker.Session
import InverterLink.Cache
import InverterLink.Command
import InverterLink.Connection.Builder
import InverterLink.Connection.Call
import InverterLink.Connection.Query
import InverterLink.Connection.Receiver
import InverterLink.Connection.State
import InverterLink.Connection.Step
import InverterLink.Connection.Tasks
import InverterLink.Crc
import InverterLink.Datagram
import InverterLink.Duration
import InverterLink.Fault
import InverterLink.Frame.Builder
import InverterLink.Frame.Decoder
import InverterLink.Frame.Mark
import InverterLink.Identifier
import InverterLink.InverterState
import InverterLink.Json.Numeral
import InverterLink.Json.Reader
import InverterLink.Json.Record
import InverterLink.Json.Token
import InverterLink.Json.Value
import InverterLink.Json.Writer
import InverterLink.LinkError
import InverterLink.Number.Binary64
import InverterLink.Number.Decimal
import InverterLink.Number.Seconds
import InverterLink.Proofs.BestEffort
import InverterLink.Proofs.BitFlips
import InverterLink.Proofs.BrokerHistory
import InverterLink.Proofs.BrokerMoves
import InverterLink.Proofs.CacheCurrency
import InverterLink.Proofs.CacheHistory
import InverterLink.Proofs.CallSteps
import InverterLink.Proofs.Cancellation
import InverterLink.Proofs.CheckedReading
import InverterLink.Proofs.Checksum
import InverterLink.Proofs.ConnectionMoves
import InverterLink.Proofs.ConnectionSteps
import InverterLink.Proofs.ConnectionTraffic
import InverterLink.Proofs.ConnectionVisits
import InverterLink.Proofs.Corruption
import InverterLink.Proofs.DecoderInputs
import InverterLink.Proofs.DecoderRuns
import InverterLink.Proofs.DelayFaults
import InverterLink.Proofs.Delays
import InverterLink.Proofs.Effort
import InverterLink.Proofs.ErrorDetection
import InverterLink.Proofs.EscapedForm
import InverterLink.Proofs.EventSources
import InverterLink.Proofs.FailureReports
import InverterLink.Proofs.FrameBoundaries
import InverterLink.Proofs.FrameLedger
import InverterLink.Proofs.FrameText
import InverterLink.Proofs.LazyReading
import InverterLink.Proofs.LoopEnd
import InverterLink.Proofs.Membership
import InverterLink.Proofs.PayloadLimits
import InverterLink.Proofs.QueryAnswers
import InverterLink.Proofs.QueryTraffic
import InverterLink.Proofs.ReceiverMoves
import InverterLink.Proofs.RedialPace
import InverterLink.Proofs.RedundantMarks
import InverterLink.Proofs.RegistrationOrder
import InverterLink.Proofs.RetrySeries
import InverterLink.Proofs.Rounding
import InverterLink.Proofs.Shutdown
import InverterLink.Proofs.Runs
import InverterLink.Proofs.SocketLifecycle
import InverterLink.Proofs.SocketStreams
import InverterLink.Proofs.SocketWrites
import InverterLink.Proofs.StreamRoundTrip
import InverterLink.Proofs.Subscribers
import InverterLink.Proofs.Syndrome
import InverterLink.Proofs.WireGrammar
import InverterLink.Rehearsal.Device
import InverterLink.Rehearsal.Fanout
import InverterLink.Rehearsal.Scenario
import InverterLink.Rehearsal.Series
import InverterLink.Rehearsal.Stage
import InverterLink.Retry
import InverterLink.Run
import InverterLink.Settings
import InverterLink.Settings.Json
import InverterLink.Tcp
import InverterLink.Text.Hex
import InverterLink.Text.Printable
import InverterLink.Text.Record
