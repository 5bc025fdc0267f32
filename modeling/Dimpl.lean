import Dimpl.Lib.Program
import Dimpl.Dtls13.Engine.Authenticity
import Dimpl.Error
import Dimpl.Window
import Dimpl.Config
import Dimpl.Dtls12.Engine.Assertions
import Dimpl.Dtls12.Client
import Dimpl.Dtls12.Server
import Dimpl.Dtls12.Engine.Phase
import Dimpl.Dtls12.ClientInv
import Dimpl.Dtls12.ServerInv
import Dimpl.Dtls13.Endpoint
import Dimpl.Dtls13.Client
import Dimpl.Dtls13.Server
import Dimpl.Dtls13.Engine.Frame
import Dimpl.Dtls13.EndpointRun
import Dimpl.Dtls13.Authentication
import Dimpl.Dtls13.ServerInv
import Dimpl.Dtls13.ClientRun
import Dimpl.Dtls13.ClientInv
import Dimpl.Deadline
import Dimpl.Dtls13.Exchange
import Dimpl.HandshakeDeadline
import Dimpl.PeerAuthentication
import Dimpl.Auto
import Dimpl.AutoSafety
import Dimpl.Dtls13.Engine.Scope
import Dimpl.Dtls13.Engine.Faults
import Dimpl.Dtls12.Engine.Faults
import Dimpl.Dtls13.Engine.Discard
import Dimpl.Dtls12.Engine.Discard
import Dimpl.DiscardedDatagram
import Dimpl.Lib.Backlog
import Dimpl.Drain
import Dimpl.Dtls13.Engine.Drain
import Dimpl.Dtls12.Engine.Drain
import Dimpl.EndpointDrain
import Dimpl.ReceiveQueue
import Dimpl.Dtls13.Conduct
import Dimpl.Dtls12.Conduct
import Dimpl.Dtls13.Engine.Timers
import Dimpl.Dtls13.Engine.Wakeup
import Dimpl.Dtls13.Timing
import Dimpl.TimerLivelock
import Dimpl.Dtls12.Engine.Timers
import Dimpl.Dtls12.Timing
import Dimpl.Retransmission
import Dimpl.Dtls12.Engine.Posture
import Dimpl.CookieExchange
import Dimpl.Lib.Packing
import Dimpl.Dtls13.Engine.Outbox
import Dimpl.Dtls13.Engine.Capacity
import Dimpl.Dtls13.Sizes
import Dimpl.Dtls13.Ready
import Dimpl.Dtls13.FlightCapacity
import Dimpl.Dtls13.ServerCapacity
import Dimpl.FlightOverflow
import Dimpl.Dtls12.Engine.Replay
import Dimpl.Dtls13.Debt
import Dimpl.Dtls13.Answer
import Dimpl.KeyUpdateAnswer
import Dimpl.Lib.Rounds
import Dimpl.Lib.WireList
import Dimpl.Offer
import Dimpl.Dtls12.Terms
import Dimpl.Dtls12.Selection
import Dimpl.Dtls13.Terms
import Dimpl.Dtls13.Selection
import Dimpl.OfferedOnly
import Dimpl.Policy
import Dimpl.Dtls12.Policy
import Dimpl.Dtls13.Policy
import Dimpl.LocalPolicy
import Dimpl.Dtls12.ServerPolicy
import Dimpl.AutoInstance
import Dimpl.AutoRun
import Dimpl.AutoDeadline
import Dimpl.VersionDetection
import Dimpl.Lib.Marking
import Dimpl.Dtls13.Engine.Reassembly
import Dimpl.Dtls12.Engine.Reassembly
import Dimpl.Consumption
import Dimpl.Lib.Pieces
import Dimpl.Dtls13.Engine.Soundness
import Dimpl.Reassembly
import Dimpl.Lib.Arrangement
import Dimpl.Dtls13.Engine.Completeness
import Dimpl.Dtls12.Engine.Completeness
import Dimpl.Lib.Outputs
import Dimpl.Dtls13.Engine.Ledger
import Dimpl.Dtls13.Silence
import Dimpl.Dtls12.Silence
import Dimpl.Silence
import Dimpl.Dtls13.Retry
import Dimpl.HelloRetry
import Dimpl.Lib.Counter
import Dimpl.Dtls13.Engine.Counters
import Dimpl.Dtls12.Engine.Counters
import Dimpl.HandshakeCounters
import Dimpl.CloseNotify
import Dimpl.KeyDerivation
import Dimpl.Lib.Blocks
import Dimpl.Dtls13.Engine.Epochs
import Dimpl.ReceiveEpochs
import Dimpl.Dtls13.Engine.Protection
import Dimpl.RecordProtection
import Dimpl.Dtls12.Engine.Protection
import Dimpl.WholeData
import Dimpl.Dtls13.Engine.Sealing
import Dimpl.Dtls13.Engine.Acks
import Dimpl.Dtls13.Engine.Plaintext
import Dimpl.AckProcessing
import Dimpl.Backoff
import Dimpl.Builder
import Dimpl.GroupPreference
import Dimpl.Dtls13.Engine.Metered
import Dimpl.Dtls13.Rekeying
import Dimpl.AeadLimit
import Dimpl.Lib.Format
import Dimpl.Wire.Fields
import Dimpl.Wire.Blocks
import Dimpl.Wire.Messages
import Dimpl.Wire.Srtp
import Dimpl.Dtls13.Codec
import Dimpl.Dtls13.RoundTrip
import Dimpl.Dtls12.Codec
import Dimpl.Dtls12.RoundTrip
import Dimpl.Lib.Exact
import Dimpl.Dtls13.Bodies
import Dimpl.Dtls12.Bodies
import Dimpl.MessageEnds
import Dimpl.Dtls13.Engine.Numbers
import Dimpl.Dtls13.Engine.Scans
import Dimpl.ReceivedRecords
import Dimpl.QueueScans
import Dimpl.Lib.Repetition
import Dimpl.ListParsers
import Dimpl.Lib.Insertion
import Dimpl.Wire.Unique
import Dimpl.Wire.Insertion
import Dimpl.Dtls13.Insertion
import Dimpl.Dtls12.Insertion
import Dimpl.UnknownElements
import Dimpl.Dtls13.Numbering
import Dimpl.NonceUniqueness
import Dimpl.Lib.Cutting
import Dimpl.Dtls13.Engine.Fragmentation
import Dimpl.Dtls13.Engine.Transfer
import Dimpl.MessageTransfer
import Dimpl.Dtls12.Gating
import Dimpl.PskGating
import Dimpl.ConnectionTimers
import Dimpl.Dtls13.Engine.Channel
import Dimpl.Lib.Delivery
import Dimpl.Dtls13.Engine.Arrival
import Dimpl.DataDelivery
