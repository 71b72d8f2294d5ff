import DS10Link.Stream.Automaton
import DS10Link.Stream.Scanner
import DS10Link.Stream.Word
import DS10Link.Stream.ShiftRegister
import DS10Link.Stream.Period
import DS10Link.Rules.FirstMatch
import DS10Link.Threads.Interleave
import DS10Link.Driver.FrameCodec
import DS10Link.Driver.FrameScanner
import DS10Link.Driver.RoundTrip
import DS10Link.Driver.Accounting
import DS10Link.Driver.BurstEnd
import DS10Link.Driver.Crc
import DS10Link.Driver.Corruption
import DS10Link.Driver.SerialPort
import DS10Link.Driver.Node
import DS10Link.Driver.Reader
import DS10Link.Driver.Wire
import DS10Link.Relay.Transaction
import DS10Link.Relay.Headers
import DS10Link.Relay.Config
import DS10Link.Relay.RouteMap
import DS10Link.Relay.Routing
import DS10Link.Relay.Node
import DS10Link.Relay.Transition
import DS10Link.Relay.Ledger
import DS10Link.Relay.Retransmission
import DS10Link.Relay.Invisible
import DS10Link.Relay.Forwarding
import DS10Link.Relay.Responder
import DS10Link.Relay.LossyLink
import DS10Link.Relay.Trip
import DS10Link.Relay.Overlap
import DS10Link.Relay.Discipline
import DS10Link.File.FileFrame
import DS10Link.File.Extract
import DS10Link.File.Receiver
import DS10Link.File.Sender
import DS10Link.File.Overflow
import DS10Link.File.Transfer
import DS10Link.Script.TrialCut
import DS10Link.Relay.Master
import DS10Link.Script.ReceiveLoop
import DS10Link.Script.SeqAccount
import DS10Link.Script.SlaveRecv
import DS10Link.Relay.MasterHandshake
import DS10Link.Relay.MasterLink
import DS10Link.Relay.Interactive
import DS10Link.Driver.Star
import DS10Link.Script.MasterRecv
import DS10Link.Script.NumberedFrames
import DS10Link.Script.SoakStar
import DS10Link.Relay.StarRelay
import DS10Link.Relay.Timing
import DS10Link.Relay.TimingOrder
import DS10Link.Relay.RouteAgreement
import DS10Link.Script.Channel
import DS10Link.Script.LatencyProbe
import DS10Link.Script.LatencyPairing
