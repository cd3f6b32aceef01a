import Lumen.Bytes
import Lumen.Header
import Lumen.Feedback
import Lumen.Division
import Lumen.Packet
import Lumen.Checksum
import Lumen.Machine
import Lumen.Unwinding
import Lumen.Firsts
import Lumen.Framing
import Lumen.Message
import Lumen.Reliability
import Lumen.Protocol
import Lumen.Reception
import Lumen.Reassembly
import Lumen.SentTable
import Lumen.Backoff
import Lumen.Gaps
import Lumen.Manager
import Lumen.Answers
import Lumen.AckDelivery
import Lumen.AckDiscipline
import Lumen.NakRate
import Lumen.Peers
import Lumen.Exchange
import Lumen.Transfer
import Lumen.Text
import Lumen.Isolation
import Lumen.Delivery
import Lumen.Session
import Lumen.BaseStation
import Lumen.BaseSession
import Lumen.Rover
import Lumen.RoverSession
import Lumen.BaseReplies
import Lumen.RoverReplies
import Lumen.Handover
import Lumen.StoreForward
import Lumen.Disconnect
import Lumen.LowPower
import Lumen.Steering
import Lumen.Retention
import Lumen.Handshake
import Lumen.Round
import Lumen.RoundPhases
import Lumen.RoundOutcome
import Lumen.Proactor
import Lumen.Traffic
import Lumen.Transport
import Lumen.Fleet
import Lumen.Frame
import Lumen.Lifecycle
import Lumen.Quiescence
import Lumen.Movement
import Lumen.Authorship
import Lumen.Discovery
import Lumen.Stack
import Lumen.Unopened
import Lumen.Datagram
import Lumen.Wire
import Lumen.Progress
import Lumen.Application
