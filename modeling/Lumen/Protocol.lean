import Lumen.Framing
import Lumen.Machine
import Lumen.Message
import Lumen.Reliability

/-! The protocol layer of one node. Its state holds the reliability manager, the receive
buffers and the sequence counter; what it does to the outside (packets given to the
transport, payloads passed up, timeouts reported) is appended to `effects`, together with
a mark for every packet whose processing starts. The message callback runs last in the
processing of a packet, so what it changes is a later input of the machine. -/
namespace Lumen

open Bytes Endpoint

inductive ProtocolMode where
  | baseStation
  | rover
  deriving DecidableEq, Repr

def ProtocolMode.role : ProtocolMode → Role
  | .baseStation => .baseStation
  | .rover => .rover

/-- Nanoseconds of the steady and of the system clock. -/
structure Clock where
  steady : Nat
  system : Nat
  deriving DecidableEq, Repr

inductive Effect where
  | processing (packet : LumenPacket) (endpoint : Endpoint)
  | transmit (packet : LumenPacket) (recipient : Endpoint)
  | callback (payload : List UInt8) (header : LumenHeader) (endpoint : Endpoint)
  | timeout (recipient : Endpoint)
  deriving DecidableEq, Repr

structure LumenProtocol where
  mode : ProtocolMode
  running : Bool
  sessionActive : Bool
  currentSequence : UInt8
  frameBuffers : String → List UInt8
  reliabilityManager : ReliabilityManager
  messageCallback : Bool
  checkCounter : UInt8
  serverRunning : Bool
  baseEndpoint : Endpoint
  clock : Clock
  effects : List Effect

namespace LumenProtocol

/-- The node before it is started. `baseEndpoint` is the client's registered base and is
not read in base station mode. -/
def new (mode : ProtocolMode) (baseEndpoint : Endpoint) (clock : Clock) : LumenProtocol where
  mode := mode
  running := false
  sessionActive := false
  currentSequence := 0
  frameBuffers := fun _ => []
  reliabilityManager := .new mode.role
  messageCallback := false
  checkCounter := 0
  serverRunning := false
  baseEndpoint := baseEndpoint
  clock := clock
  effects := []

def emit (s : LumenProtocol) (effect : Effect) : LumenProtocol :=
  { s with effects := s.effects ++ [effect] }

/-- `UdpClient::get_base_endpoint`; none is the exception for an unset base. -/
def getBaseEndpoint (s : LumenProtocol) : Option Endpoint :=
  if s.baseEndpoint.isUnspecified then none else some s.baseEndpoint

def start (s : LumenProtocol) : LumenProtocol :=
  if s.running then s else
    { s with
      running := true
      frameBuffers := fun _ => []
      reliabilityManager := s.reliabilityManager.start s.clock.steady }

def stop (s : LumenProtocol) : LumenProtocol :=
  if !s.running then s else
    { s with running := false, reliabilityManager := s.reliabilityManager.stop }

def setSessionActive (s : LumenProtocol) (active : Bool) : LumenProtocol :=
  { s with sessionActive := active }

def generateTimestamp (s : LumenProtocol) : UInt32 :=
  UInt32.ofNat (s.clock.system / nanosPerMilli)

/-- The server drops unsendable recipients and sends nothing once stopped; the client does
not check the registered base, only other recipients. -/
def sendPacket (s : LumenProtocol) (packet : LumenPacket) (recipient : Endpoint) :
    LumenProtocol :=
  match s.mode with
  | .baseStation =>
    if s.serverRunning ∧ recipient.Sendable then s.emit (.transmit packet recipient) else s
  | .rover =>
    if s.getBaseEndpoint = some recipient ∨ recipient.Sendable then
      s.emit (.transmit packet recipient)
    else s

/-- The endpoint a message goes to; none when the function returns or throws before
anything is tracked or sent. -/
def targetEndpoint (s : LumenProtocol) (recipient : Endpoint) : Option Endpoint :=
  match s.mode with
  | .baseStation => if recipient.isUnspecified then none else some recipient
  | .rover => if recipient.isUnspecified then s.getBaseEndpoint else some recipient

/-- The packet built by `send_message` for the current number. -/
def nextPacket (s : LumenProtocol) (payload : List UInt8) (type : MessageType)
    (priority : Priority) : LumenPacket :=
  .new ⟨type,priority,s.currentSequence,s.generateTimestamp,UInt16.ofNat payload.length⟩ payload

def sendMessage (s : LumenProtocol) (payload : List UInt8) (type : MessageType)
    (priority : Priority) (recipient : Endpoint) : LumenProtocol :=
  if !s.running then s else
    let seq := s.currentSequence
    let packet := s.nextPacket payload type priority
    let s := { s with currentSequence := seq + 1 }
    match s.targetEndpoint recipient with
    | none => s
    | some target =>
      let s := if type ≠ .ack ∧ type ≠ .nak then
          { s with
            reliabilityManager :=
              s.reliabilityManager.addSendPacket s.clock.steady seq packet target }
        else s
      s.sendPacket packet target

def resetSequenceNumber (s : LumenProtocol) : LumenProtocol :=
  { s with
    currentSequence := 0
    reliabilityManager := s.reliabilityManager.resetState
    frameBuffers := fun _ => [] }

def sendAck (s : LumenProtocol) (seqToAck : UInt8) (recipient : Endpoint) : LumenProtocol :=
  if s.mode ≠ .baseStation then s else
    let s := { s with
      reliabilityManager := s.reliabilityManager.recordAckedSequence seqToAck recipient }
    let ackPacket := s.nextPacket [seqToAck] .ack .high
    let s := { s with currentSequence := s.currentSequence + 1 }
    s.sendPacket ackPacket recipient

/-- The endpoint argument is unused in the source: every NAK goes to the base. -/
def sendNak (s : LumenProtocol) (seqRequested : UInt8) (_recipient : Endpoint) : LumenProtocol :=
  if s.mode ≠ .rover then s else
    match s.getBaseEndpoint with
    | none => s
    | some base =>
      let nakPacket := s.nextPacket [seqRequested] .nak .high
      let s := { s with currentSequence := s.currentSequence + 1 }
      s.sendPacket nakPacket base

def maxNaksPerCheck : Nat := 3

/-- The loop of `check_sequence_gaps` with the number of NAKs it may still send. -/
def nakLoop (endpoint : Endpoint) : Nat → List UInt8 → LumenProtocol → LumenProtocol
  | _, [], s => s
  | 0, _, s => s
  | budget + 1, missingSeq :: rest, s =>
    if s.reliabilityManager.isRecentlyNaked s.clock.steady missingSeq then
      nakLoop endpoint (budget + 1) rest s
    else
      let s := s.sendNak missingSeq endpoint
      let s := { s with
        reliabilityManager := s.reliabilityManager.recordNakSent s.clock.steady missingSeq }
      nakLoop endpoint budget rest s

def checkSequenceGaps (s : LumenProtocol) (endpoint : Endpoint) : LumenProtocol :=
  nakLoop endpoint maxNaksPerCheck (s.reliabilityManager.getMissingSequences endpoint) s

/-- The base station part of `process_complete_packet`: acknowledge, and say whether the
payload goes up. -/
def acknowledge (s : LumenProtocol) (seq : UInt8) (endpoint : Endpoint) : LumenProtocol × Bool :=
  let alreadyAcked := s.reliabilityManager.hasAckedSequence seq endpoint
  if s.sessionActive then
    if !alreadyAcked then
      let s := { s with
        reliabilityManager := s.reliabilityManager.recordAckedSequence seq endpoint }
      (s.sendAck seq endpoint,true)
    else (s.sendAck seq endpoint,false)
  else (s,!alreadyAcked)

/-- Reception of anything but ACK and NAK, up to the decision to forward. The rover looks
for gaps on every fifth such packet and forwards all of them. -/
def accept (s : LumenProtocol) (seq : UInt8) (endpoint : Endpoint) : LumenProtocol × Bool :=
  match s.mode with
  | .baseStation => s.acknowledge seq endpoint
  | .rover =>
    let s := { s with checkCounter := s.checkCounter + 1 }
    (if s.checkCounter % 5 = 0 then s.checkSequenceGaps endpoint else s,true)

def processCompletePacket (s : LumenProtocol) (packet : LumenPacket) (endpoint : Endpoint) :
    LumenProtocol :=
  let type := packet.header.type
  let seq := packet.header.sequence
  let s := s.emit (.processing packet endpoint)
  let s := { s with
    reliabilityManager :=
      s.reliabilityManager.recordReceivedSequence s.clock.steady seq endpoint }
  if type = .ack then
    match s.mode,packet.payload with
    | .rover,ackedSeq :: _ =>
      { s with reliabilityManager := s.reliabilityManager.processAck ackedSeq }
    | _,_ => s
  else if type = .nak then
    match s.mode,packet.payload with
    | .baseStation,requestedSeq :: _ =>
      match s.reliabilityManager.processNak requestedSeq with
      | some (tracked,recipient) => s.sendPacket tracked recipient
      | none => s
    | _,_ => s
  else
    let (s,forwardPayload) := s.accept seq endpoint
    if forwardPayload ∧ s.messageCallback then
      s.emit (.callback packet.payload packet.header endpoint)
    else s

def setFrameBuffer (s : LumenProtocol) (key : String) (buffer : List UInt8) : LumenProtocol :=
  { s with frameBuffers := Function.update s.frameBuffers key buffer }

def processFrameBuffer (s : LumenProtocol) (endpointKey : String) (endpoint : Endpoint) :
    LumenProtocol :=
  let (rest,s) := frames (fun s packet => s.processCompletePacket packet endpoint)
    (s.frameBuffers endpointKey) s
  s.setFrameBuffer endpointKey rest

/-- The header made up for payloads that did not arrive in a packet. -/
def dummyHeader (s : LumenProtocol) (payload : List UInt8) : LumenHeader :=
  ⟨.data,.medium,0,s.generateTimestamp,UInt16.ofNat payload.length⟩

def passUp (s : LumenProtocol) (payload : List UInt8) (endpoint : Endpoint) : LumenProtocol :=
  if s.messageCallback then s.emit (.callback payload (s.dummyHeader payload) endpoint) else s

/-- Data that is neither a packet nor a message: wrapped in a `BasicMessage`. Text that is
not UTF-8 makes the JSON library throw. -/
def wrapRaw (codec : Codec) (s : LumenProtocol) (data : List UInt8) (endpoint : Endpoint) :
    LumenProtocol :=
  match String.fromUTF8? ⟨data.toArray⟩ with
  | none => s
  | some content =>
    let basic : Message :=
      ⟨"Unknown:" ++ getEndpointKey endpoint,s.clock.system,.basic content⟩
    s.passUp (basic.serialise codec) endpoint

def handleUdpData (codec : Codec) (s : LumenProtocol) (data : List UInt8) (endpoint : Endpoint) :
    LumenProtocol :=
  if !s.running then s else
    match data with
    | [] => s
    | first :: _ =>
      if first = lumenStx then
        let key := getEndpointKey endpoint
        (s.setFrameBuffer key (s.frameBuffers key ++ data)).processFrameBuffer key endpoint
      else if first = 0x7b ∧ (Message.deserialise codec s.clock.system data).isSome then
        s.passUp data endpoint
      else wrapRaw codec s data endpoint

def handleRetransmissionTimer (s : LumenProtocol) : LumenProtocol :=
  let (rm,packets,timeouts) := s.reliabilityManager.handleRetransmissionTimer s.clock.steady
  let s := { s with reliabilityManager := rm }
  let s := timeouts.foldl (fun s recipient => s.emit (.timeout recipient)) s
  packets.foldl (fun s entry => s.sendPacket entry.1 entry.2) s

def handleCleanupTimer (s : LumenProtocol) : LumenProtocol :=
  { s with reliabilityManager := s.reliabilityManager.handleCleanupTimer s.clock.steady }

/-- Time passes; neither clock runs backwards. -/
def tick (s : LumenProtocol) (nanos : Nat) : LumenProtocol :=
  { s with clock := ⟨s.clock.steady + nanos,s.clock.system + nanos⟩ }

inductive Input where
  | datagram (data : List UInt8) (endpoint : Endpoint)
  | sendMessage (payload : List UInt8) (type : MessageType) (priority : Priority)
      (recipient : Endpoint)
  | resetSequenceNumber
  | setSessionActive (active : Bool)
  | retransmissionTimer
  | cleanupTimer
  | tick (nanos : Nat)

/-- Inputs from the network and the timers; the others are calls of the owner. -/
def Input.isExternal : Input → Bool
  | .datagram _ _ => true
  | .retransmissionTimer => true
  | .cleanupTimer => true
  | .tick _ => true
  | _ => false

def step (codec : Codec) (s : LumenProtocol) : Input → LumenProtocol
  | .datagram data endpoint => handleUdpData codec s data endpoint
  | .sendMessage payload type priority recipient => s.sendMessage payload type priority recipient
  | .resetSequenceNumber => s.resetSequenceNumber
  | .setSessionActive active => s.setSessionActive active
  | .retransmissionTimer => s.handleRetransmissionTimer
  | .cleanupTimer => s.handleCleanupTimer
  | .tick nanos => s.tick nanos

/-- The node as its owner starts it: message callback set, protocol and transport running. -/
def started (mode : ProtocolMode) (baseEndpoint : Endpoint) (clock : Clock) : LumenProtocol :=
  { (new mode baseEndpoint clock).start with messageCallback := true, serverRunning := true }

end LumenProtocol

end Lumen
