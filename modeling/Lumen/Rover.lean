import Lumen.Manager

/-! The rover: handshake, probing after a lost session, storing and forwarding, low power
mode, discovery and movement, over the message manager and the protocol. A timer is
represented by whether a wait on it is pending; setting or cancelling it drops a pending
wait. Handlers posted to the executor are kept in `posted` and may run in any order. The
handlers of the owner are posted too, and call back into the rover as a later input. -/
namespace Lumen

open Endpoint

inductive Rover.SessionState where
  | inactive
  | handshakeInit
  | handshakeAccept
  | active
  | disconnected
  deriving DecidableEq, Repr

/-- A latitude and a longitude. -/
structure Coordinate where
  first : Float
  second : Float

/-- What is needed to send a message later. The message itself is kept only for the log. -/
structure StoredPacket where
  message : Message
  payload : List UInt8
  type : MessageType
  priority : Priority
  recipient : Endpoint

inductive Posted where
  | resetSequence
  | armProbe
  | armHandshake
  | packetTimeout (recipient : Endpoint)
  | application (message : Message) (sender : Endpoint)
  | discovery (id : String) (endpoint : Endpoint)

structure Rover where
  roverId : String
  sessionState : Rover.SessionState
  handshakeRetryCount : Nat
  lowPowerMode : Bool
  statusLevel : StatusLevel
  statusDescription : String
  targetCoordinate : Option Coordinate
  currentCoordinate : Coordinate
  storedPackets : List StoredPacket
  discoveredRovers : String → Option Endpoint
  manager : MessageManager
  /-- The socket of the client. -/
  clientOpen : Bool
  applicationMessageHandler : Bool
  discoveryMessageHandler : Bool
  statusTimer : Bool
  handshakeTimer : Bool
  positionTelemetryTimer : Bool
  probeTimer : Bool
  movementTimer : Bool
  posted : List Posted

namespace Rover

def maxHandshakeRetries : Nat := 5
def moveRateMetersPerSecond : Float := 1.0
def movementIntervalSeconds : Float := 1.0
def targetReachedThresholdMeters : Float := 1.0

/-- The rover with its base station registered. -/
def new (roverId : String) (base : Endpoint) (clock : Clock) : Rover where
  roverId := roverId
  sessionState := .inactive
  handshakeRetryCount := 0
  lowPowerMode := false
  statusLevel := .ok
  statusDescription := "System OK"
  targetCoordinate := none
  currentCoordinate := ⟨0.0,0.0⟩
  storedPackets := []
  discoveredRovers := fun _ => none
  manager := ⟨false,false,.new .rover base clock,[]⟩
  clientOpen := true
  applicationMessageHandler := false
  discoveryMessageHandler := false
  statusTimer := false
  handshakeTimer := false
  positionTelemetryTimer := false
  probeTimer := false
  movementTimer := false
  posted := []

def post (s : Rover) (handler : Posted) : Rover := { s with posted := s.posted ++ [handler] }

def enter (s : Rover) (state : SessionState) : Rover := { s with sessionState := state }

def setHandshakeRetryCount (s : Rover) (count : Nat) : Rover :=
  { s with handshakeRetryCount := count }

/-- True starts a wait, false cancels the pending one. -/
def setHandshakeTimer (s : Rover) (pending : Bool) : Rover := { s with handshakeTimer := pending }

def setProbeTimer (s : Rover) (pending : Bool) : Rover := { s with probeTimer := pending }

def getBaseEndpoint (s : Rover) : Option Endpoint := s.manager.protocol.getBaseEndpoint

/-- A message created now by the rover. -/
def message (s : Rover) (content : Content) : Message :=
  ⟨s.roverId,s.manager.protocol.clock.system,content⟩

/-- The low power check made before a message is sent or stored. -/
def suppresses (s : Rover) (message : Message) : Bool :=
  s.lowPowerMode ∧ message.getLumenPriority ≠ .high

variable (codec : Codec)

/-- Gives a message to the message manager. -/
def transmit (s : Rover) (message : Message) (recipient : Endpoint) : Rover :=
  { s with manager := s.manager.sendMessage codec message recipient }

def storeMessageForLater (s : Rover) (message : Message) (intendedRecipient : Endpoint) : Rover :=
  { s with
    storedPackets := s.storedPackets ++ [⟨message,message.serialise codec,message.getLumenType,
      message.getLumenPriority,intendedRecipient⟩] }

/-- `send_telemetry` and `send_status` once their message is built: only the base station is
a recipient, and outside a session nothing is sent. -/
def report (s : Rover) (message : Message) : Rover :=
  match s.getBaseEndpoint with
  | none => s
  | some base =>
    if s.suppresses message then s
    else if s.sessionState = .disconnected then s.storeMessageForLater codec message base
    else if s.sessionState = .active then s.transmit codec message base
    else s

def sendTelemetry (s : Rover) (readings : List (String × Float)) : Rover :=
  s.report codec (s.message (.telemetry readings))

def sendStatus (s : Rover) : Rover :=
  s.report codec (s.message (.status s.statusLevel s.statusDescription))

/-- The final recipient and whether it is the base station; none when there is neither. -/
def target (s : Rover) (recipient : Endpoint) : Option (Endpoint × Bool) :=
  match s.getBaseEndpoint with
  | some base =>
    if recipient.isUnspecified ∨ recipient = base then some (base,true)
    else some (recipient,false)
  | none => if recipient.isUnspecified then none else some (recipient,false)

def sendMessage (s : Rover) (message : Message) (recipient : Endpoint) : Rover :=
  match s.target recipient with
  | none => s
  | some (target,targetIsBase) =>
    if s.suppresses message then s
    else if s.sessionState = .disconnected ∧ targetIsBase then
      s.storeMessageForLater codec message target
    else if s.sessionState = .active ∨ !targetIsBase then
      if s.lowPowerMode ∧ !targetIsBase then s else s.transmit codec message target
    else s

def sendRawMessage (s : Rover) (message : Message) (recipient : Endpoint) : Rover :=
  if recipient.isUnspecified ∨ recipient.port = 0 then s
  else if s.suppresses message then s
  else if s.lowPowerMode ∧ s.getBaseEndpoint ≠ some recipient then s
  else { s with manager := s.manager.sendRawMessage message recipient }

def sendCommand (s : Rover) (command params : String) : Rover :=
  let message := s.message (.command command params)
  if s.suppresses message then s else
    match s.getBaseEndpoint with
    | none => s
    | some base =>
      if s.sessionState = .disconnected ∧ command = "SESSION_INIT" then
        s.transmit codec message base
      else if s.sessionState ≠ .disconnected then s.transmit codec message base
      else s

def updateStatus (s : Rover) (level : StatusLevel) (description : String) : Rover :=
  { s with statusLevel := level, statusDescription := description }

def updateCurrentPosition (s : Rover) (latitude longitude : Float) : Rover :=
  { s with currentCoordinate := ⟨latitude,longitude⟩ }

/-- The hosts 2 to 150 of `10.237.0.0/24`. -/
def scanTargets (discoveryPort : UInt16) : List Endpoint :=
  (List.range 149).map fun i => ⟨0x0aed0000 + UInt32.ofNat (i + 2),discoveryPort⟩

/-- The scan goes to the socket directly, past the message manager. A closed one sends nothing. -/
def scanForRovers (s : Rover) (discoveryPort : UInt16) (text : String) : Rover :=
  if s.lowPowerMode ∨ !s.clientOpen then s else
    let discover := s.message (.command "ROVER_DISCOVER" text)
    let targets := (scanTargets discoveryPort).filter fun target => target.Sendable
    { s with manager := { s.manager with sent := s.manager.sent ++ targets.map (discover,·) } }

def handleDiscoveryCommand (s : Rover) (command senderId : String) (sender : Endpoint) : Rover :=
  if senderId = s.roverId then s
  else if command = "ROVER_ANNOUNCE" then
    let isNew := (s.discoveredRovers senderId).isNone
    let s := { s with
      discoveredRovers := Function.update s.discoveredRovers senderId (some sender) }
    if isNew ∧ s.discoveryMessageHandler then s.post (.discovery senderId sender) else s
  else if command = "ROVER_DISCOVER" then
    if s.lowPowerMode then s
    else s.sendRawMessage (s.message (.command "ROVER_ANNOUNCE" "Responding to probe")) sender
  else s

def handlePositionTelemetryTimer (s : Rover) : Rover :=
  let s := s.sendTelemetry codec
    [("latitude",s.currentCoordinate.first),("longitude",s.currentCoordinate.second)]
  { s with positionTelemetryTimer := true }

def handleStatusTimer (s : Rover) : Rover :=
  let s := s.sendStatus codec
  { s with statusTimer := true }

/-- One stored packet, given to the protocol as it was stored. -/
def sendStored (s : Rover) (stored : StoredPacket) : Rover :=
  let manager := s.manager
  { s with
    manager := { manager with
      protocol := manager.protocol.sendMessage stored.payload stored.type stored.priority
        stored.recipient
      sent := manager.sent ++
        (manager.protocol.destination stored.recipient).toList.map (stored.message,·) } }

def sendStoredPackets (s : Rover) : Rover :=
  { s.storedPackets.foldl sendStored s with storedPackets := [] }

def handleSessionEstablished (s : Rover) : Rover :=
  if s.sessionState = .active then s else
    let s := (s.enter .active).setHandshakeRetryCount 0
    let s := (s.setHandshakeTimer false).setProbeTimer false
    (s.sendStoredPackets.handleStatusTimer codec).handlePositionTelemetryTimer codec

def handleSessionAccept (s : Rover) : Rover :=
  if s.sessionState = .handshakeInit ∨ s.sessionState = .disconnected then
    let previous := s.sessionState
    let s := (s.enter .handshakeAccept).setHandshakeTimer false
    let s := if previous = .disconnected then s.setProbeTimer false else s
    (s.sendCommand codec "SESSION_CONFIRM" s.roverId).post .armHandshake
  else s

/-- `std::getline` with a comma: no segment after a final comma. -/
def segments (params : String) : List String :=
  let parts := params.splitOn ","
  if parts.getLast? = some "" then parts.dropLast else parts

/-- None of the coordinates counts when one of them cannot be read. -/
def parseCoordinates (params : String) : List Float :=
  ((segments params).mapM codec.stod).getD []

def calculateDistance (source destination : Coordinate) : Float :=
  let dx := destination.first - source.first
  let dy := destination.second - source.second
  (dx * dx + dy * dy).sqrt

def setTarget (s : Rover) (params : String) : Rover :=
  match parseCoordinates codec params with
  | [latitude,longitude] =>
    let target : Coordinate := ⟨latitude,longitude⟩
    if calculateDistance s.currentCoordinate target > targetReachedThresholdMeters then
      { s with targetCoordinate := some target, movementTimer := true }
    else { s with targetCoordinate := none }
  | _ => s

def handleInternalCommand (s : Rover) (command params : String) : Rover :=
  if command = "SESSION_ACCEPT" then s.handleSessionAccept codec
  else if command = "SESSION_ESTABLISHED" then s.handleSessionEstablished codec
  else if command = "SET_LOW_POWER" then { s with lowPowerMode := params = "1" }
  else if command = "SET_TARGET_COORD" then s.setTarget codec params
  else s

/-- Commands only the base station may give. -/
def isBaseCommand (command : String) : Bool :=
  command = "SESSION_ACCEPT" ∨ command = "SESSION_ESTABLISHED" ∨ command = "SET_LOW_POWER" ∨
    command = "SET_TARGET_COORD"

def isDiscoveryCommand (command : String) : Bool :=
  command = "ROVER_ANNOUNCE" ∨ command = "ROVER_DISCOVER"

def handUp (s : Rover) (message : Message) (sender : Endpoint) : Rover :=
  if s.applicationMessageHandler then s.post (.application message sender) else s

def routeMessage (s : Rover) (message : Message) (sender : Endpoint) : Rover :=
  if message.sender = s.roverId then s else
    match message.content with
    | .command command params =>
      if isBaseCommand command then
        if s.getBaseEndpoint = some sender then s.handleInternalCommand codec command params
        else s
      else if isDiscoveryCommand command then
        if message.sender ≠ s.roverId ∧ !s.lowPowerMode then
          s.handleDiscoveryCommand command message.sender sender
        else s
      else s.handUp message sender
    | _ => s.handUp message sender

def initiateHandshake (s : Rover) : Rover :=
  if s.sessionState ≠ .inactive ∧ s.sessionState ≠ .disconnected then s else
    let s := if s.sessionState = .disconnected then s.setProbeTimer false else s
    let s := (s.enter .handshakeInit).setHandshakeRetryCount 0
    (s.sendCommand codec "SESSION_INIT" s.roverId).setHandshakeTimer true

def handleBaseDisconnect (s : Rover) : Rover :=
  if s.sessionState ≠ .active then s else
    let s := ((s.enter .disconnected).setHandshakeTimer false).setProbeTimer false
    (s.post .resetSequence).post .armProbe

def handleHandshakeTimer (s : Rover) : Rover :=
  if s.sessionState = .handshakeInit ∨ s.sessionState = .handshakeAccept then
    if s.handshakeRetryCount < maxHandshakeRetries then
      let s := s.setHandshakeRetryCount (s.handshakeRetryCount + 1)
      let command := if s.sessionState = .handshakeInit then "SESSION_INIT" else "SESSION_CONFIRM"
      (s.sendCommand codec command s.roverId).setHandshakeTimer true
    else s.handleBaseDisconnect
  else s

def handleProbeTimer (s : Rover) : Rover :=
  if s.sessionState = .disconnected then
    (s.sendCommand codec "SESSION_INIT" s.roverId).setProbeTimer true
  else s

def handlePacketTimeout (s : Rover) (recipient : Endpoint) : Rover :=
  if s.sessionState = .active ∧ s.getBaseEndpoint = some recipient then s.handleBaseDisconnect
  else s

def handleMovementTimer (s : Rover) : Rover :=
  match s.targetCoordinate with
  | none => s
  | some target =>
    let current := s.currentCoordinate
    let distanceToTarget := calculateDistance current target
    if distanceToTarget ≤ targetReachedThresholdMeters then
      let s := { s with targetCoordinate := none }
      match s.getBaseEndpoint with
      | none => s
      | some base => s.sendMessage codec
          (s.message (.basic ("Rover " ++ s.roverId ++ " reached target coordinates."))) base
    else
      let stepDistance := moveRateMetersPerSecond * movementIntervalSeconds
      let stepDistance := if stepDistance > distanceToTarget then distanceToTarget
        else stepDistance
      let directionX := (target.first - current.first) / distanceToTarget
      let directionY := (target.second - current.second) / distanceToTarget
      let s := s.updateCurrentPosition (current.first + directionX * stepDistance)
        (current.second + directionY * stepDistance)
      { s with movementTimer := true }

inductive Timer where
  | status
  | handshake
  | positionTelemetry
  | probe
  | movement
  deriving DecidableEq, Repr

/-- A pending wait completes; without one nothing happens. -/
def expire (s : Rover) : Timer → Rover
  | .status =>
    if s.statusTimer then { s with statusTimer := false }.handleStatusTimer codec else s
  | .handshake =>
    if s.handshakeTimer then (s.setHandshakeTimer false).handleHandshakeTimer codec else s
  | .positionTelemetry =>
    if s.positionTelemetryTimer then
      { s with positionTelemetryTimer := false }.handlePositionTelemetryTimer codec else s
  | .probe => if s.probeTimer then (s.setProbeTimer false).handleProbeTimer codec else s
  | .movement =>
    if s.movementTimer then { s with movementTimer := false }.handleMovementTimer codec else s

def runHandler (s : Rover) : Posted → Rover
  | .resetSequence =>
    { s with manager := { s.manager with protocol := s.manager.protocol.resetSequenceNumber } }
  | .armProbe => s.setProbeTimer true
  | .armHandshake => s.setHandshakeTimer true
  | .packetTimeout recipient => s.handlePacketTimeout recipient
  | .application _ _ => s
  | .discovery _ _ => s

/-- One posted handler runs, once. -/
def runPosted (s : Rover) (position : Nat) : Rover :=
  match s.posted[position]? with
  | some handler => { s with posted := s.posted.eraseIdx position }.runHandler handler
  | none => s

/-- An event below the message layer; every timeout it reports is posted. -/
def onProtocol (s : Rover) (input : LumenProtocol.Input) : Rover :=
  let protocol := s.manager.protocol.step codec input
  let timeouts := (protocol.effects.drop s.manager.protocol.effects.length).filterMap fun
    | .timeout recipient => some (Posted.packetTimeout recipient)
    | _ => none
  { s with
    manager := { s.manager with protocol := protocol }
    posted := s.posted ++ timeouts }

/-- The layers below are started and the callbacks registered. -/
def launched (s : Rover) : Rover :=
  let manager := s.manager.start
  let protocol := manager.protocol.start
  let protocol := { protocol with
    reliabilityManager := { protocol.reliabilityManager with timeoutCallback := true } }
  { s with manager := { manager with protocol := protocol, messageCallback := true } }

def start (s : Rover) : Rover := s.launched.initiateHandshake codec

/-- The client closes its socket when it is running, which it is while the protocol is. -/
def stop (s : Rover) : Rover :=
  { s with
    statusTimer := false
    handshakeTimer := false
    positionTelemetryTimer := false
    probeTimer := false
    movementTimer := false
    clientOpen := s.clientOpen && !s.manager.protocol.running
    manager := { s.manager with running := false, protocol := s.manager.protocol.stop }
    sessionState := .inactive
    discoveredRovers := fun _ => none
    storedPackets := [] }

inductive Input where
  | route (message : Message) (sender : Endpoint)
  | expire (timer : Timer)
  | runPosted (position : Nat)
  /-- The reliability manager reports a packet it gave up. -/
  | timeoutNotification (recipient : Endpoint)
  /-- A datagram, a timer or time passing, below the message layer. -/
  | protocol (input : LumenProtocol.Input) (external : input.isExternal = true)
  | sendMessage (message : Message) (recipient : Endpoint)
  | sendRawMessage (message : Message) (recipient : Endpoint)
  | sendCommand (command params : String)
  | sendTelemetry (readings : List (String × Float))
  | sendStatus
  | handlePositionTelemetryTimer
  | updateStatus (level : StatusLevel) (description : String)
  | updateCurrentPosition (latitude longitude : Float)
  | scanForRovers (discoveryPort : UInt16) (text : String)
  | setApplicationMessageHandler
  | setDiscoveryMessageHandler
  | stop

def step (s : Rover) : Input → Rover
  | .route message sender => s.routeMessage codec message sender
  | .expire timer => s.expire codec timer
  | .runPosted position => s.runPosted position
  | .timeoutNotification recipient => s.post (.packetTimeout recipient)
  | .protocol input _ => s.onProtocol codec input
  | .sendMessage message recipient => s.sendMessage codec message recipient
  | .sendRawMessage message recipient => s.sendRawMessage message recipient
  | .sendCommand command params => s.sendCommand codec command params
  | .sendTelemetry readings => s.sendTelemetry codec readings
  | .sendStatus => s.sendStatus codec
  | .handlePositionTelemetryTimer => s.handlePositionTelemetryTimer codec
  | .updateStatus level description => s.updateStatus level description
  | .updateCurrentPosition latitude longitude => s.updateCurrentPosition latitude longitude
  | .scanForRovers discoveryPort text => s.scanForRovers discoveryPort text
  | .setApplicationMessageHandler => { s with applicationMessageHandler := true }
  | .setDiscoveryMessageHandler => { s with discoveryMessageHandler := true }
  | .stop => s.stop

/-- The rover right after `start`. -/
def started (roverId : String) (base : Endpoint) (clock : Clock) : Rover :=
  (new roverId base clock).start codec

end Rover

end Lumen
