import Lumen.Manager
import Lumen.Session

/-! The base station: session handling, routing of received messages and the sending
functions, over the message manager and the protocol. Messages given to the application
handler or the status callback are logged in `handed`; both are posted, and a handler that
calls back into the base station does so as a later input. -/
namespace Lumen

open Endpoint

inductive BaseStation.SessionState where
  | inactive
  | handshakeInit
  | handshakeAccept
  | active
  deriving DecidableEq, Repr

/-- What the callbacks of the owner are invoked with. -/
inductive BaseStation.Handed where
  | status (id : String) (data : List (String × Float))
  | application (message : Message) (sender : Endpoint)

structure BaseStation where
  stationId : String
  sessionState : BaseStation.SessionState
  connectedRoverId : String
  roverEndpoint : Endpoint
  manager : MessageManager
  statusCallback : Bool
  applicationMessageHandler : Bool
  handed : List BaseStation.Handed

namespace BaseStation

def new (stationId : String) (clock : Clock) : BaseStation where
  stationId := stationId
  sessionState := .inactive
  connectedRoverId := ""
  roverEndpoint := .unspecified
  manager := ⟨false,false,.new .baseStation .unspecified clock,[]⟩
  statusCallback := false
  applicationMessageHandler := false
  handed := []

/-- Changes the protocol under the message manager. -/
def onProtocol (s : BaseStation) (change : LumenProtocol → LumenProtocol) : BaseStation :=
  { s with manager := { s.manager with protocol := change s.manager.protocol } }

def setSessionActive (s : BaseStation) (active : Bool) : BaseStation :=
  s.onProtocol (·.setSessionActive active)

def start (s : BaseStation) : BaseStation :=
  let s := { s with manager := s.manager.start }
  let s := (s.onProtocol LumenProtocol.start).setSessionActive false
  let s := s.onProtocol fun protocol => { protocol with serverRunning := true }
  { s with manager := { s.manager with messageCallback := true } }

def stop (s : BaseStation) : BaseStation :=
  let s := s.setSessionActive false
  let s := s.onProtocol fun protocol => { protocol with serverRunning := false }.stop
  { s with
    manager := s.manager.stop
    sessionState := .inactive
    connectedRoverId := ""
    roverEndpoint := .unspecified }

/-- The first guard of `send_command` and, inside it, the second. -/
def canSendCommand (s : BaseStation) (command : String) : Bool :=
  let isSessionCommand := command = "SESSION_ACCEPT" ∨ command = "SESSION_ESTABLISHED"
  (s.sessionState = .active ∨
      (s.sessionState = .handshakeAccept ∧ command = "SESSION_ACCEPT") ∨
      (s.sessionState = .active ∧ command = "SESSION_ESTABLISHED")) ∧
    ¬ s.roverEndpoint.isUnspecified ∧
    ¬ (¬ isSessionCommand ∧ s.sessionState ≠ .active)

def commandMessage (s : BaseStation) (command params : String) : Message :=
  ⟨s.stationId,s.manager.protocol.clock.system,.command command params⟩

variable (codec : Codec)

def sendCommand (s : BaseStation) (command params : String) : BaseStation :=
  if s.canSendCommand command then
    { s with
      manager := s.manager.sendMessage codec (s.commandMessage command params) s.roverEndpoint }
  else s

/-- The locked part of `handle_session_init`: the state, whether to send the acceptance and
whether to reset the protocol's session flag. -/
def updateOnInit (s : BaseStation) (roverId : String) (sender : Endpoint) :
    BaseStation × Bool × Bool :=
  if s.sessionState ≠ .inactive ∧ s.connectedRoverId ≠ roverId then
    (s,false,s.sessionState = .active)
  else if s.connectedRoverId = roverId ∨ s.connectedRoverId = "" then
    let resetSession : Bool :=
      if s.sessionState = .active ∧ s.connectedRoverId = roverId then true
      else if s.connectedRoverId = roverId ∧ s.roverEndpoint ≠ sender then
        s.sessionState = .active
      else if s.sessionState = .inactive then false
      else s.sessionState = .active
    ({ s with
        sessionState := .handshakeAccept
        connectedRoverId := roverId
        roverEndpoint := sender },true,resetSession)
  else (s,false,s.sessionState = .active)

def handleSessionInit (s : BaseStation) (roverId : String) (sender : Endpoint) : BaseStation :=
  if s.sessionState = .active ∧ s.connectedRoverId = roverId ∧ s.roverEndpoint = sender then
    s.sendCommand codec "SESSION_ESTABLISHED" s.stationId
  else
    let (s,sendAccept,resetSession) := s.updateOnInit roverId sender
    let s := if resetSession then s.setSessionActive false else s
    if sendAccept then s.sendCommand codec "SESSION_ACCEPT" s.stationId else s

def handleSessionConfirm (s : BaseStation) (roverId : String) (sender : Endpoint) : BaseStation :=
  if s.sessionState ≠ .handshakeAccept ∨ s.connectedRoverId ≠ roverId ∨
      s.roverEndpoint ≠ sender then s
  else
    let s := { s with sessionState := .active }.setSessionActive true
    s.sendCommand codec "SESSION_ESTABLISHED" s.stationId

def handleInternalCommand (s : BaseStation) (command senderId : String) (sender : Endpoint) :
    BaseStation :=
  if command = "SESSION_INIT" then s.handleSessionInit codec senderId sender
  else if command = "SESSION_CONFIRM" then s.handleSessionConfirm codec senderId sender
  else s

/-- The check on everything but session commands. -/
def allowMessage (s : BaseStation) (message : Message) (sender : Endpoint) : Bool :=
  match s.sessionState with
  | .active => s.connectedRoverId = message.sender ∧ s.roverEndpoint = sender
  | .handshakeAccept =>
    match message.content with
    | .command command _ =>
      command = "SESSION_CONFIRM" ∧ s.connectedRoverId = message.sender ∧ s.roverEndpoint = sender
    | _ => false
  | _ => false

def levelNumber : StatusLevel → Float
  | .ok => 0
  | .warning => 1
  | .error => 2
  | .critical => 3

/-- `handle_internal_status` and `handle_internal_telemetry`. -/
def statusData (message : Message) : Option (List (String × Float)) :=
  match message.content with
  | .status level _ => some [("status_level",levelNumber level)]
  | .telemetry readings => some readings
  | _ => none

/-- The callbacks an allowed message is given to, the status callback first. -/
def handedFor (s : BaseStation) (message : Message) (sender : Endpoint) : List Handed :=
  (if s.statusCallback then
    (statusData message).toList.map (.status message.sender) else []) ++
  (if s.applicationMessageHandler then [.application message sender] else [])

def isSessionCommand (message : Message) : Bool :=
  match message.content with
  | .command command _ => command = "SESSION_INIT" ∨ command = "SESSION_CONFIRM"
  | _ => false

def handUp (s : BaseStation) (message : Message) (sender : Endpoint) : BaseStation :=
  if s.allowMessage message sender then
    { s with handed := s.handed ++ s.handedFor message sender } else s

def routeMessage (s : BaseStation) (message : Message) (sender : Endpoint) : BaseStation :=
  match message.content with
  | .command command _ =>
    if isSessionCommand message then s.handleInternalCommand codec command message.sender sender
    else s.handUp message sender
  | _ => s.handUp message sender

def sendMessage (s : BaseStation) (message : Message) (recipient : Endpoint) : BaseStation :=
  if recipient.isUnspecified ∨ recipient.port = 0 then s
  else { s with manager := s.manager.sendMessage codec message recipient }

def sendRawMessage (s : BaseStation) (message : Message) (recipient : Endpoint) : BaseStation :=
  if recipient.isUnspecified ∨ recipient.port = 0 then s
  else { s with manager := s.manager.sendRawMessage message recipient }

def setLowPowerMode (s : BaseStation) (enable : Bool) : BaseStation :=
  s.sendCommand codec "SET_LOW_POWER" (if enable then "1" else "0")

def setRoverTarget (s : BaseStation) (latitude longitude : Float) : BaseStation :=
  s.sendCommand codec "SET_TARGET_COORD" (codec.fixed latitude ++ "," ++ codec.fixed longitude)

inductive Input where
  | route (message : Message) (sender : Endpoint)
  | sendCommand (command params : String)
  | setLowPowerMode (enable : Bool)
  | setRoverTarget (latitude longitude : Float)
  | sendMessage (message : Message) (recipient : Endpoint)
  | sendRawMessage (message : Message) (recipient : Endpoint)
  | setStatusCallback
  | setApplicationMessageHandler
  /-- A datagram, a timer or time passing, below the message layer. -/
  | protocol (input : LumenProtocol.Input) (external : input.isExternal = true)
  | stop

def step (s : BaseStation) : Input → BaseStation
  | .route message sender => s.routeMessage codec message sender
  | .sendCommand command params => s.sendCommand codec command params
  | .setLowPowerMode enable => s.setLowPowerMode codec enable
  | .setRoverTarget latitude longitude => s.setRoverTarget codec latitude longitude
  | .sendMessage message recipient => s.sendMessage codec message recipient
  | .sendRawMessage message recipient => s.sendRawMessage message recipient
  | .setStatusCallback => { s with statusCallback := true }
  | .setApplicationMessageHandler => { s with applicationMessageHandler := true }
  | .protocol input _ => s.onProtocol fun protocol => protocol.step codec input
  | .stop => s.stop

/-- The base station right after `start`. -/
def started (stationId : String) (clock : Clock) : BaseStation := (new stationId clock).start

end BaseStation

end Lumen
