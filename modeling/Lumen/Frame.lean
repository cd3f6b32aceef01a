import Lumen.RoverReplies

/-! What each step of the rover does to everything but its session and its traffic: the mode, the
position and the target, the rovers it knows, and the timers of the reports and of the movement.
Sending and storing messages leaves all of it alone, so that a step is described by the few
operations that do not. -/
namespace Lumen

/-- Nothing in the protocol takes its callback away. -/
theorem LumenProtocol.step_messageCallback (codec : Codec) (s : LumenProtocol) (input : Input) :
    (s.step codec input).messageCallback = s.messageCallback := by
  cases input with
  | datagram data endpoint =>
    refine handleUdpData_keeps codec (fun t => t.messageCallback = s.messageCallback) endpoint ?_ ?_
      ?_ s data rfl
    · exact fun t key bytes same => same
    · exact fun t packet same =>
        (processCompletePacket_undisturbed t packet endpoint).messageCallback.trans same
    · exact fun t payload same => (passUp_undisturbed t payload endpoint).messageCallback.trans same
  | sendMessage payload type priority recipient =>
    exact (sendMessage_undisturbed s payload type priority recipient).messageCallback
  | retransmissionTimer => exact (handleRetransmissionTimer_undisturbed s).messageCallback
  | cleanupTimer | resetSequenceNumber | setSessionActive | tick => rfl

namespace Rover

open Endpoint Message

variable (codec : Codec)

/-- What a posted handler tells the owner about another rover. -/
def notice? : Posted → Option (String × Endpoint)
  | .discovery id endpoint => some (id,endpoint)
  | _ => none

/-- The rover without its session and its traffic, with the callbacks that connect it to the layers
below and the state of its socket. Of the handlers it has posted only those are
kept that tell its owner about other rovers. -/
structure Panel where
  roverId : String
  lowPowerMode : Bool
  targetCoordinate : Option Coordinate
  currentCoordinate : Coordinate
  discoveredRovers : String → Option Endpoint
  discoveryMessageHandler : Bool
  statusTimer : Bool
  positionTelemetryTimer : Bool
  movementTimer : Bool
  messageCallback : Bool
  protocolCallback : Bool
  clientOpen : Bool
  notices : List (String × Endpoint)

def panel (s : Rover) : Panel where
  roverId := s.roverId
  lowPowerMode := s.lowPowerMode
  targetCoordinate := s.targetCoordinate
  currentCoordinate := s.currentCoordinate
  discoveredRovers := s.discoveredRovers
  discoveryMessageHandler := s.discoveryMessageHandler
  statusTimer := s.statusTimer
  positionTelemetryTimer := s.positionTelemetryTimer
  movementTimer := s.movementTimer
  messageCallback := s.manager.messageCallback
  protocolCallback := s.manager.protocol.messageCallback
  clientOpen := s.clientOpen
  notices := s.posted.filterMap notice?

/-! ### Traffic -/

theorem post_notices (s : Rover) (handler : Posted) :
    (s.post handler).posted.filterMap notice? =
      s.posted.filterMap notice? ++ (notice? handler).toList := by
  simp only [post,List.filterMap_append,List.filterMap_cons,List.filterMap_nil]
  cases notice? handler <;> rfl

theorem post_panel (s : Rover) (handler : Posted) (private_ : notice? handler = none) :
    (s.post handler).panel = s.panel := by
  have same := post_notices s handler
  rw [private_,Option.toList_none,List.append_nil] at same
  simp only [panel,same]
  rfl

@[simp] theorem enter_panel (s : Rover) (state : SessionState) : (s.enter state).panel = s.panel := rfl

@[simp] theorem setHandshakeRetryCount_panel (s : Rover) (count : Nat) :
    (s.setHandshakeRetryCount count).panel = s.panel := rfl

@[simp] theorem setHandshakeTimer_panel (s : Rover) (pending : Bool) :
    (s.setHandshakeTimer pending).panel = s.panel := rfl

@[simp] theorem setProbeTimer_panel (s : Rover) (pending : Bool) :
    (s.setProbeTimer pending).panel = s.panel := rfl

@[simp] theorem transmit_panel (s : Rover) (message : Message) (recipient : Endpoint) :
    (s.transmit codec message recipient).panel = s.panel := by
  simp only [transmit,MessageManager.sendMessage]
  split
  · rfl
  · simp only [panel,(LumenProtocol.sendMessage_undisturbed ..).messageCallback]

@[simp] theorem storeMessageForLater_panel (s : Rover) (message : Message) (recipient : Endpoint) :
    (s.storeMessageForLater codec message recipient).panel = s.panel := rfl

@[simp] theorem report_panel (s : Rover) (message : Message) :
    (s.report codec message).panel = s.panel := by
  simp only [report]
  split
  · rfl
  · split
    · rfl
    · split
      · rfl
      · split
        · exact transmit_panel codec s message _
        · rfl

@[simp] theorem sendMessage_panel (s : Rover) (message : Message) (recipient : Endpoint) :
    (s.sendMessage codec message recipient).panel = s.panel := by
  simp only [sendMessage]
  split
  · rfl
  · split
    · rfl
    · split
      · rfl
      · split
        · split
          · rfl
          · exact transmit_panel codec s message _
        · rfl

@[simp] theorem sendRawMessage_panel (s : Rover) (message : Message) (recipient : Endpoint) :
    (s.sendRawMessage message recipient).panel = s.panel := by
  simp only [sendRawMessage,MessageManager.sendRawMessage]
  split
  · rfl
  · split
    · rfl
    · split
      · rfl
      · split <;> rfl

@[simp] theorem sendCommand_panel (s : Rover) (command params : String) :
    (s.sendCommand codec command params).panel = s.panel := by
  simp only [sendCommand]
  split
  · rfl
  · split
    · rfl
    · split
      · exact transmit_panel codec s _ _
      · split
        · exact transmit_panel codec s _ _
        · rfl

@[simp] theorem scanForRovers_panel (s : Rover) (discoveryPort : UInt16) (text : String) :
    (s.scanForRovers discoveryPort text).panel = s.panel := by
  simp only [scanForRovers]
  split <;> rfl

theorem sendStored_panel (s : Rover) (packet : StoredPacket) : (s.sendStored packet).panel = s.panel := by
  simp only [sendStored,panel,(LumenProtocol.sendMessage_undisturbed ..).messageCallback]

@[simp] theorem sendStoredPackets_panel (s : Rover) : s.sendStoredPackets.panel = s.panel := by
  have loop (packets : List StoredPacket) (t : Rover) :
      (packets.foldl sendStored t).panel = t.panel := by
    induction packets generalizing t with
    | nil => rfl
    | cons packet rest ih => exact (ih _).trans (sendStored_panel t packet)
  exact loop s.storedPackets s

@[simp] theorem handUp_panel (s : Rover) (message : Message) (sender : Endpoint) :
    (s.handUp message sender).panel = s.panel := by
  simp only [handUp]
  split
  · exact post_panel s _ rfl
  · rfl

@[simp] theorem onProtocol_panel (s : Rover) (input : LumenProtocol.Input) :
    (s.onProtocol codec input).panel = s.panel := by
  have added : ∃ timeouts, (s.onProtocol codec input).posted = s.posted ++ timeouts ∧
      ∀ handler ∈ timeouts, notice? handler = none := by
    refine ⟨_,rfl,fun handler member => ?_⟩
    obtain ⟨effect,_,made⟩ := List.mem_filterMap.mp member
    cases effect <;> cases made
    rfl
  obtain ⟨timeouts,posted,private_⟩ := added
  have same : (s.onProtocol codec input).posted.filterMap notice? = s.posted.filterMap notice? := by
    rw [posted,List.filterMap_append,List.filterMap_eq_nil_iff.mpr private_,List.append_nil]
  have listening : (s.onProtocol codec input).manager.protocol.messageCallback =
      s.manager.protocol.messageCallback :=
    LumenProtocol.step_messageCallback codec s.manager.protocol input
  simp only [panel,same,listening]
  rfl

/-! ### The session -/

@[simp] theorem handleBaseDisconnect_panel (s : Rover) : s.handleBaseDisconnect.panel = s.panel := by
  simp only [handleBaseDisconnect]
  split
  · rfl
  · rw [post_panel _ _ rfl,post_panel _ _ rfl]
    rfl

@[simp] theorem handleSessionAccept_panel (s : Rover) :
    (s.handleSessionAccept codec).panel = s.panel := by
  simp only [handleSessionAccept]
  split
  · rw [post_panel _ _ rfl,sendCommand_panel]
    split <;> rfl
  · rfl

@[simp] theorem initiateHandshake_panel (s : Rover) :
    (s.initiateHandshake codec).panel = s.panel := by
  simp only [initiateHandshake]
  split
  · rfl
  · split <;> simp

@[simp] theorem handleHandshakeTimer_panel (s : Rover) :
    (s.handleHandshakeTimer codec).panel = s.panel := by
  simp only [handleHandshakeTimer]
  split
  · split <;> simp
  · rfl

@[simp] theorem handleProbeTimer_panel (s : Rover) :
    (s.handleProbeTimer codec).panel = s.panel := by
  simp only [handleProbeTimer]
  split <;> simp

theorem filterMap_eraseIdx {α β : Type*} (f : α → Option β) (list : List α) (position : Nat)
    {element : α} (here : list[position]? = some element) (none : f element = none) :
    (list.eraseIdx position).filterMap f = list.filterMap f := by
  induction list generalizing position with
  | nil => cases here
  | cons first rest ih =>
    cases position with
    | zero =>
      cases here
      rw [List.eraseIdx_cons_zero,List.filterMap_cons,none]
    | succ position =>
      rw [List.eraseIdx_cons_succ,List.filterMap_cons,List.filterMap_cons,
        ih position (by simpa using here)]

/-- What a handler does beyond leaving the queue concerns the session alone. -/
@[simp] theorem runHandler_panel (s : Rover) (handler : Posted) :
    (s.runHandler handler).panel = s.panel := by
  cases handler with
  | packetTimeout recipient =>
    simp only [runHandler,handlePacketTimeout]
    split
    · exact handleBaseDisconnect_panel s
    · rfl
  | resetSequence | armProbe | armHandshake | application | discovery => rfl

/-- A handler that does not concern the owner leaves the panel alone. -/
theorem runPosted_panel (s : Rover) (position : Nat)
    (own : ∀ handler, s.posted[position]? = some handler → notice? handler = none) :
    (s.runPosted position).panel = s.panel := by
  simp only [runPosted]
  split
  · next handler queued =>
    rw [runHandler_panel]
    simp only [panel,filterMap_eraseIdx notice? s.posted position queued (own handler queued)]
  · rfl

/-! ### Reports, movement and discovery -/

@[simp] theorem handleStatusTimer_panel (s : Rover) :
    (s.handleStatusTimer codec).panel = { s.panel with statusTimer := true } :=
  congrArg (fun panel => { panel with statusTimer := true }) (report_panel codec s _)

@[simp] theorem handlePositionTelemetryTimer_panel (s : Rover) :
    (s.handlePositionTelemetryTimer codec).panel =
      { s.panel with positionTelemetryTimer := true } :=
  congrArg (fun panel => { panel with positionTelemetryTimer := true }) (report_panel codec s _)

/-- A session that begins starts both reports. -/
@[simp] theorem handleSessionEstablished_panel (s : Rover) :
    (s.handleSessionEstablished codec).panel =
      if s.sessionState = .active then s.panel
      else { s.panel with statusTimer := true, positionTelemetryTimer := true } := by
  simp only [handleSessionEstablished]
  split
  · rfl
  · simp

/-- One movement: the target is dropped when it is reached, and otherwise the rover moves and the
next movement is scheduled. -/
theorem handleMovementTimer_panel (s : Rover) :
    (s.handleMovementTimer codec).panel = s.panel ∧ s.targetCoordinate = none ∨
      (∃ target, s.targetCoordinate = some target ∧
        calculateDistance s.currentCoordinate target ≤ targetReachedThresholdMeters ∧
        (s.handleMovementTimer codec).panel = { s.panel with targetCoordinate := none }) ∨
      ∃ target place, s.targetCoordinate = some target ∧
        ¬ calculateDistance s.currentCoordinate target ≤ targetReachedThresholdMeters ∧
        (s.handleMovementTimer codec).panel =
          { s.panel with currentCoordinate := place, movementTimer := true } := by
  simp only [handleMovementTimer]
  split
  · next idle => exact Or.inl ⟨rfl,idle⟩
  · next target aim =>
    split
    · next near =>
      refine Or.inr (Or.inl ⟨target,aim,near,?_⟩)
      split
      · rfl
      · exact sendMessage_panel codec _ _ _
    · next far => exact Or.inr (Or.inr ⟨target,_,aim,far,rfl⟩)

/-- A target is taken when both coordinates can be read, dropped again when it is near. -/
theorem setTarget_panel (s : Rover) (params : String) :
    (s.setTarget codec params).panel = s.panel ∨
      (∃ target, (s.setTarget codec params).panel =
        { s.panel with targetCoordinate := some target, movementTimer := true }) ∨
      (s.setTarget codec params).panel = { s.panel with targetCoordinate := none } := by
  simp only [setTarget]
  split
  · split
    · exact Or.inr (Or.inl ⟨_,rfl⟩)
    · exact Or.inr (Or.inr rfl)
  · exact Or.inl rfl

/-- A rover that is new is reported to the owner, if it listens. -/
def news (s : Rover) (senderId : String) (sender : Endpoint) : List (String × Endpoint) :=
  if s.discoveredRovers senderId = none ∧ s.discoveryMessageHandler then [(senderId,sender)] else []

theorem handleDiscoveryCommand_panel (s : Rover) (command senderId : String) (sender : Endpoint) :
    (s.handleDiscoveryCommand command senderId sender).panel =
      if senderId ≠ s.roverId ∧ command = "ROVER_ANNOUNCE" then
        { s.panel with
          discoveredRovers := Function.update s.discoveredRovers senderId (some sender)
          notices := s.panel.notices ++ s.news senderId sender }
      else s.panel := by
  by_cases own : senderId = s.roverId
  · simp [handleDiscoveryCommand,own]
  · by_cases announce : command = "ROVER_ANNOUNCE"
    · simp only [handleDiscoveryCommand,own,announce,if_false,if_true,ne_eq,not_false_eq_true,
        and_true,news,Option.isNone_iff_eq_none]
      split
      · simp only [panel,post_notices]
        rfl
      · simp only [panel,List.append_nil]
    · simp only [handleDiscoveryCommand,own,announce,if_false,and_false]
      split
      · split
        · rfl
        · exact sendRawMessage_panel s _ sender
      · rfl

/-! ### Every step -/

/-- Whether a message makes the rover note its sender. -/
def Announces (s : Rover) (message : Message) : Prop :=
  message.isCommand "ROVER_ANNOUNCE" = true ∧ message.sender ≠ s.roverId ∧ s.lowPowerMode = false

instance (s : Rover) (message : Message) : Decidable (s.Announces message) :=
  inferInstanceAs (Decidable (_ ∧ _ ∧ _))

/-- What a step does to the panel. -/
inductive Changes (s : Rover) : Input → Panel → Prop where
  | nothing (live : input ≠ .stop) : Changes s input s.panel
  | reports (message : Message) (sender : Endpoint)
      (from_ : s.FromBase "SESSION_ESTABLISHED" message sender)
      (begins : s.sessionState ≠ .active) :
      Changes s (.route message sender)
        { s.panel with statusTimer := true, positionTelemetryTimer := true }
  | power (message : Message) (sender : Endpoint) (params : String)
      (base : s.getBaseEndpoint = some sender)
      (command : message.content = .command "SET_LOW_POWER" params) :
      Changes s (.route message sender) { s.panel with lowPowerMode := params = "1" }
  | aims (message : Message) (sender : Endpoint) (params : String)
      (base : s.getBaseEndpoint = some sender)
      (command : message.content = .command "SET_TARGET_COORD" params) (target : Coordinate) :
      Changes s (.route message sender)
        { s.panel with targetCoordinate := some target, movementTimer := true }
  | near (message : Message) (sender : Endpoint) (params : String)
      (base : s.getBaseEndpoint = some sender)
      (command : message.content = .command "SET_TARGET_COORD" params) :
      Changes s (.route message sender) { s.panel with targetCoordinate := none }
  | notes (message : Message) (sender : Endpoint) (announces : s.Announces message) :
      Changes s (.route message sender) { s.panel with
        discoveredRovers := Function.update s.discoveredRovers message.sender (some sender)
        notices := s.panel.notices ++ s.news message.sender sender }
  | tells (position : Nat) (id : String) (endpoint : Endpoint)
      (queued : s.posted[position]? = some (.discovery id endpoint)) :
      Changes s (.runPosted position) { s.panel with
        notices := (s.posted.eraseIdx position).filterMap notice? }
  | telemetry : Changes s .handlePositionTelemetryTimer
      { s.panel with positionTelemetryTimer := true }
  | rests (pending : s.movementTimer = true) (idle : s.targetCoordinate = none) :
      Changes s (.expire .movement) { s.panel with movementTimer := false }
  | arrives (pending : s.movementTimer = true) (target : Coordinate)
      (aim : s.targetCoordinate = some target)
      (reached : calculateDistance s.currentCoordinate target ≤ targetReachedThresholdMeters) :
      Changes s (.expire .movement)
        { s.panel with targetCoordinate := none, movementTimer := false }
  | moves (pending : s.movementTimer = true) (target place : Coordinate)
      (aim : s.targetCoordinate = some target)
      (away : ¬ calculateDistance s.currentCoordinate target ≤ targetReachedThresholdMeters) :
      Changes s (.expire .movement) { s.panel with currentCoordinate := place }
  | placed (latitude longitude : Float) : Changes s (.updateCurrentPosition latitude longitude)
      { s.panel with currentCoordinate := ⟨latitude,longitude⟩ }
  | listens : Changes s .setDiscoveryMessageHandler
      { s.panel with discoveryMessageHandler := true }
  | stops : Changes s .stop { s.panel with
      discoveredRovers := fun _ => none
      statusTimer := false
      positionTelemetryTimer := false
      movementTimer := false
      clientOpen := s.clientOpen && !s.manager.protocol.running }

theorem discovery_changes (s : Rover) (message : Message) (sender : Endpoint) (command params : String)
    (content : message.content = .command command params) (awake : s.lowPowerMode = false) :
    Changes s (.route message sender)
      (s.handleDiscoveryCommand command message.sender sender).panel := by
  rw [handleDiscoveryCommand_panel]
  split
  · next announce =>
    refine .notes message sender ⟨?_,announce.1,awake⟩
    simp [isCommand,content,announce.2]
  · exact .nothing (by simp)

theorem internal_changes (s : Rover) (message : Message) (sender : Endpoint) (command params : String)
    (content : message.content = .command command params) (other : message.sender ≠ s.roverId)
    (base : s.getBaseEndpoint = some sender) :
    Changes s (.route message sender) (s.handleInternalCommand codec command params).panel := by
  simp only [handleInternalCommand]
  split
  · rw [handleSessionAccept_panel]
    exact .nothing (by simp)
  · split
    · next established =>
      rw [handleSessionEstablished_panel]
      split
      · exact .nothing (by simp)
      · next begins =>
        refine .reports message sender ⟨other,base,?_⟩ begins
        simp [isCommand,content,established]
    · split
      · next power => exact .power message sender params base (power ▸ content)
      · split
        · next target =>
          rcases setTarget_panel codec s params with same | ⟨aim,taken⟩ | dropped
          · rw [same]
            exact .nothing (by simp)
          · rw [taken]
            exact .aims message sender params base (target ▸ content) aim
          · rw [dropped]
            exact .near message sender params base (target ▸ content)
        · exact .nothing (by simp)

theorem routeMessage_changes (s : Rover) (message : Message) (sender : Endpoint) :
    Changes s (.route message sender) (s.routeMessage codec message sender).panel := by
  simp only [routeMessage]
  split
  · exact .nothing (by simp)
  · next other =>
    split
    · next command params content =>
      split
      · split
        · next base => exact internal_changes codec s message sender command params content other base
        · exact .nothing (by simp)
      · split
        · split
          · next both =>
            exact discovery_changes s message sender command params content (by simpa using both.2)
          · exact .nothing (by simp)
        · rw [handUp_panel]
          exact .nothing (by simp)
    · rw [handUp_panel]
      exact .nothing (by simp)

theorem expire_changes (s : Rover) (timer : Timer) :
    Changes s (.expire timer) (s.expire codec timer).panel := by
  cases timer with
  | status =>
    simp only [expire]
    split
    · next pending =>
      have same : ({ s with statusTimer := false }.handleStatusTimer codec).panel = s.panel := by
        rw [handleStatusTimer_panel]
        simp [panel,pending]
      rw [same]
      exact .nothing (by simp)
    · exact .nothing (by simp)
  | positionTelemetry =>
    simp only [expire]
    split
    · next pending =>
      have same : ({ s with positionTelemetryTimer := false }.handlePositionTelemetryTimer
          codec).panel = s.panel := by
        rw [handlePositionTelemetryTimer_panel]
        simp [panel,pending]
      rw [same]
      exact .nothing (by simp)
    · exact .nothing (by simp)
  | handshake =>
    simp only [expire]
    split
    · rw [handleHandshakeTimer_panel,setHandshakeTimer_panel]
      exact .nothing (by simp)
    · exact .nothing (by simp)
  | probe =>
    simp only [expire]
    split
    · rw [handleProbeTimer_panel,setProbeTimer_panel]
      exact .nothing (by simp)
    · exact .nothing (by simp)
  | movement =>
    simp only [expire]
    split
    · next pending =>
      rcases handleMovementTimer_panel codec { s with movementTimer := false } with
        ⟨same,idle⟩ | ⟨target,aim,reached,dropped⟩ | ⟨target,place,aim,away,moved⟩
      · rw [same]
        exact .rests pending idle
      · rw [dropped]
        exact .arrives pending target aim reached
      · have again : ({ s with movementTimer := false }.handleMovementTimer codec).panel =
            { s.panel with currentCoordinate := place } := by
          rw [moved]
          simp [panel,pending]
        rw [again]
        exact .moves pending target place aim away
    · exact .nothing (by simp)

theorem runPosted_changes (s : Rover) (position : Nat) :
    Changes s (.runPosted position) (s.runPosted position).panel := by
  by_cases tells : ∃ id endpoint, s.posted[position]? = some (.discovery id endpoint)
  · obtain ⟨id,endpoint,queued⟩ := tells
    simp only [runPosted,queued]
    exact .tells position id endpoint queued
  · have own (handler : Posted) (queued : s.posted[position]? = some handler) :
        notice? handler = none := by
      cases handler with
      | discovery id endpoint => exact absurd ⟨id,endpoint,queued⟩ tells
      | _ => rfl
    rw [runPosted_panel s position own]
    exact .nothing (by simp)

theorem stop_panel (s : Rover) : s.stop.panel = { s.panel with
    discoveredRovers := fun _ => none
    statusTimer := false
    positionTelemetryTimer := false
    movementTimer := false
    clientOpen := s.clientOpen && !s.manager.protocol.running } := by
  simp only [stop,panel,LumenProtocol.stop]
  split <;> rfl

theorem step_changes (s : Rover) (input : Input) : Changes s input (s.step codec input).panel := by
  cases input with
  | route message sender => exact routeMessage_changes codec s message sender
  | expire timer => exact expire_changes codec s timer
  | runPosted position => exact runPosted_changes s position
  | sendMessage message recipient =>
    simp only [step,sendMessage_panel]
    exact .nothing (by simp)
  | sendRawMessage message recipient =>
    simp only [step,sendRawMessage_panel]
    exact .nothing (by simp)
  | sendCommand command params =>
    simp only [step,sendCommand_panel]
    exact .nothing (by simp)
  | sendTelemetry readings =>
    simp only [step,sendTelemetry,report_panel]
    exact .nothing (by simp)
  | sendStatus =>
    simp only [step,sendStatus,report_panel]
    exact .nothing (by simp)
  | scanForRovers discoveryPort text =>
    simp only [step,scanForRovers_panel]
    exact .nothing (by simp)
  | handlePositionTelemetryTimer =>
    simp only [step,handlePositionTelemetryTimer_panel]
    exact .telemetry
  | updateCurrentPosition latitude longitude => exact .placed latitude longitude
  | setDiscoveryMessageHandler => exact .listens
  | stop =>
    simp only [step,stop_panel]
    exact .stops
  | timeoutNotification recipient =>
    simp only [step,post_panel s (.packetTimeout recipient) rfl]
    exact .nothing (by simp)
  | protocol input external =>
    simp only [step,onProtocol_panel]
    exact .nothing (by simp)
  | updateStatus | setApplicationMessageHandler => exact .nothing (by simp)

/-- Only `stop` closes the socket. -/
theorem step_clientOpen (s : Rover) (input : Input) (live : input ≠ .stop) :
    (s.step codec input).clientOpen = s.clientOpen := by
  have changes := step_changes codec s input
  generalize reading : (s.step codec input).panel = next at changes
  have same : (s.step codec input).clientOpen = next.clientOpen := by
    rw [← reading]
    rfl
  rw [same]
  cases changes with
  | stops => exact absurd rfl live
  | _ => rfl

/-- The panel of a rover that has just been started. -/
theorem started_panel (roverId : String) (base : Endpoint) (clock : Clock) :
    (started codec roverId base clock).panel = (new roverId base clock).launched.panel :=
  initiateHandshake_panel codec _

end Rover

end Lumen
