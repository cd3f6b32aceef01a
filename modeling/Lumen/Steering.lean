import Lumen.StoreForward
import Lumen.Unwinding

/-! Who can steer the rover. What a message from another endpoint can change is left out of view:
the rovers it has discovered, the handlers posted for its owner, and the messages it sent to others.
Every operation of the rover is blind to that, so that such messages can be left out of a run. -/
namespace Lumen

open Unwinding

namespace MessageManager

/-- The manager without the messages sent to others than the base station. -/
@[simps] def trim (base : Option Endpoint) (m : MessageManager) : MessageManager :=
  { m with sent := m.sent.filter fun entry => base = some entry.2 }

variable (base : Option Endpoint)

theorem trim_trim (m : MessageManager) : (m.trim base).trim base = m.trim base := by
  simp [trim]

/-- Whatever is appended to the log, and whatever becomes of the protocol. -/
theorem trim_append (m : MessageManager) (protocol : LumenProtocol)
    (more : List (Message × Endpoint)) :
    ({ m with protocol := protocol, sent := m.sent ++ more } : MessageManager).trim base =
      ({ m.trim base with
        protocol := protocol, sent := (m.trim base).sent ++ more } : MessageManager).trim base := by
  simp [trim]

theorem sendMessage_blind (codec : Codec) (message : Message) (recipient : Endpoint) :
    Blind (trim base) fun m => m.sendMessage codec message recipient :=
  .ite (fun _ => Iff.rfl) (.id (trim_trim base)) fun m => trim_append base m _ _

theorem sendRawMessage_blind (message : Message) (recipient : Endpoint) :
    Blind (trim base) fun m => m.sendRawMessage message recipient :=
  .ite (fun _ => Iff.rfl) (.id (trim_trim base)) fun m => trim_append base m m.protocol _

end MessageManager

namespace Rover

open Endpoint LumenProtocol

/-- Handlers of the rover itself, not of its owner. -/
def isOwn : Posted → Bool
  | .application _ _ => false
  | .discovery _ _ => false
  | _ => true

/-- What stays in view. -/
@[simps] def trim (base : Option Endpoint) (s : Rover) : Rover :=
  { s with
    discoveredRovers := fun _ => none
    posted := s.posted.filter isOwn
    manager := s.manager.trim base }

variable (base : Option Endpoint) (codec : Codec)

theorem trim_trim (s : Rover) : (s.trim base).trim base = s.trim base := by
  simp [trim,MessageManager.trim_trim]

@[simp] theorem trim_getBaseEndpoint (s : Rover) :
    (s.trim base).getBaseEndpoint = s.getBaseEndpoint := rfl

@[simp] theorem trim_suppresses (s : Rover) (message : Message) :
    (s.trim base).suppresses message = s.suppresses message := rfl

@[simp] theorem trim_message (s : Rover) (content : Content) :
    (s.trim base).message content = s.message content := rfl

@[simp] theorem trim_target (s : Rover) (recipient : Endpoint) :
    (s.trim base).target recipient = s.target recipient := rfl

/-- An operation of the manager, inside the rover. -/
theorem manager_blind (f : MessageManager → MessageManager) (blind : Blind (MessageManager.trim base) f) :
    Blind (trim base) fun s => { s with manager := f s.manager } := by
  intro s
  simp only [trim]
  rw [blind s.manager]
  simp

theorem unchanged : Blind (trim base) fun s => s := .id (trim_trim base)

theorem transmit_blind (message : Message) (recipient : Endpoint) :
    Blind (trim base) fun s => s.transmit codec message recipient :=
  manager_blind base _ (MessageManager.sendMessage_blind base codec message recipient)

theorem storeMessageForLater_blind (message : Message) (recipient : Endpoint) :
    Blind (trim base) fun s => s.storeMessageForLater codec message recipient :=
  .of_commutes (trim_trim base) fun _ => rfl

theorem report_blind (message : Message) : Blind (trim base) fun s => s.report codec message := by
  intro s
  simp only [report,trim_getBaseEndpoint]
  split
  · exact unchanged base s
  · next station _ =>
    have branches : Blind (trim base) fun s => if s.suppresses message then s
        else if s.sessionState = .disconnected then s.storeMessageForLater codec message station
        else if s.sessionState = .active then s.transmit codec message station else s :=
      .ite (fun _ => Iff.rfl) (unchanged base) (.ite (fun _ => Iff.rfl)
        (storeMessageForLater_blind base codec message station)
        (.ite (fun _ => Iff.rfl) (transmit_blind base codec message station) (unchanged base)))
    exact branches s

theorem sendMessage_blind (message : Message) (recipient : Endpoint) :
    Blind (trim base) fun s => s.sendMessage codec message recipient := by
  intro s
  simp only [sendMessage,trim_target]
  split
  · exact unchanged base s
  · next target targetIsBase _ =>
    have branches : Blind (trim base) fun s => if s.suppresses message then s
        else if s.sessionState = .disconnected ∧ targetIsBase then
          s.storeMessageForLater codec message target
        else if s.sessionState = .active ∨ !targetIsBase then
          if s.lowPowerMode ∧ !targetIsBase then s else s.transmit codec message target
        else s :=
      .ite (fun _ => Iff.rfl) (unchanged base) (.ite (fun _ => Iff.rfl)
        (storeMessageForLater_blind base codec message target)
        (.ite (fun _ => Iff.rfl) (.ite (fun _ => Iff.rfl) (unchanged base)
          (transmit_blind base codec message target)) (unchanged base)))
    exact branches s

theorem sendRawMessage_blind (message : Message) (recipient : Endpoint) :
    Blind (trim base) fun s => s.sendRawMessage message recipient :=
  .ite (fun _ => Iff.rfl) (unchanged base) (.ite (fun _ => Iff.rfl) (unchanged base)
    (.ite (fun _ => Iff.rfl) (unchanged base)
      (manager_blind base _ (MessageManager.sendRawMessage_blind base message recipient))))

theorem sendCommand_blind (command params : String) :
    Blind (trim base) fun s => s.sendCommand codec command params := by
  intro s
  simp only [sendCommand,trim_getBaseEndpoint,trim_suppresses,trim_message,trim_sessionState]
  split
  · exact unchanged base s
  · split
    · exact unchanged base s
    · next station _ =>
      have sent := transmit_blind base codec (s.message (.command command params)) station s
      split
      · exact sent
      · split
        · exact sent
        · exact unchanged base s

theorem scanForRovers_blind (discoveryPort : UInt16) (text : String) :
    Blind (trim base) fun s => s.scanForRovers discoveryPort text := by
  intro s
  simp only [scanForRovers,trim_lowPowerMode,trim_clientOpen,trim_message]
  split
  · exact unchanged base s
  · exact manager_blind base _ (fun m => m.trim_append base m.protocol _) s

/-- A report, and the next wait for it. -/
theorem handleStatusTimer_blind : Blind (trim base) fun s => s.handleStatusTimer codec := by
  have rearmed : Blind (trim base) fun s => { s with statusTimer := true } :=
    .of_commutes (trim_trim base) fun _ => rfl
  intro s
  exact rearmed.agree (report_blind base codec _ s)

theorem handlePositionTelemetryTimer_blind :
    Blind (trim base) fun s => s.handlePositionTelemetryTimer codec := by
  have rearmed : Blind (trim base) fun s => { s with positionTelemetryTimer := true } :=
    .of_commutes (trim_trim base) fun _ => rfl
  intro s
  exact rearmed.agree (report_blind base codec _ s)

theorem sendStored_blind (stored : StoredPacket) :
    Blind (trim base) fun s => s.sendStored stored := by
  have given : Blind (MessageManager.trim base) fun m => { m with
      protocol := m.protocol.sendMessage stored.payload stored.type stored.priority stored.recipient
      sent := m.sent ++ (m.protocol.destination stored.recipient).toList.map (stored.message,·) } :=
    fun m => m.trim_append base _ _
  exact manager_blind base _ given

theorem foldl_sendStored_blind (packets : List StoredPacket) :
    Blind (trim base) fun s => packets.foldl sendStored s := by
  induction packets with
  | nil => exact unchanged base
  | cons packet rest ih => exact ih.comp (sendStored_blind base packet)

theorem sendStoredPackets_blind : Blind (trim base) fun s => s.sendStoredPackets := by
  have emptied : Blind (trim base) fun s => { s with storedPackets := [] } :=
    .of_commutes (trim_trim base) fun _ => rfl
  intro s
  exact emptied.agree (foldl_sendStored_blind base s.storedPackets s)

theorem handleSessionEstablished_blind :
    Blind (trim base) fun s => s.handleSessionEstablished codec := by
  have entered : Blind (trim base) fun s => s.opened := .of_commutes (trim_trim base) fun _ => rfl
  exact .ite (fun _ => Iff.rfl) (unchanged base)
    ((handlePositionTelemetryTimer_blind base codec).comp
      ((handleStatusTimer_blind base codec).comp ((sendStoredPackets_blind base).comp entered)))

theorem post_blind (handler : Posted) : Blind (trim base) fun s => s.post handler := by
  intro s
  simp [trim,post,MessageManager.trim_trim]

theorem handleSessionAccept_blind : Blind (trim base) fun s => s.handleSessionAccept codec := by
  intro s
  by_cases waiting : s.sessionState = .handshakeInit ∨ s.sessionState = .disconnected
  · have cut : (s.confirming).trim base = ((s.trim base).confirming).trim base := by
      simp only [confirming,trim_sessionState]
      split <;> exact (trim_trim base _).symm
    dsimp only
    rw [handleSessionAccept_eq codec s waiting,handleSessionAccept_eq codec (s.trim base) waiting]
    exact (post_blind base .armHandshake).agree
      ((sendCommand_blind base codec "SESSION_CONFIRM" s.roverId).agree cut)
  · dsimp only
    rw [handleSessionAccept_ignored codec s waiting,
      handleSessionAccept_ignored codec (s.trim base) waiting,trim_trim]

theorem setTarget_blind (params : String) : Blind (trim base) fun s => s.setTarget codec params := by
  refine .of_commutes (trim_trim base) fun s => ?_
  simp only [setTarget,trim_currentCoordinate]
  split
  · split <;> rfl
  · rfl

theorem handleInternalCommand_blind (command params : String) :
    Blind (trim base) fun s => s.handleInternalCommand codec command params := by
  have powered : Blind (trim base) fun s => { s with lowPowerMode := params = "1" } :=
    .of_commutes (trim_trim base) fun _ => rfl
  exact .ite (fun _ => Iff.rfl) (handleSessionAccept_blind base codec) (.ite (fun _ => Iff.rfl)
    (handleSessionEstablished_blind base codec) (.ite (fun _ => Iff.rfl) powered
      (.ite (fun _ => Iff.rfl) (setTarget_blind base codec params) (unchanged base))))

/-- Rovers that announce themselves are out of view, and so is what the owner is told of them. -/
theorem announced_unseen (s : Rover) (senderId : String) (sender : Endpoint) :
    (s.handleDiscoveryCommand "ROVER_ANNOUNCE" senderId sender).trim base = s.trim base := by
  simp only [handleDiscoveryCommand,if_true]
  split
  · rfl
  · split
    · simp [trim,post,isOwn]
    · rfl

theorem handUp_unseen (s : Rover) (message : Message) (sender : Endpoint) :
    (s.handUp message sender).trim base = s.trim base := by
  simp only [handUp]
  split
  · simp [trim,post,isOwn]
  · rfl

theorem handleDiscoveryCommand_blind (command senderId : String) (sender : Endpoint) :
    Blind (trim base) fun s => s.handleDiscoveryCommand command senderId sender := by
  by_cases announce : command = "ROVER_ANNOUNCE"
  · rw [announce]
    exact .of_unseen (trim_trim base) fun s => announced_unseen base s senderId sender
  · intro s
    simp only [handleDiscoveryCommand,if_neg announce,trim_roverId,trim_lowPowerMode,trim_message]
    split
    · exact unchanged base s
    · split
      · split
        · exact unchanged base s
        · exact sendRawMessage_blind base _ sender s
      · exact unchanged base s

theorem routeMessage_blind (message : Message) (sender : Endpoint) :
    Blind (trim base) fun s => s.routeMessage codec message sender := by
  have upward : Blind (trim base) fun s => s.handUp message sender :=
    .of_unseen (trim_trim base) fun s => handUp_unseen base s message sender
  obtain ⟨id,timestamp,content⟩ := message
  cases content with
  | command command params =>
    exact .ite (fun _ => Iff.rfl) (unchanged base) (.ite (fun _ => Iff.rfl)
      (.ite (fun _ => Iff.rfl) (handleInternalCommand_blind base codec command params)
        (unchanged base))
      (.ite (fun _ => Iff.rfl)
        (.ite (fun _ => Iff.rfl) (handleDiscoveryCommand_blind base command id sender)
          (unchanged base)) upward))
  | basic | telemetry | status => exact .ite (fun _ => Iff.rfl) (unchanged base) upward

/-- Raw messages go where they are sent, as no recipient is left open. -/
theorem sendRawMessage_unseen (s : Rover) (message : Message) (recipient : Endpoint)
    (foreign : s.getBaseEndpoint ≠ some recipient) :
    (s.sendRawMessage message recipient).trim s.getBaseEndpoint = s.trim s.getBaseEndpoint := by
  simp only [sendRawMessage]
  split
  · rfl
  · next given =>
    have apart : ∀ endpoint ∈ s.manager.rawDestination recipient, endpoint = recipient := by
      have known : recipient.isUnspecified = false := by simpa using (not_or.mp given).1
      have other : s.manager.protocol.getBaseEndpoint ≠ some recipient := foreign
      intro endpoint goes
      simp only [MessageManager.rawDestination,known,other] at goes
      split at goes <;> simp_all
    have outside : ((s.manager.rawDestination recipient).toList.map (message,·)).filter
        (fun entry => s.getBaseEndpoint = some entry.2) = [] := by
      refine List.filter_eq_nil_iff.mpr fun entry member => ?_
      obtain ⟨endpoint,goes,rfl⟩ := List.mem_map.mp member
      rw [apart endpoint (Option.mem_toList.mp goes)]
      simpa using foreign
    split
    · rfl
    · split
      · rfl
      · simp only [trim,MessageManager.sendRawMessage]
        split
        · rfl
        · simp only [MessageManager.trim,List.filter_append,outside,List.append_nil]

theorem handleDiscoveryCommand_unseen (s : Rover) (command senderId : String) (sender : Endpoint)
    (foreign : s.getBaseEndpoint ≠ some sender) :
    (s.handleDiscoveryCommand command senderId sender).trim s.getBaseEndpoint =
      s.trim s.getBaseEndpoint := by
  by_cases announce : command = "ROVER_ANNOUNCE"
  · rw [announce]
    exact announced_unseen _ s senderId sender
  · simp only [handleDiscoveryCommand,if_neg announce]
    split
    · rfl
    · split
      · split
        · rfl
        · exact sendRawMessage_unseen s _ sender foreign
      · rfl

/-- A message from another endpoint changes nothing in view. -/
theorem routeMessage_unseen (s : Rover) (message : Message) (sender : Endpoint)
    (foreign : s.getBaseEndpoint ≠ some sender) :
    (s.routeMessage codec message sender).trim s.getBaseEndpoint = s.trim s.getBaseEndpoint := by
  have routed := routeMessage_routed codec s message sender
  generalize s.routeMessage codec message sender = t at routed ⊢
  cases routed with
  | ignored => rfl
  | accept from_ | established from_ => exact absurd from_.2.1 foreign
  | power params base | target params base => exact absurd base foreign
  | discovery command => exact handleDiscoveryCommand_unseen s command message.sender sender foreign
  | up => exact handUp_unseen _ s message sender

/-! ### Timers, posted handlers and the layers below -/

theorem handleBaseDisconnect_blind : Blind (trim base) fun s => s.handleBaseDisconnect := by
  have lost : Blind (trim base) fun s =>
      ((s.enter .disconnected).setHandshakeTimer false).setProbeTimer false :=
    .of_commutes (trim_trim base) fun _ => rfl
  exact .ite (fun _ => Iff.rfl) (unchanged base)
    ((post_blind base .armProbe).comp ((post_blind base .resetSequence).comp lost))

theorem setHandshakeTimer_blind (pending : Bool) :
    Blind (trim base) fun s => s.setHandshakeTimer pending :=
  .of_commutes (trim_trim base) fun _ => rfl

theorem setProbeTimer_blind (pending : Bool) : Blind (trim base) fun s => s.setProbeTimer pending :=
  .of_commutes (trim_trim base) fun _ => rfl

theorem handleHandshakeTimer_blind : Blind (trim base) fun s => s.handleHandshakeTimer codec := by
  have resent : Blind (trim base) fun s =>
      ((s.setHandshakeRetryCount (s.handshakeRetryCount + 1)).sendCommand codec
        (if s.sessionState = .handshakeInit then "SESSION_INIT" else "SESSION_CONFIRM")
        s.roverId).setHandshakeTimer true := by
    intro s
    have counted : Blind (trim base) fun s =>
        s.setHandshakeRetryCount (s.handshakeRetryCount + 1) :=
      .of_commutes (trim_trim base) fun _ => rfl
    exact (setHandshakeTimer_blind base true).agree
      ((sendCommand_blind base codec _ s.roverId).agree (counted s))
  exact .ite (fun _ => Iff.rfl) (.ite (fun _ => Iff.rfl) resent (handleBaseDisconnect_blind base))
    (unchanged base)

theorem handleProbeTimer_blind : Blind (trim base) fun s => s.handleProbeTimer codec := by
  have probed : Blind (trim base) fun s =>
      (s.sendCommand codec "SESSION_INIT" s.roverId).setProbeTimer true := fun s =>
    (setProbeTimer_blind base true).agree (sendCommand_blind base codec "SESSION_INIT" s.roverId s)
  exact .ite (fun _ => Iff.rfl) probed (unchanged base)

theorem handleMovementTimer_blind : Blind (trim base) fun s => s.handleMovementTimer codec := by
  have arrived : Blind (trim base) fun s => { s with targetCoordinate := none } :=
    .of_commutes (trim_trim base) fun _ => rfl
  intro s
  simp only [handleMovementTimer,trim_targetCoordinate,trim_currentCoordinate]
  split
  · exact unchanged base s
  · split
    · simp only [getBaseEndpoint,trim_manager,MessageManager.trim_protocol]
      cases s.manager.protocol.getBaseEndpoint with
      | none => exact arrived s
      | some station => exact (sendMessage_blind base codec _ station).agree (arrived s)
    · exact (trim_trim base _).symm

theorem expire_blind (timer : Timer) : Blind (trim base) fun s => s.expire codec timer := by
  cases timer with
  | status =>
    have elapsed : Blind (trim base) fun s => { s with statusTimer := false } :=
      .of_commutes (trim_trim base) fun _ => rfl
    exact .ite (fun _ => Iff.rfl) ((handleStatusTimer_blind base codec).comp elapsed)
      (unchanged base)
  | handshake =>
    exact .ite (fun _ => Iff.rfl)
      ((handleHandshakeTimer_blind base codec).comp (setHandshakeTimer_blind base false))
      (unchanged base)
  | positionTelemetry =>
    have elapsed : Blind (trim base) fun s => { s with positionTelemetryTimer := false } :=
      .of_commutes (trim_trim base) fun _ => rfl
    exact .ite (fun _ => Iff.rfl) ((handlePositionTelemetryTimer_blind base codec).comp elapsed)
      (unchanged base)
  | probe =>
    exact .ite (fun _ => Iff.rfl)
      ((handleProbeTimer_blind base codec).comp (setProbeTimer_blind base false)) (unchanged base)
  | movement =>
    have elapsed : Blind (trim base) fun s => { s with movementTimer := false } :=
      .of_commutes (trim_trim base) fun _ => rfl
    exact .ite (fun _ => Iff.rfl) ((handleMovementTimer_blind base codec).comp elapsed)
      (unchanged base)

theorem runHandler_blind (handler : Posted) : Blind (trim base) fun s => s.runHandler handler := by
  cases handler with
  | resetSequence =>
    have reset : Blind (MessageManager.trim base) fun m =>
        { m with protocol := m.protocol.resetSequenceNumber } :=
      .of_commutes (MessageManager.trim_trim base) fun _ => rfl
    exact manager_blind base _ reset
  | armProbe => exact setProbeTimer_blind base true
  | armHandshake => exact setHandshakeTimer_blind base true
  | packetTimeout recipient =>
    exact .ite (fun _ => Iff.rfl) (handleBaseDisconnect_blind base) (unchanged base)
  | application | discovery => exact unchanged base

theorem onProtocol_blind (input : LumenProtocol.Input) :
    Blind (trim base) fun s => s.onProtocol codec input := by
  intro s
  simp only [onProtocol,trim,MessageManager.trim,List.filter_append,List.filter_filter,
    Bool.and_self]

theorem stop_blind : Blind (trim base) fun s => s.stop :=
  .of_commutes (trim_trim base) fun _ => rfl

theorem runPosted_own_blind (rank : Nat) :
    Blind (trim base) fun s => s.runPosted (s.posted.findIdxNth isOwn rank) := by
  intro s
  have queued := getElem?_findIdxNth isOwn s.posted rank
  have trimmed : (s.trim base).posted[(s.trim base).posted.findIdxNth isOwn rank]? =
      (s.posted.filter isOwn)[rank]? := by
    rw [getElem?_findIdxNth]
    simp
  simp only [runPosted,queued,trimmed]
  cases (s.posted.filter isOwn)[rank]? with
  | none => exact unchanged base s
  | some handler =>
    refine (runHandler_blind base handler).agree ?_
    simp only [trim,filter_eraseIdx_findIdxNth,List.filter_filter,Bool.and_self,
      MessageManager.trim_trim]

/-- The owner's handlers do nothing to the rover. -/
theorem runPosted_owner_unseen (s : Rover) (rank : Nat) :
    (s.runPosted (s.posted.findIdxNth (fun handler => !isOwn handler) rank)).trim base =
      s.trim base := by
  have kind := getElem?_findIdxNth (fun handler => !isOwn handler) s.posted rank
  simp only [runPosted]
  split
  · next handler there =>
    have foreign : isOwn handler = false := by
      have member := List.mem_of_getElem? (kind.symm.trans there)
      simpa using (List.mem_filter.mp member).2
    have kept := filter_eraseIdx_of_not isOwn s.posted _ handler there foreign
    cases handler with
    | application | discovery => simp only [runHandler,trim,kept]
    | resetSequence | armProbe | armHandshake | packetTimeout => cases foreign
  · rfl

/-! ### Runs -/

def Input.isRunPosted : Input → Bool
  | .runPosted _ => true
  | _ => false

/-- What can happen to the rover. A posted handler is named by its rank among the rover's own
handlers, or among those of its owner. -/
inductive Event where
  | input (input : Input) (direct : input.isRunPosted = false)
  | own (rank : Nat)
  | owner (rank : Nat)

def deliver (s : Rover) : Event → Rover
  | .input input _ => s.step codec input
  | .own rank => s.runPosted (s.posted.findIdxNth isOwn rank)
  | .owner rank => s.runPosted (s.posted.findIdxNth (fun handler => !isOwn handler) rank)

/-- Every step of the rover is an event. -/
theorem exists_event (s : Rover) (input : Input) :
    ∃ event, s.deliver codec event = s.step codec input := by
  cases direct : input.isRunPosted with
  | false => exact ⟨.input input direct,rfl⟩
  | true =>
    cases input with
    | runPosted position =>
      cases there : s.posted[position]? with
      | none =>
        have beyond : s.posted[s.posted.findIdxNth isOwn s.posted.length]? = none := by
          rw [getElem?_findIdxNth]
          exact List.getElem?_eq_none (List.length_filter_le _ _)
        exact ⟨.own s.posted.length,by simp only [deliver,step,runPosted,beyond,there]⟩
      | some handler =>
        cases kind : isOwn handler with
        | true =>
          obtain ⟨rank,found⟩ := exists_rank isOwn s.posted position handler there kind
          exact ⟨.own rank,by rw [deliver,found,step]⟩
        | false =>
          obtain ⟨rank,found⟩ := exists_rank (fun handler => !isOwn handler) s.posted position
            handler there (by simp [kind])
          exact ⟨.owner rank,by rw [deliver,found,step]⟩
    | _ => cases direct

theorem deliver_registered (s : Rover) (event : Event) :
    (s.deliver codec event).getBaseEndpoint = s.getBaseEndpoint := by
  cases event with
  | input input => exact step_registered codec s input
  | own rank => exact step_registered codec s (.runPosted _)
  | owner rank => exact step_registered codec s (.runPosted _)

theorem deliver_blind (event : Event) : Blind (trim base) fun s => s.deliver codec event := by
  cases event with
  | own rank => exact runPosted_own_blind base rank
  | owner rank =>
    exact .of_unseen (trim_trim base) fun s => runPosted_owner_unseen base s rank
  | input input direct =>
    cases input with
    | route message sender => exact routeMessage_blind base codec message sender
    | expire timer => exact expire_blind base codec timer
    | runPosted => cases direct
    | timeoutNotification recipient => exact post_blind base (.packetTimeout recipient)
    | protocol event => exact onProtocol_blind base codec event
    | sendMessage message recipient => exact sendMessage_blind base codec message recipient
    | sendRawMessage message recipient => exact sendRawMessage_blind base message recipient
    | sendCommand command params => exact sendCommand_blind base codec command params
    | sendTelemetry readings => exact fun s => report_blind base codec _ s
    | sendStatus => exact fun s => report_blind base codec _ s
    | handlePositionTelemetryTimer => exact handlePositionTelemetryTimer_blind base codec
    | scanForRovers discoveryPort text => exact scanForRovers_blind base discoveryPort text
    | stop => exact stop_blind base
    | updateStatus | updateCurrentPosition | setApplicationMessageHandler
    | setDiscoveryMessageHandler => exact .of_commutes (trim_trim base) fun _ => rfl

/-- All but the messages of other endpoints than the base station. -/
def Event.visible (base : Option Endpoint) : Event → Bool
  | .input (.route _ sender) _ => base = some sender
  | _ => true

/-- What other endpoints must not steer. -/
structure Bearing where
  sessionState : SessionState
  handshakeRetryCount : Nat
  lowPowerMode : Bool
  targetCoordinate : Option Coordinate
  currentCoordinate : Coordinate
  storedPackets : List StoredPacket
  sentToBase : List (Message × Endpoint)

def bearing (base : Option Endpoint) (s : Rover) : Bearing where
  sessionState := s.sessionState
  handshakeRetryCount := s.handshakeRetryCount
  lowPowerMode := s.lowPowerMode
  targetCoordinate := s.targetCoordinate
  currentCoordinate := s.currentCoordinate
  storedPackets := s.storedPackets
  sentToBase := s.manager.sent.filter fun entry => base = some entry.2

theorem bearing_trim (s : Rover) : bearing base (s.trim base) = bearing base s := by
  simp [bearing,MessageManager.trim]

theorem bearing_agree {s t : Rover} (same : s.trim base = t.trim base) :
    bearing base s = bearing base t := by
  rw [← bearing_trim,same,bearing_trim]

theorem deliver_unseen (s : Rover) (event : Event) (registered : s.getBaseEndpoint = base)
    (foreign : event.visible base = false) : (s.deliver codec event).trim base = s.trim base := by
  subst registered
  cases event with
  | input input direct =>
    cases input with
    | route message sender =>
      exact routeMessage_unseen codec s message sender (of_decide_eq_false foreign)
    | _ => cases foreign
  | own | owner => cases foreign

/-- The bearing after a visible event. -/
def shown (s : Rover) (event : Event) : List Bearing :=
  if event.visible base then [bearing base (s.deliver codec event)] else []

/-- For every run, from any state: the messages of other endpoints change nothing, and without
them the run goes through the same bearings. -/
theorem foreign_messages_powerless (start : Rover) (events : List Event) :
    let base := start.getBaseEndpoint
    Machine.Guarded (deliver codec) (fun s event => event.visible base = false →
      bearing base (s.deliver codec event) = bearing base s) start events ∧
    Machine.trace (deliver codec) (shown base codec) start events =
      Machine.trace (deliver codec) (shown base codec) start
        (events.filter (Event.visible base)) := by
  intro base
  constructor
  · intro done event _ foreign
    have registered : (Machine.run (deliver codec) start done).getBaseEndpoint = base :=
      @Machine.run_invariant _ _ (deliver codec) (fun s => s.getBaseEndpoint = base)
        (fun s event same => (deliver_registered codec s event).trans same) start done rfl
    exact bearing_agree base (deliver_unseen base codec _ event registered foreign)
  · refine @Machine.trace_filter _ _ (deliver codec) _ (shown base codec)
      (fun s t => s.trim base = t.trim base ∧ s.getBaseEndpoint = base) (Event.visible base)
      ?_ ?_ ?_ ?_ start start events ⟨rfl,rfl⟩
    · rintro s t event _ ⟨agree,registered⟩
      exact ⟨(deliver_blind base codec event).agree agree,
        (deliver_registered codec s event).trans registered⟩
    · rintro s t event foreign ⟨agree,registered⟩
      exact ⟨(deliver_unseen base codec s event registered foreign).trans agree,
        (deliver_registered codec s event).trans registered⟩
    · rintro s t event seen ⟨agree,_⟩
      rw [shown,shown,bearing_agree base ((deliver_blind base codec event).agree agree)]
    · intro s event foreign
      simp [shown,foreign]

end Rover

end Lumen
