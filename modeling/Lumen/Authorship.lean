import Lumen.BaseReplies
import Lumen.RoverReplies

/-! Who signs what the nodes put on the wire. A rover and a base station send messages of their
own under their own id, and pass on those of their owner; a rover whose owner signs its messages
therefore sends and stores nothing under another name. -/
namespace Lumen

open Endpoint Message

namespace Rover

variable (codec : Codec)

/-- What is sent and stored carries the id of the rover. -/
structure Authors (s t : Rover) : Prop where
  roverId : t.roverId = s.roverId
  mode : t.manager.protocol.mode = s.manager.protocol.mode
  sent : SendsOnly (·.sender = s.roverId) s.manager.sent t.manager.sent
  stored : ∀ packet ∈ t.storedPackets, packet ∈ s.storedPackets ∨ packet.message.sender = s.roverId

/-- The log and the stored packets of a rover, in any state it can be in. -/
structure Authored (id : String) (s : Rover) : Prop where
  roverId : s.roverId = id
  mode : s.manager.protocol.mode = .rover
  sent : ∀ entry ∈ s.manager.sent, entry.1.sender = id
  stored : ∀ packet ∈ s.storedPackets, packet.message.sender = id

namespace Authors

theorem trans (first : Authors s t) (second : Authors t u) : Authors s u where
  roverId := second.roverId.trans first.roverId
  mode := second.mode.trans first.mode
  sent := first.sent.trans (first.roverId ▸ second.sent)
  stored := by
    intro packet member
    rcases second.stored packet member with middle | own
    · exact first.stored packet middle
    · exact Or.inr (own.trans first.roverId)

theorem of_same (roverId : t.roverId = s.roverId)
    (mode : t.manager.protocol.mode = s.manager.protocol.mode)
    (sent : t.manager.sent = s.manager.sent) (stored : t.storedPackets = s.storedPackets) :
    Authors s t where
  roverId := roverId
  mode := mode
  sent := by rw [sent]; exact .refl _
  stored := by rw [stored]; exact fun _ member => Or.inl member

/-- A change of the session or of the timers comes first. -/
theorem after (authors : Authors t u) (roverId : t.roverId = s.roverId)
    (mode : t.manager.protocol.mode = s.manager.protocol.mode)
    (sent : t.manager.sent = s.manager.sent) (stored : t.storedPackets = s.storedPackets) :
    Authors s u :=
  (of_same roverId mode sent stored).trans authors

theorem of_quiet (quiet : Quiet (·.sender = s.roverId) s t) : Authors s t :=
  ⟨quiet.roverId,quiet.node.mode,quiet.sent,quiet.stored⟩

theorem authored {id : String} (authors : Authors s t) (authored : Authored id s) : Authored id t where
  roverId := authors.roverId.trans authored.roverId
  mode := authors.mode.trans authored.mode
  sent := by
    obtain ⟨more,sent,own⟩ := authors.sent
    rw [sent]
    intro entry member
    rcases List.mem_append.mp member with earlier | now
    · exact authored.sent entry earlier
    · exact (own entry now).trans authored.roverId
  stored := by
    intro packet member
    rcases authors.stored packet member with earlier | own
    · exact authored.stored packet earlier
    · exact own.trans authored.roverId

end Authors

theorem report_authors (s : Rover) (content : Content) :
    Authors s (s.report codec (s.message content)) :=
  .of_quiet (report_quiet codec s _ rfl)

theorem sendCommand_authors (s : Rover) (command params : String) :
    Authors s (s.sendCommand codec command params) :=
  .of_quiet (sendCommand_quiet codec s command params rfl)

theorem scanForRovers_authors (s : Rover) (discoveryPort : UInt16) (text : String) :
    Authors s (s.scanForRovers discoveryPort text) := by
  simp only [scanForRovers]
  split
  · exact .of_same rfl rfl rfl rfl
  · refine ⟨rfl,rfl,⟨_,rfl,fun entry member => ?_⟩,fun _ member => Or.inl member⟩
    obtain ⟨_,_,rfl⟩ := List.mem_map.mp member
    rfl

theorem handleDiscoveryCommand_authors (s : Rover) (command senderId : String) (sender : Endpoint) :
    Authors s (s.handleDiscoveryCommand command senderId sender) := by
  simp only [handleDiscoveryCommand]
  split
  · exact .of_same rfl rfl rfl rfl
  · split
    · split <;> exact .of_same rfl rfl rfl rfl
    · split
      · split
        · exact .of_same rfl rfl rfl rfl
        · exact .of_quiet (sendRawMessage_quiet s _ sender rfl)
      · exact .of_same rfl rfl rfl rfl

theorem handleStatusTimer_authors (s : Rover) : Authors s (s.handleStatusTimer codec) :=
  (report_authors codec s _).trans (.of_same rfl rfl rfl rfl)

theorem handlePositionTelemetryTimer_authors (s : Rover) :
    Authors s (s.handlePositionTelemetryTimer codec) :=
  (report_authors codec s _).trans (.of_same rfl rfl rfl rfl)

theorem handleMovementTimer_authors (s : Rover) : Authors s (s.handleMovementTimer codec) := by
  simp only [handleMovementTimer]
  split
  · exact .of_same rfl rfl rfl rfl
  · split
    · split
      · exact .of_same rfl rfl rfl rfl
      · next base _ =>
        have cleared : Authors s { s with targetCoordinate := none } := .of_same rfl rfl rfl rfl
        exact cleared.trans (.of_quiet (sendMessage_quiet codec _ _ base rfl))
    · exact .of_same rfl rfl rfl rfl

theorem handleSessionEstablished_authors (s : Rover)
    (stored : ∀ packet ∈ s.storedPackets, packet.message.sender = s.roverId) :
    Authors s (s.handleSessionEstablished codec) := by
  by_cases active : s.sessionState = .active
  · have ignored : s.handleSessionEstablished codec = s := if_pos active
    rw [ignored]
    exact .of_same rfl rfl rfl rfl
  · let t := (((s.enter .active).setHandshakeRetryCount 0).setHandshakeTimer false).setProbeTimer false
    have unfolded : s.handleSessionEstablished codec =
        (t.sendStoredPackets.handleStatusTimer codec).handlePositionTelemetryTimer codec :=
      if_neg active
    have entered : Authors s t := .of_same rfl rfl rfl rfl
    have forwarded : Authors t t.sendStoredPackets := .of_quiet (sendStoredPackets_quiet t stored)
    rw [unfolded]
    exact (entered.trans forwarded).trans ((handleStatusTimer_authors codec _).trans
      (handlePositionTelemetryTimer_authors codec _))

theorem handleSessionAccept_authors (s : Rover) : Authors s (s.handleSessionAccept codec) := by
  by_cases waiting : s.sessionState = .handshakeInit ∨ s.sessionState = .disconnected
  · obtain ⟨id,manager,stored,_⟩ := confirming_fields s
    rw [handleSessionAccept_eq codec s waiting]
    have prepared : Authors s s.confirming := .of_same id (by rw [manager]) (by rw [manager]) stored
    exact (prepared.trans (sendCommand_authors codec _ _ _)).trans (.of_same rfl rfl rfl rfl)
  · rw [handleSessionAccept_ignored codec s waiting]
    exact .of_same rfl rfl rfl rfl

theorem handleBaseDisconnect_authors (s : Rover) : Authors s s.handleBaseDisconnect := by
  simp only [handleBaseDisconnect]
  split <;> exact .of_same rfl rfl rfl rfl

theorem routeMessage_authors (s : Rover) (message : Message) (sender : Endpoint)
    (stored : ∀ packet ∈ s.storedPackets, packet.message.sender = s.roverId) :
    Authors s (s.routeMessage codec message sender) := by
  have routed := routeMessage_routed codec s message sender
  generalize s.routeMessage codec message sender = t at routed ⊢
  cases routed with
  | accept => exact handleSessionAccept_authors codec s
  | established => exact handleSessionEstablished_authors codec s stored
  | ignored | power => exact .of_same rfl rfl rfl rfl
  | target params => exact .of_quiet (setTarget_quiet codec s params)
  | discovery command => exact handleDiscoveryCommand_authors s command message.sender sender
  | up => exact .of_quiet (handUp_quiet s message sender)

theorem askAgain_authors (s : Rover) (command : String) :
    Authors s ((s.sendCommand codec command s.roverId).setHandshakeTimer true) :=
  (sendCommand_authors codec s _ _).trans (.of_same rfl rfl rfl rfl)

theorem initiateHandshake_authors (s : Rover) : Authors s (s.initiateHandshake codec) := by
  simp only [initiateHandshake]
  split
  · exact .of_same rfl rfl rfl rfl
  · apply (askAgain_authors codec _ _).after
    · split <;> rfl
    · split <;> rfl
    · split <;> rfl
    · split <;> rfl

theorem expire_authors (s : Rover) (timer : Timer) : Authors s (s.expire codec timer) := by
  cases timer with
  | status =>
    simp only [expire]
    split
    · exact (handleStatusTimer_authors codec _).after rfl rfl rfl rfl
    · exact .of_same rfl rfl rfl rfl
  | positionTelemetry =>
    simp only [expire]
    split
    · exact (handlePositionTelemetryTimer_authors codec _).after rfl rfl rfl rfl
    · exact .of_same rfl rfl rfl rfl
  | movement =>
    simp only [expire]
    split
    · exact (handleMovementTimer_authors codec _).after rfl rfl rfl rfl
    · exact .of_same rfl rfl rfl rfl
  | handshake =>
    simp only [expire,handleHandshakeTimer]
    split
    · split
      · split
        · exact (askAgain_authors codec _ _).after rfl rfl rfl rfl
        · exact (handleBaseDisconnect_authors _).after rfl rfl rfl rfl
      · exact .of_same rfl rfl rfl rfl
    · exact .of_same rfl rfl rfl rfl
  | probe =>
    simp only [expire,handleProbeTimer]
    split
    · split
      · have probed (t : Rover) :
            Authors t ((t.sendCommand codec "SESSION_INIT" t.roverId).setProbeTimer true) :=
          (sendCommand_authors codec t _ _).trans (.of_same rfl rfl rfl rfl)
        exact (probed _).after rfl rfl rfl rfl
      · exact .of_same rfl rfl rfl rfl
    · exact .of_same rfl rfl rfl rfl

theorem runPosted_authors (s : Rover) (position : Nat) : Authors s (s.runPosted position) := by
  simp only [runPosted]
  split
  · next handler _ =>
    cases handler with
    | packetTimeout recipient =>
      simp only [runHandler,handlePacketTimeout]
      split
      · exact (handleBaseDisconnect_authors _).after rfl rfl rfl rfl
      · exact .of_same rfl rfl rfl rfl
    | resetSequence | armProbe | armHandshake | application | discovery =>
      exact .of_same rfl rfl rfl rfl
  · exact .of_same rfl rfl rfl rfl

/-- A rover signs what it sends, as long as its owner does. -/
theorem step_authors {id : String} (s : Rover) (input : Input) (authored : Authored id s)
    (spoken : input.Speaks (·.sender = id) s) (live : input ≠ .stop) :
    Authors s (s.step codec input) := by
  have known := authored.roverId
  cases input with
  | route message sender =>
    apply routeMessage_authors codec s message sender
    rw [known]
    exact authored.stored
  | expire timer => exact expire_authors codec s timer
  | runPosted position => exact runPosted_authors s position
  | sendMessage message recipient =>
    exact .of_quiet (sendMessage_quiet codec s message recipient (spoken.trans known.symm))
  | sendRawMessage message recipient =>
    exact .of_quiet (sendRawMessage_quiet s message recipient (spoken.trans known.symm))
  | sendCommand command params => exact sendCommand_authors codec s command params
  | sendTelemetry readings => exact report_authors codec s _
  | sendStatus => exact report_authors codec s _
  | handlePositionTelemetryTimer => exact handlePositionTelemetryTimer_authors codec s
  | scanForRovers discoveryPort text => exact scanForRovers_authors s discoveryPort text
  | stop => exact absurd rfl live
  | protocol input external => exact .of_quiet (onProtocol_quiet codec s input external)
  | timeoutNotification | updateStatus | updateCurrentPosition
  | setApplicationMessageHandler | setDiscoveryMessageHandler => exact .of_same rfl rfl rfl rfl

theorem step_authored {id : String} (s : Rover) (input : Input) (authored : Authored id s)
    (spoken : input.Speaks (·.sender = id) s) : Authored id (s.step codec input) := by
  by_cases live : input = .stop
  · rw [live]
    refine ⟨authored.roverId,?_,authored.sent,nofun⟩
    simp only [step,stop,LumenProtocol.stop]
    split <;> exact authored.mode
  · exact (step_authors codec s input authored spoken live).authored authored

theorem started_authored (roverId : String) (base : Endpoint) (clock : Clock) :
    Authored roverId (started codec roverId base clock) := by
  apply (initiateHandshake_authors codec (new roverId base clock).launched).authored
  exact ⟨rfl,rfl,nofun,nofun⟩

end Rover

/-- The station signs what it sends by itself. -/
theorem BaseStation.step_sendsSigned (codec : Codec) {allowed : Message → Prop} (s : BaseStation)
    (input : Input) (valid : Valid s) (own : ∀ message, message.sender = s.stationId → allowed message)
    (spoken : input.Speaks allowed s) :
    (s.step codec input).stationId = s.stationId ∧
      SendsOnly allowed s.manager.sent (s.step codec input).manager.sent := by
  by_cases traffic : input.isTraffic = true
  · refine ⟨(step_quiet codec s input traffic).stationId,?_⟩
    cases input with
    | route | stop => cases traffic
    | sendCommand command params => exact sendCommand_sendsOnly codec s command params spoken
    | setLowPowerMode enable => exact sendCommand_sendsOnly codec s _ _ (own _ rfl)
    | setRoverTarget latitude longitude => exact sendCommand_sendsOnly codec s _ _ (own _ rfl)
    | sendMessage message recipient =>
      simp only [step,sendMessage]
      split
      · exact .refl _
      · exact MessageManager.sendMessage_sendsOnly codec s.manager message recipient spoken
    | sendRawMessage message recipient =>
      simp only [step,sendRawMessage]
      split
      · exact .refl _
      · exact MessageManager.sendRawMessage_sendsOnly s.manager message recipient spoken
    | setStatusCallback | setApplicationMessageHandler | protocol => exact .refl _
  · cases input with
    | stop => exact ⟨rfl,.refl _⟩
    | route message sender =>
      refine ⟨(routeMessage_up codec s message sender valid).1,?_⟩
      rcases (routeMessage_sent codec s message sender valid).1 with nothing | ⟨entry,sent,signed,_⟩
      · simp only [step,nothing]
        exact .refl _
      · refine ⟨[entry],sent,fun other member => ?_⟩
        rw [List.mem_singleton.mp member]
        exact own entry.1 signed
    | _ => exact absurd rfl traffic

end Lumen
