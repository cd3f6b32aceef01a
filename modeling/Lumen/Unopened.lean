import Lumen.AckDiscipline
import Lumen.Frame
import Lumen.Traffic

/-! Before its first session the base station has acknowledged nothing. It drops every packet whose
number it has acknowledged, in a session or not, so this is what makes it hear a handshake. -/
namespace Lumen

open Endpoint Message

namespace LumenProtocol

open ReliabilityManager

variable {codec : Codec} {heard : Endpoint → Prop} {s t : LumenProtocol}

/-- Nothing that can happen to the protocol takes its callback away. -/
theorem Moves.messageCallback (moves : Moves codec heard s t) :
    t.messageCallback = s.messageCallback := by
  cases moves with
  | datagram data sender | text data sender =>
    exact step_messageCallback codec s (.datagram data sender)
  | packet packet sender => exact (processCompletePacket_undisturbed s packet sender).messageCallback
  | retransmissionTimer => exact (handleRetransmissionTimer_undisturbed s).messageCallback
  | stop =>
    simp only [LumenProtocol.stop]
    split <;> rfl
  | keeps | cleanupTimer | tick | resetSequenceNumber | setSessionActive | close => rfl

/-- The protocol of a base station that has not been in session. -/
structure Unopened (s : LumenProtocol) : Prop where
  mode : s.mode = .baseStation
  role : s.reliabilityManager.role = .baseStation
  sessionActive : s.sessionActive = false
  record : s.reliabilityManager.ackedSequences = fun _ _ => false

namespace Unopened

/-- What neither disturbs the protocol nor adds to the record. -/
theorem undisturbed (unopened : Unopened s) (same : Undisturbed s t)
    (record : t.reliabilityManager.ackedSequences = s.reliabilityManager.ackedSequences) :
    Unopened t where
  mode := same.mode.trans unopened.mode
  role := same.managerRole.trans unopened.role
  sessionActive := same.sessionActive.trans unopened.sessionActive
  record := record.trans unopened.record

/-- Outside a session a packet is not acknowledged. -/
theorem processCompletePacket (unopened : Unopened s) (packet : LumenPacket) (endpoint : Endpoint) :
    Unopened (s.processCompletePacket packet endpoint) := by
  have marked : Unopened (s.emit (.processing packet endpoint)) :=
    ⟨unopened.mode,unopened.role,unopened.sessionActive,unopened.record⟩
  apply marked.undisturbed (processCompletePacket_undisturbed s packet endpoint)
  have closed : ¬ (CarriesPayload packet ∧ s.sessionActive = true) := by
    simp [unopened.sessionActive]
  rw [processCompletePacket_manager s packet endpoint unopened.mode,if_neg closed]
  simp only [noted,recordReceivedSequence]
  split <;> rfl

theorem handleUdpData (unopened : Unopened s) (data : List UInt8) (endpoint : Endpoint) :
    Unopened (handleUdpData codec s data endpoint) := by
  refine handleUdpData_keeps codec Unopened endpoint ?_ ?_ ?_ s data unopened
  · exact fun t key bytes before => ⟨before.mode,before.role,before.sessionActive,before.record⟩
  · exact fun t packet before => before.processCompletePacket packet endpoint
  · intro t payload before
    apply before.undisturbed (passUp_undisturbed t payload endpoint)
    simp only [passUp]
    split <;> rfl

theorem sendMessage (unopened : Unopened s) (payload : List UInt8) (type : MessageType)
    (priority : Priority) (recipient : Endpoint) :
    Unopened (s.sendMessage payload type priority recipient) :=
  unopened.undisturbed (sendMessage_undisturbed s payload type priority recipient)
    (sendMessage_ackedSequences s payload type priority recipient)

theorem moves (unopened : Unopened s) (moves : Moves codec heard s t)
    (closed : t.sessionActive = false) : Unopened t := by
  cases moves with
  | datagram data sender | text data sender => exact unopened.handleUdpData data sender
  | packet packet sender => exact unopened.processCompletePacket packet sender
  | retransmissionTimer =>
    apply unopened.undisturbed (handleRetransmissionTimer_undisturbed s)
    rw [handleRetransmissionTimer_manager,handleRetransmissionTimer_baseStation _ _ unopened.role]
  | cleanupTimer =>
    refine ⟨unopened.mode,?_,unopened.sessionActive,?_⟩
    · exact (handleCleanupTimer_setup _ _).2.trans unopened.role
    · simp only [handleCleanupTimer,ReliabilityManager.handleCleanupTimer,cleanupOldEntries]
      split
      · exact unopened.record
      · dsimp only
        split
        · rfl
        · exact unopened.record
  | resetSequenceNumber => exact ⟨unopened.mode,unopened.role,unopened.sessionActive,rfl⟩
  | setSessionActive active => exact ⟨unopened.mode,unopened.role,closed,unopened.record⟩
  | stop =>
    simp only [LumenProtocol.stop]
    split
    · exact unopened
    · exact ⟨unopened.mode,unopened.role,unopened.sessionActive,unopened.record⟩
  | keeps | tick | close =>
    exact ⟨unopened.mode,unopened.role,unopened.sessionActive,unopened.record⟩

end Unopened

end LumenProtocol

/-- The callbacks that connect the layers stay. -/
theorem MessageManager.Operates.listening {codec : Codec} {heard : Endpoint → Prop}
    {m n : MessageManager} (operates : Operates codec heard m n)
    (listening : m.messageCallback = true ∧ m.protocol.messageCallback = true) :
    n.messageCallback = true ∧ n.protocol.messageCallback = true := by
  refine operates.keeps (fun m => m.messageCallback = true ∧ m.protocol.messageCallback = true) ?_
    listening
  intro m n operation before
  cases operation with
  | sends message recipient =>
    exact ⟨before.1,(LumenProtocol.sendMessage_undisturbed m.protocol _ _ _ _).messageCallback.trans
      before.2⟩
  | moves protocol moved => exact ⟨before.1,moved.messageCallback.trans before.2⟩
  | logs | halts => exact before

namespace Session

/-- The session is free, or has been offered to the rover and not yet opened. -/
def Awaits (rover : Peer) (session : Session) : Prop :=
  session = .idle ∨ session = .offered rover

/-- A new offer goes to the rover only if nobody else holds the session: who holds it under the id of
the rover is the rover. -/
theorem awaits_of_onInit {session : Session} {rover peer : Peer}
    (distinct : ∀ holder, session.peer? = some holder → Distinct rover holder)
    (after : Awaits rover (session.onInit peer)) :
    Awaits rover session ∧ session.answer peer ≠ .confirm := by
  simp only [onInit] at after
  split at after
  · next accepted =>
    refine ⟨?_,by rw [accepted]; decide⟩
    rcases after with impossible | offered
    · cases impossible
    · cases offered
      cases session with
      | idle => exact Or.inl rfl
      | offered holder =>
        rcases answer_offer _ _ accepted with impossible | ⟨_,⟨⟩,same⟩
        · cases impossible
        · have here := (distinct holder rfl).mp same
          obtain ⟨id,endpoint⟩ := holder
          cases same
          cases here
          exact Or.inr rfl
      | established holder =>
        rcases answer_offer _ _ accepted with impossible | ⟨_,⟨⟩,same⟩
        · cases impossible
        · have here := (distinct holder rfl).mp same
          obtain ⟨id,endpoint⟩ := holder
          cases same
          cases here
          simp [answer] at accepted
  · refine ⟨after,?_⟩
    rcases after with rfl | rfl
    · simp [answer]
    · simp only [answer]
      split <;> decide

theorem awaits_of_onConfirm {session : Session} {rover peer : Peer}
    (after : Awaits rover (session.onConfirm peer)) :
    Awaits rover session ∧ session ≠ .offered peer := by
  simp only [onConfirm] at after
  split at after
  · rcases after with impossible | impossible <;> cases impossible
  · next other => exact ⟨after,other⟩

end Session

namespace BaseStation

variable {codec : Codec} {s : BaseStation} {rover : Peer}

/-- While nobody but the rover has been offered a session, nothing has been acknowledged. -/
def Fresh (rover : Peer) (s : BaseStation) : Prop :=
  s.session.Awaits rover → s.manager.protocol.Unopened

theorem inactive_of_awaits (waiting : s.session.Awaits rover) : s.sessionState ≠ .active := by
  intro active
  rcases waiting with idle | offered
  · simp [session,active] at idle
  · simp [session,active] at offered

theorem sendCommand_unopened (unopened : s.manager.protocol.Unopened) (command params : String) :
    (s.sendCommand codec command params).manager.protocol.Unopened := by
  simp only [sendCommand]
  split
  · simp only [MessageManager.sendMessage]
    split
    · exact unopened
    · exact unopened.sendMessage _ _ _ _
  · exact unopened

/-- What moves the protocol but not the session. -/
theorem Fresh.moves {heard : Endpoint → Prop} {protocol : LumenProtocol} (fresh : Fresh rover s)
    (node : s.manager.protocol.SameNode protocol)
    (moves : s.manager.protocol.Moves codec heard protocol) :
    Fresh rover (s.onProtocol fun _ => protocol) := by
  intro waiting
  have unopened := fresh waiting
  exact unopened.moves moves (node.sessionActive.trans unopened.sessionActive)

theorem Fresh.handleSessionInit (fresh : Fresh rover s) (valid : Valid s) (peer : Peer)
    (distinct : ∀ holder, s.session.peer? = some holder → Session.Distinct rover holder) :
    Fresh rover (s.handleSessionInit codec peer.id peer.endpoint) := by
  intro after
  rw [(handleSessionInit_session codec s peer valid).1] at after
  obtain ⟨waiting,unconfirmed⟩ := Session.awaits_of_onInit distinct after
  have unopened := fresh waiting
  have inactive := inactive_of_awaits waiting
  rw [handleSessionInit_eq codec s peer valid]
  cases answered : s.session.answer peer with
  | offer =>
    apply sendCommand_unopened
    simp only [offerTo,if_neg inactive]
    exact unopened
  | confirm => exact absurd answered unconfirmed
  | refuse =>
    simp only [BaseStation.refuse,if_neg inactive]
    exact unopened

theorem Fresh.handleSessionConfirm (fresh : Fresh rover s) (valid : Valid s) (peer : Peer) :
    Fresh rover (s.handleSessionConfirm codec peer.id peer.endpoint) := by
  intro after
  rw [(handleSessionConfirm_session codec s peer valid).1] at after
  obtain ⟨waiting,other⟩ := Session.awaits_of_onConfirm after
  rw [handleSessionConfirm_eq codec s peer,if_neg other]
  exact fresh waiting

/-- A message from anybody: the record stays empty until the rover is in session. -/
theorem Fresh.routeMessage (fresh : Fresh rover s) (valid : Valid s) (message : Message)
    (sender : Endpoint)
    (distinct : ∀ holder, s.session.peer? = some holder → Session.Distinct rover holder) :
    Fresh rover (s.routeMessage codec message sender) := by
  rw [routeMessage_eq]
  split
  · exact fresh.handleSessionInit valid ⟨message.sender,sender⟩ distinct
  · split
    · exact fresh.handleSessionConfirm valid ⟨message.sender,sender⟩
    · simp only [handUp]
      split <;> exact fresh

/-- A call of the owner, or something below the messages. -/
theorem Fresh.step (fresh : Fresh rover s) (input : Input) (traffic : input.isTraffic = true) :
    Fresh rover (s.step codec input) := by
  intro waiting
  have quiet := step_quiet codec s input traffic
  have unopened := fresh (quiet.session ▸ waiting)
  cases input with
  | route | stop => cases traffic
  | sendCommand | setLowPowerMode | setRoverTarget => exact sendCommand_unopened unopened _ _
  | sendMessage message recipient =>
    simp only [BaseStation.step,BaseStation.sendMessage]
    split
    · exact unopened
    · simp only [MessageManager.sendMessage]
      split
      · exact unopened
      · exact unopened.sendMessage _ _ _ _
  | sendRawMessage message recipient =>
    simp only [BaseStation.step,BaseStation.sendRawMessage]
    split
    · exact unopened
    · simp only [MessageManager.sendRawMessage]
      split <;> exact unopened
  | protocol input external =>
    exact unopened.moves (LumenProtocol.step_moves codec _ input external fun _ _ => trivial)
      (quiet.node.sessionActive.trans unopened.sessionActive)
  | setStatusCallback | setApplicationMessageHandler => exact unopened

theorem started_fresh (stationId : String) (clock : Clock) : Fresh rover (started stationId clock) := by
  intro _
  refine ⟨rfl,?_,rfl,?_⟩
  · have setup := (ReliabilityManager.new .baseStation).start_setup clock.steady
    exact setup.2
  · exact LumenProtocol.start_ackedSequences (.new .baseStation) clock.steady rfl rfl

end BaseStation

end Lumen
