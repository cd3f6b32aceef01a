import Lumen.BaseReplies
import Lumen.Frame
import Lumen.Lifecycle
import Lumen.LowPower
import Lumen.Retention

/-! What is left of a node that has been stopped. Its handlers may still run, its timers may have
been armed again by a handler that was posted before, its owner may go on calling it and messages
may still be on their way up; none of this puts anything on the wire. -/
namespace Lumen

open Machine

namespace LumenProtocol

theorem Halted.effects {codec : Codec} (halted : Halted s) (event : Input)
    (external : event.isExternal = true) : (s.step codec event).effects = s.effects := by
  cases event with
  | datagram data endpoint =>
    have ignored : handleUdpData codec s data endpoint = s := by
      simp [handleUdpData,halted.running]
    rw [LumenProtocol.step,ignored]
  | retransmissionTimer =>
    have ignored : s.handleRetransmissionTimer = s := by
      simp [handleRetransmissionTimer,ReliabilityManager.handleRetransmissionTimer,
        halted.managerRunning]
    rw [LumenProtocol.step,ignored]
  | cleanupTimer | tick => rfl
  | sendMessage | resetSequenceNumber | setSessionActive => cases external

end LumenProtocol

namespace Rover

variable (codec : Codec)

/-- Stopped: neither the message manager nor the protocol passes anything on. -/
structure Muted (s : Rover) : Prop where
  manager : s.manager.running = false
  protocol : LumenProtocol.Halted s.manager.protocol

section Muted

variable {s : Rover} (muted : Muted s)

include muted

theorem transmit_muted (message : Message) (recipient : Endpoint) :
    (s.transmit codec message recipient).manager = s.manager := by
  simp [transmit,MessageManager.sendMessage,muted.manager]

theorem sendRawMessage_muted (message : Message) (recipient : Endpoint) :
    (s.sendRawMessage message recipient).manager = s.manager := by
  simp only [sendRawMessage]
  split
  · rfl
  · split
    · rfl
    · split
      · rfl
      · simp [MessageManager.sendRawMessage,muted.manager]

theorem report_muted (message : Message) : (s.report codec message).manager = s.manager := by
  simp only [report]
  split
  · rfl
  · split
    · rfl
    · split
      · rfl
      · split
        · exact transmit_muted codec muted message _
        · rfl

theorem sendMessage_muted (message : Message) (recipient : Endpoint) :
    (s.sendMessage codec message recipient).manager = s.manager := by
  simp only [sendMessage]
  split
  · rfl
  · split
    · rfl
    · split
      · rfl
      · split
        · split
          · rfl
          · exact transmit_muted codec muted message _
        · rfl

theorem sendCommand_muted (command params : String) :
    (s.sendCommand codec command params).manager = s.manager := by
  simp only [sendCommand]
  split
  · rfl
  · split
    · rfl
    · split
      · exact transmit_muted codec muted _ _
      · split
        · exact transmit_muted codec muted _ _
        · rfl

theorem sendStored_muted (stored : StoredPacket) : (s.sendStored stored).manager = s.manager := by
  have closed : s.manager.protocol.destination stored.recipient = none := by
    simp [LumenProtocol.destination,muted.protocol.running]
  have ignored : s.manager.protocol.sendMessage stored.payload stored.type stored.priority
      stored.recipient = s.manager.protocol := by
    simp [LumenProtocol.sendMessage,muted.protocol.running]
  simp [sendStored,closed,ignored]

/-- The same manager is as silent in another rover. -/
theorem Muted.of_manager {t : Rover} (same : t.manager = s.manager) : Muted t :=
  ⟨same ▸ muted.manager,same ▸ muted.protocol⟩

theorem sendStoredPackets_muted : s.sendStoredPackets.manager = s.manager := by
  have loop (packets : List StoredPacket) (t : Rover) (muted : Muted t) :
      (packets.foldl sendStored t).manager = t.manager := by
    induction packets generalizing t with
    | nil => rfl
    | cons packet rest ih =>
      have one := sendStored_muted muted packet
      exact (ih _ (muted.of_manager one)).trans one
  exact loop s.storedPackets s muted

theorem handleStatusTimer_muted : (s.handleStatusTimer codec).manager = s.manager :=
  report_muted codec muted _

theorem handlePositionTelemetryTimer_muted :
    (s.handlePositionTelemetryTimer codec).manager = s.manager := report_muted codec muted _

theorem handleSessionEstablished_muted :
    (s.handleSessionEstablished codec).manager = s.manager := by
  simp only [handleSessionEstablished]
  split
  · rfl
  · let t := (((s.enter .active).setHandshakeRetryCount 0).setHandshakeTimer false).setProbeTimer false
    have forwarded : t.sendStoredPackets.manager = s.manager :=
      sendStoredPackets_muted (muted.of_manager rfl)
    have first := handleStatusTimer_muted codec (muted.of_manager forwarded)
    have both := first.trans forwarded
    exact (handlePositionTelemetryTimer_muted codec (muted.of_manager both)).trans both

theorem handleSessionAccept_muted : (s.handleSessionAccept codec).manager = s.manager := by
  by_cases waiting : s.sessionState = .handshakeInit ∨ s.sessionState = .disconnected
  · have prepared := (confirming_fields s).2.1
    rw [handleSessionAccept_eq codec s waiting]
    exact (sendCommand_muted codec (muted.of_manager prepared) _ _).trans prepared
  · rw [handleSessionAccept_ignored codec s waiting]

theorem handleDiscoveryCommand_muted (command senderId : String) (sender : Endpoint) :
    (s.handleDiscoveryCommand command senderId sender).manager = s.manager := by
  simp only [handleDiscoveryCommand]
  split
  · rfl
  · split
    · split <;> rfl
    · split
      · split
        · rfl
        · exact sendRawMessage_muted muted _ _
      · rfl

theorem routeMessage_muted (message : Message) (sender : Endpoint) :
    (s.routeMessage codec message sender).manager = s.manager := by
  have routed := routeMessage_routed codec s message sender
  generalize s.routeMessage codec message sender = t at routed ⊢
  cases routed with
  | ignored | power => rfl
  | accept => exact handleSessionAccept_muted codec muted
  | established => exact handleSessionEstablished_muted codec muted
  | target params => exact setTarget_manager codec s params
  | discovery command => exact handleDiscoveryCommand_muted muted command _ sender
  | up =>
    simp only [handUp]
    split <;> rfl

theorem handleMovementTimer_muted : (s.handleMovementTimer codec).manager = s.manager := by
  simp only [handleMovementTimer]
  split
  · rfl
  · split
    · split
      · rfl
      · have dropped : Muted { s with targetCoordinate := none } := muted.of_manager rfl
        exact sendMessage_muted codec dropped _ _
    · rfl

theorem expire_muted (timer : Timer) : (s.expire codec timer).manager = s.manager := by
  cases timer with
  | status =>
    simp only [expire]
    split
    · exact handleStatusTimer_muted codec (muted.of_manager rfl)
    · rfl
  | positionTelemetry =>
    simp only [expire]
    split
    · exact handlePositionTelemetryTimer_muted codec (muted.of_manager rfl)
    · rfl
  | movement =>
    simp only [expire]
    split
    · exact handleMovementTimer_muted codec (muted.of_manager rfl)
    · rfl
  | probe =>
    have cancelled : Muted (s.setProbeTimer false) := muted.of_manager rfl
    simp only [expire,handleProbeTimer]
    split
    · split
      · exact sendCommand_muted codec cancelled _ _
      · rfl
    · rfl
  | handshake =>
    have retried : Muted s.retrying := muted.of_manager rfl
    simp only [expire,handleHandshakeTimer]
    split
    · split
      · split
        · exact sendCommand_muted codec retried _ _
        · exact handleBaseDisconnect_manager _
      · rfl
    · rfl

end Muted

/-- What has been put on the wire: the messages sent and the packets transmitted. -/
def wire (s : Rover) : List (Message × Endpoint) × List Effect :=
  (s.manager.sent,s.manager.protocol.effects)

/-- Stopped, with the socket closed, which only the scan uses directly. -/
structure Closed (s : Rover) : Prop where
  muted : Muted s
  clientOpen : s.clientOpen = false

/-- The manager is left as it is, or only its protocol changes and stays silent. -/
theorem step_muted (s : Rover) (input : Input) (closed : Closed s) :
    Muted (s.step codec input) ∧ (s.step codec input).wire = s.wire := by
  have muted := closed.muted
  have still {t : Rover} (same : t.manager = s.manager) : Muted t ∧ t.wire = s.wire :=
    ⟨muted.of_manager same,by simp only [wire,same]⟩
  cases input with
  | route message sender => exact still (routeMessage_muted codec muted message sender)
  | expire timer => exact still (expire_muted codec muted timer)
  | sendMessage message recipient => exact still (sendMessage_muted codec muted message recipient)
  | sendRawMessage message recipient => exact still (sendRawMessage_muted muted message recipient)
  | sendCommand command params => exact still (sendCommand_muted codec muted command params)
  | sendTelemetry readings => exact still (report_muted codec muted _)
  | sendStatus => exact still (report_muted codec muted _)
  | handlePositionTelemetryTimer => exact still (handlePositionTelemetryTimer_muted codec muted)
  | timeoutNotification | updateStatus | updateCurrentPosition | setApplicationMessageHandler
  | setDiscoveryMessageHandler => exact still rfl
  | scanForRovers discoveryPort text =>
    have ignored : s.scanForRovers discoveryPort text = s := if_pos (by simp [closed.clientOpen])
    exact still (congrArg manager ignored)
  | protocol event external =>
    refine ⟨⟨muted.manager,(muted.protocol.step event external).1⟩,?_⟩
    exact congrArg (Prod.mk s.manager.sent) (muted.protocol.effects event external)
  | stop =>
    obtain ⟨halted,_,effects⟩ := LumenProtocol.stop_halted s.manager.protocol (Or.inr muted.protocol)
    exact ⟨⟨rfl,halted⟩,congrArg (Prod.mk s.manager.sent) effects⟩
  | runPosted position =>
    simp only [step,runPosted]
    split
    · next handler _ =>
      cases handler with
      | resetSequence => exact ⟨⟨muted.manager,⟨muted.protocol.running,muted.protocol.managerRunning⟩⟩,rfl⟩
      | packetTimeout recipient =>
        simp only [runHandler,handlePacketTimeout]
        split
        · exact still (handleBaseDisconnect_manager _)
        · exact still rfl
      | armProbe | armHandshake | application | discovery => exact still rfl
    · exact still rfl

theorem step_closed (s : Rover) (input : Input) (closed : Closed s) :
    Closed (s.step codec input) ∧ (s.step codec input).wire = s.wire := by
  obtain ⟨muted,same⟩ := step_muted codec s input closed
  refine ⟨⟨muted,?_⟩,same⟩
  by_cases stops : input = .stop
  · rw [stops]
    simp [step,stop,closed.clientOpen]
  · rw [step_clientOpen codec s input stops,closed.clientOpen]

/-- The socket is closed when the rover is not running any more. -/
def Tied (s : Rover) : Prop := s.manager.protocol.running = false → s.clientOpen = false

theorem stop_tied (s : Rover) (tied : Tied s) : s.stop.clientOpen = false := by
  cases running : s.manager.protocol.running with
  | true => simp [stop,running]
  | false => simp [stop,tied running]

theorem step_tied (s : Rover) (input : Input) (tied : Tied s) : Tied (s.step codec input) := by
  by_cases stops : input = .stop
  · rw [stops]
    exact fun _ => stop_tied s tied
  · have node := (step_moves codec s input).node codec stops
    rw [Tied,node.running,step_clientOpen codec s input stops]
    exact tied

/-- The protocol of a rover is running as a whole or not at all. -/
def Whole (s : Rover) : Prop :=
  LumenProtocol.Tracking s.manager.protocol ∨ LumenProtocol.Halted s.manager.protocol

theorem giveAll_whole (protocol : LumenProtocol) (calls : List Call)
    (whole : protocol.Tracking ∨ protocol.Halted) :
    (protocol.giveAll calls).Tracking ∨ (protocol.giveAll calls).Halted := by
  rcases whole with tracking | halted
  · exact Or.inl (LumenProtocol.giveAll_tracking calls protocol tracking)
  · rw [halted.giveAll]
    exact Or.inr halted

theorem step_whole (s : Rover) (input : Input) (whole : Whole s) : Whole (s.step codec input) := by
  unfold Whole
  cases step_moves codec s input with
  | hands calls few hands =>
    rw [hands.protocol]
    exact giveAll_whole _ calls whole
  | stores message base offers registered lost same =>
    rw [same.manager]
    exact whole
  | forwards base registered announced apart active emptied given =>
    rw [given]
    exact giveAll_whole _ _ whole
  | below event external same stored state protocol =>
    rw [protocol]
    rcases whole with tracking | halted
    · exact Or.inl (LumenProtocol.step_tracking codec _ event tracking)
    · exact Or.inr (halted.step event external).1
  | resets position same queued stored state protocol =>
    rw [protocol]
    rcases whole with tracking | halted
    · exact Or.inl (LumenProtocol.step_tracking codec _ .resetSequenceNumber tracking)
    · exact Or.inr ⟨halted.running,halted.managerRunning⟩
  | stops same after =>
    rw [after]
    exact Or.inr (LumenProtocol.stop_halted _ whole).1

theorem stop_muted (s : Rover) (whole : Whole s) : Muted s.stop ∧ s.stop.wire = s.wire := by
  obtain ⟨halted,_,effects⟩ := LumenProtocol.stop_halted s.manager.protocol whole
  exact ⟨⟨rfl,halted⟩,congrArg (Prod.mk s.manager.sent) effects⟩

/-- A rover that was stopped, at any time of any run, puts nothing on the wire any more, whatever
its timers and handlers, its owner and late messages do. A scan does not ask whether the rover is
running, but it finds the socket closed. -/
theorem stopped_rover_is_silent (roverId : String) (base : Endpoint) (clock : Clock)
    (before after : List Input) :
    let s := run (step codec) (started codec roverId base clock) before
    (run (step codec) s (.stop :: after)).wire = s.wire := by
  intro s
  have retained := started_retained codec roverId base clock
  have whole : Whole s := @run_invariant _ _ (step codec) Whole (step_whole codec) _ before
    (retained.node.imp And.left id)
  have tied : Tied s := by
    refine @run_invariant _ _ (step codec) Tied (step_tied codec) _ before fun stopped => ?_
    have running := (started_storing codec roverId base clock).running
    cases running.symm.trans stopped
  obtain ⟨muted,same⟩ := stop_muted s whole
  have silent := @run_invariant _ _ (step codec) (fun t => Closed t ∧ t.wire = s.wire) ?_ s.stop after
    ⟨⟨muted,stop_tied s tied⟩,same⟩
  · exact silent.2
  · rintro t input ⟨closed,agrees⟩
    obtain ⟨next,kept⟩ := step_closed codec t input closed
    exact ⟨next,kept.trans agrees⟩

/-- The rover is stopped after a lost session, the handler that arms the probe runs later, and its
owner scans for other rovers. -/
theorem late_probe_is_silent :
    let s := run (step .silent) (started .silent "rover-a" ⟨0x0aed0001,9000⟩ ⟨0,0⟩)
      [.route ⟨"base",0,.command "SESSION_ESTABLISHED" "base"⟩ ⟨0x0aed0001,9000⟩,
        .timeoutNotification ⟨0x0aed0001,9000⟩,.runPosted 0]
    (run (step .silent) s [.stop,.runPosted 1,.expire .probe,.scanForRovers 9001 ""]).wire = s.wire :=
  stopped_rover_is_silent .silent "rover-a" ⟨0x0aed0001,9000⟩ ⟨0,0⟩
    [.route ⟨"base",0,.command "SESSION_ESTABLISHED" "base"⟩ ⟨0x0aed0001,9000⟩,
      .timeoutNotification ⟨0x0aed0001,9000⟩,.runPosted 0]
    [.runPosted 1,.expire .probe,.scanForRovers 9001 ""]

end Rover

namespace BaseStation

variable (codec : Codec)

/-- Stopped: neither the message manager nor the protocol passes anything on. -/
structure Muted (s : BaseStation) : Prop where
  manager : s.manager.running = false
  protocol : LumenProtocol.Halted s.manager.protocol

/-- What has been put on the wire: the messages sent and the packets transmitted. -/
def wire (s : BaseStation) : List (Message × Endpoint) × List Effect :=
  (s.manager.sent,s.manager.protocol.effects)

/-- Still stopped, with nothing new on the wire. -/
def Still (s t : BaseStation) : Prop := Muted t ∧ t.wire = s.wire

/-- The protocol of the base station is running as a whole or not at all. -/
def Whole (s : BaseStation) : Prop :=
  LumenProtocol.Tracking s.manager.protocol ∨ LumenProtocol.Halted s.manager.protocol

theorem stop_still {s : BaseStation} (whole : Whole s) : Still s s.stop := by
  have closed : LumenProtocol.Tracking { s.manager.protocol.setSessionActive false with
      serverRunning := false } ∨ LumenProtocol.Halted { s.manager.protocol.setSessionActive false with
      serverRunning := false } := by
    rcases whole with tracking | halted
    · exact Or.inl ⟨tracking.running,tracking.managerRunning,tracking.managerRole,tracking.keyed⟩
    · exact Or.inr ⟨halted.running,halted.managerRunning⟩
  obtain ⟨halted,_,effects⟩ := LumenProtocol.stop_halted _ closed
  exact ⟨⟨rfl,halted⟩,congrArg (Prod.mk s.manager.sent) effects⟩

section Still

variable {s : BaseStation} (muted : Muted s)

include muted

theorem still_of_manager {t : BaseStation} (same : t.manager = s.manager) : Still s t :=
  ⟨⟨same ▸ muted.manager,same ▸ muted.protocol⟩,by simp only [wire,same]⟩

theorem setSessionActive_still (active : Bool) : Still s (s.setSessionActive active) :=
  ⟨⟨muted.manager,⟨muted.protocol.running,muted.protocol.managerRunning⟩⟩,rfl⟩

theorem sendCommand_still (command params : String) : Still s (s.sendCommand codec command params) := by
  apply still_of_manager muted
  simp only [sendCommand]
  split
  · simp [MessageManager.sendMessage,muted.manager]
  · rfl

theorem handleSessionInit_still (roverId : String) (sender : Endpoint) :
    Still s (s.handleSessionInit codec roverId sender) := by
  simp only [handleSessionInit]
  split
  · exact sendCommand_still codec muted _ _
  · have same : (s.updateOnInit roverId sender).1.manager = s.manager := by
      simp only [updateOnInit]
      split
      · rfl
      · split <;> rfl
    have first := still_of_manager muted same
    have reset : Still s (if (s.updateOnInit roverId sender).2.2 then
        (s.updateOnInit roverId sender).1.setSessionActive false
        else (s.updateOnInit roverId sender).1) := by
      split
      · have second := setSessionActive_still first.1 false
        exact ⟨second.1,second.2.trans first.2⟩
      · exact first
    split
    · have last := sendCommand_still codec reset.1 "SESSION_ACCEPT"
      exact ⟨(last _).1,(last _).2.trans reset.2⟩
    · exact reset

theorem handleSessionConfirm_still (roverId : String) (sender : Endpoint) :
    Still s (s.handleSessionConfirm codec roverId sender) := by
  simp only [handleSessionConfirm]
  split
  · exact still_of_manager muted rfl
  · have active : Muted { s with sessionState := .active } := ⟨muted.manager,muted.protocol⟩
    have flagged := setSessionActive_still active true
    have last := sendCommand_still codec flagged.1 "SESSION_ESTABLISHED"
    exact ⟨(last _).1,(last _).2.trans flagged.2⟩

theorem handUp_still (message : Message) (sender : Endpoint) : Still s (s.handUp message sender) := by
  apply still_of_manager muted
  simp only [handUp]
  split <;> rfl

theorem routeMessage_still (message : Message) (sender : Endpoint) :
    Still s (s.routeMessage codec message sender) := by
  simp only [routeMessage]
  split
  · split
    · simp only [handleInternalCommand]
      split
      · exact handleSessionInit_still codec muted _ sender
      · split
        · exact handleSessionConfirm_still codec muted _ sender
        · exact still_of_manager muted rfl
    · exact handUp_still muted message sender
  · exact handUp_still muted message sender

theorem step_still (input : Input) : Still s (s.step codec input) := by
  cases input with
  | route message sender => exact routeMessage_still codec muted message sender
  | sendCommand command params => exact sendCommand_still codec muted command params
  | setLowPowerMode enable => exact sendCommand_still codec muted _ _
  | setRoverTarget latitude longitude => exact sendCommand_still codec muted _ _
  | sendMessage message recipient =>
    apply still_of_manager muted
    simp only [step,sendMessage]
    split
    · rfl
    · simp [MessageManager.sendMessage,muted.manager]
  | sendRawMessage message recipient =>
    apply still_of_manager muted
    simp only [step,sendRawMessage]
    split
    · rfl
    · simp [MessageManager.sendRawMessage,muted.manager]
  | setStatusCallback | setApplicationMessageHandler => exact still_of_manager muted rfl
  | protocol event external =>
    refine ⟨⟨muted.manager,(muted.protocol.step event external).1⟩,?_⟩
    exact congrArg (Prod.mk s.manager.sent) (muted.protocol.effects event external)
  | stop => exact stop_still (Or.inr muted.protocol)

end Still

section Whole

variable {s : BaseStation} (whole : Whole s)

include whole

theorem setSessionActive_whole (active : Bool) : Whole (s.setSessionActive active) := by
  rcases whole with tracking | halted
  · exact Or.inl (LumenProtocol.step_tracking .silent _ (.setSessionActive active) tracking)
  · exact Or.inr ⟨halted.running,halted.managerRunning⟩

theorem sendMessage_whole {t : BaseStation} (message : Message) (recipient : Endpoint)
    (given : t.manager = s.manager.sendMessage codec message recipient) : Whole t := by
  simp only [Whole,given,MessageManager.sendMessage]
  split
  · exact whole
  · exact Rover.giveAll_whole s.manager.protocol [⟨_,_,_,_⟩] whole

theorem sendCommand_whole (command params : String) : Whole (s.sendCommand codec command params) := by
  simp only [sendCommand]
  split
  · exact sendMessage_whole codec whole _ _ rfl
  · exact whole

theorem handleSessionInit_whole (roverId : String) (sender : Endpoint) :
    Whole (s.handleSessionInit codec roverId sender) := by
  simp only [handleSessionInit]
  split
  · exact sendCommand_whole codec whole _ _
  · have first : Whole (s.updateOnInit roverId sender).1 := by
      simp only [updateOnInit]
      split
      · exact whole
      · split <;> exact whole
    have reset : Whole (if (s.updateOnInit roverId sender).2.2 then
        (s.updateOnInit roverId sender).1.setSessionActive false
        else (s.updateOnInit roverId sender).1) := by
      split
      · exact setSessionActive_whole first false
      · exact first
    split
    · exact sendCommand_whole codec reset _ _
    · exact reset

theorem handleSessionConfirm_whole (roverId : String) (sender : Endpoint) :
    Whole (s.handleSessionConfirm codec roverId sender) := by
  simp only [handleSessionConfirm]
  split
  · exact whole
  · have active : Whole { s with sessionState := .active } := whole
    exact sendCommand_whole codec (setSessionActive_whole active true) _ _

theorem handUp_whole (message : Message) (sender : Endpoint) : Whole (s.handUp message sender) := by
  simp only [handUp]
  split <;> exact whole

theorem step_whole (input : Input) : Whole (s.step codec input) := by
  cases input with
  | route message sender =>
    simp only [step,routeMessage]
    split
    · split
      · simp only [handleInternalCommand]
        split
        · exact handleSessionInit_whole codec whole _ sender
        · split
          · exact handleSessionConfirm_whole codec whole _ sender
          · exact whole
      · exact handUp_whole whole message sender
    · exact handUp_whole whole message sender
  | sendCommand command params => exact sendCommand_whole codec whole command params
  | setLowPowerMode enable => exact sendCommand_whole codec whole _ _
  | setRoverTarget latitude longitude => exact sendCommand_whole codec whole _ _
  | sendMessage message recipient =>
    simp only [step,sendMessage]
    split
    · exact whole
    · exact sendMessage_whole codec whole message recipient rfl
  | sendRawMessage message recipient =>
    simp only [step,sendRawMessage,MessageManager.sendRawMessage]
    split
    · exact whole
    · split <;> exact whole
  | setStatusCallback | setApplicationMessageHandler => exact whole
  | protocol event external =>
    rcases whole with tracking | halted
    · exact Or.inl (LumenProtocol.step_tracking codec _ event tracking)
    · exact Or.inr (halted.step event external).1
  | stop => exact Or.inr (stop_still whole).1.protocol

end Whole

/-- The base station, stopped at any time of any run, puts nothing on the wire any more. -/
theorem stopped_base_is_silent (stationId : String) (clock : Clock) (before after : List Input) :
    let s := run (step codec) (started stationId clock) before
    (run (step codec) s (.stop :: after)).wire = s.wire := by
  intro s
  have whole : Whole s := by
    refine @run_invariant _ _ (step codec) Whole (fun t input whole => step_whole codec whole input)
      _ before (Or.inl ?_)
    exact LumenProtocol.started_tracking .baseStation .unspecified clock
  refine (@run_invariant _ _ (step codec) (Still s) ?_ s.stop after (stop_still whole)).2
  rintro t input ⟨quiet,agrees⟩
  have next := step_still codec quiet input
  exact ⟨next.1,next.2.trans agrees⟩

end BaseStation

end Lumen
