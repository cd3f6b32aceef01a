import Lumen.RoverSession

/-! What the rover puts on the wire: its handshake commands carry its id and go to the
registered base station, and only a received acceptance or an expired timer makes it send
one. -/
namespace Lumen.Rover

open Endpoint Message

variable (codec : Codec)

/-- The handshake commands a rover sends carry its id. -/
def Signed (roverId : String) (message : Message) : Prop :=
  message.isHandshake = true → message.sender = roverId

theorem signed_of_plain {id : String} {message : Message} (plain : message.Plain) :
    Signed id message :=
  fun handshake => Bool.noConfusion (plain.symm.trans handshake)

/-- Started and not stopped. -/
structure Up (s : Rover) : Prop where
  manager : s.manager.running = true
  protocol : s.manager.protocol.running = true
  mode : s.manager.protocol.mode = .rover

/-- Stopped. -/
structure Down (s : Rover) : Prop where
  manager : s.manager.running = false
  sessionState : s.sessionState = .inactive

/-- What every step but `stop` does, whatever becomes of the session. -/
structure Steady (s t : Rover) : Prop where
  roverId : t.roverId = s.roverId
  managerRunning : t.manager.running = s.manager.running
  node : s.manager.protocol.SameNode t.manager.protocol
  sent : SendsOnly (Signed s.roverId) s.manager.sent t.manager.sent
  stored : ∀ packet ∈ t.storedPackets, packet ∈ s.storedPackets ∨ Plain packet.message

namespace Steady

theorem trans (first : Steady s t) (second : Steady t u) : Steady s u where
  roverId := second.roverId.trans first.roverId
  managerRunning := second.managerRunning.trans first.managerRunning
  node := first.node.trans second.node
  sent := first.sent.trans (first.roverId ▸ second.sent)
  stored := by
    intro packet member
    rcases second.stored packet member with middle | plain
    · exact first.stored packet middle
    · exact Or.inr plain

/-- A change of the session, the timers or the posted handlers alone. -/
theorem of_same (roverId : t.roverId = s.roverId) (manager : t.manager = s.manager)
    (stored : t.storedPackets = s.storedPackets) : Steady s t where
  roverId := roverId
  managerRunning := by rw [manager]
  node := by rw [manager]; exact sameNode_refl _
  sent := by rw [manager]; exact .refl _
  stored := by rw [stored]; exact fun _ member => Or.inl member

theorem up (steady : Steady s t) (up : Up s) : Up t where
  manager := steady.managerRunning.trans up.manager
  protocol := steady.node.running.trans up.protocol
  mode := steady.node.mode.trans up.mode

theorem registered (steady : Steady s t) : t.getBaseEndpoint = s.getBaseEndpoint := by
  simp only [getBaseEndpoint,LumenProtocol.getBaseEndpoint,steady.node.baseEndpoint]

end Steady

theorem Quiet.steady (quiet : Quiet Plain s t) : Steady s t where
  roverId := quiet.roverId
  managerRunning := quiet.managerRunning
  node := quiet.node
  sent := by
    obtain ⟨more,added,plain⟩ := quiet.sent
    exact ⟨more,added,fun entry member => signed_of_plain (plain entry member)⟩
  stored := quiet.stored

/-! ### Commands of the rover -/

theorem sendCommand_stored (s : Rover) (command params : String) :
    (s.sendCommand codec command params).storedPackets = s.storedPackets := by
  simp only [sendCommand]
  split
  · rfl
  · split
    · rfl
    · split
      · rfl
      · split <;> rfl

theorem sendCommand_steady (s : Rover) (command params : String) :
    Steady s (s.sendCommand codec command params) := by
  have quiet := @sendCommand_quiet codec (Signed s.roverId) s command params fun _ => rfl
  exact {
    roverId := quiet.roverId
    managerRunning := quiet.managerRunning
    node := quiet.node
    sent := quiet.sent
    stored := by rw [sendCommand_stored]; exact fun _ member => Or.inl member }

theorem sendCommand_sessionState (s : Rover) (command params : String) :
    (s.sendCommand codec command params).sessionState = s.sessionState :=
  (@sendCommand_quiet codec Any s command params trivial).sessionState

/-- Commands are not held back in low power mode, and a running rover reaches its base
station. -/
theorem sendCommand_sent (s : Rover) (command params : String) (up : Up s)
    (registered : s.getBaseEndpoint = some base) (allowed : s.sessionState ≠ .disconnected) :
    (s.sendCommand codec command params).manager.sent =
      s.manager.sent ++ [(s.message (.command command params),base)] := by
  have urgent : s.suppresses (s.message (.command command params)) = false := by
    simp [suppresses,message,Message.getLumenPriority]
  have given : s.sendCommand codec command params =
      s.transmit codec (s.message (.command command params)) base := by
    simp only [sendCommand,urgent,registered]
    simp [allowed]
  have reaches := LumenProtocol.destination_registered s.manager.protocol base up.mode up.protocol
    registered
  rw [given]
  simp only [transmit,MessageManager.sendMessage_sent,if_pos up.manager,reaches]
  rfl

/-! ### The handlers of the handshake -/

/-- The rover about to confirm an acceptance. -/
def confirming (s : Rover) : Rover :=
  let t := (s.enter .handshakeAccept).setHandshakeTimer false
  if s.sessionState = .disconnected then t.setProbeTimer false else t

theorem confirming_fields (s : Rover) :
    s.confirming.roverId = s.roverId ∧ s.confirming.manager = s.manager ∧
      s.confirming.storedPackets = s.storedPackets ∧
      s.confirming.sessionState = .handshakeAccept := by
  simp only [confirming]
  split <;> exact ⟨rfl,rfl,rfl,rfl⟩

theorem handleSessionAccept_eq (s : Rover)
    (waiting : s.sessionState = .handshakeInit ∨ s.sessionState = .disconnected) :
    s.handleSessionAccept codec =
      (s.confirming.sendCommand codec "SESSION_CONFIRM" s.roverId).post .armHandshake := by
  have unfolded : s.handleSessionAccept codec =
      (s.confirming.sendCommand codec "SESSION_CONFIRM" s.confirming.roverId).post .armHandshake :=
    if_pos waiting
  rw [unfolded,(confirming_fields s).1]

theorem handleSessionAccept_ignored (s : Rover)
    (other : ¬ (s.sessionState = .handshakeInit ∨ s.sessionState = .disconnected)) :
    s.handleSessionAccept codec = s := if_neg other

/-- An acceptance is confirmed when it was waited for, and ignored otherwise. -/
theorem handleSessionAccept_steady (s : Rover) :
    Steady s (s.handleSessionAccept codec) ∧
      ((s.handleSessionAccept codec).sessionState = s.sessionState ∨
        (s.handleSessionAccept codec).sessionState = .handshakeAccept) := by
  by_cases waiting : s.sessionState = .handshakeInit ∨ s.sessionState = .disconnected
  · obtain ⟨id,manager,stored,state⟩ := confirming_fields s
    rw [handleSessionAccept_eq codec s waiting]
    refine ⟨?_,Or.inr ((sendCommand_sessionState codec _ _ _).trans state)⟩
    have prepared : Steady s s.confirming := .of_same id manager stored
    exact (prepared.trans (sendCommand_steady codec _ _ _)).trans (.of_same rfl rfl rfl)
  · rw [handleSessionAccept_ignored codec s waiting]
    exact ⟨.of_same rfl rfl rfl,Or.inl rfl⟩

theorem handleSessionAccept_sent (s : Rover) (up : Up s)
    (registered : s.getBaseEndpoint = some base)
    (waiting : s.sessionState = .handshakeInit ∨ s.sessionState = .disconnected) :
    (s.handleSessionAccept codec).sessionState = .handshakeAccept ∧
      (s.handleSessionAccept codec).manager.sent =
        s.manager.sent ++ [(s.message (.command "SESSION_CONFIRM" s.roverId),base)] := by
  obtain ⟨id,manager,stored,state⟩ := confirming_fields s
  have prepared : Steady s s.confirming := .of_same id manager stored
  have sent := sendCommand_sent codec s.confirming "SESSION_CONFIRM" s.roverId (prepared.up up)
    (prepared.registered.trans registered) (by rw [state]; exact nofun)
  rw [handleSessionAccept_eq codec s waiting]
  refine ⟨(sendCommand_sessionState codec _ _ _).trans state,sent.trans ?_⟩
  rw [message,id,manager]
  rfl

/-- Established, the rover sends what it stored and its first reports. -/
theorem handleSessionEstablished_quiet (s : Rover)
    (stored : ∀ packet ∈ s.storedPackets, Plain packet.message) :
    Steady s (s.handleSessionEstablished codec) ∧
      (s.handleSessionEstablished codec).sessionState = .active ∧
      SendsOnly Plain s.manager.sent (s.handleSessionEstablished codec).manager.sent := by
  by_cases active : s.sessionState = .active
  · have ignored : s.handleSessionEstablished codec = s := if_pos active
    rw [ignored]
    exact ⟨.of_same rfl rfl rfl,active,.refl _⟩
  · let t := (((s.enter .active).setHandshakeRetryCount 0).setHandshakeTimer false).setProbeTimer false
    have unfolded : s.handleSessionEstablished codec =
        (t.sendStoredPackets.handleStatusTimer codec).handlePositionTelemetryTimer codec :=
      if_neg active
    have forwarded := @sendStoredPackets_quiet Plain t stored
    have quiet := (forwarded.trans (handleStatusTimer_quiet codec plain_self _)).trans
      (handlePositionTelemetryTimer_quiet codec plain_self _)
    have entered : Steady s t := .of_same rfl rfl rfl
    rw [unfolded]
    exact ⟨entered.trans quiet.steady,quiet.sessionState,quiet.sent⟩

theorem routeMessage_steady (s : Rover) (message : Message) (sender : Endpoint)
    (stored : ∀ packet ∈ s.storedPackets, Plain packet.message) :
    Steady s (s.routeMessage codec message sender) := by
  rcases routeMessage_cases codec plain_self s message sender with
    ⟨_,accept⟩ | ⟨_,established⟩ | quiet
  · rw [accept]
    exact (handleSessionAccept_steady codec s).1
  · rw [established]
    exact (handleSessionEstablished_quiet codec s stored).1
  · exact quiet.steady

/-- A received message never makes the rover ask again. -/
theorem routeMessage_sendsNoInit (s : Rover) (message : Message) (sender : Endpoint)
    (stored : ∀ packet ∈ s.storedPackets, Plain packet.message) :
    SendsOnly (·.isCommand "SESSION_INIT" = false) s.manager.sent
      (s.routeMessage codec message sender).manager.sent := by
  rcases routeMessage_cases codec plain_self s message sender with
    ⟨_,accept⟩ | ⟨_,established⟩ | quiet
  · rw [accept]
    by_cases waiting : s.sessionState = .handshakeInit ∨ s.sessionState = .disconnected
    · rw [handleSessionAccept_eq codec s waiting]
      have quiet := @sendCommand_quiet codec (·.isCommand "SESSION_INIT" = false) s.confirming
        "SESSION_CONFIRM" s.roverId rfl
      have sent := quiet.sent
      rw [(confirming_fields s).2.1] at sent
      exact sent
    · rw [handleSessionAccept_ignored codec s waiting]
      exact .refl _
  · rw [established]
    exact (handleSessionEstablished_quiet codec s stored).2.2.mono fun _ plain => plain.isCommand.1
  · exact quiet.sent.mono fun _ plain => plain.isCommand.1

/-- Only an acceptance makes the rover send a command of the handshake. -/
theorem routeMessage_sendsPlain (s : Rover) (message : Message) (sender : Endpoint)
    (stored : ∀ packet ∈ s.storedPackets, Plain packet.message)
    (other : message.isCommand "SESSION_ACCEPT" = false) :
    SendsOnly Plain s.manager.sent (s.routeMessage codec message sender).manager.sent := by
  rcases routeMessage_cases codec plain_self s message sender with
    ⟨from_,_⟩ | ⟨_,established⟩ | quiet
  · cases other.symm.trans from_.2.2
  · rw [established]
    exact (handleSessionEstablished_quiet codec s stored).2.2
  · exact quiet.sent

theorem routeMessage_accept (s : Rover) (message : Message) (sender : Endpoint)
    (from_ : s.FromBase "SESSION_ACCEPT" message sender) :
    s.routeMessage codec message sender = s.handleSessionAccept codec := by
  obtain ⟨id,timestamp,content⟩ := message
  obtain ⟨other,base,named⟩ := from_
  cases content with
  | command command params =>
    cases of_decide_eq_true named
    simp only [routeMessage,if_neg other]
    exact (if_pos rfl).trans (if_pos base)
  | basic | telemetry | status => cases named

theorem routeMessage_established (s : Rover) (message : Message) (sender : Endpoint)
    (from_ : s.FromBase "SESSION_ESTABLISHED" message sender) :
    s.routeMessage codec message sender = s.handleSessionEstablished codec := by
  obtain ⟨id,timestamp,content⟩ := message
  obtain ⟨other,base,named⟩ := from_
  cases content with
  | command command params =>
    cases of_decide_eq_true named
    simp only [routeMessage,if_neg other]
    exact (if_pos rfl).trans (if_pos base)
  | basic | telemetry | status => cases named

/-- A retry sends the command of the current phase once more. -/
theorem handleHandshakeTimer_sent (s : Rover) (up : Up s)
    (registered : s.getBaseEndpoint = some base) (during : s.handshaking)
    (left : s.handshakeRetryCount < maxHandshakeRetries) :
    Steady s ((s.setHandshakeTimer false).handleHandshakeTimer codec) ∧
      ((s.setHandshakeTimer false).handleHandshakeTimer codec).sessionState = s.sessionState ∧
      ((s.setHandshakeTimer false).handleHandshakeTimer codec).manager.sent =
        s.manager.sent ++ [(s.message (.command s.repeated s.roverId),base)] := by
  have connected : s.sessionState ≠ .disconnected := by
    intro lost
    rcases during with state | state <;> cases lost.symm.trans state
  have prepared : Steady s s.retrying := .of_same rfl rfl rfl
  rw [handleHandshakeTimer_eq codec s during,if_pos left]
  refine ⟨?_,sendCommand_sessionState codec s.retrying _ _,?_⟩
  · exact (prepared.trans (sendCommand_steady codec _ _ _)).trans (.of_same rfl rfl rfl)
  · exact sendCommand_sent codec s.retrying s.repeated s.roverId (prepared.up up) registered
      connected

theorem initiateHandshake_steady (s : Rover) : Steady s (s.initiateHandshake codec) := by
  simp only [initiateHandshake]
  split
  · exact .of_same rfl rfl rfl
  · have sent (t : Rover) (prepared : Steady s t) :
        Steady s ((t.sendCommand codec "SESSION_INIT" t.roverId).setHandshakeTimer true) :=
      (prepared.trans (sendCommand_steady codec t _ _)).trans (.of_same rfl rfl rfl)
    apply sent
    split <;> exact .of_same rfl rfl rfl

/-- The rover never advances its session by itself. -/
structure Alone (s t : Rover) : Prop where
  steady : Steady s t
  sessionState : t.sessionState = s.sessionState ∨
    s.sessionState = .active ∧ t.sessionState = .disconnected

theorem handleBaseDisconnect_alone (s : Rover) : Alone s s.handleBaseDisconnect := by
  simp only [handleBaseDisconnect]
  split
  · exact ⟨.of_same rfl rfl rfl,Or.inl rfl⟩
  · next active => exact ⟨.of_same rfl rfl rfl,Or.inr ⟨not_not.mp active,rfl⟩⟩

theorem Alone.after (prepared : Steady s t) (state : t.sessionState = s.sessionState)
    (alone : Alone t u) : Alone s u :=
  ⟨prepared.trans alone.steady,by rw [← state]; exact alone.sessionState⟩

theorem sendCommand_alone (s : Rover) (command params : String) :
    Alone s (s.sendCommand codec command params) :=
  ⟨sendCommand_steady codec s command params,Or.inl (sendCommand_sessionState codec s _ _)⟩

theorem Alone.before (alone : Alone s t) (finished : Steady t u)
    (state : u.sessionState = t.sessionState) : Alone s u :=
  ⟨alone.steady.trans finished,by rw [state]; exact alone.sessionState⟩

theorem expire_handshake_alone (s : Rover) : Alone s (s.expire codec .handshake) := by
  have cancelled : Steady s (s.setHandshakeTimer false) := .of_same rfl rfl rfl
  simp only [expire]
  split
  · apply Alone.after cancelled rfl
    simp only [handleHandshakeTimer]
    split
    · split
      · have counted : Steady (s.setHandshakeTimer false) s.retrying := .of_same rfl rfl rfl
        apply Alone.after counted rfl
        exact (sendCommand_alone codec s.retrying _ _).before (.of_same rfl rfl rfl) rfl
      · exact handleBaseDisconnect_alone _
    · exact ⟨.of_same rfl rfl rfl,Or.inl rfl⟩
  · exact ⟨.of_same rfl rfl rfl,Or.inl rfl⟩

theorem expire_probe_alone (s : Rover) : Alone s (s.expire codec .probe) := by
  have cancelled : Steady s (s.setProbeTimer false) := .of_same rfl rfl rfl
  simp only [expire]
  split
  · apply Alone.after cancelled rfl
    simp only [handleProbeTimer]
    split
    · exact (sendCommand_alone codec _ _ _).before (.of_same rfl rfl rfl) rfl
    · exact ⟨.of_same rfl rfl rfl,Or.inl rfl⟩
  · exact ⟨.of_same rfl rfl rfl,Or.inl rfl⟩

theorem runPosted_alone (s : Rover) (position : Nat) : Alone s (s.runPosted position) := by
  simp only [runPosted]
  split
  · next handler _ =>
    have taken : Steady s { s with posted := s.posted.eraseIdx position } := .of_same rfl rfl rfl
    apply Alone.after taken rfl
    cases handler with
    | packetTimeout recipient =>
      simp only [runHandler,handlePacketTimeout]
      split
      · exact handleBaseDisconnect_alone _
      · exact ⟨.of_same rfl rfl rfl,Or.inl rfl⟩
    | resetSequence =>
      refine ⟨⟨rfl,rfl,⟨rfl,rfl,rfl,rfl,rfl⟩,.refl _,fun _ member => Or.inl member⟩,Or.inl rfl⟩
    | armProbe | armHandshake | application | discovery =>
      exact ⟨.of_same rfl rfl rfl,Or.inl rfl⟩
  · exact ⟨.of_same rfl rfl rfl,Or.inl rfl⟩

/-- What the rover does without receiving anything, until it is stopped. -/
theorem step_alone (s : Rover) (input : Input) (spoken : input.Speaks Plain s)
    (notRoute : ∀ message sender, input ≠ .route message sender) (live : input ≠ .stop) :
    Alone s (s.step codec input) := by
  by_cases quiet : input.isQuiet = true
  · have kept := step_quiet codec plain_self s input quiet spoken
    exact ⟨kept.steady,Or.inl kept.sessionState⟩
  · cases input with
    | route message sender => exact absurd rfl (notRoute message sender)
    | stop => exact absurd rfl live
    | runPosted position => exact runPosted_alone s position
    | expire timer =>
      cases timer with
      | handshake => exact expire_handshake_alone codec s
      | probe => exact expire_probe_alone codec s
      | status | positionTelemetry | movement => exact absurd rfl quiet
    | _ => exact absurd rfl quiet

theorem stop_down (s : Rover) :
    Down s.stop ∧ s.stop.roverId = s.roverId ∧ s.stop.getBaseEndpoint = s.getBaseEndpoint ∧
      s.stop.manager.sent = s.manager.sent ∧ s.stop.storedPackets = [] := by
  refine ⟨⟨rfl,rfl⟩,rfl,?_,rfl,rfl⟩
  simp only [stop,getBaseEndpoint,LumenProtocol.getBaseEndpoint,LumenProtocol.stop]
  split <;> rfl

end Lumen.Rover
