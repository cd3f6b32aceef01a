import Lumen.BaseSession

/-! What the base station puts on the wire: a session command is answered with SESSION_ACCEPT
or SESSION_ESTABLISHED, always to the peer of the session, and nothing else is answered. -/
namespace Lumen.BaseStation

open Endpoint

variable (codec : Codec)

/-- Started and not stopped. -/
structure Up (s : BaseStation) : Prop where
  manager : s.manager.running = true
  protocol : s.manager.protocol.running = true
  server : s.manager.protocol.serverRunning = true

theorem Quiet.up (quiet : Quiet s t) (up : Up s) : Up t where
  manager := quiet.managerRunning.trans up.manager
  protocol := quiet.node.running.trans up.protocol
  server := quiet.node.serverRunning.trans up.server

theorem sendCommand_sent (s : BaseStation) (command params : String) (valid : Valid s) :
    (s.sendCommand codec command params).manager.sent = s.manager.sent ∨
    s.canSendCommand command = true ∧ (s.sendCommand codec command params).manager.sent =
      s.manager.sent ++ [(s.commandMessage command params,s.roverEndpoint)] := by
  simp only [sendCommand]
  split
  · next allowed =>
    simp only [MessageManager.sendMessage_sent,
      LumenProtocol.destination_baseStation _ _ valid.mode]
    split
    · split
      · exact Or.inr ⟨allowed,rfl⟩
      · exact Or.inl (List.append_nil _)
    · exact Or.inl (List.append_nil _)
  · exact Or.inl rfl

/-- A running station with a peer it can reach does send what its state allows. -/
theorem sendCommand_delivers (s : BaseStation) (command params : String) (valid : Valid s)
    (up : Up s) (allowed : s.canSendCommand command = true)
    (sendable : s.roverEndpoint.Sendable) :
    (s.sendCommand codec command params).manager.sent =
      s.manager.sent ++ [(s.commandMessage command params,s.roverEndpoint)] := by
  have goes := LumenProtocol.destination_baseStation s.manager.protocol s.roverEndpoint valid.mode
  rw [if_pos ⟨up.protocol,up.server,sendable⟩] at goes
  simp only [sendCommand,if_pos allowed,MessageManager.sendMessage_sent,if_pos up.manager,goes]
  rfl

theorem established_iff (s : BaseStation) (peer : Peer) :
    s.session = .established peer ↔
      s.sessionState = .active ∧ s.connectedRoverId = peer.id ∧
        s.roverEndpoint = peer.endpoint := by
  obtain ⟨id,endpoint⟩ := peer
  simp only [session]
  cases s.sessionState <;> simp

/-- The command by which a session is answered, sent to its peer. -/
def AnswersFor : Session → Message × Endpoint → Prop
  | .idle,_ => False
  | .offered peer,entry => entry.1.isCommand "SESSION_ACCEPT" = true ∧ entry.2 = peer.endpoint
  | .established peer,entry =>
    entry.1.isCommand "SESSION_ESTABLISHED" = true ∧ entry.2 = peer.endpoint

/-- Nothing is sent, or one answer that tells the new session to its peer. -/
def SendsAnswer (s t : BaseStation) : Prop :=
  t.manager.sent = s.manager.sent ∨
    ∃ entry, t.manager.sent = s.manager.sent ++ [entry] ∧ entry.1.sender = s.stationId ∧
      AnswersFor t.session entry

theorem sent_ne_append (sent : List (Message × Endpoint)) (entry : Message × Endpoint) :
    sent ++ [entry] ≠ sent := by simp

/-- One session command given to the network answers the session it is sent in. -/
theorem sendCommand_answers (s : BaseStation) (command : String) (valid : Valid s)
    (answers : ∀ params, AnswersFor s.session (s.commandMessage command params,s.roverEndpoint))
    (able : s.roverEndpoint.isUnspecified = false → s.canSendCommand command = true) :
    SendsAnswer s (s.sendCommand codec command s.stationId) ∧
      (Up s → s.roverEndpoint.Sendable →
        (s.sendCommand codec command s.stationId).manager.sent ≠ s.manager.sent) := by
  have session := (sendCommand_quiet codec s command s.stationId).session
  constructor
  · rcases sendCommand_sent codec s command s.stationId valid with nothing | ⟨_,sent⟩
    · exact Or.inl nothing
    · refine Or.inr ⟨_,sent,rfl,?_⟩
      rw [session]
      exact answers s.stationId
  · intro up sendable
    rw [sendCommand_delivers codec s command s.stationId valid up (able sendable.1) sendable]
    exact sent_ne_append _ _

theorem offerTo_fields (s : BaseStation) (peer : Peer) :
    (s.offerTo peer).stationId = s.stationId ∧ (s.offerTo peer).roverEndpoint = peer.endpoint ∧
      (s.offerTo peer).manager.sent = s.manager.sent ∧
      (s.offerTo peer).sessionState = .handshakeAccept ∧ (Up s → Up (s.offerTo peer)) := by
  simp only [offerTo]
  split <;> exact ⟨rfl,rfl,rfl,rfl,fun up => ⟨up.manager,up.protocol,up.server⟩⟩

theorem handleSessionInit_sent (s : BaseStation) (peer : Peer) (valid : Valid s) :
    SendsAnswer s (s.handleSessionInit codec peer.id peer.endpoint) ∧
      (Up s → peer.endpoint.Sendable → s.session.answer peer ≠ .refuse →
        (s.handleSessionInit codec peer.id peer.endpoint).manager.sent ≠ s.manager.sent) := by
  rw [handleSessionInit_eq codec s peer valid]
  cases answered : s.session.answer peer with
  | offer =>
    obtain ⟨station,endpoint,unsent,state,up⟩ := offerTo_fields s peer
    obtain ⟨sends,must⟩ := sendCommand_answers codec (s.offerTo peer) "SESSION_ACCEPT"
      (offerTo_valid s peer valid) (fun _ => by rw [offerTo_session]; exact ⟨rfl,endpoint⟩)
      (fun open_ => by simp [canSendCommand,state,open_])
    rw [SendsAnswer,unsent,station] at sends
    rw [unsent,station,endpoint] at must
    exact ⟨sends,fun running sendable _ => must (up running) sendable⟩
  | confirm =>
    have held : s.session = .established peer := by
      simp only [Session.answer] at answered
      split at answered
      · cases answered
      · split at answered <;> cases answered
      · split at answered
        · next same => rw [← same]; assumption
        · split at answered <;> cases answered
    obtain ⟨active,_,endpoint⟩ := (established_iff s peer).mp held
    obtain ⟨sends,must⟩ := sendCommand_answers codec s "SESSION_ESTABLISHED" valid
      (fun _ => by rw [held]; exact ⟨rfl,endpoint⟩)
      (fun open_ => by simp [canSendCommand,active,open_])
    rw [endpoint] at must
    exact ⟨sends,fun running sendable _ => must running sendable⟩
  | refuse =>
    refine ⟨Or.inl ?_,fun _ _ refused => absurd rfl refused⟩
    simp only [BaseStation.refuse]
    split <;> rfl

theorem handleSessionConfirm_sent (s : BaseStation) (peer : Peer) (valid : Valid s) :
    SendsAnswer s (s.handleSessionConfirm codec peer.id peer.endpoint) ∧
      (Up s → peer.endpoint.Sendable → s.session = .offered peer →
        (s.handleSessionConfirm codec peer.id peer.endpoint).manager.sent ≠ s.manager.sent) := by
  rw [handleSessionConfirm_eq]
  split
  · next offered =>
    obtain ⟨_,id,endpoint⟩ := (offered_iff s peer).mp offered
    have held : s.establish.session = .established peer :=
      (established_iff _ peer).mpr ⟨rfl,id,endpoint⟩
    obtain ⟨sends,must⟩ := sendCommand_answers codec s.establish "SESSION_ESTABLISHED"
      (establish_valid s valid) (fun _ => by rw [held]; exact ⟨rfl,endpoint⟩)
      (fun open_ => by
        have active : s.establish.sessionState = .active := rfl
        simp [canSendCommand,active,open_])
    refine ⟨sends,fun up sendable _ => must ⟨up.manager,up.protocol,up.server⟩ ?_⟩
    rw [← endpoint] at sendable
    exact sendable
  · next other => exact ⟨Or.inl rfl,fun _ _ offered => absurd offered other⟩

/-- A request or confirmation that the session answers. -/
def Expects (session : Session) (message : Message) (sender : Endpoint) : Prop :=
  message.isCommand "SESSION_INIT" = true ∧ session.answer ⟨message.sender,sender⟩ ≠ .refuse ∨
    message.isCommand "SESSION_CONFIRM" = true ∧ session = .offered ⟨message.sender,sender⟩

/-- Every message is answered at most once, and those that are expected are answered. -/
theorem routeMessage_sent (s : BaseStation) (message : Message) (sender : Endpoint)
    (valid : Valid s) :
    SendsAnswer s (s.routeMessage codec message sender) ∧
      (Up s → sender.Sendable → Expects s.session message sender →
        (s.routeMessage codec message sender).manager.sent ≠ s.manager.sent) := by
  rw [routeMessage_eq]
  split
  · next init =>
    obtain ⟨sends,must⟩ := handleSessionInit_sent codec s ⟨message.sender,sender⟩ valid
    refine ⟨sends,fun up sendable expected => must up sendable ?_⟩
    rcases expected with ⟨_,heard⟩ | ⟨confirm,_⟩
    · exact heard
    · exact absurd (Message.isCommand_unique init confirm) (by decide)
  · next notInit =>
    split
    · obtain ⟨sends,must⟩ := handleSessionConfirm_sent codec s ⟨message.sender,sender⟩ valid
      refine ⟨sends,fun up sendable expected => must up sendable ?_⟩
      rcases expected with ⟨init,_⟩ | ⟨_,offered⟩
      · exact absurd init notInit
      · exact offered
    · next notConfirm =>
      refine ⟨Or.inl ?_,fun _ _ expected => ?_⟩
      · simp only [handUp]
        split <;> rfl
      · rcases expected with ⟨init,_⟩ | ⟨confirm,_⟩
        · exact absurd init notInit
        · exact absurd confirm notConfirm

/-- A received message neither stops the station nor renames it. -/
theorem routeMessage_up (s : BaseStation) (message : Message) (sender : Endpoint)
    (valid : Valid s) :
    (s.routeMessage codec message sender).stationId = s.stationId ∧
      (Up s → Up (s.routeMessage codec message sender)) := by
  rw [routeMessage_eq]
  split
  · rw [handleSessionInit_eq codec s ⟨message.sender,sender⟩ valid]
    cases s.session.answer ⟨message.sender,sender⟩ with
    | offer =>
      obtain ⟨station,_,_,_,up⟩ := offerTo_fields s ⟨message.sender,sender⟩
      have quiet := sendCommand_quiet codec (s.offerTo ⟨message.sender,sender⟩) "SESSION_ACCEPT"
        s.stationId
      exact ⟨quiet.stationId.trans station,fun running => quiet.up (up running)⟩
    | confirm =>
      have quiet := sendCommand_quiet codec s "SESSION_ESTABLISHED" s.stationId
      exact ⟨quiet.stationId,quiet.up⟩
    | refuse =>
      simp only [BaseStation.refuse]
      split
      · exact ⟨rfl,fun up => ⟨up.manager,up.protocol,up.server⟩⟩
      · exact ⟨rfl,id⟩
  · split
    · rw [handleSessionConfirm_eq codec s ⟨message.sender,sender⟩]
      split
      · have quiet := sendCommand_quiet codec s.establish "SESSION_ESTABLISHED" s.stationId
        exact ⟨quiet.stationId,fun up => quiet.up ⟨up.manager,up.protocol,up.server⟩⟩
      · exact ⟨rfl,id⟩
    · simp only [handUp]
      split
      · exact ⟨rfl,fun up => ⟨up.manager,up.protocol,up.server⟩⟩
      · exact ⟨rfl,id⟩

/-- The messages the owner gives to the station in this step. -/
def Input.Speaks (allowed : Message → Prop) (s : BaseStation) : Input → Prop
  | .sendCommand command params => allowed (s.commandMessage command params)
  | .sendMessage message _ => allowed message
  | .sendRawMessage message _ => allowed message
  | _ => True

section SendsOnly

variable {allowed : Message → Prop}

theorem sendCommand_sendsOnly (s : BaseStation) (command params : String)
    (fine : allowed (s.commandMessage command params)) :
    SendsOnly allowed s.manager.sent (s.sendCommand codec command params).manager.sent := by
  simp only [sendCommand]
  split
  · exact MessageManager.sendMessage_sendsOnly codec s.manager _ _ fine
  · exact .refl _

/-- Outside the handshake the station sends what its owner says, and its own orders. -/
theorem step_sendsOnly (plain : ∀ message, message.isHandshake = false → allowed message)
    (s : BaseStation) (input : Input) (traffic : input.isTraffic = true)
    (spoken : input.Speaks allowed s) :
    SendsOnly allowed s.manager.sent (s.step codec input).manager.sent := by
  cases input with
  | route | stop => cases traffic
  | sendCommand command params => exact sendCommand_sendsOnly codec s command params spoken
  | setLowPowerMode enable => exact sendCommand_sendsOnly codec s _ _ (plain _ rfl)
  | setRoverTarget latitude longitude => exact sendCommand_sendsOnly codec s _ _ (plain _ rfl)
  | sendMessage message recipient =>
    simp only [step,sendMessage]
    split
    · exact .refl _
    · exact MessageManager.sendMessage_sendsOnly codec s.manager message recipient spoken
  | sendRawMessage message recipient =>
    simp only [step,sendRawMessage]
    split
    · exact .refl _
    · exact MessageManager.sendRawMessage_sendsOnly s.manager message recipient spoken
  | setStatusCallback | setApplicationMessageHandler => exact .refl _
  | protocol => exact .refl _

end SendsOnly

/-! ### Which messages call for which -/

theorem routeMessage_grows (s : BaseStation) (message : Message) (sender : Endpoint)
    (valid : Valid s) :
    SendsOnly (fun _ => True) s.manager.sent (s.routeMessage codec message sender).manager.sent := by
  rcases (routeMessage_sent codec s message sender valid).1 with nothing | ⟨entry,sent,_⟩
  · rw [nothing]
    exact .refl _
  · exact ⟨[entry],sent,fun _ _ => trivial⟩

/-- Only a request is answered by an acceptance. -/
theorem routeMessage_sendsNoAccept (s : BaseStation) (message : Message) (sender : Endpoint)
    (other : message.isCommand "SESSION_INIT" = false) :
    SendsOnly (·.isCommand "SESSION_ACCEPT" = false) s.manager.sent
      (s.routeMessage codec message sender).manager.sent := by
  rw [routeMessage_eq,if_neg (by rw [other]; nofun)]
  split
  · rw [handleSessionConfirm_eq codec s ⟨message.sender,sender⟩]
    split
    · exact @sendCommand_sendsOnly codec (·.isCommand "SESSION_ACCEPT" = false) s.establish
        "SESSION_ESTABLISHED" s.stationId rfl
    · exact .refl _
  · simp only [handUp]
    split <;> exact .refl _

/-- A confirmation that no offer is waiting for is dropped. -/
theorem routeMessage_confirm (s : BaseStation) (message : Message) (sender : Endpoint)
    (confirm : message.isCommand "SESSION_CONFIRM" = true)
    (unasked : s.session ≠ .offered ⟨message.sender,sender⟩) :
    s.routeMessage codec message sender = s := by
  have notInit : ¬ message.isCommand "SESSION_INIT" = true := fun init =>
    absurd (Message.isCommand_unique init confirm) (by decide)
  rw [routeMessage_eq,if_neg notInit,if_pos confirm,
    handleSessionConfirm_eq codec s ⟨message.sender,sender⟩,if_neg unasked]

/-- Nothing else is answered at all. -/
theorem routeMessage_sendsNothing (s : BaseStation) (message : Message) (sender : Endpoint)
    (plain : message.Plain) :
    SendsOnly (fun _ => False) s.manager.sent
      (s.routeMessage codec message sender).manager.sent := by
  obtain ⟨init,_,confirm,_⟩ := plain.isCommand
  rw [routeMessage_eq,if_neg (by rw [init]; nofun),if_neg (by rw [confirm]; nofun)]
  simp only [handUp]
  split <;> exact .refl _

end Lumen.BaseStation
