import Lumen.BaseStation

/-! The base station against its abstract session: every step of the code moves the session
as `Session` says. From there, when the session flag of the protocol agrees with the
session state, and which messages can reach the owner. -/
namespace Lumen.BaseStation

open Endpoint

variable (codec : Codec)

/-- The session held by the code's three fields. -/
def session (s : BaseStation) : Session :=
  match s.sessionState with
  | .inactive | .handshakeInit => .idle
  | .handshakeAccept => .offered ⟨s.connectedRoverId,s.roverEndpoint⟩
  | .active => .established ⟨s.connectedRoverId,s.roverEndpoint⟩

def sessionActive (s : BaseStation) : Bool := s.manager.protocol.sessionActive

/-- HANDSHAKE_INIT is never entered, and an inactive station knows no rover. -/
structure Valid (s : BaseStation) : Prop where
  mode : s.manager.protocol.mode = .baseStation
  entered : s.sessionState ≠ .handshakeInit
  forgotten : s.sessionState = .inactive → s.connectedRoverId = ""

/-- What sending and the events below the message layer leave alone. -/
structure Quiet (s t : BaseStation) : Prop where
  stationId : t.stationId = s.stationId
  sessionState : t.sessionState = s.sessionState
  connectedRoverId : t.connectedRoverId = s.connectedRoverId
  roverEndpoint : t.roverEndpoint = s.roverEndpoint
  handed : t.handed = s.handed
  managerRunning : t.manager.running = s.manager.running
  node : s.manager.protocol.SameNode t.manager.protocol

namespace Quiet

theorem session (quiet : Quiet s t) : t.session = s.session := by
  simp only [BaseStation.session]
  rw [quiet.sessionState,quiet.connectedRoverId,quiet.roverEndpoint]

theorem valid (quiet : Quiet s t) (valid : Valid s) : Valid t where
  mode := quiet.node.mode.trans valid.mode
  entered := by rw [quiet.sessionState]; exact valid.entered
  forgotten := by rw [quiet.sessionState,quiet.connectedRoverId]; exact valid.forgotten

end Quiet

theorem onProtocol_quiet (s : BaseStation) (change : LumenProtocol → LumenProtocol)
    (node : s.manager.protocol.SameNode (change s.manager.protocol)) :
    Quiet s (s.onProtocol change) := ⟨rfl,rfl,rfl,rfl,rfl,rfl,node⟩

theorem manager_quiet (s : BaseStation) (message : Message) (recipient : Endpoint) :
    Quiet s { s with manager := s.manager.sendMessage codec message recipient } := by
  simp only [MessageManager.sendMessage]
  split
  · exact ⟨rfl,rfl,rfl,rfl,rfl,rfl,(LumenProtocol.Undisturbed.refl _).sameNode⟩
  · exact ⟨rfl,rfl,rfl,rfl,rfl,rfl,(LumenProtocol.sendMessage_undisturbed ..).sameNode⟩

theorem quiet_refl (s : BaseStation) : Quiet s s :=
  ⟨rfl,rfl,rfl,rfl,rfl,rfl,(LumenProtocol.Undisturbed.refl _).sameNode⟩

theorem sendCommand_quiet (s : BaseStation) (command params : String) :
    Quiet s (s.sendCommand codec command params) := by
  simp only [sendCommand]
  split
  · exact manager_quiet codec s _ _
  · exact quiet_refl s

theorem sendMessage_quiet (s : BaseStation) (message : Message) (recipient : Endpoint) :
    Quiet s (s.sendMessage codec message recipient) := by
  simp only [sendMessage]
  split
  · exact quiet_refl s
  · exact manager_quiet codec s message recipient

theorem sendRawMessage_quiet (s : BaseStation) (message : Message) (recipient : Endpoint) :
    Quiet s (s.sendRawMessage message recipient) := by
  simp only [sendRawMessage,MessageManager.sendRawMessage]
  split
  · exact quiet_refl s
  · have same := (LumenProtocol.Undisturbed.refl s.manager.protocol).sameNode
    split <;> exact ⟨rfl,rfl,rfl,rfl,rfl,rfl,same⟩

/-! ### The two session commands -/

section SetSessionActive

variable (s : BaseStation) (active : Bool)

@[simp] theorem setSessionActive_stationId : (s.setSessionActive active).stationId = s.stationId :=
  rfl

@[simp] theorem setSessionActive_sessionState :
    (s.setSessionActive active).sessionState = s.sessionState := rfl

@[simp] theorem setSessionActive_session : (s.setSessionActive active).session = s.session := rfl

@[simp] theorem setSessionActive_handed : (s.setSessionActive active).handed = s.handed := rfl

@[simp] theorem setSessionActive_sessionActive :
    (s.setSessionActive active).sessionActive = active := rfl

theorem setSessionActive_valid (valid : Valid s) : Valid (s.setSessionActive active) :=
  ⟨valid.mode,valid.entered,valid.forgotten⟩

end SetSessionActive

/-- The fields rewritten when a request is accepted. -/
def offerTo (s : BaseStation) (peer : Peer) : BaseStation :=
  let t := { s with
    sessionState := .handshakeAccept
    connectedRoverId := peer.id
    roverEndpoint := peer.endpoint }
  if s.sessionState = .active then t.setSessionActive false else t

/-- A refused request still clears the protocol's flag when the session is active. -/
def refuse (s : BaseStation) : BaseStation :=
  if s.sessionState = .active then s.setSessionActive false else s

/-- The fields rewritten when the offer is confirmed. -/
def establish (s : BaseStation) : BaseStation :=
  { s with sessionState := .active }.setSessionActive true

theorem handleSessionInit_eq (s : BaseStation) (peer : Peer) (valid : Valid s) :
    s.handleSessionInit codec peer.id peer.endpoint =
      match s.session.answer peer with
      | .offer => (s.offerTo peer).sendCommand codec "SESSION_ACCEPT" s.stationId
      | .confirm => s.sendCommand codec "SESSION_ESTABLISHED" s.stationId
      | .refuse => s.refuse := by
  obtain ⟨id,endpoint⟩ := peer
  cases state : s.sessionState with
  | inactive =>
    have nobody := valid.forgotten state
    by_cases same : id = "" <;>
      simp [handleSessionInit,updateOnInit,session,Session.answer,offerTo,state,nobody,same,
        eq_comm]
  | handshakeInit => exact absurd state valid.entered
  | handshakeAccept =>
    by_cases same : s.connectedRoverId = id <;>
      simp [handleSessionInit,updateOnInit,session,Session.answer,offerTo,refuse,state,same]
  | active =>
    by_cases same : s.connectedRoverId = id <;> by_cases here : s.roverEndpoint = endpoint <;>
      simp [handleSessionInit,updateOnInit,session,Session.answer,offerTo,refuse,state,same,here]

theorem handleSessionConfirm_eq (s : BaseStation) (peer : Peer) :
    s.handleSessionConfirm codec peer.id peer.endpoint =
      if s.session = .offered peer then
        s.establish.sendCommand codec "SESSION_ESTABLISHED" s.stationId
      else s := by
  obtain ⟨id,endpoint⟩ := peer
  cases state : s.sessionState with
  | inactive | handshakeInit | active => simp [handleSessionConfirm,session,state]
  | handshakeAccept =>
    by_cases same : s.connectedRoverId = id <;> by_cases here : s.roverEndpoint = endpoint <;>
      simp [handleSessionConfirm,session,state,same,here,establish,setSessionActive,onProtocol]

theorem establish_valid (s : BaseStation) (valid : Valid s) : Valid s.establish :=
  ⟨valid.mode,by simp [establish],by simp [establish]⟩

theorem offerTo_session (s : BaseStation) (peer : Peer) :
    (s.offerTo peer).session = .offered peer := by
  simp only [offerTo]
  split <;> rfl

theorem offerTo_valid (s : BaseStation) (peer : Peer) (valid : Valid s) :
    Valid (s.offerTo peer) := by
  simp only [offerTo]
  split <;> exact ⟨valid.mode,by simp,by simp⟩

theorem refuse_session (s : BaseStation) : s.refuse.session = s.session := by
  simp only [refuse]
  split <;> rfl

theorem refuse_valid (s : BaseStation) (valid : Valid s) : Valid s.refuse := by
  simp only [refuse]
  split
  · exact setSessionActive_valid s false valid
  · exact valid

theorem handleSessionInit_session (s : BaseStation) (peer : Peer) (valid : Valid s) :
    (s.handleSessionInit codec peer.id peer.endpoint).session = s.session.onInit peer ∧
      Valid (s.handleSessionInit codec peer.id peer.endpoint) := by
  rw [handleSessionInit_eq codec s peer valid,Session.onInit]
  cases s.session.answer peer with
  | offer =>
    have sent := sendCommand_quiet codec (s.offerTo peer) "SESSION_ACCEPT" s.stationId
    exact ⟨sent.session.trans (offerTo_session s peer),sent.valid (offerTo_valid s peer valid)⟩
  | confirm =>
    have sent := sendCommand_quiet codec s "SESSION_ESTABLISHED" s.stationId
    exact ⟨sent.session,sent.valid valid⟩
  | refuse => exact ⟨refuse_session s,refuse_valid s valid⟩

theorem handleSessionConfirm_session (s : BaseStation) (peer : Peer) (valid : Valid s) :
    (s.handleSessionConfirm codec peer.id peer.endpoint).session = s.session.onConfirm peer ∧
      Valid (s.handleSessionConfirm codec peer.id peer.endpoint) := by
  rw [handleSessionConfirm_eq,Session.onConfirm]
  split
  · next offered =>
    have sent := sendCommand_quiet codec s.establish "SESSION_ESTABLISHED" s.stationId
    refine ⟨sent.session.trans ?_,sent.valid (establish_valid s valid)⟩
    simp only [session] at offered
    split at offered
    all_goals first | (cases offered; rfl) | cases offered
  · exact ⟨rfl,valid⟩

/-! ### Every step -/

/-- The abstract step for an input of the code. -/
def sessionStep (session : Session) : Input → Session
  | .route message sender =>
    if message.isCommand "SESSION_INIT" then session.onInit ⟨message.sender,sender⟩
    else if message.isCommand "SESSION_CONFIRM" then session.onConfirm ⟨message.sender,sender⟩
    else session
  | .stop => .idle
  | _ => session

/-- Routing has three cases: the two session commands, and everything else. -/
theorem routeMessage_eq (s : BaseStation) (message : Message) (sender : Endpoint) :
    s.routeMessage codec message sender =
      if message.isCommand "SESSION_INIT" then
        s.handleSessionInit codec message.sender sender
      else if message.isCommand "SESSION_CONFIRM" then
        s.handleSessionConfirm codec message.sender sender
      else s.handUp message sender := by
  obtain ⟨id,timestamp,content⟩ := message
  cases content with
  | command command params =>
    by_cases init : command = "SESSION_INIT"
    · simp [routeMessage,isSessionCommand,Message.isCommand,handleInternalCommand,init]
    · by_cases confirm : command = "SESSION_CONFIRM"
      · simp [routeMessage,isSessionCommand,Message.isCommand,handleInternalCommand,confirm]
      · simp [routeMessage,isSessionCommand,Message.isCommand,init,confirm]
  | basic | telemetry | status => rfl

theorem handUp_session (s : BaseStation) (message : Message) (sender : Endpoint) :
    (s.handUp message sender).session = s.session ∧
      (s.handUp message sender).sessionActive = s.sessionActive ∧
      (s.handUp message sender).sessionState = s.sessionState ∧
      (Valid s → Valid (s.handUp message sender)) := by
  simp only [handUp]
  split
  · exact ⟨rfl,rfl,rfl,fun valid => ⟨valid.mode,valid.entered,valid.forgotten⟩⟩
  · exact ⟨rfl,rfl,rfl,id⟩

theorem routeMessage_session (s : BaseStation) (message : Message) (sender : Endpoint)
    (valid : Valid s) :
    (s.routeMessage codec message sender).session = sessionStep s.session (.route message sender) ∧
      Valid (s.routeMessage codec message sender) := by
  rw [routeMessage_eq,sessionStep]
  split
  · exact handleSessionInit_session codec s ⟨message.sender,sender⟩ valid
  · split
    · exact handleSessionConfirm_session codec s ⟨message.sender,sender⟩ valid
    · exact ⟨(handUp_session s message sender).1,(handUp_session s message sender).2.2.2 valid⟩

/-- An input that is neither a received message nor `stop` leaves the session alone. -/
def Input.isTraffic : Input → Bool
  | .route _ _ => false
  | .stop => false
  | _ => true

theorem step_quiet (s : BaseStation) (input : Input) (traffic : input.isTraffic = true) :
    Quiet s (s.step codec input) := by
  cases input with
  | route | stop => cases traffic
  | sendCommand command params => exact sendCommand_quiet codec s command params
  | setLowPowerMode enable => exact sendCommand_quiet codec s _ _
  | setRoverTarget latitude longitude => exact sendCommand_quiet codec s _ _
  | sendMessage message recipient => exact sendMessage_quiet codec s message recipient
  | sendRawMessage message recipient => exact sendRawMessage_quiet s message recipient
  | setStatusCallback | setApplicationMessageHandler =>
    exact ⟨rfl,rfl,rfl,rfl,rfl,rfl,(LumenProtocol.Undisturbed.refl _).sameNode⟩
  | protocol input external =>
    exact onProtocol_quiet s (fun protocol => protocol.step codec input)
      (LumenProtocol.step_external_sameNode codec _ input external)

theorem stop_node (s : BaseStation) :
    s.stop.manager.protocol.mode = s.manager.protocol.mode ∧ s.stop.sessionActive = false := by
  have kept (protocol : LumenProtocol) :
      protocol.stop.mode = protocol.mode ∧ protocol.stop.sessionActive = protocol.sessionActive := by
    simp only [LumenProtocol.stop]
    split <;> exact ⟨rfl,rfl⟩
  exact ⟨(kept _).1,(kept _).2⟩

/-- The code refines the abstract session. -/
theorem step_session (s : BaseStation) (input : Input) (valid : Valid s) :
    (s.step codec input).session = sessionStep s.session input ∧ Valid (s.step codec input) := by
  by_cases traffic : input.isTraffic = true
  · have quiet := step_quiet codec s input traffic
    have unmoved : sessionStep s.session input = s.session := by
      cases input with
      | route | stop => cases traffic
      | _ => rfl
    exact ⟨quiet.session.trans unmoved.symm,quiet.valid valid⟩
  · cases input with
    | route message sender => exact routeMessage_session codec s message sender valid
    | stop => exact ⟨rfl,(stop_node s).1.trans valid.mode,nofun,fun _ => rfl⟩
    | _ => exact absurd rfl traffic

theorem started_valid (stationId : String) (clock : Clock) : Valid (started stationId clock) :=
  ⟨rfl,nofun,fun _ => rfl⟩

theorem run_session (s : BaseStation) (inputs : List Input) (valid : Valid s) :
    (Machine.run (step codec) s inputs).session = Machine.run sessionStep s.session inputs ∧
      Valid (Machine.run (step codec) s inputs) := by
  induction inputs generalizing s with
  | nil => exact ⟨rfl,valid⟩
  | cons input rest ih =>
    obtain ⟨moved,kept⟩ := step_session codec s input valid
    rw [Machine.run_cons,Machine.run_cons,← moved]
    exact ih _ kept

/-! ### The session flag of the protocol -/

/-- The flag that decides about ACKs agrees with the session state. -/
def FlagMatches (s : BaseStation) : Prop := s.sessionActive = true ↔ s.sessionState = .active

/-- No request from another id while the session is active. -/
def NoForeignInit (s : BaseStation) : Input → Prop
  | .route message _ =>
    ¬ (message.isCommand "SESSION_INIT" ∧ s.sessionState = .active ∧
      s.connectedRoverId ≠ message.sender)
  | _ => True

theorem Quiet.flagMatches (quiet : Quiet s t) : FlagMatches t ↔ FlagMatches s := by
  simp only [FlagMatches,sessionActive]
  rw [quiet.node.sessionActive,quiet.sessionState]

theorem offerTo_flagMatches (s : BaseStation) (peer : Peer) (agrees : FlagMatches s) :
    FlagMatches (s.offerTo peer) := by
  simp only [offerTo]
  split
  · simp [FlagMatches]
  · next inactive =>
    have off : ¬ s.sessionActive = true := fun on => inactive (agrees.mp on)
    exact ⟨fun on => absurd on off,nofun⟩

/-- A refusal means that somebody else holds the session. -/
theorem answer_refuse (s : BaseStation) (peer : Peer) (refused : s.session.answer peer = .refuse)
    (active : s.sessionState = .active) : s.connectedRoverId ≠ peer.id := by
  intro same
  simp only [session,active,Session.answer] at refused
  split at refused
  · cases refused
  · cases refused

theorem handleSessionInit_flagMatches (s : BaseStation) (peer : Peer) (valid : Valid s)
    (agrees : FlagMatches s) :
    FlagMatches (s.handleSessionInit codec peer.id peer.endpoint) ↔
      ¬ (s.sessionState = .active ∧ s.connectedRoverId ≠ peer.id) := by
  rw [handleSessionInit_eq codec s peer valid]
  cases answered : s.session.answer peer with
  | offer =>
    have kept := (sendCommand_quiet codec (s.offerTo peer) "SESSION_ACCEPT"
      s.stationId).flagMatches.mpr (offerTo_flagMatches s peer agrees)
    refine iff_of_true kept ?_
    rintro ⟨active,other⟩
    rcases Session.answer_offer s.session peer answered with idle | ⟨holder,held,same⟩
    · simp [session,active] at idle
    · simp only [session,active,Session.peer?,Option.some.injEq] at held
      exact other (by rw [← same,← held])
  | confirm =>
    refine iff_of_true ((sendCommand_quiet codec s _ _).flagMatches.mpr agrees) ?_
    rintro ⟨active,other⟩
    simp only [session,active,Session.answer] at answered
    split at answered
    · next same => exact other (congrArg Peer.id same)
    · cases answered
  | refuse =>
    by_cases active : s.sessionState = .active
    · have other := answer_refuse s peer answered active
      refine iff_of_false ?_ (fun fine => fine ⟨active,other⟩)
      simp [FlagMatches,BaseStation.refuse,active]
    · refine iff_of_true ?_ (fun wrong => active wrong.1)
      simpa [BaseStation.refuse,active] using agrees

theorem handleSessionConfirm_flagMatches (s : BaseStation) (peer : Peer) (agrees : FlagMatches s) :
    FlagMatches (s.handleSessionConfirm codec peer.id peer.endpoint) := by
  rw [handleSessionConfirm_eq]
  split
  · exact (sendCommand_quiet codec _ _ _).flagMatches.mpr (by simp [FlagMatches,establish])
  · exact agrees

/-- One step: the flag keeps agreeing exactly when the step is no foreign request. -/
theorem step_flagMatches (s : BaseStation) (input : Input) (valid : Valid s)
    (agrees : FlagMatches s) : FlagMatches (s.step codec input) ↔ NoForeignInit s input := by
  by_cases traffic : input.isTraffic = true
  · have fine : NoForeignInit s input := by
      cases input with
      | route => cases traffic
      | _ => trivial
    exact iff_of_true ((step_quiet codec s input traffic).flagMatches.mpr agrees) fine
  · cases input with
    | route message sender =>
      simp only [step,routeMessage_eq,NoForeignInit]
      split
      · next init =>
        simpa [init] using handleSessionInit_flagMatches codec s ⟨message.sender,sender⟩ valid agrees
      · next other =>
        refine iff_of_true ?_ (by simp [other])
        split
        · exact handleSessionConfirm_flagMatches codec s ⟨message.sender,sender⟩ agrees
        · obtain ⟨_,flag,state,_⟩ := handUp_session s message sender
          rw [FlagMatches,flag,state]
          exact agrees
    | stop => exact iff_of_true ⟨by simp [step,(stop_node s).2],nofun⟩ trivial
    | _ => exact absurd rfl traffic

/-- Over whole runs: after every step the flag agrees with the session state, if and only if
no foreign request arrives while the session is active. -/
theorem flag_matches_iff_no_foreign_init (stationId : String) (clock : Clock)
    (inputs : List Input) :
    Machine.Always (step codec) FlagMatches (started stationId clock) inputs ↔
      Machine.Guarded (step codec) NoForeignInit (started stationId clock) inputs :=
  Machine.always_iff_guarded (step codec)
    (fun s input valid => (step_session codec s input valid).2)
    (fun s input valid agrees fine => (step_flagMatches codec s input valid agrees).mpr fine)
    (fun s input valid agrees foreign now =>
      foreign ((step_flagMatches codec s input valid agrees).mp now))
    _ inputs (started_valid stationId clock) ⟨nofun,nofun⟩

def sampleCommand (command sender : String) : Message := ⟨sender,0,.command command sender⟩

/-- A rover completes the handshake, then another one asks for a session. -/
def foreignRequest : List Input :=
  [.route (sampleCommand "SESSION_INIT" "rover-a") ⟨0x0aed0002,9001⟩,
    .route (sampleCommand "SESSION_CONFIRM" "rover-a") ⟨0x0aed0002,9001⟩,
    .route (sampleCommand "SESSION_INIT" "rover-b") ⟨0x0aed0003,9001⟩]

/-- The session stays active with the first rover, and its packets are no longer ACKed. -/
theorem foreignRequest_stops_acks :
    ¬ Machine.Always (step .silent) FlagMatches (started "base" ⟨0,0⟩) foreignRequest := by
  intro always
  have last := always foreignRequest (List.prefix_refl _)
  have state : (Machine.run (step .silent) (started "base" ⟨0,0⟩) foreignRequest).sessionState =
      .active := by decide +kernel
  have flag : (Machine.run (step .silent) (started "base" ⟨0,0⟩) foreignRequest).sessionActive =
      false := by decide +kernel
  rw [FlagMatches,state,flag] at last
  exact absurd (last.mpr rfl) (by decide)

/-! ### Who reaches the owner -/

/-- A request is accepted when it leaves the station waiting for its sender's confirmation. -/
def sessionEvents (s : BaseStation) : Input → List Session.Event
  | .route message sender =>
    if message.isCommand "SESSION_INIT" then
      let t := s.routeMessage codec message sender
      if t.sessionState = .handshakeAccept ∧ t.connectedRoverId = message.sender ∧
          t.roverEndpoint = sender then [.accepted ⟨message.sender,sender⟩]
      else []
    else if message.isCommand "SESSION_CONFIRM" then [.confirmed ⟨message.sender,sender⟩]
    else []
  | _ => []

theorem offered_iff (s : BaseStation) (peer : Peer) :
    s.session = .offered peer ↔
      s.sessionState = .handshakeAccept ∧ s.connectedRoverId = peer.id ∧
        s.roverEndpoint = peer.endpoint := by
  obtain ⟨id,endpoint⟩ := peer
  simp only [session]
  cases s.sessionState <;> simp

theorem step_accounted (seen : List Session.Event) (s : BaseStation) (input : Input)
    (accounted : Valid s ∧ s.session.Accounted seen) (live : input ≠ .stop) :
    Valid (s.step codec input) ∧
      (s.step codec input).session.Accounted (seen ++ sessionEvents codec s input) := by
  obtain ⟨valid,accounted⟩ := accounted
  obtain ⟨moved,kept⟩ := step_session codec s input valid
  refine ⟨kept,?_⟩
  rw [moved]
  have still : s.session.Accounted (seen ++ []) := by rw [List.append_nil]; exact accounted
  cases input with
  | stop => exact absurd rfl live
  | route message sender =>
    simp only [sessionEvents,sessionStep]
    split
    · next init =>
      have same : ((s.routeMessage codec message sender).sessionState = .handshakeAccept ∧
          (s.routeMessage codec message sender).connectedRoverId = message.sender ∧
          (s.routeMessage codec message sender).roverEndpoint = sender) ↔
            s.session.answer ⟨message.sender,sender⟩ = .offer := by
        rw [← Session.onInit_offered_iff,← offered_iff _ ⟨message.sender,sender⟩,
          (routeMessage_session codec s message sender valid).1,sessionStep,if_pos init]
      simp only [same]
      exact Session.accounted_onInit accounted ⟨message.sender,sender⟩
    · split
      · exact Session.accounted_onConfirm accounted ⟨message.sender,sender⟩
      · exact still
  | _ => exact still

theorem handleSessionInit_handed (s : BaseStation) (peer : Peer) (valid : Valid s) :
    (s.handleSessionInit codec peer.id peer.endpoint).handed = s.handed := by
  have offer : (s.offerTo peer).handed = s.handed := by
    simp only [offerTo]
    split <;> rfl
  have refusal : s.refuse.handed = s.handed := by
    simp only [BaseStation.refuse]
    split <;> rfl
  rw [handleSessionInit_eq codec s peer valid]
  cases s.session.answer peer with
  | offer => exact (sendCommand_quiet codec _ _ _).handed.trans offer
  | confirm => exact (sendCommand_quiet codec s _ _).handed
  | refuse => exact refusal

theorem handleSessionConfirm_handed (s : BaseStation) (peer : Peer) :
    (s.handleSessionConfirm codec peer.id peer.endpoint).handed = s.handed := by
  rw [handleSessionConfirm_eq]
  split
  · exact (sendCommand_quiet codec _ _ _).handed
  · rfl

/-- While a confirmation is awaited the check lets nothing else pass. -/
theorem allowMessage_established (s : BaseStation) (message : Message) (sender : Endpoint)
    (other : ¬ message.isCommand "SESSION_CONFIRM") (allowed : s.allowMessage message sender) :
    s.session = .established ⟨message.sender,sender⟩ := by
  simp only [allowMessage] at allowed
  split at allowed
  · next active =>
    obtain ⟨id,endpoint⟩ := of_decide_eq_true allowed
    simp only [session,active,id,endpoint]
  · split at allowed
    · next command =>
      have confirm := (of_decide_eq_true allowed).1
      exact absurd (by simp [Message.isCommand,command,confirm]) other
    · cases allowed
  · cases allowed

/-- Only a message from the established peer, and no session command, is handed up. -/
theorem step_handed (s : BaseStation) (input : Input) (valid : Valid s)
    (handed : (s.step codec input).handed ≠ s.handed) :
    ∃ message sender, input = .route message sender ∧
      (s.step codec input).handed = s.handed ++ s.handedFor message sender ∧
      s.session = .established ⟨message.sender,sender⟩ := by
  by_cases traffic : input.isTraffic = true
  · exact absurd (step_quiet codec s input traffic).handed handed
  · cases input with
    | route message sender =>
      refine ⟨message,sender,rfl,?_⟩
      simp only [step,routeMessage_eq] at handed ⊢
      split at handed
      · exact absurd (handleSessionInit_handed codec s ⟨message.sender,sender⟩ valid) handed
      · next notInit =>
        split at handed
        · exact absurd (handleSessionConfirm_handed codec s ⟨message.sender,sender⟩) handed
        · next notConfirm =>
          rw [if_neg notInit,if_neg notConfirm]
          simp only [handUp] at handed ⊢
          split at handed
          · next allowed =>
            rw [if_pos allowed]
            exact ⟨rfl,allowMessage_established s message sender notConfirm allowed⟩
          · exact absurd rfl handed
    | stop => exact absurd rfl handed
    | _ => exact absurd rfl traffic

/-- Whatever step of a run before `stop` hands something to the owner: it routes a message of
the peer whose request was accepted last, this peer has confirmed since, and its id is that
of the first accepted request. -/
theorem handed_only_from_holder (stationId : String) (clock : Clock) (inputs : List Input)
    (live : ∀ input ∈ inputs, input ≠ .stop) (input : Input) :
    let s := Machine.run (step codec) (started stationId clock) inputs
    let seen := Machine.trace (step codec) (sessionEvents codec) (started stationId clock) inputs
    (s.step codec input).handed ≠ s.handed →
      ∃ message sender, input = .route message sender ∧
        (s.step codec input).handed = s.handed ++ s.handedFor message sender ∧
        (∃ later, Session.LatestAccepted seen ⟨message.sender,sender⟩ later ∧
          .confirmed ⟨message.sender,sender⟩ ∈ later) ∧
        Session.FirstAccepted seen message.sender := by
  intro s seen handed
  have history : Valid s ∧ s.session.Accounted seen :=
    Machine.run_trace (step codec) (sessionEvents codec) (started stationId clock)
      ⟨started_valid stationId clock,fun _ member => by cases member⟩ (step_accounted codec) inputs
      (Machine.guarded_of_forall (step codec) _ inputs live)
  obtain ⟨message,sender,routed,added,established⟩ := step_handed codec s input history.1 handed
  have accounted := history.2
  rw [established] at accounted
  exact ⟨message,sender,routed,added,accounted.1,accounted.2⟩

/-- The application hears from a rover that completed the handshake. -/
theorem greeting_handed :
    let greeting : Message := ⟨"rover-a",0,.basic "hello"⟩
    let seen := Machine.trace (step .silent) (sessionEvents .silent) (started "base" ⟨0,0⟩)
      (.setApplicationMessageHandler :: foreignRequest)
    Session.FirstAccepted seen greeting.sender := by
  intro greeting seen
  obtain ⟨message,sender,routed,_,_,first⟩ := handed_only_from_holder .silent "base" ⟨0,0⟩
    (.setApplicationMessageHandler :: foreignRequest) (by simp [foreignRequest])
    (.route greeting ⟨0x0aed0002,9001⟩) (fun same => by
      have lengths := congrArg List.length same
      revert lengths
      decide +kernel)
  cases routed
  exact first

end Lumen.BaseStation
