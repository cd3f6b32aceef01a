import Lumen.RoverReplies

/-! How messages for the base station leave the rover or are kept: the three sending
functions agree on them, and every step either hands messages to `LumenProtocol::send_message`,
stores one, forwards all that are stored, or does something below the message layer. -/
namespace Lumen

/-- The arguments of `LumenProtocol::send_message`. -/
structure Call where
  payload : List UInt8
  type : MessageType
  priority : Priority
  recipient : Endpoint
  deriving DecidableEq, Repr

def Message.call (codec : Codec) (message : Message) (recipient : Endpoint) : Call :=
  ⟨message.serialise codec,message.getLumenType,message.getLumenPriority,recipient⟩

def StoredPacket.call (stored : StoredPacket) : Call :=
  ⟨stored.payload,stored.type,stored.priority,stored.recipient⟩

namespace LumenProtocol

def give (s : LumenProtocol) (call : Call) : LumenProtocol :=
  s.sendMessage call.payload call.type call.priority call.recipient

/-- The calls one after the other. -/
def giveAll (s : LumenProtocol) (calls : List Call) : LumenProtocol := calls.foldl give s

theorem giveAll_append (s : LumenProtocol) (first second : List Call) :
    s.giveAll (first ++ second) = (s.giveAll first).giveAll second := List.foldl_append

theorem giveAll_undisturbed (s : LumenProtocol) (calls : List Call) :
    Undisturbed s (s.giveAll calls) := by
  induction calls generalizing s with
  | nil => exact .refl s
  | cons call rest ih => exact (sendMessage_undisturbed s _ _ _ _).trans (ih _)

/-- The calls seen in the log: what the packets carry and where they go. -/
def callOf : Effect → Option Call
  | .transmit packet recipient =>
    some ⟨packet.payload,packet.header.type,packet.header.priority,recipient⟩
  | _ => none

/-- Every call for the registered base station of a running rover leaves as one packet. -/
theorem giveAll_calls (s : LumenProtocol) (calls : List Call) (rover : s.mode = .rover)
    (running : s.running = true)
    (toBase : ∀ call ∈ calls, s.getBaseEndpoint = some call.recipient) :
    ∃ effects, (s.giveAll calls).effects = s.effects ++ effects ∧
      effects.filterMap callOf = calls := by
  induction calls generalizing s with
  | nil => exact ⟨[],by simp [giveAll]⟩
  | cons call rest ih =>
    have same := sendMessage_undisturbed s call.payload call.type call.priority call.recipient
    have base := toBase call List.mem_cons_self
    have registered : (s.give call).getBaseEndpoint = s.getBaseEndpoint := by
      simp only [getBaseEndpoint]
      rw [give,same.baseEndpoint]
    obtain ⟨effects,added,shown⟩ := ih (s.give call) (same.mode.trans rover)
      (same.running.trans running) fun later member =>
        registered.trans (toBase later (List.mem_cons_of_mem _ member))
    have one := sendMessage_effects s call.payload call.type call.priority call.recipient
    rw [destination_registered s call.recipient rover running base] at one
    refine ⟨.transmit (s.nextPacket call.payload call.type call.priority) call.recipient ::
      effects,?_,?_⟩
    · change ((s.give call).giveAll rest).effects = _
      rw [added,give,one]
      simp
    · rw [List.filterMap_cons,shown]
      rfl

end LumenProtocol

namespace Rover

open Endpoint LumenProtocol

variable (codec : Codec)

def statusMessage (s : Rover) : Message := s.message (.status s.statusLevel s.statusDescription)

def positionMessage (s : Rover) : Message :=
  s.message (.telemetry
    [("latitude",s.currentCoordinate.first),("longitude",s.currentCoordinate.second)])

/-- The message sent when the movement timer finds the target reached. -/
def arrivalMessage (s : Rover) : Option Message :=
  match s.targetCoordinate,s.getBaseEndpoint with
  | some target,some _ =>
    if calculateDistance s.currentCoordinate target ≤ targetReachedThresholdMeters then
      some (s.message (.basic ("Rover " ++ s.roverId ++ " reached target coordinates.")))
    else none
  | _,_ => none

/-- The message for the base station that a step gives to `send_message`, `send_telemetry`
or `send_status`. -/
def offered (s : Rover) : Input → Option Message
  | .sendMessage message recipient =>
    if recipient.isUnspecified ∨ s.getBaseEndpoint = some recipient then some message else none
  | .sendTelemetry readings => some (s.message (.telemetry readings))
  | .sendStatus => some s.statusMessage
  | .handlePositionTelemetryTimer => some s.positionMessage
  | .expire .status => if s.statusTimer then some s.statusMessage else none
  | .expire .positionTelemetry =>
    if s.positionTelemetryTimer then some s.positionMessage else none
  | .expire .movement => if s.movementTimer then s.arrivalMessage else none
  | _ => none

/-- For the base station the three sending functions do the same. -/
theorem sendMessage_base (s : Rover) (message : Message) (recipient : Endpoint)
    (toBase : recipient.isUnspecified = true ∨ s.getBaseEndpoint = some recipient) :
    s.sendMessage codec message recipient = s.report codec message := by
  unfold sendMessage report target
  cases registered : s.getBaseEndpoint with
  | none =>
    have open_ : recipient.isUnspecified = true := by simpa [registered] using toBase
    simp [open_]
  | some base =>
    have both : recipient.isUnspecified = true ∨ recipient = base := by
      rcases toBase with open_ | known
      · exact Or.inl open_
      · exact Or.inr (Option.some.inj (known.symm.trans registered))
    simp [both]

/-- The same store, layers below and session. -/
structure SameTraffic (s t : Rover) : Prop where
  stored : t.storedPackets = s.storedPackets
  manager : t.manager = s.manager
  sessionState : t.sessionState = s.sessionState

theorem SameTraffic.refl (s : Rover) : SameTraffic s s := ⟨rfl,rfl,rfl⟩

/-- A change that `report` does not look at. -/
theorem report_sameTraffic {s t : Rover} (message : Message) (same : SameTraffic s t)
    (power : t.lowPowerMode = s.lowPowerMode) :
    SameTraffic (s.report codec message) (t.report codec message) := by
  have base : t.getBaseEndpoint = s.getBaseEndpoint := by
    rw [getBaseEndpoint,same.manager,getBaseEndpoint]
  have quiet : t.suppresses message = s.suppresses message := by
    simp only [suppresses,power]
  unfold report
  rw [base,quiet,same.sessionState]
  split
  · exact same
  · split
    · exact same
    · split
      · exact ⟨by simp only [storeMessageForLater,same.stored],same.manager,same.sessionState⟩
      · split
        · exact ⟨same.stored,by simp only [transmit,same.manager],same.sessionState⟩
        · exact same

theorem handleMovementTimer_sameTraffic (s : Rover) :
    SameTraffic (match s.arrivalMessage with
      | some message => s.report codec message
      | none => s) (s.handleMovementTimer codec) := by
  unfold arrivalMessage handleMovementTimer
  cases s.targetCoordinate with
  | none => exact .refl s
  | some target =>
    by_cases near : calculateDistance s.currentCoordinate target ≤ targetReachedThresholdMeters
    · cases registered : s.getBaseEndpoint with
      | none =>
        simp only [if_pos near]
        have same : ({ s with targetCoordinate := none } : Rover).getBaseEndpoint = none :=
          registered
        rw [same]
        exact ⟨rfl,rfl,rfl⟩
      | some base =>
        simp only [if_pos near]
        have same : ({ s with targetCoordinate := none } : Rover).getBaseEndpoint = some base :=
          registered
        rw [same]
        simp only
        rw [sendMessage_base codec _ _ base (Or.inr same)]
        exact report_sameTraffic codec _ ⟨rfl,rfl,rfl⟩ rfl
    · cases s.getBaseEndpoint <;> simp only [if_neg near] <;> exact ⟨rfl,rfl,rfl⟩

/-- A step that offers a message for the base station reports it and does nothing else to the
store, the session and the layers below. -/
theorem step_offered (s : Rover) (input : Input) (message : Message)
    (offers : s.offered input = some message) :
    SameTraffic (s.report codec message) (s.step codec input) := by
  cases input with
  | sendMessage given recipient =>
    simp only [offered] at offers
    split at offers
    · next toBase =>
      cases offers
      rw [step,sendMessage_base codec s message recipient toBase]
      exact .refl _
    · cases offers
  | sendTelemetry | sendStatus => cases offers; exact .refl _
  | handlePositionTelemetryTimer => cases offers; exact ⟨rfl,rfl,rfl⟩
  | expire timer =>
    cases timer with
    | handshake | probe => cases offers
    | status =>
      simp only [offered] at offers
      split at offers
      · next pending =>
        cases offers
        simp only [step,expire,if_pos pending]
        have same := @report_sameTraffic codec s { s with statusTimer := false } s.statusMessage
          ⟨rfl,rfl,rfl⟩ rfl
        exact ⟨same.stored,same.manager,same.sessionState⟩
      · cases offers
    | positionTelemetry =>
      simp only [offered] at offers
      split at offers
      · next pending =>
        cases offers
        simp only [step,expire,if_pos pending]
        have same := @report_sameTraffic codec s { s with positionTelemetryTimer := false }
          s.positionMessage ⟨rfl,rfl,rfl⟩ rfl
        exact ⟨same.stored,same.manager,same.sessionState⟩
      · cases offers
    | movement =>
      simp only [offered] at offers
      split at offers
      · next pending =>
        simp only [step,expire,if_pos pending]
        have moved := handleMovementTimer_sameTraffic codec { s with movementTimer := false }
        have arrived : ({ s with movementTimer := false } : Rover).arrivalMessage =
          some message := offers
        rw [arrived] at moved
        have same := @report_sameTraffic codec s { s with movementTimer := false } message
          ⟨rfl,rfl,rfl⟩ rfl
        exact ⟨moved.stored.trans same.stored,moved.manager.trans same.manager,
          moved.sessionState.trans same.sessionState⟩
      · cases offers
  | _ => cases offers

/-- What `report` does with a message, and when. -/
theorem report_cases (s : Rover) (message : Message) :
    s.report codec message = s ∨
    ∃ base, s.getBaseEndpoint = some base ∧ s.suppresses message = false ∧
      (s.sessionState = .disconnected ∧
          s.report codec message = s.storeMessageForLater codec message base ∨
        s.sessionState = .active ∧ s.report codec message = s.transmit codec message base) := by
  unfold report
  cases s.getBaseEndpoint with
  | none => exact Or.inl rfl
  | some base =>
    simp only
    split
    · exact Or.inl rfl
    · next loud =>
      split
      · next lost => exact Or.inr ⟨base,rfl,by simpa using loud,Or.inl ⟨lost,rfl⟩⟩
      · split
        · next active => exact Or.inr ⟨base,rfl,by simpa using loud,Or.inr ⟨active,rfl⟩⟩
        · exact Or.inl rfl

/-! ### Every step -/

/-- Nothing is stored; the protocol gets these calls. -/
structure Hands (calls : List Call) (s t : Rover) : Prop where
  stored : t.storedPackets = s.storedPackets
  protocol : t.manager.protocol = s.manager.protocol.giveAll calls

theorem Hands.nothing (stored : t.storedPackets = s.storedPackets)
    (manager : t.manager = s.manager) : Hands [] s t :=
  ⟨stored,by rw [manager]; rfl⟩

theorem Hands.trans {first second : List Call} (before : Hands first s t)
    (after : Hands second t u) : Hands (first ++ second) s u where
  stored := after.stored.trans before.stored
  protocol := by rw [giveAll_append,after.protocol,before.protocol]

theorem transmit_hands (s : Rover) (message : Message) (recipient : Endpoint) :
    Hands (if s.manager.running then [message.call codec recipient] else []) s
      (s.transmit codec message recipient) := by
  refine ⟨rfl,?_⟩
  simp only [transmit,MessageManager.sendMessage]
  cases s.manager.running <;> rfl

/-- Commands never wait in the store. -/
theorem sendCommand_hands (s : Rover) (command params : String) :
    ∃ calls : List Call, calls.length ≤ 1 ∧ (∀ call ∈ calls, call.type = .cmd) ∧
      Hands calls s (s.sendCommand codec command params) := by
  have sent (base : Endpoint) : ∃ calls : List Call, calls.length ≤ 1 ∧
      (∀ call ∈ calls, call.type = .cmd) ∧
      Hands calls s (s.transmit codec (s.message (.command command params)) base) := by
    refine ⟨_,?_,?_,transmit_hands codec s _ base⟩
    · split <;> simp
    · split <;> simp [Message.call,Message.getLumenType,message]
  have silent : ∃ calls : List Call, calls.length ≤ 1 ∧ (∀ call ∈ calls, call.type = .cmd) ∧
      Hands calls s s := ⟨[],by simp,by simp,.nothing rfl rfl⟩
  simp only [sendCommand]
  split
  · exact silent
  · split
    · exact silent
    · next base _ =>
      split
      · exact sent base
      · split
        · exact sent base
        · exact silent

theorem foldl_sendStored_protocol (packets : List StoredPacket) (s : Rover) :
    (packets.foldl sendStored s).manager.protocol =
      s.manager.protocol.giveAll (packets.map StoredPacket.call) := by
  induction packets generalizing s with
  | nil => rfl
  | cons packet rest ih =>
    rw [List.foldl_cons,ih]
    rfl

/-- Reports made now would be the same. -/
structure SameReporter (s t : Rover) : Prop where
  status : t.statusMessage = s.statusMessage
  position : t.positionMessage = s.positionMessage
  sessionState : t.sessionState = s.sessionState
  lowPowerMode : t.lowPowerMode = s.lowPowerMode
  running : t.manager.running = s.manager.running
  registered : t.getBaseEndpoint = s.getBaseEndpoint

namespace SameReporter

theorem trans (first : SameReporter s t) (second : SameReporter t u) : SameReporter s u where
  status := second.status.trans first.status
  position := second.position.trans first.position
  sessionState := second.sessionState.trans first.sessionState
  lowPowerMode := second.lowPowerMode.trans first.lowPowerMode
  running := second.running.trans first.running
  registered := second.registered.trans first.registered

/-- Sending changes only the layers below, and neither the clock nor the base there. -/
theorem manager (s : Rover) (m : MessageManager) (running : m.running = s.manager.running)
    (same : Undisturbed s.manager.protocol m.protocol) :
    SameReporter s { s with manager := m } where
  status := by simp only [statusMessage,message,same.clock]
  position := by simp only [positionMessage,message,same.clock]
  sessionState := rfl
  lowPowerMode := rfl
  running := running
  registered := by
    simp only [Rover.getBaseEndpoint,LumenProtocol.getBaseEndpoint,same.baseEndpoint]

end SameReporter

theorem foldl_sendStored_reporter (packets : List StoredPacket) (s : Rover) :
    SameReporter s (packets.foldl sendStored s) := by
  induction packets generalizing s with
  | nil => exact ⟨rfl,rfl,rfl,rfl,rfl,rfl⟩
  | cons packet rest ih =>
    refine SameReporter.trans ?_ (ih (s.sendStored packet))
    exact .manager s _ rfl (sendMessage_undisturbed ..)

/-- The calls made for reports that are not held back in low power mode. -/
def reported (s : Rover) (base : Endpoint) (messages : List Message) : List Call :=
  if s.manager.running then
    (messages.filter fun message => !s.suppresses message).map (·.call codec base)
  else []

theorem SameReporter.reported (same : SameReporter s t) (base : Endpoint)
    (messages : List Message) : t.reported codec base messages = s.reported codec base messages := by
  simp only [Rover.reported,suppresses,same.running,same.lowPowerMode]

theorem reported_pair (s : Rover) (base : Endpoint) (first second : Message) :
    s.reported codec base [first,second] =
      s.reported codec base [first] ++ s.reported codec base [second] := by
  simp only [reported]
  split
  · rw [← List.map_append,← List.filter_append,List.singleton_append]
  · rfl

theorem report_active (s : Rover) (message : Message) (base : Endpoint)
    (registered : s.getBaseEndpoint = some base) (active : s.sessionState = .active) :
    Hands (s.reported codec base [message]) s (s.report codec message) ∧
      SameReporter s (s.report codec message) := by
  have apart : s.sessionState ≠ .disconnected := by rw [active]; simp
  simp only [report,registered,if_neg apart,if_pos active,reported]
  cases loud : s.suppresses message with
  | true =>
    refine ⟨?_,⟨rfl,rfl,rfl,rfl,rfl,rfl⟩⟩
    simpa [loud] using Hands.nothing rfl rfl
  | false =>
    refine ⟨?_,?_⟩
    · simpa [loud] using transmit_hands codec s message base
    · simp only [Bool.false_eq_true,if_false,transmit]
      refine .manager s _ ?_ ?_
      · simp only [MessageManager.sendMessage]
        split <;> rfl
      · simp only [MessageManager.sendMessage]
        split
        · exact .refl _
        · exact sendMessage_undisturbed ..

theorem handleStatusTimer_active (s : Rover) (base : Endpoint)
    (registered : s.getBaseEndpoint = some base) (active : s.sessionState = .active) :
    Hands (s.reported codec base [s.statusMessage]) s (s.handleStatusTimer codec) ∧
      SameReporter s (s.handleStatusTimer codec) := by
  obtain ⟨⟨stored,protocol⟩,same⟩ := report_active codec s s.statusMessage base registered active
  exact ⟨⟨stored,protocol⟩,⟨same.status,same.position,same.sessionState,same.lowPowerMode,
    same.running,same.registered⟩⟩

theorem handlePositionTelemetryTimer_active (s : Rover) (base : Endpoint)
    (registered : s.getBaseEndpoint = some base) (active : s.sessionState = .active) :
    Hands (s.reported codec base [s.positionMessage]) s (s.handlePositionTelemetryTimer codec) ∧
      SameReporter s (s.handlePositionTelemetryTimer codec) := by
  obtain ⟨⟨stored,protocol⟩,same⟩ := report_active codec s s.positionMessage base registered active
  exact ⟨⟨stored,protocol⟩,⟨same.status,same.position,same.sessionState,same.lowPowerMode,
    same.running,same.registered⟩⟩

theorem sendStoredPackets_reporter (s : Rover) : SameReporter s s.sendStoredPackets := by
  have same := foldl_sendStored_reporter s.storedPackets s
  exact ⟨same.status,same.position,same.sessionState,same.lowPowerMode,same.running,same.registered⟩

theorem sendStoredPackets_protocol (s : Rover) :
    s.sendStoredPackets.manager.protocol =
      s.manager.protocol.giveAll (s.storedPackets.map StoredPacket.call) :=
  foldl_sendStored_protocol s.storedPackets s

/-- The rover in its new session, before anything is sent. -/
def opened (s : Rover) : Rover :=
  ((((s.enter .active).setHandshakeRetryCount 0).setHandshakeTimer false).setProbeTimer false)

/-- Established, the rover empties its store into the protocol, in order, and then reports. -/
theorem handleSessionEstablished_hands (s : Rover) (base : Endpoint)
    (registered : s.getBaseEndpoint = some base) (apart : s.sessionState ≠ .active) :
    (s.handleSessionEstablished codec).storedPackets = [] ∧
    (s.handleSessionEstablished codec).sessionState = .active ∧
    (s.handleSessionEstablished codec).manager.protocol =
      s.manager.protocol.giveAll (s.storedPackets.map StoredPacket.call ++
        s.reported codec base [s.statusMessage,s.positionMessage]) := by
  have unfolded : s.handleSessionEstablished codec =
      (s.opened.sendStoredPackets.handleStatusTimer codec).handlePositionTelemetryTimer codec :=
    if_neg apart
  have flushed := sendStoredPackets_reporter s.opened
  have base₁ := flushed.registered.trans registered
  obtain ⟨hands₁,same₁⟩ := handleStatusTimer_active codec _ base base₁ flushed.sessionState
  obtain ⟨hands₂,same₂⟩ := handlePositionTelemetryTimer_active codec _ base
    (same₁.registered.trans base₁) (same₁.sessionState.trans flushed.sessionState)
  have both := hands₁.trans hands₂
  rw [(flushed.trans same₁).reported codec base,flushed.reported codec base,
    (flushed.trans same₁).position,flushed.status,← reported_pair] at both
  rw [unfolded]
  refine ⟨both.stored,?_,?_⟩
  · exact ((flushed.trans same₁).trans same₂).sessionState
  · rw [both.protocol,sendStoredPackets_protocol,giveAll_append]
    rfl

/-- The session stays, waits for the base station to confirm, or is lost. -/
def Settles (s t : Rover) : Prop :=
  t.sessionState = s.sessionState ∨ t.sessionState = .handshakeAccept ∨
    s.sessionState = .active ∧ t.sessionState = .disconnected

/-- A session that settles is not a new one. -/
theorem Settles.wasActive {s t : Rover} (settles : Settles s t)
    (active : t.sessionState = .active) : s.sessionState = .active := by
  rcases settles with same | accepted | lost
  · exact same.symm.trans active
  · cases accepted.symm.trans active
  · exact lost.1

/-- The step receives the base station's announcement of a session. -/
def Announced (s : Rover) (input : Input) : Prop :=
  ∃ message sender, input = .route message sender ∧
    s.FromBase "SESSION_ESTABLISHED" message sender

/-- What one step does with the traffic for the base station. -/
inductive Moves (s t : Rover) (input : Input) : Prop where
  /-- At most one call; in a session, an application message for the base is one that was
  offered. The session does not become active. -/
  | hands (calls : List Call) (few : calls.length ≤ 1) (hands : Hands calls s t)
      (settled : Settles s t)
      (application : ∀ call ∈ calls, call.type ≠ .cmd →
        call.recipient.isUnspecified = true ∨ s.getBaseEndpoint = some call.recipient →
        ∃ message, s.offered input = some message ∧ s.suppresses message = false)
  /-- Disconnected, an offered message is stored. -/
  | stores (message : Message) (base : Endpoint) (offers : s.offered input = some message)
      (registered : s.getBaseEndpoint = some base) (lost : s.sessionState = .disconnected)
      (same : SameTraffic (s.storeMessageForLater codec message base) t)
  /-- The session becomes active. -/
  | forwards (base : Endpoint) (registered : s.getBaseEndpoint = some base)
      (announced : s.Announced input) (apart : s.sessionState ≠ .active) (active : t.sessionState = .active)
      (emptied : t.storedPackets = [])
      (given : t.manager.protocol = s.manager.protocol.giveAll
        (s.storedPackets.map StoredPacket.call ++
          s.reported codec base [s.statusMessage,s.positionMessage]))
  | below (event : LumenProtocol.Input) (external : event.isExternal = true)
      (same : input = .protocol event external) (stored : t.storedPackets = s.storedPackets)
      (sessionState : t.sessionState = s.sessionState)
      (protocol : t.manager.protocol = s.manager.protocol.step codec event)
  | resets (position : Nat) (same : input = .runPosted position)
      (queued : s.posted[position]? = some .resetSequence)
      (stored : t.storedPackets = s.storedPackets) (sessionState : t.sessionState = s.sessionState)
      (protocol : t.manager.protocol = s.manager.protocol.resetSequenceNumber)
  | stops (same : input = .stop) (after : t = s.stop)

namespace Moves

variable {codec}

/-- Nothing stored, nothing sent, no session begun. -/
theorem nothing {s t : Rover} {input : Input} (stored : t.storedPackets = s.storedPackets)
    (protocol : t.manager.protocol = s.manager.protocol)
    (sessionState : t.sessionState = s.sessionState) : Moves codec s t input :=
  .hands [] (by simp) ⟨stored,protocol⟩ (Or.inl sessionState) (by simp)

/-- A command, in a session that does not become active. -/
theorem command {s t : Rover} {input : Input} (s' : Rover) (name params : String)
    (before : Hands [] s s') (after : Hands [] (s'.sendCommand codec name params) t)
    (settled : Settles s t) : Moves codec s t input := by
  obtain ⟨calls,few,commands,hands⟩ := sendCommand_hands codec s' name params
  have whole := (before.trans hands).trans after
  rw [List.nil_append,List.append_nil] at whole
  exact .hands calls few whole settled fun call member other =>
    absurd (commands call member) other

end Moves

theorem handleSessionAccept_moves (s : Rover) (input : Input) :
    Moves codec s (s.handleSessionAccept codec) input := by
  by_cases waiting : s.sessionState = .handshakeInit ∨ s.sessionState = .disconnected
  · obtain ⟨_,manager,stored,state⟩ := confirming_fields s
    rw [handleSessionAccept_eq codec s waiting]
    refine .command s.confirming _ _ (.nothing stored manager) (.nothing rfl rfl)
      (Or.inr (Or.inl ?_))
    exact (sendCommand_sessionState codec s.confirming _ _).trans state
  · rw [handleSessionAccept_ignored codec s waiting]
    exact .nothing rfl rfl rfl

theorem handleSessionEstablished_moves (s : Rover) (input : Input) (base : Endpoint)
    (registered : s.getBaseEndpoint = some base) (announced : s.Announced input) :
    Moves codec s (s.handleSessionEstablished codec) input := by
  by_cases active : s.sessionState = .active
  · have ignored : s.handleSessionEstablished codec = s := if_pos active
    rw [ignored]
    exact .nothing rfl rfl rfl
  · obtain ⟨emptied,now,given⟩ := handleSessionEstablished_hands codec s base registered active
    exact .forwards base registered announced active now emptied given

theorem setTarget_moves (s : Rover) (input : Input) (params : String) :
    Moves codec s (s.setTarget codec params) input := by
  simp only [setTarget]
  split
  · split <;> exact .nothing rfl rfl rfl
  · exact .nothing rfl rfl rfl

theorem handUp_moves (s : Rover) (input : Input) (message : Message) (sender : Endpoint) :
    Moves codec s (s.handUp message sender) input := by
  simp only [handUp]
  split <;> exact .nothing rfl rfl rfl

theorem sendRawMessage_moves (s : Rover) (input : Input) (message : Message)
    (recipient : Endpoint) : Moves codec s (s.sendRawMessage message recipient) input := by
  simp only [sendRawMessage,MessageManager.sendRawMessage]
  split
  · exact .nothing rfl rfl rfl
  · split
    · exact .nothing rfl rfl rfl
    · split
      · exact .nothing rfl rfl rfl
      · split <;> exact .nothing rfl rfl rfl

theorem handleDiscoveryCommand_moves (s : Rover) (input : Input) (command senderId : String)
    (sender : Endpoint) : Moves codec s (s.handleDiscoveryCommand command senderId sender) input := by
  simp only [handleDiscoveryCommand]
  split
  · exact .nothing rfl rfl rfl
  · split
    · split <;> exact .nothing rfl rfl rfl
    · split
      · split
        · exact .nothing rfl rfl rfl
        · exact sendRawMessage_moves codec s input _ sender
      · exact .nothing rfl rfl rfl

theorem routeMessage_moves (s : Rover) (message : Message) (sender : Endpoint) :
    Moves codec s (s.routeMessage codec message sender) (.route message sender) := by
  have routed := routeMessage_routed codec s message sender
  generalize s.routeMessage codec message sender = t at routed ⊢
  cases routed with
  | ignored | power => exact .nothing rfl rfl rfl
  | accept => exact handleSessionAccept_moves codec s _
  | established from_ =>
    exact handleSessionEstablished_moves codec s _ sender from_.2.1 ⟨message,sender,rfl,from_⟩
  | target params => exact setTarget_moves codec s _ params
  | discovery command => exact handleDiscoveryCommand_moves codec s _ _ _ sender
  | up => exact handUp_moves codec s _ message sender

theorem offered_moves (s : Rover) (input : Input) (message : Message)
    (offers : s.offered input = some message) : Moves codec s (s.step codec input) input := by
  have same := step_offered codec s input message offers
  rcases report_cases codec s message with ignored | ⟨base,registered,loud,kept | sent⟩
  · rw [ignored] at same
    exact .nothing same.stored (by rw [same.manager]) same.sessionState
  · rw [kept.2] at same
    exact .stores message base offers registered kept.1 same
  · rw [sent.2] at same
    have hands := transmit_hands codec s message base
    refine .hands _ ?_ ⟨same.stored.trans hands.stored,by rw [same.manager,hands.protocol]⟩
      (Or.inl same.sessionState) fun _ _ _ _ => ⟨message,offers,loud⟩
    split <;> simp

/-- A message for someone else is sent in any session state, or not at all. -/
theorem sendMessage_other (s : Rover) (message : Message) (recipient : Endpoint)
    (other : ¬ (recipient.isUnspecified = true ∨ s.getBaseEndpoint = some recipient)) :
    s.sendMessage codec message recipient = s ∨
      s.sendMessage codec message recipient = s.transmit codec message recipient := by
  have away : s.target recipient = some (recipient,false) := by
    unfold target
    cases registered : s.getBaseEndpoint with
    | none => simp_all
    | some base =>
      have apart : recipient ≠ base := fun same => other (Or.inr (same ▸ registered))
      have named : ¬ recipient.isUnspecified = true := fun open_ => other (Or.inl open_)
      simp [apart,named]
  simp only [sendMessage,away]
  split
  · exact Or.inl rfl
  · split
    · next impossible => cases impossible.2
    · split
      · split
        · exact Or.inl rfl
        · exact Or.inr rfl
      · exact Or.inl rfl

theorem sendMessage_moves (s : Rover) (message : Message) (recipient : Endpoint) :
    Moves codec s (s.sendMessage codec message recipient) (.sendMessage message recipient) := by
  by_cases toBase : recipient.isUnspecified = true ∨ s.getBaseEndpoint = some recipient
  · exact offered_moves codec s (.sendMessage message recipient) message (if_pos toBase)
  · rcases sendMessage_other codec s message recipient toBase with ignored | sent
    · rw [ignored]
      exact .nothing rfl rfl rfl
    · rw [sent]
      refine .hands _ ?_ (transmit_hands codec s message recipient) (Or.inl rfl) ?_
      · split <;> simp
      · intro call member _ base
        split at member
        · rw [List.mem_singleton.mp member] at base
          exact absurd base toBase
        · cases member

theorem handleBaseDisconnect_moves (s t : Rover) (input : Input) (before : Hands [] s t)
    (state : t.sessionState = s.sessionState) : Moves codec s t.handleBaseDisconnect input := by
  simp only [handleBaseDisconnect]
  split
  · exact .hands [] (by simp) before (Or.inl state) (by simp)
  · next active =>
    have was : s.sessionState = .active := state.symm.trans (not_not.mp active)
    exact .hands [] (by simp) ⟨before.stored,before.protocol⟩ (Or.inr (Or.inr ⟨was,rfl⟩)) (by simp)

theorem expire_moves (s : Rover) (timer : Timer) :
    Moves codec s (s.expire codec timer) (.expire timer) := by
  cases timer with
  | status =>
    by_cases pending : s.statusTimer = true
    · exact offered_moves codec s (.expire .status) s.statusMessage (if_pos pending)
    · simp only [expire,if_neg pending]
      exact .nothing rfl rfl rfl
  | positionTelemetry =>
    by_cases pending : s.positionTelemetryTimer = true
    · exact offered_moves codec s (.expire .positionTelemetry) s.positionMessage (if_pos pending)
    · simp only [expire,if_neg pending]
      exact .nothing rfl rfl rfl
  | movement =>
    by_cases pending : s.movementTimer = true
    · cases arrived : s.arrivalMessage with
      | some message =>
        exact offered_moves codec s (.expire .movement) message ((if_pos pending).trans arrived)
      | none =>
        have moved := handleMovementTimer_sameTraffic codec { s with movementTimer := false }
        have away : ({ s with movementTimer := false } : Rover).arrivalMessage = none := arrived
        rw [away] at moved
        simp only [expire,if_pos pending]
        exact .nothing moved.stored (congrArg MessageManager.protocol moved.manager)
          moved.sessionState
    · simp only [expire,if_neg pending]
      exact .nothing rfl rfl rfl
  | handshake =>
    simp only [expire]
    split
    · by_cases during : s.handshaking
      · rw [handleHandshakeTimer_eq codec s during]
        split
        · refine .command s.retrying _ _ (.nothing rfl rfl) (.nothing rfl rfl) (Or.inl ?_)
          exact sendCommand_sessionState codec s.retrying _ _
        · exact handleBaseDisconnect_moves codec s _ _ (.nothing rfl rfl) rfl
      · have idle : (s.setHandshakeTimer false).handleHandshakeTimer codec =
          s.setHandshakeTimer false := if_neg during
        rw [idle]
        exact .nothing rfl rfl rfl
    · exact .nothing rfl rfl rfl
  | probe =>
    simp only [expire]
    split
    · simp only [handleProbeTimer]
      split
      · refine .command (s.setProbeTimer false) _ _ (.nothing rfl rfl) (.nothing rfl rfl)
          (Or.inl ?_)
        exact sendCommand_sessionState codec (s.setProbeTimer false) _ _
      · exact .nothing rfl rfl rfl
    · exact .nothing rfl rfl rfl

theorem runPosted_moves (s : Rover) (position : Nat) :
    Moves codec s (s.runPosted position) (.runPosted position) := by
  simp only [runPosted]
  split
  · next handler queued =>
    cases handler with
    | resetSequence => exact .resets position rfl queued rfl rfl rfl
    | packetTimeout recipient =>
      simp only [runHandler,handlePacketTimeout]
      split
      · exact handleBaseDisconnect_moves codec s _ _ (.nothing rfl rfl) rfl
      · exact .nothing rfl rfl rfl
    | armProbe | armHandshake | application | discovery => exact .nothing rfl rfl rfl
  · exact .nothing rfl rfl rfl

/-- Every step of the rover is one of these. -/
theorem step_moves (s : Rover) (input : Input) : Moves codec s (s.step codec input) input := by
  cases input with
  | route message sender => exact routeMessage_moves codec s message sender
  | expire timer => exact expire_moves codec s timer
  | runPosted position => exact runPosted_moves codec s position
  | protocol event external => exact .below event external rfl rfl rfl rfl
  | sendMessage message recipient => exact sendMessage_moves codec s message recipient
  | sendRawMessage message recipient => exact sendRawMessage_moves codec s _ message recipient
  | sendCommand command params =>
    refine .command s command params (.nothing rfl rfl) (.nothing rfl rfl) (Or.inl ?_)
    exact sendCommand_sessionState codec s command params
  | sendTelemetry readings => exact offered_moves codec s (.sendTelemetry readings) _ rfl
  | sendStatus => exact offered_moves codec s .sendStatus _ rfl
  | handlePositionTelemetryTimer =>
    exact offered_moves codec s .handlePositionTelemetryTimer _ rfl
  | scanForRovers discoveryPort text =>
    simp only [step,scanForRovers]
    split <;> exact .nothing rfl rfl rfl
  | stop => exact .stops rfl rfl
  | timeoutNotification | updateStatus | updateCurrentPosition | setApplicationMessageHandler
  | setDiscoveryMessageHandler => exact .nothing rfl rfl rfl

end Rover

end Lumen
