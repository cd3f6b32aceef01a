import Lumen.Answers
import Lumen.Handover
import Lumen.Unwinding

/-! Store and forward over whole runs of the rover: what is stored during an outage is handed
to the protocol exactly once and in order when the session is active again, and what any other step
hands over does not depend on the store. Whether a message offered during an outage is stored
depends on the session state at that moment. -/
namespace Lumen.Rover

open Endpoint LumenProtocol

variable (codec : Codec)

/-- What every step but `stop` leaves of the node below. -/
theorem Moves.node (moves : Moves codec s t input) (live : input ≠ .stop) :
    SameNode s.manager.protocol t.manager.protocol := by
  cases moves with
  | hands calls few hands =>
    rw [hands.protocol]
    exact (giveAll_undisturbed _ calls).sameNode
  | stores message base offers registered lost same =>
    rw [same.manager]
    exact sameNode_refl _
  | forwards base registered announced apart active emptied given =>
    rw [given]
    exact (giveAll_undisturbed _ _).sameNode
  | below event external same stored sessionState protocol =>
    rw [protocol]
    exact step_external_sameNode codec _ event external
  | resets position same queued stored sessionState protocol =>
    rw [protocol]
    exact ⟨rfl,rfl,rfl,rfl,rfl⟩
  | stops same => exact absurd same live

theorem step_registered (s : Rover) (input : Input) :
    (s.step codec input).getBaseEndpoint = s.getBaseEndpoint := by
  by_cases live : input = .stop
  · rw [live]
    exact (stop_down s).2.2.1
  · have node := (step_moves codec s input).node codec live
    simp only [getBaseEndpoint,LumenProtocol.getBaseEndpoint,node.baseEndpoint]

theorem run_registered (s : Rover) (inputs : List Input) :
    (Machine.run (step codec) s inputs).getBaseEndpoint = s.getBaseEndpoint :=
  @Machine.run_invariant _ _ (step codec) (fun t => t.getBaseEndpoint = s.getBaseEndpoint)
    (fun t input same => (step_registered codec t input).trans same) s inputs rfl

/-! ### Messages offered during an outage -/

/-- Only a registered base station can start a session. -/
def Linked (s : Rover) : Prop :=
  s.sessionState = .active ∨ s.sessionState = .disconnected → s.getBaseEndpoint.isSome = true

theorem step_linked (s : Rover) (input : Input) (linked : Linked s) :
    Linked (s.step codec input) := by
  intro later
  rw [step_registered]
  cases step_moves codec s input with
  | hands calls few hands settled =>
    rcases settled with same | accepted | lost
    · rw [same] at later
      exact linked later
    · rw [accepted] at later
      rcases later with impossible | impossible <;> cases impossible
    · exact linked (Or.inl lost.1)
  | stores message base offers registered => rw [registered]; rfl
  | forwards base registered => rw [registered]; rfl
  | below event external same stored sessionState =>
    rw [sessionState] at later
    exact linked later
  | resets position same queued stored sessionState =>
    rw [sessionState] at later
    exact linked later
  | stops same after =>
    rw [after] at later
    rcases later with impossible | impossible <;> cases impossible

/-- The session was lost and has not been active since. -/
def InOutage (start : Rover) (done : List Input) : Prop :=
  ∃ before during, done = before ++ during ∧
    (Machine.run (step codec) start before).sessionState = .disconnected ∧
    Machine.Always (step codec) (fun s => s.sessionState ≠ .active)
      (Machine.run (step codec) start before) during

/-- A message offered for the base station adds one entry to the store, its own. -/
def Stores (s : Rover) (input : Input) : Prop :=
  ∀ message, s.offered input = some message → ∃ base, s.getBaseEndpoint = some base ∧
    (s.step codec input).storedPackets = s.storedPackets ++
      [⟨message,message.serialise codec,message.getLumenType,message.getLumenPriority,base⟩]

theorem stores_iff (s : Rover) (input : Input) (registered : s.getBaseEndpoint.isSome = true)
    (power : s.lowPowerMode = false) :
    Stores codec s input ↔ ((s.offered input).isSome = true → s.sessionState = .disconnected) := by
  obtain ⟨base,known⟩ := Option.isSome_iff_exists.mp registered
  have loud (message : Message) : s.suppresses message = false := by simp [suppresses,power]
  constructor
  · intro stores some_
    obtain ⟨message,offers⟩ := Option.isSome_iff_exists.mp some_
    obtain ⟨_,_,added⟩ := stores message offers
    rw [(step_offered codec s input message offers).stored] at added
    rcases report_cases codec s message with ignored | ⟨_,_,_,kept | sent⟩
    · simp [ignored] at added
    · exact kept.1
    · simp [sent.2,transmit] at added
  · intro lost message offers
    have state := lost (Option.isSome_iff_exists.mpr ⟨message,offers⟩)
    refine ⟨base,known,?_⟩
    rw [(step_offered codec s input message offers).stored]
    simp [report,known,loud message,state,storeMessageForLater]

/-- Over whole runs: outside low power mode every message offered during an outage is stored,
if and only if each of them is offered while the state is DISCONNECTED. -/
theorem outage_messages_stored_iff (roverId : String) (base : Endpoint) (clock : Clock)
    (inputs : List Input) :
    let start := started codec roverId base clock
    (∀ done input, done ++ [input] <+: inputs → InOutage codec start done →
      (Machine.run (step codec) start done).lowPowerMode = false →
      Stores codec (Machine.run (step codec) start done) input) ↔
    (∀ done input, done ++ [input] <+: inputs → InOutage codec start done →
      (Machine.run (step codec) start done).lowPowerMode = false →
      ((Machine.run (step codec) start done).offered input).isSome = true →
      (Machine.run (step codec) start done).sessionState = .disconnected) := by
  intro start
  have linked (done : List Input) : Linked (Machine.run (step codec) start done) := by
    refine Machine.run_invariant (step codec) (step_linked codec) start done fun later => ?_
    rw [started_sessionState] at later
    rcases later with impossible | impossible <;> cases impossible
  have registered (done : List Input) (outage : InOutage codec start done) :
      (Machine.run (step codec) start done).getBaseEndpoint.isSome = true := by
    obtain ⟨before,during,rfl,lost,_⟩ := outage
    rw [Machine.run_append,run_registered]
    exact linked before (Or.inr lost)
  constructor
  · intro stores done input within outage power
    exact (stores_iff codec _ input (registered done outage) power).mp
      (stores done input within outage power)
  · intro lost done input within outage power
    exact (stores_iff codec _ input (registered done outage) power).mpr
      (lost done input within outage power)

def sampleStation : Endpoint := ⟨0x0aed0001,9000⟩

def sampleStart : Rover := started .silent "rover-a" sampleStation ⟨0,0⟩

def fromStation (command : String) : Input :=
  .route ⟨"base",0,.command command "base"⟩ sampleStation

def seconds (count : Nat) : Input := .protocol (.tick (count * 1000000000)) rfl

def retransmissionCheck : Input := .protocol .retransmissionTimer rfl

/-- A session is established; then no ACK arrives until the retries are used up. -/
def sessionLost : List Input :=
  [fromStation "SESSION_ACCEPT",fromStation "SESSION_ESTABLISHED",seconds 6,retransmissionCheck,
    seconds 11,retransmissionCheck,seconds 21,retransmissionCheck,.runPosted 1]

/-- The base station answers a probe; a status falls between its acceptance and the
confirmation. -/
def sessionAccepted : List Input := sessionLost ++ [fromStation "SESSION_ACCEPT"]

/-- That status is neither sent nor stored. -/
theorem sessionAccepted_drops_status :
    ¬ ∀ done input, done ++ [input] <+: sessionAccepted ++ [.sendStatus] →
      InOutage .silent sampleStart done →
      (Machine.run (step .silent) sampleStart done).lowPowerMode = false →
      Stores .silent (Machine.run (step .silent) sampleStart done) input := by
  intro stores
  have outage : InOutage .silent sampleStart sessionAccepted := by
    refine ⟨sessionLost,[fromStation "SESSION_ACCEPT"],rfl,by decide +kernel,?_⟩
    simp only [Machine.always_cons,Machine.always_nil]
    exact ⟨by decide +kernel,by decide +kernel⟩
  obtain ⟨_,_,added⟩ := stores sessionAccepted .sendStatus (List.prefix_refl _) outage
    (by decide +kernel) _ rfl
  have nothing : (step .silent (Machine.run (step .silent) sampleStart sessionAccepted)
      .sendStatus).storedPackets.length = 0 := by decide +kernel
  rw [added,List.length_append,List.length_singleton] at nothing
  omega

/-! ### What does not depend on the store -/

/-- The rover with nothing stored. -/
@[simps] def emptied (s : Rover) : Rover := { s with storedPackets := [] }

section Emptied

open Unwinding

theorem emptied_emptied (s : Rover) : s.emptied.emptied = s.emptied := rfl

@[simp] theorem emptied_getBaseEndpoint (s : Rover) :
    s.emptied.getBaseEndpoint = s.getBaseEndpoint := rfl

@[simp] theorem emptied_suppresses (s : Rover) (message : Message) :
    s.emptied.suppresses message = s.suppresses message := rfl

@[simp] theorem emptied_message (s : Rover) (content : Content) :
    s.emptied.message content = s.message content := rfl

@[simp] theorem emptied_target (s : Rover) (recipient : Endpoint) :
    s.emptied.target recipient = s.target recipient := rfl

theorem report_emptied (message : Message) : Blind emptied fun s => s.report codec message := by
  intro s
  simp only [report,emptied_getBaseEndpoint,emptied_suppresses,emptied_sessionState]
  split
  · rfl
  · split
    · rfl
    · split
      · rfl
      · split <;> rfl

theorem sendMessage_emptied (message : Message) (recipient : Endpoint) :
    Blind emptied fun s => s.sendMessage codec message recipient := by
  intro s
  simp only [sendMessage,emptied_target,emptied_suppresses,emptied_sessionState,
    emptied_lowPowerMode]
  split
  · rfl
  · split
    · rfl
    · split
      · rfl
      · split
        · split <;> rfl
        · rfl

theorem unstored : Blind emptied fun s => s := .id emptied_emptied

theorem sendRawMessage_emptied (message : Message) (recipient : Endpoint) :
    Blind emptied fun s => s.sendRawMessage message recipient :=
  .ite (fun _ => Iff.rfl) unstored (.ite (fun _ => Iff.rfl) unstored
    (.ite (fun _ => Iff.rfl) unstored fun _ => rfl))

theorem sendCommand_emptied (command params : String) :
    Blind emptied fun s => s.sendCommand codec command params := by
  intro s
  simp only [sendCommand,emptied_message,emptied_suppresses,emptied_getBaseEndpoint,
    emptied_sessionState]
  split
  · rfl
  · split
    · rfl
    · split
      · rfl
      · split <;> rfl

theorem handleStatusTimer_emptied : Blind emptied fun s => s.handleStatusTimer codec := by
  have rearmed : Blind emptied fun s => { s with statusTimer := true } := fun _ => rfl
  intro s
  exact rearmed.agree (report_emptied codec s.statusMessage s)

theorem handlePositionTelemetryTimer_emptied :
    Blind emptied fun s => s.handlePositionTelemetryTimer codec := by
  have rearmed : Blind emptied fun s => { s with positionTelemetryTimer := true } := fun _ => rfl
  intro s
  exact rearmed.agree (report_emptied codec s.positionMessage s)

theorem handleSessionAccept_emptied : Blind emptied fun s => s.handleSessionAccept codec := by
  intro s
  by_cases waiting : s.sessionState = .handshakeInit ∨ s.sessionState = .disconnected
  · have cut : s.confirming.emptied = s.emptied.confirming.emptied := by
      simp only [confirming,emptied_sessionState]
      split <;> rfl
    have posted : Blind emptied fun s => s.post .armHandshake := fun _ => rfl
    dsimp only
    rw [handleSessionAccept_eq codec s waiting,handleSessionAccept_eq codec s.emptied waiting]
    exact posted.agree ((sendCommand_emptied codec "SESSION_CONFIRM" s.roverId).agree cut)
  · dsimp only
    rw [handleSessionAccept_ignored codec s waiting,
      handleSessionAccept_ignored codec s.emptied waiting,emptied_emptied]

theorem setTarget_emptied (params : String) : Blind emptied fun s => s.setTarget codec params := by
  intro s
  simp only [setTarget,emptied_currentCoordinate]
  split
  · split <;> rfl
  · rfl

theorem handleDiscoveryCommand_emptied (command senderId : String) (sender : Endpoint) :
    Blind emptied fun s => s.handleDiscoveryCommand command senderId sender := by
  intro s
  simp only [handleDiscoveryCommand,emptied_roverId,emptied_lowPowerMode,emptied_message,
    emptied_discoveredRovers,emptied_discoveryMessageHandler]
  split
  · rfl
  · split
    · split <;> rfl
    · split
      · split
        · rfl
        · exact sendRawMessage_emptied _ sender s
      · rfl

theorem handUp_emptied (message : Message) (sender : Endpoint) :
    Blind emptied fun s => s.handUp message sender :=
  .ite (fun _ => Iff.rfl) (fun _ => rfl) unstored

theorem handleInternalCommand_emptied (command params : String)
    (other : command ≠ "SESSION_ESTABLISHED") :
    Blind emptied fun s => s.handleInternalCommand codec command params := by
  have rest : Blind emptied fun s => if command = "SESSION_ACCEPT" then s.handleSessionAccept codec
      else if command = "SET_LOW_POWER" then { s with lowPowerMode := params = "1" }
      else if command = "SET_TARGET_COORD" then s.setTarget codec params else s :=
    .ite (fun _ => Iff.rfl) (handleSessionAccept_emptied codec) (.ite (fun _ => Iff.rfl)
      (fun _ => rfl) (.ite (fun _ => Iff.rfl) (setTarget_emptied codec params) unstored))
  simpa only [handleInternalCommand,if_neg other] using rest

theorem routeMessage_emptied (message : Message) (sender : Endpoint)
    (other : message.isCommand "SESSION_ESTABLISHED" = false) :
    Blind emptied fun s => s.routeMessage codec message sender := by
  obtain ⟨id,timestamp,content⟩ := message
  cases content with
  | command command params =>
    exact .ite (fun _ => Iff.rfl) unstored (.ite (fun _ => Iff.rfl)
      (.ite (fun _ => Iff.rfl) (handleInternalCommand_emptied codec command params
        (of_decide_eq_false other)) unstored)
      (.ite (fun _ => Iff.rfl)
        (.ite (fun _ => Iff.rfl) (handleDiscoveryCommand_emptied command id sender) unstored)
        (handUp_emptied _ sender)))
  | basic | telemetry | status =>
    exact .ite (fun _ => Iff.rfl) unstored (handUp_emptied _ sender)

theorem handleBaseDisconnect_emptied : Blind emptied handleBaseDisconnect := by
  intro s
  simp only [handleBaseDisconnect,emptied_sessionState]
  split <;> rfl

theorem handleHandshakeTimer_emptied : Blind emptied fun s => s.handleHandshakeTimer codec := by
  have rearmed : Blind emptied fun s => s.setHandshakeTimer true := fun _ => rfl
  have repeats (command : String) : Blind emptied fun s =>
      (s.setHandshakeRetryCount (s.handshakeRetryCount + 1)).sendCommand codec command s.roverId :=
    fun s => sendCommand_emptied codec command s.roverId _
  refine .ite (fun _ => Iff.rfl) (.ite (fun _ => Iff.rfl) ?_ handleBaseDisconnect_emptied) unstored
  intro s
  exact rearmed.agree (repeats _ s)

theorem handleMovementTimer_emptied : Blind emptied fun s => s.handleMovementTimer codec := by
  intro s
  simp only [handleMovementTimer,emptied_targetCoordinate,emptied_currentCoordinate]
  split
  · rfl
  · split
    · simp only [getBaseEndpoint,emptied_manager]
      cases s.manager.protocol.getBaseEndpoint with
      | none => rfl
      | some station => exact sendMessage_emptied codec _ station { s with targetCoordinate := none }
    · rfl

/-- Setting a timer back does not look at the store either. -/
theorem expire_emptied (timer : Timer) : Blind emptied fun s => s.expire codec timer := by
  cases timer with
  | status =>
    exact .ite (fun _ => Iff.rfl) ((handleStatusTimer_emptied codec).comp fun _ => rfl) unstored
  | positionTelemetry =>
    exact .ite (fun _ => Iff.rfl) ((handlePositionTelemetryTimer_emptied codec).comp fun _ => rfl)
      unstored
  | handshake =>
    exact .ite (fun _ => Iff.rfl) ((handleHandshakeTimer_emptied codec).comp fun _ => rfl) unstored
  | probe =>
    have rearmed : Blind emptied fun s => s.setProbeTimer true := fun _ => rfl
    have probes : Blind emptied fun s => s.handleProbeTimer codec := .ite (fun _ => Iff.rfl)
      (fun s => rearmed.agree (sendCommand_emptied codec "SESSION_INIT" s.roverId s)) unstored
    exact .ite (fun _ => Iff.rfl) (probes.comp fun _ => rfl) unstored
  | movement =>
    exact .ite (fun _ => Iff.rfl) ((handleMovementTimer_emptied codec).comp fun _ => rfl) unstored

theorem runPosted_emptied (position : Nat) : Blind emptied fun s => s.runPosted position := by
  intro s
  simp only [runPosted,emptied_posted]
  split
  · next handler _ =>
    cases handler with
    | packetTimeout recipient =>
      exact @Blind.ite _ emptied handleBaseDisconnect (fun s => s)
        (fun s => s.sessionState = .active ∧ s.getBaseEndpoint = some recipient) _
        (fun _ => Iff.rfl) handleBaseDisconnect_emptied unstored
        { s with posted := s.posted.eraseIdx position }
    | resetSequence | armProbe | armHandshake | application | discovery => rfl
  · rfl

theorem routeMessage_unannounced (s : Rover) (message : Message) (sender : Endpoint)
    (established : message.isCommand "SESSION_ESTABLISHED" = true)
    (other : ¬ s.FromBase "SESSION_ESTABLISHED" message sender) :
    s.routeMessage codec message sender = s := by
  obtain ⟨id,timestamp,content⟩ := message
  cases content with
  | command command params =>
    cases of_decide_eq_true established
    have base : isBaseCommand "SESSION_ESTABLISHED" = true := by decide
    simp only [routeMessage,base,if_true]
    split
    · rfl
    · next own => exact if_neg fun known => other ⟨own,known,established⟩
  | basic | telemetry | status => cases established

/-- No step but the one that makes the session active looks at the store. -/
theorem step_emptied (s : Rover) (input : Input)
    (settled : (s.step codec input).sessionState = .active → s.sessionState = .active) :
    (s.step codec input).emptied = (s.emptied.step codec input).emptied := by
  cases input with
  | route message sender =>
    cases established : message.isCommand "SESSION_ESTABLISHED" with
    | false => exact routeMessage_emptied codec message sender established s
    | true =>
      simp only [step] at settled ⊢
      by_cases announced : s.FromBase "SESSION_ESTABLISHED" message sender
      · have announced' : s.emptied.FromBase "SESSION_ESTABLISHED" message sender := announced
        have active : s.sessionState = .active := by
          by_contra apart
          rw [routeMessage_established codec s message sender announced] at settled
          exact apart (settled
            (handleSessionEstablished_hands codec s sender announced.2.1 apart).2.1)
        rw [routeMessage_established codec s message sender announced,
          routeMessage_established codec s.emptied message sender announced']
        have ignored : s.handleSessionEstablished codec = s := if_pos active
        have ignored' : s.emptied.handleSessionEstablished codec = s.emptied := if_pos active
        rw [ignored,ignored',emptied_emptied]
      · rw [routeMessage_unannounced codec s message sender established announced,
          routeMessage_unannounced codec s.emptied message sender established announced]
        rfl
  | expire timer => exact expire_emptied codec timer s
  | runPosted position => exact runPosted_emptied position s
  | sendMessage message recipient => exact sendMessage_emptied codec message recipient s
  | sendRawMessage message recipient => exact sendRawMessage_emptied message recipient s
  | sendCommand command params => exact sendCommand_emptied codec command params s
  | sendTelemetry readings => exact report_emptied codec _ s
  | sendStatus => exact report_emptied codec _ s
  | handlePositionTelemetryTimer => exact handlePositionTelemetryTimer_emptied codec s
  | scanForRovers discoveryPort text =>
    simp only [step,scanForRovers,emptied_lowPowerMode,emptied_clientOpen]
    split <;> rfl
  | protocol | timeoutNotification | updateStatus | updateCurrentPosition
  | setApplicationMessageHandler | setDiscoveryMessageHandler | stop => rfl

end Emptied

/-! ### Forwarding -/

/-- What leaves in a step, as the log of the protocol shows it: the messages that are handed over,
and in a step below the message layer the packets that are repeated. -/
def leaving (s : Rover) (input : Input) : List Call :=
  (newEffects s.manager.protocol (s.step codec input).manager.protocol).filterMap callOf

/-- What a step adds to the store. -/
def appended (s : Rover) (input : Input) : List Call :=
  ((s.step codec input).storedPackets.drop s.storedPackets.length).map StoredPacket.call

def becomesActive (s : Rover) (input : Input) : Prop :=
  s.sessionState ≠ .active ∧ (s.step codec input).sessionState = .active

instance (s : Rover) (input : Input) : Decidable (s.becomesActive codec input) :=
  inferInstanceAs (Decidable (_ ∧ _))

/-- The stored messages whose turn it is: all of them in the step that makes the session active. -/
def forwarded (s : Rover) (input : Input) : List Call :=
  if s.becomesActive codec input then s.storedPackets.map StoredPacket.call else []

/-- In a step the stored messages leave whose turn it is, each once, and then exactly what would leave
with nothing stored. The step that makes the session active empties the store, and what it
adds are the first reports of the session; any other step only appends to the store, and when
it does nothing leaves. -/
structure ForwardsInOrder (s : Rover) (input : Input) : Prop where
  once : s.leaving codec input = s.forwarded codec input ++ s.emptied.leaving codec input
  active : s.becomesActive codec input → (s.step codec input).storedPackets = [] ∧
    ∃ base, s.getBaseEndpoint = some base ∧
      s.leaving codec input = s.storedPackets.map StoredPacket.call ++
        s.reported codec base [s.statusMessage,s.positionMessage]
  waiting : ¬ s.becomesActive codec input → s.storedPackets <+: (s.step codec input).storedPackets ∧
    ((s.step codec input).storedPackets ≠ s.storedPackets → s.leaving codec input = [])

/-- A started rover whose store is for its base station and is empty in a session. -/
structure Storing (s : Rover) : Prop where
  mode : s.manager.protocol.mode = .rover
  running : s.manager.protocol.running = true
  toBase : ∀ packet ∈ s.storedPackets, s.getBaseEndpoint = some packet.recipient
  emptyInSession : s.sessionState = .active → s.storedPackets = []

theorem Storing.emptied (storing : Storing s) : Storing s.emptied where
  mode := storing.mode
  running := storing.running
  toBase := by
    intro packet member
    cases member
  emptyInSession := fun _ => rfl

/-- The announcement of a session: first the store, then the reports. -/
theorem leaving_established (s : Rover) (message : Message) (sender : Endpoint) (storing : Storing s)
    (announced : s.FromBase "SESSION_ESTABLISHED" message sender) (apart : s.sessionState ≠ .active) :
    s.leaving codec (.route message sender) = s.storedPackets.map StoredPacket.call ++
      s.reported codec sender [s.statusMessage,s.positionMessage] := by
  have given := (handleSessionEstablished_hands codec s sender announced.2.1 apart).2.2
  rw [← routeMessage_established codec s message sender announced] at given
  have toBase : ∀ call ∈ s.storedPackets.map StoredPacket.call ++
      s.reported codec sender [s.statusMessage,s.positionMessage],
      s.manager.protocol.getBaseEndpoint = some call.recipient := by
    intro call member
    rcases List.mem_append.mp member with stored | report
    · obtain ⟨packet,present,rfl⟩ := List.mem_map.mp stored
      exact storing.toBase packet present
    · simp only [reported] at report
      split at report
      · obtain ⟨message,_,rfl⟩ := List.mem_map.mp report
        exact announced.2.1
      · cases report
  obtain ⟨effects,added,shown⟩ := giveAll_calls _ _ storing.mode storing.running toBase
  rw [leaving,newEffects,step,given,added,List.drop_left,shown]

/-- When a step does not make the session active, the same leaves with nothing stored. -/
theorem leaving_emptied (s : Rover) (input : Input)
    (settled : (s.step codec input).sessionState = .active → s.sessionState = .active) :
    s.leaving codec input = s.emptied.leaving codec input := by
  have same := congrArg manager (step_emptied codec s input settled)
  rw [emptied_manager,emptied_manager] at same
  rw [leaving,same]
  rfl

/-- What a step has to do: keep the invariant, forward in order, and account for every message that
was stored. -/
structure Forwards (s : Rover) (input : Input) : Prop where
  storing : Storing (s.step codec input)
  inOrder : ForwardsInOrder codec s input
  balanced : s.storedPackets.map StoredPacket.call ++ s.appended codec input =
    s.forwarded codec input ++ (s.step codec input).storedPackets.map StoredPacket.call

/-- A step that does not make the session active. -/
theorem ForwardsInOrder.settled (s : Rover) (input : Input)
    (settled : (s.step codec input).sessionState = .active → s.sessionState = .active)
    (grown : s.storedPackets <+: (s.step codec input).storedPackets)
    (silent : (s.step codec input).storedPackets ≠ s.storedPackets → s.leaving codec input = []) :
    ForwardsInOrder codec s input := by
  have asleep : ¬ s.becomesActive codec input := fun becomes => becomes.1 (settled becomes.2)
  refine ⟨?_,fun becomes => absurd becomes asleep,fun _ => ⟨grown,silent⟩⟩
  rw [forwarded,if_neg asleep,List.nil_append]
  exact leaving_emptied codec s input settled

theorem forwards_unchanged (s : Rover) (input : Input) (storing : Storing s) (live : input ≠ .stop)
    (stored : (s.step codec input).storedPackets = s.storedPackets)
    (settled : (s.step codec input).sessionState = .active → s.sessionState = .active) :
    Forwards codec s input := by
  have node := (step_moves codec s input).node codec live
  have registered := step_registered codec s input
  have asleep : ¬ s.becomesActive codec input := fun becomes => becomes.1 (settled becomes.2)
  refine ⟨⟨node.mode.trans storing.mode,node.running.trans storing.running,?_,?_⟩,
    .settled codec s input settled ?_ ?_,?_⟩
  · rw [stored,registered]
    exact storing.toBase
  · rw [stored]
    exact fun active => storing.emptyInSession (settled active)
  · rw [stored]
  · exact fun other => absurd stored other
  · simp [appended,forwarded,asleep,stored]

theorem forwards_stores (s : Rover) (input : Input) (storing : Storing s) (live : input ≠ .stop)
    (message : Message) (base : Endpoint) (known : s.getBaseEndpoint = some base)
    (lost : s.sessionState = .disconnected)
    (same : SameTraffic (s.storeMessageForLater codec message base) (s.step codec input)) :
    Forwards codec s input := by
  have node := (step_moves codec s input).node codec live
  have registered := step_registered codec s input
  have down : (s.step codec input).sessionState ≠ .active := fun active => by
    cases lost.symm.trans (same.sessionState.symm.trans active)
  have asleep : ¬ s.becomesActive codec input := fun becomes => down becomes.2
  have silent : s.leaving codec input = [] := by
    rw [leaving,newEffects,same.manager]
    simp [storeMessageForLater]
  refine ⟨⟨node.mode.trans storing.mode,node.running.trans storing.running,?_,?_⟩,
    .settled codec s input (fun active => absurd active down) ?_ fun _ => silent,?_⟩
  · intro packet member
    rw [same.stored] at member
    rw [registered]
    rcases List.mem_append.mp member with earlier | now
    · exact storing.toBase packet earlier
    · rw [List.mem_singleton.mp now]
      exact known
  · exact fun active => absurd active down
  · rw [same.stored]
    exact List.prefix_append _ _
  · simp [appended,forwarded,asleep,same.stored,storeMessageForLater]

theorem forwards_established (s : Rover) (message : Message) (sender : Endpoint)
    (storing : Storing s) (announced : s.FromBase "SESSION_ESTABLISHED" message sender)
    (apart : s.sessionState ≠ .active)
    (active : (s.step codec (.route message sender)).sessionState = .active)
    (cleared : (s.step codec (.route message sender)).storedPackets = []) :
    Forwards codec s (.route message sender) := by
  have node := (step_moves codec s (.route message sender)).node codec (by simp)
  have wakes : s.becomesActive codec (.route message sender) := ⟨apart,active⟩
  have handed := leaving_established codec s message sender storing announced apart
  have alone := leaving_established codec s.emptied message sender storing.emptied announced apart
  refine ⟨⟨node.mode.trans storing.mode,node.running.trans storing.running,?_,fun _ => cleared⟩,
    ⟨?_,fun _ => ⟨cleared,sender,announced.2.1,handed⟩,fun asleep => absurd wakes asleep⟩,?_⟩
  · rw [cleared]
    intro packet member
    cases member
  · rw [forwarded,if_pos wakes]
    exact handed.trans (congrArg _ alone.symm)
  · simp [appended,forwarded,wakes,cleared]

/-- One step: the order of what waits, what comes in and what goes out is conserved, and the
store stays what it is for. -/
theorem step_forwards (s : Rover) (input : Input) (storing : Storing s) (live : input ≠ .stop) :
    Forwards codec s input := by
  cases step_moves codec s input with
  | hands calls few hands settled =>
    exact forwards_unchanged codec s input storing live hands.stored settled.wasActive
  | below event external same stored sessionState =>
    exact forwards_unchanged codec s input storing live stored
      fun active => sessionState.symm.trans active
  | resets position same queued stored sessionState =>
    exact forwards_unchanged codec s input storing live stored
      fun active => sessionState.symm.trans active
  | stops same => exact absurd same live
  | stores message base offers known lost same =>
    exact forwards_stores codec s input storing live message base known lost same
  | forwards base known announced apart active cleared given =>
    obtain ⟨message,sender,rfl,from_⟩ := announced
    exact forwards_established codec s message sender storing from_ apart active cleared

theorem started_storedPackets (roverId : String) (base : Endpoint) (clock : Clock) :
    (started codec roverId base clock).storedPackets = [] :=
  sendCommand_stored codec _ "SESSION_INIT" _

theorem started_storing (roverId : String) (base : Endpoint) (clock : Clock) :
    Storing (started codec roverId base clock) := by
  have steady := initiateHandshake_steady codec (new roverId base clock).launched
  have stored := started_storedPackets codec roverId base clock
  refine ⟨steady.node.mode,steady.node.running,?_,fun _ => stored⟩
  rw [stored]
  intro packet member
  cases member

/-- Over every run of a started rover, through any number of outages: the messages that were
stored are those forwarded in the steps that made the session active, in the same order,
followed by those still waiting. In every step what it forwards leaves, each message once and
before anything else, and then exactly what would leave with an empty store, be it handed over
or repeated; the step that makes the session active adds its first reports, in no other step
leaves what it stores, and nothing waits in a session. -/
theorem stored_messages_forwarded_in_order (roverId : String) (base : Endpoint) (clock : Clock)
    (inputs : List Input) (live : ∀ input ∈ inputs, input ≠ .stop) :
    let start := started codec roverId base clock
    Machine.trace (step codec) (appended codec) start inputs =
      Machine.trace (step codec) (forwarded codec) start inputs ++
        (Machine.run (step codec) start inputs).storedPackets.map StoredPacket.call ∧
    Machine.Guarded (step codec) (ForwardsInOrder codec) start inputs ∧
    Machine.Always (step codec) (fun s => s.sessionState = .active → s.storedPackets = [])
      start inputs := by
  intro start
  have guarded := Machine.guarded_of_forall (step codec) start inputs live
  have kept (s : Rover) (input : Input) (storing : Storing s) (live : input ≠ .stop) :=
    (step_forwards codec s input storing live).storing
  have always := Machine.always_of_guarded (step codec) kept start inputs
    (started_storing codec roverId base clock) guarded
  refine ⟨?_,?_,fun done within => (always done within).emptyInSession⟩
  · have conserved := Machine.run_conserves (step codec)
      (fun s => s.storedPackets.map StoredPacket.call) (appended codec) (forwarded codec) kept
      (fun s input storing live => (step_forwards codec s input storing live).balanced) start inputs
      (started_storing codec roverId base clock) guarded
    rwa [started_storedPackets,List.map_nil,List.nil_append] at conserved
  · intro done input within
    have storing := always done ((List.prefix_append done [input]).trans within)
    exact (step_forwards codec _ input storing (guarded done input within)).inOrder

/-- A status stored during the outage goes out with the next session. -/
def sessionResumed : List Input :=
  sessionLost ++ [.sendStatus,fromStation "SESSION_ACCEPT",fromStation "SESSION_ESTABLISHED"]

theorem sessionResumed_forwards_status :
    (Machine.trace (step .silent) (appended .silent) sampleStart sessionResumed).length = 1 ∧
    ((Machine.run (step .silent) sampleStart sessionResumed.dropLast).leaving .silent
      (fromStation "SESSION_ESTABLISHED")).length = 3 ∧
    Machine.trace (step .silent) (appended .silent) sampleStart sessionResumed =
      Machine.trace (step .silent) (forwarded .silent) sampleStart sessionResumed ++
        (Machine.run (step .silent) sampleStart sessionResumed).storedPackets.map
          StoredPacket.call ∧
    Machine.Guarded (step .silent) (ForwardsInOrder .silent) sampleStart sessionResumed := by
  have forwards := stored_messages_forwarded_in_order .silent "rover-a" sampleStation ⟨0,0⟩
    sessionResumed (by simp [sessionResumed,sessionLost,fromStation,seconds,retransmissionCheck])
  exact ⟨by decide +kernel,by decide +kernel,forwards.1,forwards.2.1⟩

end Lumen.Rover
