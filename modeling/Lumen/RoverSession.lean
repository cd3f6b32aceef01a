import Lumen.Rover

/-! What each step of the rover can do to its session, its timers and its log. Most steps
are quiet: they send or store messages and leave the session alone. The handshake handlers
are described one by one. From there, when the rover can be left without a pending timer. -/
namespace Lumen.Rover

open Endpoint

variable (codec : Codec)

/-- The session is left alone; what is sent and stored satisfies a condition. -/
structure Quiet (allowed : Message → Prop) (s t : Rover) : Prop where
  roverId : t.roverId = s.roverId
  sessionState : t.sessionState = s.sessionState
  handshakeRetryCount : t.handshakeRetryCount = s.handshakeRetryCount
  handshakeTimer : t.handshakeTimer = s.handshakeTimer
  probeTimer : t.probeTimer = s.probeTimer
  posted : s.posted ⊆ t.posted
  managerRunning : t.manager.running = s.manager.running
  node : s.manager.protocol.SameNode t.manager.protocol
  sent : SendsOnly allowed s.manager.sent t.manager.sent
  stored : ∀ packet ∈ t.storedPackets, packet ∈ s.storedPackets ∨ allowed packet.message

theorem sameNode_refl (protocol : LumenProtocol) : protocol.SameNode protocol :=
  (LumenProtocol.Undisturbed.refl protocol).sameNode

namespace Quiet

variable {allowed : Message → Prop}

theorem refl (s : Rover) : Quiet allowed s s where
  roverId := rfl
  sessionState := rfl
  handshakeRetryCount := rfl
  handshakeTimer := rfl
  probeTimer := rfl
  posted := List.Subset.refl _
  managerRunning := rfl
  node := sameNode_refl _
  sent := .refl _
  stored := fun _ member => Or.inl member

theorem trans (first : Quiet allowed s t) (second : Quiet allowed t u) : Quiet allowed s u where
  roverId := second.roverId.trans first.roverId
  sessionState := second.sessionState.trans first.sessionState
  handshakeRetryCount := second.handshakeRetryCount.trans first.handshakeRetryCount
  handshakeTimer := second.handshakeTimer.trans first.handshakeTimer
  probeTimer := second.probeTimer.trans first.probeTimer
  posted := List.Subset.trans first.posted second.posted
  managerRunning := second.managerRunning.trans first.managerRunning
  node := first.node.trans second.node
  sent := first.sent.trans second.sent
  stored := by
    intro packet member
    rcases second.stored packet member with middle | fine
    · exact first.stored packet middle
    · exact Or.inr fine

end Quiet

section Operations

variable {allowed : Message → Prop}

theorem post_quiet (s : Rover) (handler : Posted) : Quiet allowed s (s.post handler) :=
  { Quiet.refl s with posted := List.subset_append_left _ _ }

theorem transmit_quiet (s : Rover) (message : Message) (recipient : Endpoint)
    (fine : allowed message) : Quiet allowed s (s.transmit codec message recipient) := by
  simp only [transmit,MessageManager.sendMessage]
  split
  · exact .refl s
  · exact { Quiet.refl s with
      node := (LumenProtocol.sendMessage_undisturbed ..).sameNode
      sent := .one _ _ fine }

theorem storeMessageForLater_quiet (s : Rover) (message : Message) (recipient : Endpoint)
    (fine : allowed message) : Quiet allowed s (s.storeMessageForLater codec message recipient) :=
  { Quiet.refl s with
    stored := fun packet member => by
      rcases List.mem_append.mp member with old | new
      · exact Or.inl old
      · rw [List.mem_singleton.mp new]
        exact Or.inr fine }

theorem report_quiet (s : Rover) (message : Message) (fine : allowed message) :
    Quiet allowed s (s.report codec message) := by
  simp only [report]
  split
  · exact .refl s
  · split
    · exact .refl s
    · split
      · exact storeMessageForLater_quiet codec s message _ fine
      · split
        · exact transmit_quiet codec s message _ fine
        · exact .refl s

theorem sendMessage_quiet (s : Rover) (message : Message) (recipient : Endpoint)
    (fine : allowed message) : Quiet allowed s (s.sendMessage codec message recipient) := by
  simp only [sendMessage]
  split
  · exact .refl s
  · split
    · exact .refl s
    · split
      · exact storeMessageForLater_quiet codec s message _ fine
      · split
        · split
          · exact .refl s
          · exact transmit_quiet codec s message _ fine
        · exact .refl s

theorem sendRawMessage_quiet (s : Rover) (message : Message) (recipient : Endpoint)
    (fine : allowed message) : Quiet allowed s (s.sendRawMessage message recipient) := by
  simp only [sendRawMessage,MessageManager.sendRawMessage]
  split
  · exact .refl s
  · split
    · exact .refl s
    · split
      · exact .refl s
      · split
        · exact .refl s
        · exact { Quiet.refl s with
            sent := .one _ _ fine }

theorem sendCommand_quiet (s : Rover) (command params : String)
    (fine : allowed (s.message (.command command params))) :
    Quiet allowed s (s.sendCommand codec command params) := by
  simp only [sendCommand]
  split
  · exact .refl s
  · split
    · exact .refl s
    · split
      · exact transmit_quiet codec s _ _ fine
      · split
        · exact transmit_quiet codec s _ _ fine
        · exact .refl s

theorem sendStored_quiet (s : Rover) (packet : StoredPacket) (fine : allowed packet.message) :
    Quiet allowed s (s.sendStored packet) :=
  { Quiet.refl s with
    node := (LumenProtocol.sendMessage_undisturbed ..).sameNode
    sent := .one _ _ fine }

theorem sendStoredPackets_quiet (s : Rover)
    (fine : ∀ packet ∈ s.storedPackets, allowed packet.message) :
    Quiet allowed s s.sendStoredPackets := by
  have loop (packets : List StoredPacket) (t : Rover)
      (fine : ∀ packet ∈ packets, allowed packet.message) :
      Quiet allowed t (packets.foldl sendStored t) := by
    induction packets generalizing t with
    | nil => exact .refl t
    | cons packet rest ih =>
      have one := sendStored_quiet t packet (fine packet List.mem_cons_self)
      exact one.trans (ih _ fun later member => fine later (List.mem_cons_of_mem _ member))
  exact { loop s.storedPackets s fine with stored := by simp [sendStoredPackets] }

theorem onProtocol_quiet (s : Rover) (input : LumenProtocol.Input)
    (external : input.isExternal = true) : Quiet allowed s (s.onProtocol codec input) :=
  { Quiet.refl s with
    posted := List.subset_append_left _ _
    node := LumenProtocol.step_external_sameNode codec _ input external }

theorem setTarget_quiet (s : Rover) (params : String) :
    Quiet allowed s (s.setTarget codec params) := by
  simp only [setTarget]
  split
  · split <;> exact { Quiet.refl s with posted := List.Subset.refl _ }
  · exact .refl s

theorem handUp_quiet (s : Rover) (message : Message) (sender : Endpoint) :
    Quiet allowed s (s.handUp message sender) := by
  simp only [handUp]
  split
  · exact post_quiet s _
  · exact .refl s

variable (plain : ∀ message, message.isHandshake = false → allowed message)

include plain

theorem scanForRovers_quiet (s : Rover) (discoveryPort : UInt16) (text : String) :
    Quiet allowed s (s.scanForRovers discoveryPort text) := by
  simp only [scanForRovers]
  split
  · exact .refl s
  · refine { Quiet.refl s with sent := ⟨_,rfl,fun entry member => ?_⟩ }
    obtain ⟨_,_,rfl⟩ := List.mem_map.mp member
    exact plain _ rfl

theorem handleDiscoveryCommand_quiet (s : Rover) (command senderId : String) (sender : Endpoint) :
    Quiet allowed s (s.handleDiscoveryCommand command senderId sender) := by
  simp only [handleDiscoveryCommand]
  split
  · exact .refl s
  · split
    · have noted : Quiet allowed s { s with
          discoveredRovers := Function.update s.discoveredRovers senderId (some sender) } :=
        { Quiet.refl s with posted := List.Subset.refl _ }
      split
      · exact noted.trans (post_quiet _ _)
      · exact noted
    · split
      · split
        · exact .refl s
        · exact sendRawMessage_quiet s _ sender (plain _ rfl)
      · exact .refl s

theorem handleStatusTimer_quiet (s : Rover) : Quiet allowed s (s.handleStatusTimer codec) := by
  have sent : Quiet allowed s (s.sendStatus codec) := report_quiet codec s _ (plain _ rfl)
  exact { sent with posted := sent.posted }

theorem handlePositionTelemetryTimer_quiet (s : Rover) :
    Quiet allowed s (s.handlePositionTelemetryTimer codec) := by
  have sent : Quiet allowed s (s.sendTelemetry codec
      [("latitude",s.currentCoordinate.first),("longitude",s.currentCoordinate.second)]) :=
    report_quiet codec s _ (plain _ rfl)
  exact { sent with posted := sent.posted }

theorem handleMovementTimer_quiet (s : Rover) : Quiet allowed s (s.handleMovementTimer codec) := by
  simp only [handleMovementTimer]
  split
  · exact .refl s
  · split
    · split
      · exact { Quiet.refl s with posted := List.Subset.refl _ }
      · next base _ =>
        have cleared : Quiet allowed s { s with targetCoordinate := none } :=
          { Quiet.refl s with posted := List.Subset.refl _ }
        exact cleared.trans (sendMessage_quiet codec _ _ base (plain _ rfl))
    · exact { Quiet.refl s with posted := List.Subset.refl _ }

end Operations

/-! ### Quiet inputs -/

/-- Everything but received messages, the two session timers, posted handlers and `stop`. -/
def Input.isQuiet : Input → Bool
  | .route _ _ => false
  | .expire .handshake => false
  | .expire .probe => false
  | .runPosted _ => false
  | .stop => false
  | _ => true

/-- The messages the application gives to the rover in this step. -/
def Input.Speaks (allowed : Message → Prop) (s : Rover) : Input → Prop
  | .sendMessage message _ => allowed message
  | .sendRawMessage message _ => allowed message
  | .sendCommand command params => allowed (s.message (.command command params))
  | _ => True

theorem step_quiet {allowed : Message → Prop}
    (plain : ∀ message, message.isHandshake = false → allowed message) (s : Rover) (input : Input)
    (quiet : input.isQuiet = true) (spoken : input.Speaks allowed s) :
    Quiet allowed s (s.step codec input) := by
  cases input with
  | route | runPosted | stop => cases quiet
  | expire timer =>
    cases timer with
    | handshake | probe => cases quiet
    | status =>
      simp only [step,expire]
      split
      · have dropped : Quiet allowed s { s with statusTimer := false } :=
          { Quiet.refl s with posted := List.Subset.refl _ }
        exact dropped.trans (handleStatusTimer_quiet codec plain _)
      · exact .refl s
    | positionTelemetry =>
      simp only [step,expire]
      split
      · have dropped : Quiet allowed s { s with positionTelemetryTimer := false } :=
          { Quiet.refl s with posted := List.Subset.refl _ }
        exact dropped.trans (handlePositionTelemetryTimer_quiet codec plain _)
      · exact .refl s
    | movement =>
      simp only [step,expire]
      split
      · have dropped : Quiet allowed s { s with movementTimer := false } :=
          { Quiet.refl s with posted := List.Subset.refl _ }
        exact dropped.trans (handleMovementTimer_quiet codec plain _)
      · exact .refl s
  | timeoutNotification recipient => exact post_quiet s _
  | protocol input external => exact onProtocol_quiet codec s input external
  | sendMessage message recipient => exact sendMessage_quiet codec s message recipient spoken
  | sendRawMessage message recipient => exact sendRawMessage_quiet s message recipient spoken
  | sendCommand command params => exact sendCommand_quiet codec s command params spoken
  | sendTelemetry readings => exact report_quiet codec s _ (plain _ rfl)
  | sendStatus => exact report_quiet codec s _ (plain _ rfl)
  | handlePositionTelemetryTimer => exact handlePositionTelemetryTimer_quiet codec plain s
  | scanForRovers discoveryPort text => exact scanForRovers_quiet plain s discoveryPort text
  | updateStatus | updateCurrentPosition | setApplicationMessageHandler
  | setDiscoveryMessageHandler => exact { Quiet.refl s with posted := List.Subset.refl _ }

/-! ### The handlers that move the session -/

/-- The rover while a session is being set up. -/
def handshaking (s : Rover) : Prop :=
  s.sessionState = .handshakeInit ∨ s.sessionState = .handshakeAccept

instance (s : Rover) : Decidable s.handshaking := inferInstanceAs (Decidable (_ ∨ _))

/-- A command from the base station, as the rover recognises it. -/
def FromBase (s : Rover) (name : String) (message : Message) (sender : Endpoint) : Prop :=
  message.sender ≠ s.roverId ∧ s.getBaseEndpoint = some sender ∧ message.isCommand name = true

/-- Everything a received message can do. -/
inductive Routed (s : Rover) (message : Message) (sender : Endpoint) : Rover → Prop where
  | ignored : Routed s message sender s
  | accept (from_ : s.FromBase "SESSION_ACCEPT" message sender) :
      Routed s message sender (s.handleSessionAccept codec)
  | established (from_ : s.FromBase "SESSION_ESTABLISHED" message sender) :
      Routed s message sender (s.handleSessionEstablished codec)
  | power (params : String) (base : s.getBaseEndpoint = some sender) :
      Routed s message sender { s with lowPowerMode := params = "1" }
  | target (params : String) (base : s.getBaseEndpoint = some sender) :
      Routed s message sender (s.setTarget codec params)
  | discovery (command : String) (awake : s.lowPowerMode = false) :
      Routed s message sender (s.handleDiscoveryCommand command message.sender sender)
  | up : Routed s message sender (s.handUp message sender)

theorem routeMessage_routed (s : Rover) (message : Message) (sender : Endpoint) :
    Routed codec s message sender (s.routeMessage codec message sender) := by
  simp only [routeMessage]
  split
  · exact .ignored
  · next other =>
    split
    · next command params content =>
      split
      · split
        · next base =>
          have from_ (name : String) (same : command = name) : s.FromBase name message sender :=
            ⟨other,base,by simp [Message.isCommand,content,same]⟩
          simp only [handleInternalCommand]
          split
          · next accept => exact .accept (from_ _ accept)
          · split
            · next established => exact .established (from_ _ established)
            · split
              · exact .power params base
              · split
                · exact .target params base
                · exact .ignored
        · exact .ignored
      · split
        · split
          · next both => exact .discovery command (by simpa using both.2)
          · exact .ignored
        · exact .up
    · exact .up

/-- Two session commands act, the rest is quiet. -/
theorem routeMessage_cases {allowed : Message → Prop}
    (plain : ∀ message, message.isHandshake = false → allowed message) (s : Rover)
    (message : Message) (sender : Endpoint) :
    (s.FromBase "SESSION_ACCEPT" message sender ∧
      s.routeMessage codec message sender = s.handleSessionAccept codec) ∨
    (s.FromBase "SESSION_ESTABLISHED" message sender ∧
      s.routeMessage codec message sender = s.handleSessionEstablished codec) ∨
    Quiet allowed s (s.routeMessage codec message sender) := by
  have routed := routeMessage_routed codec s message sender
  generalize s.routeMessage codec message sender = t at routed ⊢
  cases routed with
  | accept from_ => exact Or.inl ⟨from_,rfl⟩
  | established from_ => exact Or.inr (Or.inl ⟨from_,rfl⟩)
  | ignored => exact Or.inr (Or.inr (.refl s))
  | power => exact Or.inr (Or.inr { Quiet.refl s with posted := List.Subset.refl _ })
  | target params => exact Or.inr (Or.inr (setTarget_quiet codec s params))
  | discovery command => exact Or.inr (Or.inr (handleDiscoveryCommand_quiet plain s _ _ sender))
  | up => exact Or.inr (Or.inr (handUp_quiet s message sender))

/-- The command repeated while an answer is awaited. -/
def repeated (s : Rover) : String :=
  if s.sessionState = .handshakeInit then "SESSION_INIT" else "SESSION_CONFIRM"

/-- The state in which a retry is sent. -/
def retrying (s : Rover) : Rover :=
  (s.setHandshakeTimer false).setHandshakeRetryCount (s.handshakeRetryCount + 1)

theorem handleHandshakeTimer_eq (s : Rover) (during : s.handshaking) :
    (s.setHandshakeTimer false).handleHandshakeTimer codec =
      if s.handshakeRetryCount < maxHandshakeRetries then
        (s.retrying.sendCommand codec s.repeated s.roverId).setHandshakeTimer true
      else (s.setHandshakeTimer false).handleBaseDisconnect := if_pos during

/-! ### Never without a timer -/

/-- While a session is set up a wait for an answer is pending, and while the rover is
disconnected a wait for the next probe, or the handler that starts it is posted. -/
def NotStuck (s : Rover) : Prop :=
  (s.handshaking → s.handshakeTimer = true ∨ .armHandshake ∈ s.posted) ∧
    (s.sessionState = .disconnected → s.probeTimer = true ∨ .armProbe ∈ s.posted)

/-- When the handshake timer expires during a handshake there is a retry left, or the timer
is about to be set again anyway. -/
def RetriesLeft (s : Rover) : Input → Prop
  | .expire .handshake => s.handshakeTimer = true → s.handshaking →
      s.handshakeRetryCount < maxHandshakeRetries ∨ .armHandshake ∈ s.posted
  | _ => True

theorem Quiet.notStuck (quiet : Quiet allowed s t) (fine : NotStuck s) : NotStuck t := by
  obtain ⟨handshake,probe⟩ := fine
  constructor
  · intro during
    simp only [handshaking,quiet.sessionState] at during
    rcases handshake during with pending | queued
    · exact Or.inl (quiet.handshakeTimer.trans pending)
    · exact Or.inr (quiet.posted queued)
  · intro lost
    rcases probe (quiet.sessionState.symm.trans lost) with pending | queued
    · exact Or.inl (quiet.probeTimer.trans pending)
    · exact Or.inr (quiet.posted queued)

/-- Outside the handshake and not disconnected there is nothing to wait for. -/
theorem notStuck_of_active (s : Rover) (active : s.sessionState = .active) : NotStuck s := by
  simp [NotStuck,handshaking,active]

/-- For the timers it does not matter what is sent. -/
def Any (_ : Message) : Prop := True

theorem plain_any (message : Message) (_plain : message.isHandshake = false) : Any message := trivial

theorem handleSessionEstablished_notStuck (s : Rover) (fine : NotStuck s) :
    NotStuck (s.handleSessionEstablished codec) := by
  simp only [handleSessionEstablished]
  split
  · exact fine
  · apply (handlePositionTelemetryTimer_quiet codec plain_any _).notStuck
    apply (handleStatusTimer_quiet codec plain_any _).notStuck
    apply (@sendStoredPackets_quiet Any _ fun _ _ => trivial).notStuck
    exact notStuck_of_active _ rfl

theorem handleSessionAccept_notStuck (s : Rover) (fine : NotStuck s) :
    NotStuck (s.handleSessionAccept codec) := by
  simp only [handleSessionAccept]
  split
  · refine ⟨fun _ => Or.inr (List.mem_append_right _ (List.mem_singleton_self _)),?_⟩
    intro lost
    have kept := fun t => (@sendCommand_quiet codec Any t "SESSION_CONFIRM" t.roverId trivial).sessionState
    have state := (kept _).symm.trans lost
    split at state <;> cases state
  · exact fine

theorem handleBaseDisconnect_notStuck (s : Rover) (fine : NotStuck s) :
    NotStuck s.handleBaseDisconnect := by
  simp only [handleBaseDisconnect]
  split
  · exact fine
  · refine ⟨fun during => ?_,fun _ => Or.inr (List.mem_append_right _ (List.mem_singleton_self _))⟩
    rcases during with impossible | impossible <;> cases impossible

theorem handleProbeTimer_notStuck (s : Rover) (fine : NotStuck s) :
    NotStuck ((s.setProbeTimer false).handleProbeTimer codec) := by
  simp only [handleProbeTimer]
  split
  · next lost =>
    refine ⟨fun during => ?_,fun _ => Or.inl rfl⟩
    have kept := (@sendCommand_quiet codec Any (s.setProbeTimer false) "SESSION_INIT" s.roverId
      trivial).sessionState.trans lost
    rcases during with impossible | impossible
    · cases kept.symm.trans impossible
    · cases kept.symm.trans impossible
  · next other => exact ⟨fine.1,fun lost => absurd lost other⟩

/-- The retries decide whether the expired timer is set again. -/
theorem handleHandshakeTimer_notStuck (s : Rover) (fine : NotStuck s) :
    NotStuck ((s.setHandshakeTimer false).handleHandshakeTimer codec) ↔
      (s.handshaking → s.handshakeRetryCount < maxHandshakeRetries ∨ .armHandshake ∈ s.posted) := by
  by_cases during : s.handshaking
  · have setup : ¬ s.sessionState = .disconnected ∧ ¬ s.sessionState = .active := by
      constructor
      all_goals
        intro other
        simp [handshaking,other] at during
    rw [handleHandshakeTimer_eq codec s during]
    split
    · next left =>
      refine iff_of_true ⟨fun _ => Or.inl rfl,fun lost => ?_⟩ (fun _ => Or.inl left)
      have kept := fun t command => (@sendCommand_quiet codec Any t command t.roverId trivial).sessionState
      exact absurd ((kept _ _).symm.trans lost) setup.1
    · next spent =>
      have ignored : (s.setHandshakeTimer false).handleBaseDisconnect = s.setHandshakeTimer false :=
        if_pos setup.2
      rw [ignored]
      constructor
      · intro waiting _
        rcases waiting.1 during with pending | queued
        · cases pending
        · exact Or.inr queued
      · intro queued
        refine ⟨fun _ => Or.inr ((queued during).resolve_left spent),fun lost => absurd lost setup.1⟩
  · refine iff_of_true ?_ (fun now => absurd now during)
    have ignored : (s.setHandshakeTimer false).handleHandshakeTimer codec =
        s.setHandshakeTimer false := if_neg during
    rw [ignored]
    exact ⟨fun now => absurd now during,fine.2⟩

/-- A posted handler other than the one that runs stays posted. -/
theorem mem_eraseIdx_of_ne {handlers : List Posted} {position : Nat} {handler other : Posted}
    (here : handlers[position]? = some handler) (different : other ≠ handler)
    (member : other ∈ handlers) : other ∈ handlers.eraseIdx position := by
  obtain ⟨place,found⟩ := List.mem_iff_getElem?.mp member
  apply List.mem_eraseIdx_iff_getElem?.mpr
  refine ⟨place,?_,found⟩
  rintro rfl
  exact different (Option.some.inj (found.symm.trans here))

theorem runPosted_notStuck (s : Rover) (position : Nat) (fine : NotStuck s) :
    NotStuck (s.runPosted position) := by
  simp only [runPosted]
  split
  · next handler here =>
    have others (stays : .armHandshake ≠ handler ∧ .armProbe ≠ handler) :
        NotStuck { s with posted := s.posted.eraseIdx position } := by
      refine ⟨fun during => ?_,fun lost => ?_⟩
      · exact (fine.1 during).imp_right (mem_eraseIdx_of_ne here stays.1)
      · exact (fine.2 lost).imp_right (mem_eraseIdx_of_ne here stays.2)
    cases handler with
    | armProbe =>
      refine ⟨fun during => ?_,fun _ => Or.inl rfl⟩
      exact (fine.1 during).imp_right (mem_eraseIdx_of_ne here nofun)
    | armHandshake =>
      refine ⟨fun _ => Or.inl rfl,fun lost => ?_⟩
      exact (fine.2 lost).imp_right (mem_eraseIdx_of_ne here nofun)
    | packetTimeout recipient =>
      have rest := others ⟨nofun,nofun⟩
      simp only [runHandler,handlePacketTimeout]
      split
      · exact handleBaseDisconnect_notStuck _ rest
      · exact rest
    | resetSequence | application | discovery => exact others ⟨nofun,nofun⟩
  · exact fine

theorem routeMessage_notStuck (s : Rover) (message : Message) (sender : Endpoint)
    (fine : NotStuck s) : NotStuck (s.routeMessage codec message sender) := by
  rcases routeMessage_cases codec plain_any s message sender with
    ⟨_,accept⟩ | ⟨_,established⟩ | quiet
  · rw [accept]
    exact handleSessionAccept_notStuck codec s fine
  · rw [established]
    exact handleSessionEstablished_notStuck codec s fine
  · exact quiet.notStuck fine

theorem speaks_any (s : Rover) (input : Input) : input.Speaks Any s := by
  cases input <;> trivial

/-- One step: the rover keeps waiting for something exactly when the handshake timer does not
expire for good. -/
theorem step_notStuck (s : Rover) (input : Input) (fine : NotStuck s) :
    NotStuck (s.step codec input) ↔ RetriesLeft s input := by
  by_cases quiet : input.isQuiet = true
  · have free : RetriesLeft s input := by
      cases input with
      | expire timer =>
        cases timer with
        | handshake => cases quiet
        | _ => trivial
      | _ => trivial
    have kept := step_quiet codec plain_any s input quiet (speaks_any s input)
    exact iff_of_true (kept.notStuck fine) free
  · cases input with
    | expire timer =>
      cases timer with
      | handshake =>
        simp only [step,expire,RetriesLeft]
        split
        · next pending => simpa [pending] using handleHandshakeTimer_notStuck codec s fine
        · next idle => exact iff_of_true fine (fun pending => absurd pending idle)
      | probe =>
        refine iff_of_true ?_ trivial
        simp only [step,expire]
        split
        · exact handleProbeTimer_notStuck codec s fine
        · exact fine
      | status | positionTelemetry | movement => exact absurd rfl quiet
    | route message sender =>
      exact iff_of_true (routeMessage_notStuck codec s message sender fine) trivial
    | runPosted position => exact iff_of_true (runPosted_notStuck s position fine) trivial
    | stop =>
      refine iff_of_true ⟨fun during => ?_,nofun⟩ trivial
      rcases during with impossible | impossible <;> cases impossible
    | _ => exact absurd rfl quiet

theorem started_sessionState (roverId : String) (base : Endpoint) (clock : Clock) :
    (started codec roverId base clock).sessionState = .handshakeInit := by
  have kept := fun t => (@sendCommand_quiet codec Any t "SESSION_INIT" t.roverId trivial).sessionState
  exact kept _

theorem started_notStuck (roverId : String) (base : Endpoint) (clock : Clock) :
    NotStuck (started codec roverId base clock) := by
  refine ⟨fun _ => Or.inl rfl,fun lost => ?_⟩
  cases (started_sessionState codec roverId base clock).symm.trans lost

/-- Over whole runs: the rover is never left without a pending timer, if and only if its
handshake timer never expires for good during a handshake. -/
theorem never_stuck_iff_retries_left (roverId : String) (base : Endpoint) (clock : Clock)
    (inputs : List Input) :
    Machine.Always (step codec) NotStuck (started codec roverId base clock) inputs ↔
      Machine.Guarded (step codec) RetriesLeft (started codec roverId base clock) inputs :=
  @Machine.always_iff_guarded _ _ (step codec) (fun _ => True) NotStuck RetriesLeft
    (fun _ _ _ => trivial)
    (fun s input _ fine left => (step_notStuck codec s input fine).mpr left)
    (fun s input _ fine spent now => spent ((step_notStuck codec s input fine).mp now))
    _ inputs trivial (started_notStuck codec roverId base clock)

/-- Every answer is lost: the first expiry and five retries. -/
def silentBase : List Input := List.replicate 6 (.expire .handshake)

/-- The rover stays in HANDSHAKE_INIT with no timer pending and nothing posted. -/
theorem silentBase_strands_rover :
    ¬ Machine.Always (step .silent) NotStuck
      (started .silent "rover-a" ⟨0x0aed0001,9000⟩ ⟨0,0⟩) silentBase := by
  intro always
  rcases (always silentBase (List.prefix_refl _)).1 (Or.inl (by decide +kernel)) with
    pending | queued
  · revert pending
    decide +kernel
  · cases queued

end Lumen.Rover
