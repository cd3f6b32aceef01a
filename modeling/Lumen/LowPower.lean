import Lumen.Disconnect

/-! Low power mode. Every way out of the rover that starts with a message checks the mode, and
lets only messages of high priority for the base station pass. A message accepted before the mode
was set can still leave later: from the store when the session is active again, or from the
retransmission table. -/
namespace Lumen.LumenProtocol

open ReliabilityManager Endpoint

/-- Packets of high priority for the base station. -/
def Urgent (base : Option Endpoint) (packet : LumenPacket) (recipient : Endpoint) : Prop :=
  packet.header.priority = .high ∧ base = some recipient

/-- The log grows, and only urgent packets are transmitted. -/
def Muted (base : Option Endpoint) (s t : LumenProtocol) : Prop :=
  ∃ more, t.effects = s.effects ++ more ∧
    ∀ packet recipient, .transmit packet recipient ∈ more → Urgent base packet recipient

namespace Muted

variable {base : Option Endpoint} {s t u : LumenProtocol}

theorem of_effects (same : t.effects = s.effects) : Muted base s t := ⟨[],by simp [same],by simp⟩

theorem trans (first : Muted base s t) (second : Muted base t u) : Muted base s u := by
  obtain ⟨more,added,fine⟩ := first
  obtain ⟨further,grown,fineLater⟩ := second
  refine ⟨more ++ further,by rw [grown,added,List.append_assoc],fun packet recipient member => ?_⟩
  rcases List.mem_append.mp member with early | late
  · exact fine packet recipient early
  · exact fineLater packet recipient late

theorem sent (packet : LumenPacket) (recipient : Endpoint) (urgent : Urgent base packet recipient)
    (added : t.effects = s.effects ++ u.sent packet recipient) : Muted base s t := by
  refine ⟨_,added,fun other target member => ?_⟩
  cases (mem_sent.mp member).2
  exact urgent

end Muted

theorem sendNak_muted (s : LumenProtocol) (number : UInt8) (endpoint : Endpoint) :
    Muted s.getBaseEndpoint s (s.sendNak number endpoint) := by
  simp only [sendNak]
  split
  · exact .of_effects rfl
  · split
    · exact .of_effects rfl
    · next base registered =>
      exact .sent (s.nextPacket [number] .nak .high) base ⟨rfl,registered⟩
        (sendPacket_effects _ _ base)

theorem nakLoop_muted (endpoint : Endpoint) (missing : List UInt8) (budget : Nat)
    (s : LumenProtocol) :
    Muted s.getBaseEndpoint s (nakLoop endpoint budget missing s) := by
  induction missing generalizing budget s with
  | nil => unfold nakLoop; exact .of_effects rfl
  | cons number rest ih =>
    cases budget with
    | zero => exact .of_effects rfl
    | succ budget =>
      rw [nakLoop]
      split
      · exact ih _ s
      · refine (sendNak_muted s number endpoint).trans ?_
        have same := (sendNak_undisturbed s number endpoint).baseEndpoint
        have later := ih budget { s.sendNak number endpoint with
          reliabilityManager := (s.sendNak number endpoint).reliabilityManager.recordNakSent
            (s.sendNak number endpoint).clock.steady number }
        simp only [getBaseEndpoint,same] at later ⊢
        exact later

/-- What a packet makes a rover transmit: NAKs. -/
theorem processCompletePacket_muted (s : LumenProtocol) (packet : LumenPacket)
    (endpoint : Endpoint) (rover : s.mode = .rover) :
    Muted s.getBaseEndpoint s (s.processCompletePacket packet endpoint) := by
  by_cases payload : CarriesPayload packet
  · have marked : Muted s.getBaseEndpoint s (s.counted packet endpoint) :=
      ⟨[.processing packet endpoint],rfl,by simp⟩
    have looked : Muted s.getBaseEndpoint (s.counted packet endpoint) _ :=
      nakLoop_muted endpoint (s.gaps packet endpoint) maxNaksPerCheck (s.counted packet endpoint)
    rw [processCompletePacket_looks s packet endpoint rover payload]
    split
    · exact (marked.trans looked).trans ⟨[passedUp packet endpoint],rfl,by simp [passedUp]⟩
    · exact marked.trans looked
  · exact ⟨_,processCompletePacket_rover_control s packet endpoint rover payload,by simp⟩

theorem handleUdpData_muted (codec : Codec) (s : LumenProtocol) (data : List UInt8)
    (endpoint : Endpoint) (rover : s.mode = .rover) :
    Muted s.getBaseEndpoint s (handleUdpData codec s data endpoint) := by
  refine (handleUdpData_keeps codec (fun t => SameNode s t ∧ Muted s.getBaseEndpoint s t) endpoint
    ?_ ?_ ?_ s data ⟨(Undisturbed.refl s).sameNode,.of_effects rfl⟩).2
  · exact fun t key bytes ⟨node,muted⟩ =>
      ⟨node.trans (setFrameBuffer_sameNode t key bytes),muted.trans (.of_effects rfl)⟩
  · rintro t packet ⟨node,muted⟩
    have one := processCompletePacket_muted t packet endpoint (node.mode.trans rover)
    simp only [getBaseEndpoint,node.baseEndpoint] at one muted ⊢
    exact ⟨node.trans (processCompletePacket_sameNode t packet endpoint),muted.trans one⟩
  · rintro t payload ⟨node,muted⟩
    refine ⟨node.trans (passUp_undisturbed t payload endpoint).sameNode,muted.trans ?_⟩
    simp only [passUp]
    split
    · exact ⟨_,rfl,by simp⟩
    · exact .of_effects rfl

end Lumen.LumenProtocol

namespace Lumen.MessageManager

open LumenProtocol

/-- Whatever leaves, framed or raw, has high priority and goes to the base station. -/
structure Discreet (base : Option Endpoint) (m m' : MessageManager) : Prop where
  framed : Muted base m.protocol m'.protocol
  sent : ∃ more, m'.sent = m.sent ++ more ∧
    ∀ entry ∈ more, entry.1.getLumenPriority = .high ∧ base = some entry.2

namespace Discreet

variable {base : Option Endpoint} {m m' m'' : MessageManager}

theorem of_logs (effects : m'.protocol.effects = m.protocol.effects) (sent : m'.sent = m.sent) :
    Discreet base m m' := ⟨.of_effects effects,[],by simp [sent],by simp⟩

theorem refl (m : MessageManager) : Discreet base m m := .of_logs rfl rfl

theorem trans (first : Discreet base m m') (second : Discreet base m' m'') :
    Discreet base m m'' := by
  obtain ⟨more,added,fine⟩ := first.sent
  obtain ⟨further,grown,fineLater⟩ := second.sent
  refine ⟨first.framed.trans second.framed,more ++ further,
    by rw [grown,added,List.append_assoc],fun entry member => ?_⟩
  rcases List.mem_append.mp member with early | late
  · exact fine entry early
  · exact fineLater entry late

/-- One message of high priority, which can only leave to the base station. -/
theorem one (protocol : LumenProtocol) (message : Message) (target : Option Endpoint)
    (high : message.getLumenPriority = .high) (only : ∀ endpoint ∈ target, base = some endpoint)
    (framed : Muted base m.protocol protocol) :
    Discreet base m { m with
      protocol := protocol, sent := m.sent ++ target.toList.map (message,·) } := by
  refine ⟨framed,_,rfl,fun entry member => ?_⟩
  obtain ⟨endpoint,listed,rfl⟩ := List.mem_map.mp member
  exact ⟨high,only endpoint (Option.mem_toList.mp listed)⟩

end Discreet

end Lumen.MessageManager

namespace Lumen.LumenProtocol

theorem destination_base (s : LumenProtocol) (base : Endpoint) (rover : s.mode = .rover)
    (registered : s.getBaseEndpoint = some base) :
    ∀ endpoint ∈ s.destination base, s.getBaseEndpoint = some endpoint := by
  intro endpoint goes
  cases running : s.running with
  | false => simp [destination,running] at goes
  | true =>
    rw [destination_registered s base rover running registered] at goes
    rw [registered,Option.mem_some_iff.mp goes]

theorem sendMessage_muted (s : LumenProtocol) (payload : List UInt8) (type : MessageType)
    (base : Endpoint) (rover : s.mode = .rover) (registered : s.getBaseEndpoint = some base) :
    Muted s.getBaseEndpoint s (s.sendMessage payload type .high base) := by
  refine ⟨_,sendMessage_effects s payload type .high base,fun packet recipient member => ?_⟩
  obtain ⟨_,goes,same⟩ := List.mem_map.mp member
  cases same
  exact ⟨rfl,destination_base s base rover registered recipient (Option.mem_toList.mp goes)⟩

end Lumen.LumenProtocol

namespace Lumen.Rover

open Endpoint LumenProtocol ReliabilityManager MessageManager

variable (codec : Codec)

/-- A rover in low power mode. -/
structure Hushed (s : Rover) : Prop where
  mode : s.manager.protocol.mode = .rover
  lowPowerMode : s.lowPowerMode = true

theorem transmit_discreet (s : Rover) (message : Message) (base : Endpoint)
    (rover : s.manager.protocol.mode = .rover) (registered : s.getBaseEndpoint = some base)
    (high : message.getLumenPriority = .high) :
    Discreet s.getBaseEndpoint s.manager (s.transmit codec message base).manager := by
  simp only [transmit,MessageManager.sendMessage]
  split
  · exact .refl _
  · refine .one _ message _ high (destination_base _ base rover registered) ?_
    rw [high]
    exact sendMessage_muted _ _ _ base rover registered

theorem suppresses_high (s : Rover) (message : Message) (low : s.lowPowerMode = true)
    (loud : s.suppresses message = false) : message.getLumenPriority = .high := by
  simpa [suppresses,low] using loud

theorem report_discreet (s : Rover) (message : Message) (hushed : Hushed s) :
    Discreet s.getBaseEndpoint s.manager (s.report codec message).manager := by
  rcases report_cases codec s message with same | ⟨base,registered,loud,kept | sent⟩
  · rw [same]
    exact .refl _
  · rw [kept.2]
    exact .refl _
  · rw [sent.2]
    exact transmit_discreet codec s message base hushed.mode registered
      (suppresses_high s message hushed.lowPowerMode loud)

theorem sendCommand_discreet (s : Rover) (command params : String)
    (rover : s.manager.protocol.mode = .rover) :
    Discreet s.getBaseEndpoint s.manager (s.sendCommand codec command params).manager := by
  simp only [sendCommand]
  split
  · exact .refl _
  · split
    · exact .refl _
    · next base registered =>
      have sent := transmit_discreet codec s (s.message (.command command params)) base rover
        registered rfl
      split
      · exact sent
      · split
        · exact sent
        · exact .refl _

theorem sendMessage_discreet (s : Rover) (message : Message) (recipient : Endpoint)
    (hushed : Hushed s) :
    Discreet s.getBaseEndpoint s.manager (s.sendMessage codec message recipient).manager := by
  by_cases toBase : recipient.isUnspecified = true ∨ s.getBaseEndpoint = some recipient
  · rw [sendMessage_base codec s message recipient toBase]
    exact report_discreet codec s message hushed
  · obtain ⟨known,other⟩ := not_or.mp toBase
    have elsewhere : s.target recipient = some (recipient,false) := by
      simp only [target]
      cases registered : s.getBaseEndpoint with
      | none => simp [known]
      | some base =>
        have apart : recipient ≠ base := fun same => other (by rw [registered,same])
        simp [known,apart]
    simp only [sendMessage,elsewhere,hushed.lowPowerMode]
    split
    · exact .refl _
    · simpa using Discreet.refl _

theorem sendRawMessage_discreet (s : Rover) (message : Message) (recipient : Endpoint)
    (hushed : Hushed s) :
    Discreet s.getBaseEndpoint s.manager (s.sendRawMessage message recipient).manager := by
  simp only [sendRawMessage]
  split
  · exact .refl _
  · split
    · exact .refl _
    · next loud =>
      split
      · exact .refl _
      · next base =>
        have registered : s.getBaseEndpoint = some recipient := by
          simpa [hushed.lowPowerMode] using base
        simp only [MessageManager.sendRawMessage]
        split
        · exact .refl _
        · refine .one _ message _ (suppresses_high s message hushed.lowPowerMode (by simpa using loud))
            ?_ (.of_effects rfl)
          have only : s.manager.rawDestination recipient = s.getBaseEndpoint := by
            simp only [rawDestination,hushed.mode]
            exact if_pos (Or.inr registered)
          rw [only]
          exact fun endpoint member => member

/-! ### The flush of the store -/

/-- Entries as they were filed: for the base station, with the priority of their message. -/
def Filed (s : Rover) : Prop :=
  ∀ stored ∈ s.storedPackets, s.getBaseEndpoint = some stored.recipient ∧
    stored.priority = stored.message.getLumenPriority

theorem sendStored_discreet (s : Rover) (stored : StoredPacket)
    (rover : s.manager.protocol.mode = .rover)
    (base : s.getBaseEndpoint = some stored.recipient)
    (filed : stored.priority = stored.message.getLumenPriority)
    (urgent : s.manager.protocol.running = true → stored.priority = .high) :
    Discreet s.getBaseEndpoint s.manager (s.sendStored stored).manager := by
  simp only [sendStored]
  cases running : s.manager.protocol.running with
  | false =>
    refine .of_logs ?_ ?_
    · simp [LumenProtocol.sendMessage,running]
    · simp [destination,running]
  | true =>
    refine .one _ _ _ (filed.symm.trans (urgent running)) (destination_base _ _ rover base) ?_
    rw [urgent running]
    exact sendMessage_muted _ _ _ _ rover base

theorem foldl_sendStored_discreet (packets : List StoredPacket) (s : Rover)
    (rover : s.manager.protocol.mode = .rover)
    (filed : ∀ stored ∈ packets, s.getBaseEndpoint = some stored.recipient ∧
      stored.priority = stored.message.getLumenPriority)
    (urgent : s.manager.protocol.running = true → ∀ stored ∈ packets, stored.priority = .high) :
    Discreet s.getBaseEndpoint s.manager (packets.foldl sendStored s).manager := by
  induction packets generalizing s with
  | nil => exact .refl _
  | cons first rest ih =>
    obtain ⟨base,priority⟩ := filed first List.mem_cons_self
    have one := sendStored_discreet s first rover base priority fun running =>
      urgent running first List.mem_cons_self
    have node : s.manager.protocol.Undisturbed (s.sendStored first).manager.protocol :=
      sendMessage_undisturbed ..
    have same : (s.sendStored first).getBaseEndpoint = s.getBaseEndpoint :=
      (foldl_sendStored_reporter [first] s).registered
    have later := ih (s.sendStored first) (node.mode.trans rover)
      (fun stored member => same ▸ filed stored (List.mem_cons_of_mem _ member))
      (fun running stored member =>
        urgent (node.running.symm.trans running) stored (List.mem_cons_of_mem _ member))
    rw [same] at later
    exact one.trans later

theorem handleSessionEstablished_discreet (s : Rover) (hushed : Hushed s) (filed : Filed s)
    (registered : s.getBaseEndpoint.isSome = true)
    (urgent : s.sessionState ≠ .active → s.manager.protocol.running = true →
      ∀ stored ∈ s.storedPackets, stored.priority = .high) :
    Discreet s.getBaseEndpoint s.manager (s.handleSessionEstablished codec).manager := by
  by_cases active : s.sessionState = .active
  · simp only [handleSessionEstablished,if_pos active]
    exact .refl _
  · obtain ⟨base,known⟩ := Option.isSome_iff_exists.mp registered
    have unfolded : s.handleSessionEstablished codec =
        (s.opened.sendStoredPackets.handleStatusTimer codec).handlePositionTelemetryTimer codec :=
      if_neg active
    -- the store, then the two reports, each in low power mode and with the same base station
    have flushed := sendStoredPackets_reporter s.opened
    have base₁ := flushed.registered.trans known
    obtain ⟨hands,same⟩ := handleStatusTimer_active codec _ base base₁ flushed.sessionState
    have emptied : Discreet s.getBaseEndpoint s.manager s.opened.sendStoredPackets.manager :=
      foldl_sendStored_discreet s.storedPackets s.opened hushed.mode filed (urgent active)
    have mode₁ : s.opened.sendStoredPackets.manager.protocol.mode = .rover := by
      rw [sendStoredPackets_protocol]
      exact (giveAll_undisturbed ..).mode.trans hushed.mode
    have hushed₁ : Hushed s.opened.sendStoredPackets :=
      ⟨mode₁,flushed.lowPowerMode.trans hushed.lowPowerMode⟩
    have hushed₂ : Hushed (s.opened.sendStoredPackets.handleStatusTimer codec) := by
      refine ⟨?_,same.lowPowerMode.trans hushed₁.lowPowerMode⟩
      rw [hands.protocol]
      exact (giveAll_undisturbed ..).mode.trans mode₁
    have status := report_discreet codec _ s.opened.sendStoredPackets.statusMessage hushed₁
    have position := report_discreet codec _
      (s.opened.sendStoredPackets.handleStatusTimer codec).positionMessage hushed₂
    rw [same.registered,base₁] at position
    rw [base₁] at status
    rw [known] at emptied ⊢
    rw [unfolded]
    exact (emptied.trans status).trans position

/-! ### Every other way out -/

theorem handleSessionAccept_discreet (s : Rover) (rover : s.manager.protocol.mode = .rover) :
    Discreet s.getBaseEndpoint s.manager (s.handleSessionAccept codec).manager := by
  by_cases waiting : s.sessionState = .handshakeInit ∨ s.sessionState = .disconnected
  · have same := (confirming_fields s).2.1
    have sent := sendCommand_discreet codec s.confirming "SESSION_CONFIRM" s.roverId (same ▸ rover)
    rw [getBaseEndpoint,same] at sent
    rw [handleSessionAccept_eq codec s waiting]
    exact sent
  · rw [handleSessionAccept_ignored codec s waiting]
    exact .refl _

theorem handleBaseDisconnect_manager (s : Rover) : s.handleBaseDisconnect.manager = s.manager := by
  simp only [handleBaseDisconnect]
  split <;> rfl

theorem setTarget_manager (s : Rover) (params : String) :
    (s.setTarget codec params).manager = s.manager := by
  simp only [setTarget]
  split
  · split <;> rfl
  · rfl

theorem expire_discreet (s : Rover) (timer : Timer) (hushed : Hushed s) :
    Discreet s.getBaseEndpoint s.manager (s.expire codec timer).manager := by
  obtain ⟨rover,low⟩ := hushed
  cases timer with
  | status =>
    simp only [expire]
    split
    · exact report_discreet codec { s with statusTimer := false } _ ⟨rover,low⟩
    · exact .refl _
  | positionTelemetry =>
    simp only [expire]
    split
    · exact report_discreet codec { s with positionTelemetryTimer := false } _ ⟨rover,low⟩
    · exact .refl _
  | movement =>
    simp only [expire]
    split
    · have moved := handleMovementTimer_sameTraffic codec { s with movementTimer := false }
      rw [moved.manager]
      split
      · exact report_discreet codec { s with movementTimer := false } _ ⟨rover,low⟩
      · exact .refl _
    · exact .refl _
  | handshake =>
    simp only [expire]
    split
    · simp only [handleHandshakeTimer]
      split
      · split
        · exact sendCommand_discreet codec
            ((s.setHandshakeTimer false).setHandshakeRetryCount _) _ _ rover
        · rw [handleBaseDisconnect_manager]
          exact .refl _
      · exact .refl _
    · exact .refl _
  | probe =>
    simp only [expire]
    split
    · simp only [handleProbeTimer]
      split
      · exact sendCommand_discreet codec (s.setProbeTimer false) _ _ rover
      · exact .refl _
    · exact .refl _

theorem runPosted_discreet (s : Rover) (position : Nat) :
    Discreet s.getBaseEndpoint s.manager (s.runPosted position).manager := by
  simp only [runPosted]
  split
  · next handler _ =>
    cases handler with
    | packetTimeout recipient =>
      simp only [runHandler,handlePacketTimeout]
      split
      · rw [handleBaseDisconnect_manager]
        exact .refl _
      · exact .refl _
    | _ => exact .of_logs rfl rfl
  · exact .refl _

theorem routeMessage_discreet (s : Rover) (message : Message) (sender : Endpoint)
    (hushed : Hushed s) (filed : Filed s)
    (urgent : s.FromBase "SESSION_ESTABLISHED" message sender → s.sessionState ≠ .active →
      s.manager.protocol.running = true → ∀ stored ∈ s.storedPackets, stored.priority = .high) :
    Discreet s.getBaseEndpoint s.manager (s.routeMessage codec message sender).manager := by
  have routed := routeMessage_routed codec s message sender
  generalize s.routeMessage codec message sender = t at routed ⊢
  cases routed with
  | ignored | power => exact .of_logs rfl rfl
  | accept => exact handleSessionAccept_discreet codec s hushed.mode
  | established from_ =>
    exact handleSessionEstablished_discreet codec s hushed filed (by simp [from_.2.1]) (urgent from_)
  | target params =>
    rw [setTarget_manager]
    exact .refl _
  | discovery command awake => cases awake.symm.trans hushed.lowPowerMode
  | up =>
    simp only [handUp]
    split <;> exact .refl _

/-- What a check made now transmits: the packets that wait for their next try and can be sent. -/
theorem retransmits_iff (s : LumenProtocol) (role : s.reliabilityManager.role = .rover)
    (packet : LumenPacket) (recipient : Endpoint) :
    .transmit packet recipient ∈ newEffects s s.handleRetransmissionTimer ↔
      s.reliabilityManager.running = true ∧ ∃ seq info, s.tracked seq = some info ∧
        SentPacketInfo.verdict s.clock.steady info = .retransmit ∧
        s.canSend info.recipient = true ∧ info.packet = packet ∧ info.recipient = recipient := by
  rw [newEffects_of_append (handleRetransmissionTimer_log s),List.mem_append,List.mem_flatMap]
  cases running : s.reliabilityManager.running with
  | false => simp [ReliabilityManager.handleRetransmissionTimer,running]
  | true =>
    simp only [mem_handleRetransmissionTimer _ _ running role,mem_sent,true_and]
    constructor
    · rintro (report | ⟨entry,⟨seq,late⟩,able,same⟩)
      · obtain ⟨_,_,other⟩ := List.mem_map.mp report
        cases other
      · obtain ⟨info,present,verdict,rfl⟩ := mem_due late
        cases same
        exact ⟨seq,info,present,verdict,able,rfl,rfl⟩
    · rintro ⟨seq,info,present,verdict,able,rfl,rfl⟩
      refine Or.inr ⟨(info.packet,info.recipient),⟨seq,?_⟩,able,rfl⟩
      change _ ∈ due _ (s.tracked seq)
      rw [present,due,if_pos verdict]
      exact List.mem_singleton_self _

/-- Everything that leaves the rover in low power mode, framed or raw, has high priority and goes
to the base station. -/
def KeepsQuiet (s : Rover) (input : Input) : Prop :=
  s.lowPowerMode = true →
    (∀ packet recipient, .transmit packet recipient ∈
        newEffects s.manager.protocol (s.step codec input).manager.protocol →
      Urgent s.getBaseEndpoint packet recipient) ∧
    ∀ entry ∈ (s.step codec input).manager.sent.drop s.manager.sent.length,
      entry.1.getLumenPriority = .high ∧ s.getBaseEndpoint = some entry.2

/-- In low power mode nothing accepted before it comes up: the check finds only urgent packets to
repeat, and the store that a new session empties holds only messages of high priority. -/
def NothingHeldOver (s : Rover) (input : Input) : Prop :=
  s.lowPowerMode = true →
    (input = retransmissionCheck → s.manager.protocol.reliabilityManager.running = true →
      ∀ seq info, s.manager.protocol.tracked seq = some info →
        SentPacketInfo.verdict s.manager.protocol.clock.steady info = .retransmit →
        s.manager.protocol.canSend info.recipient = true →
        Urgent s.getBaseEndpoint info.packet info.recipient) ∧
    (s.Announced input → s.sessionState ≠ .active → s.manager.protocol.running = true →
      ∀ stored ∈ s.storedPackets, stored.priority = .high)

/-- One step in low power mode. -/
theorem step_discreet (s : Rover) (input : Input) (watching : Watching s.manager.protocol)
    (filed : Filed s) (low : s.lowPowerMode = true) (nothing : NothingHeldOver s input) :
    Discreet s.getBaseEndpoint s.manager (s.step codec input).manager := by
  have hushed : Hushed s := ⟨watching.mode,low⟩
  obtain ⟨table,store⟩ := nothing low
  cases input with
  | route message sender =>
    exact routeMessage_discreet codec s message sender hushed filed fun established =>
      store ⟨message,sender,rfl,established⟩
  | expire timer => exact expire_discreet codec s timer hushed
  | runPosted position => exact runPosted_discreet s position
  | protocol event external =>
    cases event with
    | datagram data endpoint =>
      exact ⟨handleUdpData_muted codec _ data endpoint watching.mode,[],by simp [step,onProtocol],
        by simp⟩
    | retransmissionTimer =>
      refine ⟨⟨_,handleRetransmissionTimer_log s.manager.protocol,?_⟩,[],by simp [step,onProtocol],
        by simp⟩
      intro packet recipient member
      rw [← newEffects_of_append (handleRetransmissionTimer_log s.manager.protocol)] at member
      obtain ⟨running,seq,info,present,verdict,able,rfl,rfl⟩ :=
        (retransmits_iff _ watching.role packet recipient).mp member
      exact table rfl running seq info present verdict able
    | cleanupTimer | tick => exact .of_logs rfl rfl
    | sendMessage | resetSequenceNumber | setSessionActive => cases external
  | sendMessage message recipient => exact sendMessage_discreet codec s message recipient hushed
  | sendRawMessage message recipient => exact sendRawMessage_discreet s message recipient hushed
  | sendCommand command params => exact sendCommand_discreet codec s command params hushed.mode
  | sendTelemetry | sendStatus | handlePositionTelemetryTimer =>
    exact report_discreet codec s _ hushed
  | scanForRovers discoveryPort text =>
    simp only [step,scanForRovers,low,true_or,if_true]
    exact .refl _
  | stop =>
    refine .of_logs ?_ rfl
    simp only [step,stop,LumenProtocol.stop]
    split <;> rfl
  | timeoutNotification | updateStatus | updateCurrentPosition | setApplicationMessageHandler
  | setDiscoveryMessageHandler => exact .refl _

/-- The store that a new session empties is seen in the log. -/
theorem stored_transmitted (s : Rover) (message : Message) (sender : Endpoint)
    (established : s.FromBase "SESSION_ESTABLISHED" message sender)
    (apart : s.sessionState ≠ .active) (rover : s.manager.protocol.mode = .rover)
    (running : s.manager.protocol.running = true) (filed : Filed s) (stored : StoredPacket)
    (member : stored ∈ s.storedPackets) :
    ∃ packet, packet.header.priority = stored.priority ∧ .transmit packet stored.recipient ∈
      newEffects s.manager.protocol (s.step codec (.route message sender)).manager.protocol := by
  have storing : Storing s :=
    ⟨rover,running,fun stored member => (filed stored member).1,fun active => absurd active apart⟩
  have listed : stored.call ∈ s.leaving codec (.route message sender) := by
    rw [leaving_established codec s message sender storing established apart]
    exact List.mem_append_left _ (List.mem_map_of_mem member)
  obtain ⟨effect,transmitted,shown⟩ := List.mem_filterMap.mp listed
  cases effect with
  | transmit packet recipient =>
    simp only [callOf,StoredPacket.call,Option.some.injEq,Call.mk.injEq] at shown
    obtain ⟨_,_,priority,same⟩ := shown
    exact ⟨packet,priority,same ▸ transmitted⟩
  | processing | callback | timeout => cases shown

theorem keepsQuiet_iff (s : Rover) (input : Input) (watching : Watching s.manager.protocol)
    (filed : Filed s) : KeepsQuiet codec s input ↔ NothingHeldOver s input := by
  constructor
  · intro quiet low
    obtain ⟨framed,_⟩ := quiet low
    refine ⟨?_,?_⟩
    · rintro rfl running seq info present verdict able
      exact framed _ _ ((retransmits_iff _ watching.role _ _).mpr
        ⟨running,seq,info,present,verdict,able,rfl,rfl⟩)
    · rintro ⟨message,sender,rfl,established⟩ apart running stored member
      obtain ⟨packet,same,transmitted⟩ := stored_transmitted codec s message sender established
        apart watching.mode running filed stored member
      exact same.symm.trans (framed packet stored.recipient transmitted).1
  · intro nothing low
    obtain ⟨⟨more,added,fine⟩,sent,grown,urgent⟩ :=
      step_discreet codec s input watching filed low nothing
    rw [newEffects_of_append added,grown,List.drop_left]
    exact ⟨fine,urgent⟩

theorem step_filed (s : Rover) (input : Input) (filed : Filed s) : Filed (s.step codec input) := by
  have registered := step_registered codec s input
  have unchanged (stored : (s.step codec input).storedPackets = s.storedPackets) :
      Filed (s.step codec input) := by
    intro packet member
    rw [registered]
    exact filed packet (stored ▸ member)
  cases step_moves codec s input with
  | hands calls few hands => exact unchanged hands.stored
  | below event external same stored => exact unchanged stored
  | resets position same queued stored => exact unchanged stored
  | stores message base offers known lost same =>
    intro packet member
    rw [same.stored] at member
    rw [registered]
    rcases List.mem_append.mp member with earlier | now
    · exact filed packet earlier
    · rw [List.mem_singleton.mp now]
      exact ⟨known,rfl⟩
  | forwards base known announced apart active emptied =>
    intro packet member
    rw [emptied] at member
    cases member
  | stops same after =>
    intro packet member
    rw [after] at member
    cases member

/-- Over every run, low power mode is kept exactly when nothing accepted before it comes up in
it. -/
theorem lowPower_quiet_iff (roverId : String) (base : Endpoint) (clock : Clock)
    (inputs : List Input) :
    Machine.Guarded (step codec) (KeepsQuiet codec) (started codec roverId base clock) inputs ↔
      Machine.Guarded (step codec) NothingHeldOver (started codec roverId base clock) inputs := by
  have empty : Filed (started codec roverId base clock) := by
    intro packet member
    rw [started_storedPackets] at member
    cases member
  exact @Machine.guarded_congr _ _ (step codec) (fun s => Watching s.manager.protocol ∧ Filed s) _ _
    (fun s input valid => ⟨step_watchingBase codec s input valid.1,step_filed codec s input valid.2⟩)
    (fun s input valid => keepsQuiet_iff codec s input valid.1 valid.2) _ inputs
    ⟨started_watching codec roverId base clock,empty⟩

def setLowPower : Input := .route ⟨"base",0,.command "SET_LOW_POWER" "1"⟩ sampleStation

/-- The reports made when the session begins are not acknowledged before low power mode is set. -/
def unacknowledged : List Input :=
  [fromStation "SESSION_ACCEPT",fromStation "SESSION_ESTABLISHED",setLowPower,seconds 6]

/-- A status waits in the store when low power mode is set and the session comes back. -/
def waiting : List Input :=
  sessionLost ++ [.sendStatus,setLowPower,fromStation "SESSION_ACCEPT"]

/-- Both leave in low power mode: the one by the retransmission check, the other with the new
session. -/
theorem lowPower_not_quiet :
    ¬ Machine.Guarded (step .silent) (KeepsQuiet .silent) sampleStart
        (unacknowledged ++ [retransmissionCheck]) ∧
    ¬ Machine.Guarded (step .silent) (KeepsQuiet .silent) sampleStart
        (waiting ++ [fromStation "SESSION_ESTABLISHED"]) := by
  have loud (done : List Input) (input : Input)
      (low : (Machine.run (step .silent) sampleStart done).lowPowerMode = true)
      (leaves : ((Machine.run (step .silent) sampleStart done).leaving .silent input).any
        (·.priority ≠ .high) = true) :
      ¬ Machine.Guarded (step .silent) (KeepsQuiet .silent) sampleStart (done ++ [input]) := by
    intro quiet
    obtain ⟨call,handed,priority⟩ := List.any_eq_true.mp leaves
    obtain ⟨effect,new,shown⟩ := List.mem_filterMap.mp handed
    cases effect with
    | transmit packet recipient =>
      cases shown
      have urgent := (quiet done input (List.prefix_refl _) low).1 packet recipient new
      exact absurd urgent.1 (of_decide_eq_true priority)
    | processing | callback | timeout => cases shown
  exact ⟨loud unacknowledged retransmissionCheck (by decide +kernel) (by decide +kernel),
    loud waiting (fromStation "SESSION_ESTABLISHED") (by decide +kernel) (by decide +kernel)⟩

end Lumen.Rover
