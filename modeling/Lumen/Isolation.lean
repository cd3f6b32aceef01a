import Lumen.Exchange

/-! What one peer of the base station can notice of the others. The framing buffers and the
numbers on record are kept by endpoint, and the clocks move for all alike; the sequence counter
and the table of tracked packets are shared, but neither shows in what is passed up from a peer
or acknowledged to it. -/
namespace Lumen.LumenProtocol

open ReliabilityManager Endpoint

/-- The number an effect acknowledges to an endpoint. -/
def ackTo (endpoint : Endpoint) : Effect → Option UInt8
  | .transmit packet recipient => if recipient = endpoint then ackNumber packet else none
  | _ => none

/-- The numbers acknowledged to an endpoint. -/
def ackedTo (s : LumenProtocol) (endpoint : Endpoint) : List UInt8 :=
  s.effects.filterMap (ackTo endpoint)

theorem sent_acks_nothing (s : LumenProtocol) (packet : LumenPacket)
    (recipient endpoint : Endpoint) (other : packet.header.type ≠ .ack) :
    (s.sent packet recipient).filterMap (ackTo endpoint) = [] := by
  simp only [sent]
  split
  · simp [ackTo,ackNumber,other]
  · rfl

/-- What an answer acknowledges to an endpoint: tracked packets are never ACKs. -/
theorem answer_acks (s : LumenProtocol) (packet : LumenPacket) (source endpoint : Endpoint)
    (valid : Tracking s) :
    (s.answer packet source).filterMap (ackTo endpoint) =
      if CarriesPayload packet ∧ s.sessionActive = true ∧ s.canSend source = true ∧
        source = endpoint then [packet.header.sequence] else [] := by
  simp only [answer]
  by_cases ack : packet.header.type = .ack
  · simp [ack,CarriesPayload]
  · by_cases nak : packet.header.type = .nak
    · rw [if_neg ack,if_pos nak,if_neg (fun both => both.1.2 nak)]
      cases requested : packet.payload.head?.bind s.reliabilityManager.processNak with
      | none => rfl
      | some entry =>
        obtain ⟨seq,_,found⟩ := Option.bind_eq_some_iff.mp requested
        obtain ⟨info,present,rfl⟩ := processNak_some found
        rw [Option.toList_some,List.flatMap_singleton]
        exact sent_acks_nothing s _ _ _ (valid.keyed seq info present).2.1
    · rw [if_neg ack,if_neg nak,List.filterMap_append]
      have up : (if s.forwards packet source then [passedUp packet source] else []).filterMap
          (ackTo endpoint) = [] := by
        split <;> rfl
      have number : ackNumber (s.ackPacket packet.header.sequence) = some packet.header.sequence :=
        rfl
      rw [up,List.append_nil]
      by_cases same : source = endpoint
      · cases s.sessionActive <;> cases able : s.canSend source <;> rw [same] at able <;>
          simp [sent,CarriesPayload,ack,nak,ackTo,same,number,able]
      · cases s.sessionActive <;> cases able : s.canSend source <;>
          simp [sent,ackTo,same,able]

/-! ### Indistinguishable base stations -/

/-- Two base stations that an endpoint cannot tell apart: they agree on its framing buffer, on
the numbers on record for it, on the clocks and flags, and on what it has seen so far. -/
structure Alike (endpoint : Endpoint) (s t : LumenProtocol) : Prop where
  leftTracking : Tracking s
  rightTracking : Tracking t
  leftMode : s.mode = .baseStation
  rightMode : t.mode = .baseStation
  sessionActive : s.sessionActive = t.sessionActive
  messageCallback : s.messageCallback = t.messageCallback
  serverRunning : s.serverRunning = t.serverRunning
  clock : s.clock = t.clock
  frameBuffer : s.frameBuffers (getEndpointKey endpoint) = t.frameBuffers (getEndpointKey endpoint)
  acked : s.reliabilityManager.ackedSequences (getEndpointKey endpoint) =
    t.reliabilityManager.ackedSequences (getEndpointKey endpoint)
  cleanup : s.reliabilityManager.lastAckCleanupTime = t.reliabilityManager.lastAckCleanupTime
  passed : s.passed endpoint = t.passed endpoint
  ackedTo : s.ackedTo endpoint = t.ackedTo endpoint

theorem Alike.symm (alike : Alike endpoint s t) : Alike endpoint t s where
  leftTracking := alike.rightTracking
  rightTracking := alike.leftTracking
  leftMode := alike.rightMode
  rightMode := alike.leftMode
  sessionActive := alike.sessionActive.symm
  messageCallback := alike.messageCallback.symm
  serverRunning := alike.serverRunning.symm
  clock := alike.clock.symm
  frameBuffer := alike.frameBuffer.symm
  acked := alike.acked.symm
  cleanup := alike.cleanup.symm
  passed := alike.passed.symm
  ackedTo := alike.ackedTo.symm

theorem Alike.refl (endpoint : Endpoint) (s : LumenProtocol) (valid : Tracking s)
    (base : s.mode = .baseStation) : Alike endpoint s s := by
  constructor <;> first | rfl | assumption

theorem Alike.trans (first : Alike endpoint s t) (second : Alike endpoint t u) :
    Alike endpoint s u where
  leftTracking := first.leftTracking
  rightTracking := second.rightTracking
  leftMode := first.leftMode
  rightMode := second.rightMode
  sessionActive := first.sessionActive.trans second.sessionActive
  messageCallback := first.messageCallback.trans second.messageCallback
  serverRunning := first.serverRunning.trans second.serverRunning
  clock := first.clock.trans second.clock
  frameBuffer := first.frameBuffer.trans second.frameBuffer
  acked := first.acked.trans second.acked
  cleanup := first.cleanup.trans second.cleanup
  passed := first.passed.trans second.passed
  ackedTo := first.ackedTo.trans second.ackedTo

section Packets

variable {endpoint : Endpoint} {s t : LumenProtocol}

theorem Alike.forwards (alike : Alike endpoint s t) (packet : LumenPacket) :
    s.forwards packet endpoint = t.forwards packet endpoint := by
  have left : s.reliabilityManager.role = .baseStation :=
    alike.leftTracking.managerRole.trans (by rw [alike.leftMode]; rfl)
  have right : t.reliabilityManager.role = .baseStation :=
    alike.rightTracking.managerRole.trans (by rw [alike.rightMode]; rfl)
  rw [LumenProtocol.forwards,LumenProtocol.forwards,hasAckedSequence_iff _ _ _ left,
    hasAckedSequence_iff _ _ _ right,alike.acked,alike.messageCallback]

theorem Alike.canSend (alike : Alike endpoint s t) (recipient : Endpoint) :
    s.canSend recipient = t.canSend recipient := by
  simp [LumenProtocol.canSend,alike.leftMode,alike.rightMode,alike.serverRunning]

theorem processCompletePacket_cleanup (s : LumenProtocol) (packet : LumenPacket)
    (source : Endpoint) (base : s.mode = .baseStation) :
    (s.processCompletePacket packet source).reliabilityManager.lastAckCleanupTime =
      s.reliabilityManager.lastAckCleanupTime := by
  have recorded : (s.noted packet source).reliabilityManager.lastAckCleanupTime =
      s.reliabilityManager.lastAckCleanupTime := by
    simp only [noted,recordReceivedSequence]
    split <;> rfl
  rw [processCompletePacket_manager s packet source base]
  split
  · simp only [recordAckedSequence]
    split <;> exact recorded
  · exact recorded

/-- The packet of another endpoint. -/
theorem packet_foreign (packet : LumenPacket) (source : Endpoint) (valid : Tracking s)
    (base : s.mode = .baseStation) (other : source ≠ endpoint) :
    Alike endpoint (s.processCompletePacket packet source) s := by
  have same := processCompletePacket_undisturbed s packet source
  have aging := processCompletePacket_ages s packet source
  have answered := processCompletePacket_answer s packet source base
  have elsewhere : getEndpointKey endpoint ≠ getEndpointKey source :=
    fun keys => other (getEndpointKey_injective keys).symm
  refine ⟨aging.tracking valid,valid,aging.mode.trans base,base,same.sessionActive,
    same.messageCallback,same.serverRunning,same.clock,congrFun same.frameBuffers _,?_,
    processCompletePacket_cleanup s packet source base,?_,?_⟩
  · funext seq
    rw [Bool.eq_iff_iff,processCompletePacket_acked s packet source _ seq valid base]
    simp [elsewhere]
  · rw [passed,answered,List.filterMap_append]
    change _ ++ (s.answer packet source).filterMap (callbackFrom endpoint) = _
    rw [answer_passes,if_neg (fun all => other all.2.2),List.append_nil,passed]
  · rw [ackedTo,answered,List.filterMap_append]
    change _ ++ (s.answer packet source).filterMap (ackTo endpoint) = _
    rw [answer_acks s packet source endpoint valid,if_neg (fun all => other all.2.2.2),
      List.append_nil,ackedTo]

/-- The endpoint's own packet. -/
theorem packet_own (packet : LumenPacket) (alike : Alike endpoint s t) :
    Alike endpoint (s.processCompletePacket packet endpoint)
      (t.processCompletePacket packet endpoint) := by
  have left := processCompletePacket_undisturbed s packet endpoint
  have right := processCompletePacket_undisturbed t packet endpoint
  have leftAging := processCompletePacket_ages s packet endpoint
  have rightAging := processCompletePacket_ages t packet endpoint
  refine ⟨leftAging.tracking alike.leftTracking,rightAging.tracking alike.rightTracking,
    leftAging.mode.trans alike.leftMode,rightAging.mode.trans alike.rightMode,
    left.sessionActive.trans (alike.sessionActive.trans right.sessionActive.symm),
    left.messageCallback.trans (alike.messageCallback.trans right.messageCallback.symm),
    left.serverRunning.trans (alike.serverRunning.trans right.serverRunning.symm),
    left.clock.trans (alike.clock.trans right.clock.symm),
    (congrFun left.frameBuffers _).trans
      (alike.frameBuffer.trans (congrFun right.frameBuffers _).symm),?_,?_,?_,?_⟩
  · funext seq
    rw [Bool.eq_iff_iff,processCompletePacket_acked s packet endpoint _ seq alike.leftTracking
      alike.leftMode,processCompletePacket_acked t packet endpoint _ seq alike.rightTracking
      alike.rightMode,alike.acked,alike.sessionActive]
  · rw [processCompletePacket_cleanup s packet endpoint alike.leftMode,
      processCompletePacket_cleanup t packet endpoint alike.rightMode,alike.cleanup]
  · rw [passed,passed,processCompletePacket_answer s packet endpoint alike.leftMode,
      processCompletePacket_answer t packet endpoint alike.rightMode,List.filterMap_append,
      List.filterMap_append]
    change s.passed endpoint ++ (s.answer packet endpoint).filterMap (callbackFrom endpoint) =
      t.passed endpoint ++ (t.answer packet endpoint).filterMap (callbackFrom endpoint)
    rw [answer_passes,answer_passes,alike.passed,alike.forwards]
  · rw [ackedTo,ackedTo,processCompletePacket_answer s packet endpoint alike.leftMode,
      processCompletePacket_answer t packet endpoint alike.rightMode,List.filterMap_append,
      List.filterMap_append]
    change s.ackedTo endpoint ++ (s.answer packet endpoint).filterMap (ackTo endpoint) =
      t.ackedTo endpoint ++ (t.answer packet endpoint).filterMap (ackTo endpoint)
    rw [answer_acks s packet endpoint endpoint alike.leftTracking,
      answer_acks t packet endpoint endpoint alike.rightTracking,alike.ackedTo,
      alike.sessionActive,alike.canSend]

theorem packets_foreign (packets : List LumenPacket) (source : Endpoint)
    (other : source ≠ endpoint) (alike : Alike endpoint s t) :
    Alike endpoint
      (packets.foldl (fun s packet => s.processCompletePacket packet source) s) t := by
  induction packets generalizing s with
  | nil => exact alike
  | cons packet rest ih =>
    exact ih ((packet_foreign packet source alike.leftTracking alike.leftMode other).trans alike)

theorem packets_own (packets : List LumenPacket) (alike : Alike endpoint s t) :
    Alike endpoint (packets.foldl (fun s packet => s.processCompletePacket packet endpoint) s)
      (packets.foldl (fun s packet => s.processCompletePacket packet endpoint) t) := by
  induction packets generalizing s t with
  | nil => exact alike
  | cons packet rest ih => exact ih (packet_own packet alike)

theorem buffer_foreign (source : Endpoint) (buffer : List UInt8) (other : source ≠ endpoint)
    (alike : Alike endpoint s t) :
    Alike endpoint (s.setFrameBuffer (getEndpointKey source) buffer) t := by
  have elsewhere : getEndpointKey endpoint ≠ getEndpointKey source :=
    fun keys => other (getEndpointKey_injective keys).symm
  have kept : (s.setFrameBuffer (getEndpointKey source) buffer).frameBuffers
      (getEndpointKey endpoint) = s.frameBuffers (getEndpointKey endpoint) := by
    rw [setFrameBuffer_frameBuffers,Function.update_of_ne elsewhere]
  exact { alike with
    leftTracking := (setFrameBuffer_ages s _ buffer).tracking alike.leftTracking
    frameBuffer := kept.trans alike.frameBuffer }

theorem buffer_own (buffer : List UInt8) (alike : Alike endpoint s t) :
    Alike endpoint (s.setFrameBuffer (getEndpointKey endpoint) buffer)
      (t.setFrameBuffer (getEndpointKey endpoint) buffer) := by
  have kept (u : LumenProtocol) : (u.setFrameBuffer (getEndpointKey endpoint) buffer).frameBuffers
      (getEndpointKey endpoint) = buffer := by
    rw [setFrameBuffer_frameBuffers,Function.update_self]
  exact { alike with
    leftTracking := (setFrameBuffer_ages s _ buffer).tracking alike.leftTracking
    rightTracking := (setFrameBuffer_ages t _ buffer).tracking alike.rightTracking
    frameBuffer := (kept s).trans (kept t).symm }

end Packets

/-! ### Datagrams without the marker -/

/-- The payload a datagram without the marker is passed up as, if any. -/
def plainPayload (codec : Codec) (system : Nat) (data : List UInt8) (endpoint : Endpoint) :
    Option (List UInt8) :=
  if data = [] then none
  else if data.head? = some 0x7b ∧ (Message.deserialise codec system data).isSome then some data
  else (String.fromUTF8? ⟨data.toArray⟩).map fun content =>
    Message.serialise codec ⟨"Unknown:" ++ getEndpointKey endpoint,system,.basic content⟩

theorem handleUdpData_plain (codec : Codec) (s : LumenProtocol) (data : List UInt8)
    (endpoint : Endpoint) (plain : data.head? ≠ some lumenStx) (running : s.running = true) :
    handleUdpData codec s data endpoint =
      (plainPayload codec s.clock.system data endpoint).elim s (s.passUp · endpoint) := by
  simp only [handleUdpData,running,Bool.not_true,Bool.false_eq_true,if_false]
  cases data with
  | nil => rfl
  | cons first rest =>
    simp only [List.head?_cons,ne_eq,Option.some.injEq] at plain
    simp only [if_neg plain,plainPayload,List.head?_cons,Option.some.injEq,reduceCtorEq,if_false]
    split
    · rfl
    · rw [wrapRaw]
      cases String.fromUTF8? ⟨(first :: rest).toArray⟩ <;> rfl

theorem emit_own (effect : Effect) (alike : Alike endpoint s t) :
    Alike endpoint (s.emit effect) (t.emit effect) :=
  { alike with
    leftTracking := (emit_ages s effect).tracking alike.leftTracking
    rightTracking := (emit_ages t effect).tracking alike.rightTracking
    passed := by
      rw [passed,passed,emit,emit,List.filterMap_append,List.filterMap_append]
      exact congrArg (· ++ _) alike.passed
    ackedTo := by
      rw [ackedTo,ackedTo,emit,emit,List.filterMap_append,List.filterMap_append]
      exact congrArg (· ++ _) alike.ackedTo }

theorem emit_foreign (effect : Effect) (quiet : callbackFrom endpoint effect = none)
    (silent : ackTo endpoint effect = none) (alike : Alike endpoint s t) :
    Alike endpoint (s.emit effect) t :=
  { alike with
    leftTracking := (emit_ages s effect).tracking alike.leftTracking
    passed := by
      rw [passed,emit,List.filterMap_append,← alike.passed]
      simp [quiet,passed]
    ackedTo := by
      rw [ackedTo,emit,List.filterMap_append,← alike.ackedTo]
      simp [silent,ackedTo] }

theorem passUp_own (payload : List UInt8) (source : Endpoint) (alike : Alike endpoint s t) :
    Alike endpoint (s.passUp payload source) (t.passUp payload source) := by
  have header : s.dummyHeader payload = t.dummyHeader payload := by
    simp only [dummyHeader,generateTimestamp,alike.clock]
  simp only [passUp,header,alike.messageCallback]
  split
  · exact emit_own _ alike
  · exact alike

theorem passUp_foreign (payload : List UInt8) (source : Endpoint) (other : source ≠ endpoint)
    (alike : Alike endpoint s t) : Alike endpoint (s.passUp payload source) t := by
  simp only [passUp]
  split
  · exact emit_foreign _ (if_neg other) rfl alike
  · exact alike

/-! ### Whole datagrams and runs -/

theorem datagram_own (codec : Codec) (data : List UInt8) (alike : Alike endpoint s t) :
    Alike endpoint (handleUdpData codec s data endpoint) (handleUdpData codec t data endpoint) := by
  rcases head_cases data with plain | ⟨tail,rfl⟩
  · rw [handleUdpData_plain codec s data endpoint plain alike.leftTracking.running,
      handleUdpData_plain codec t data endpoint plain alike.rightTracking.running,alike.clock]
    cases plainPayload codec t.clock.system data endpoint with
    | none => exact alike
    | some payload => exact passUp_own payload endpoint alike
  · rw [handleUdpData_eq codec s tail endpoint alike.leftTracking.running,
      handleUdpData_eq codec t tail endpoint alike.rightTracking.running,alike.frameBuffer]
    exact buffer_own _ (packets_own _ (buffer_own _ alike))

theorem datagram_foreign (codec : Codec) (data : List UInt8) (source : Endpoint)
    (other : source ≠ endpoint) (alike : Alike endpoint s t) :
    Alike endpoint (handleUdpData codec s data source) t := by
  rcases head_cases data with plain | ⟨tail,rfl⟩
  · rw [handleUdpData_plain codec s data source plain alike.leftTracking.running]
    cases plainPayload codec s.clock.system data source with
    | none => exact alike
    | some payload => exact passUp_foreign payload source other alike
  · rw [handleUdpData_eq codec s tail source alike.leftTracking.running]
    exact buffer_foreign source _ other
      (packets_foreign _ source other (buffer_foreign source _ other alike))

theorem handleRetransmissionTimer_base (s : LumenProtocol) (valid : Tracking s)
    (base : s.mode = .baseStation) : s.handleRetransmissionTimer = s := by
  have role : s.reliabilityManager.role = .baseStation :=
    valid.managerRole.trans (by rw [base]; rfl)
  simp only [handleRetransmissionTimer]
  rw [handleRetransmissionTimer_baseStation _ _ role]
  rfl

theorem handleCleanupTimer_cleanup (rm : ReliabilityManager) (now : Nat)
    (running : rm.running = true) :
    (ReliabilityManager.handleCleanupTimer rm now).lastAckCleanupTime =
      if now > rm.lastAckCleanupTime + cleanupInterval * 2 * nanosPerMilli then now
      else rm.lastAckCleanupTime := by
  simp only [ReliabilityManager.handleCleanupTimer,running,Bool.not_true,Bool.false_eq_true,
    if_false]
  cases rm
  rfl

theorem cleanup_own (alike : Alike endpoint s t) :
    Alike endpoint s.handleCleanupTimer t.handleCleanupTimer :=
  { alike with
    leftTracking := (handleCleanupTimer_ages s).tracking alike.leftTracking
    rightTracking := (handleCleanupTimer_ages t).tracking alike.rightTracking
    acked := by
      simp only [handleCleanupTimer]
      rw [handleCleanupTimer_ackedSequences _ _ alike.leftTracking.managerRunning,
        handleCleanupTimer_ackedSequences _ _ alike.rightTracking.managerRunning,alike.cleanup,
        alike.clock]
      split
      · rfl
      · exact alike.acked
    cleanup := by
      simp only [handleCleanupTimer]
      rw [handleCleanupTimer_cleanup _ _ alike.leftTracking.managerRunning,
        handleCleanupTimer_cleanup _ _ alike.rightTracking.managerRunning,alike.cleanup,
        alike.clock] }

/-- Everything but a datagram from another endpoint. -/
def Input.visibleTo (endpoint : Endpoint) : Input → Bool
  | .datagram _ source => source = endpoint
  | _ => true

theorem step_own (codec : Codec) (input : Input) (external : input.isExternal = true)
    (visible : input.visibleTo endpoint = true) (alike : Alike endpoint s t) :
    Alike endpoint (s.step codec input) (t.step codec input) := by
  cases input with
  | datagram data source =>
    obtain rfl : source = endpoint := by simpa [Input.visibleTo] using visible
    exact datagram_own codec data alike
  | retransmissionTimer =>
    simp only [step]
    rw [handleRetransmissionTimer_base s alike.leftTracking alike.leftMode,
      handleRetransmissionTimer_base t alike.rightTracking alike.rightMode]
    exact alike
  | cleanupTimer => exact cleanup_own alike
  | tick nanos =>
    have clock : (s.tick nanos).clock = (t.tick nanos).clock := by
      simp only [tick,alike.clock]
    exact { alike with
      leftTracking := step_tracking codec s (.tick nanos) alike.leftTracking
      rightTracking := step_tracking codec t (.tick nanos) alike.rightTracking
      clock := clock }
  | sendMessage | resetSequenceNumber | setSessionActive => cases external

theorem step_foreign (codec : Codec) (input : Input) (invisible : input.visibleTo endpoint = false)
    (alike : Alike endpoint s t) : Alike endpoint (s.step codec input) t := by
  cases input with
  | datagram data source =>
    have other : source ≠ endpoint := by simpa [Input.visibleTo] using invisible
    exact datagram_foreign codec data source other alike
  | sendMessage | resetSequenceNumber | setSessionActive | retransmissionTimer | cleanupTimer
  | tick => cases invisible

/-- What a peer gets acknowledged and what is passed up from it does not depend on the datagrams
of the others, whatever those contain: without them the base station does the same for it. -/
theorem peers_do_not_interfere (codec : Codec) (s : LumenProtocol) (endpoint : Endpoint)
    (inputs : List Input) (reachable : Reachable codec s) (base : s.mode = .baseStation)
    (external : ∀ input ∈ inputs, input.isExternal = true) :
    let full := Machine.run (step codec) s inputs
    let alone := Machine.run (step codec) s (inputs.filter (Input.visibleTo endpoint))
    full.passed endpoint = alone.passed endpoint ∧ full.ackedTo endpoint = alone.ackedTo endpoint := by
  intro full alone
  have alike : Alike endpoint full alone :=
    Machine.run_filter (step codec) (Input.visibleTo endpoint)
      (fun _ _ input external visible => step_own codec input external visible)
      (fun _ _ input _ invisible => step_foreign codec input invisible)
      s s inputs external (.refl endpoint s reachable.tracking base)
  exact ⟨alike.passed,alike.ackedTo⟩

/-- A second rover whose damaged frame stays in its own buffer. -/
theorem peers_do_not_interfere_damaged :
    let s := Machine.run (step .silent) (started .baseStation .unspecified ⟨0,0⟩)
      [.setSessionActive true]
    let inputs := [Input.datagram corruptedLength ⟨0x0aed0003,9001⟩,
      .datagram heartbeat.toBytes sampleRover,.tick nanosPerMilli,.cleanupTimer,
      .datagram heartbeat.toBytes ⟨0x0aed0003,9001⟩]
    let full := Machine.run (step .silent) s inputs
    let alone := Machine.run (step .silent) s (inputs.filter (Input.visibleTo sampleRover))
    full.passed sampleRover = alone.passed sampleRover ∧
      full.ackedTo sampleRover = alone.ackedTo sampleRover :=
  peers_do_not_interfere .silent _ sampleRover _ ⟨_,_,_,_,rfl⟩ rfl (by decide)

end Lumen.LumenProtocol
