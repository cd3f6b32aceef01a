import Lumen.Protocol

/-! Reception of datagrams: which packets the framing loop gives to
`processCompletePacket`, for whole sequences of datagrams from one endpoint. Handling a
packet leaves the buffers alone, so the loop's pure form `extract` decides everything. -/
namespace Lumen.LumenProtocol

open Endpoint

/-- The packets whose processing has started, with the endpoint they came from. -/
def processed (s : LumenProtocol) : List (LumenPacket × Endpoint) :=
  s.effects.filterMap fun
    | .processing packet endpoint => some (packet,endpoint)
    | _ => none

/-- What sending and passing up leave alone; the log only grows. -/
structure Undisturbed (s t : LumenProtocol) : Prop where
  mode : t.mode = s.mode
  running : t.running = s.running
  sessionActive : t.sessionActive = s.sessionActive
  messageCallback : t.messageCallback = s.messageCallback
  serverRunning : t.serverRunning = s.serverRunning
  baseEndpoint : t.baseEndpoint = s.baseEndpoint
  clock : t.clock = s.clock
  frameBuffers : t.frameBuffers = s.frameBuffers
  managerRunning : t.reliabilityManager.running = s.reliabilityManager.running
  managerRole : t.reliabilityManager.role = s.reliabilityManager.role
  processed : t.processed = s.processed
  effects : s.effects <+: t.effects

namespace Undisturbed

theorem refl (s : LumenProtocol) : Undisturbed s s := by
  constructor <;> rfl

theorem trans (first : Undisturbed s t) (second : Undisturbed t u) : Undisturbed s u where
  mode := second.mode.trans first.mode
  running := second.running.trans first.running
  sessionActive := second.sessionActive.trans first.sessionActive
  messageCallback := second.messageCallback.trans first.messageCallback
  serverRunning := second.serverRunning.trans first.serverRunning
  baseEndpoint := second.baseEndpoint.trans first.baseEndpoint
  clock := second.clock.trans first.clock
  frameBuffers := second.frameBuffers.trans first.frameBuffers
  managerRunning := second.managerRunning.trans first.managerRunning
  managerRole := second.managerRole.trans first.managerRole
  processed := second.processed.trans first.processed
  effects := first.effects.trans second.effects

/-- A new manager with the old role, and any counters. -/
theorem manager (s : LumenProtocol) (rm : ReliabilityManager) (sequence counter : UInt8)
    (setup : s.reliabilityManager.SameSetup rm) :
    Undisturbed s { s with
      reliabilityManager := rm, currentSequence := sequence, checkCounter := counter } := by
  obtain ⟨running,role⟩ := setup
  constructor <;> first | rfl | assumption

end Undisturbed

theorem processed_emit (s : LumenProtocol) (effect : Effect) :
    (s.emit effect).processed = s.processed ++ (match effect with
      | .processing packet endpoint => [(packet,endpoint)]
      | _ => []) := by
  simp only [processed,emit,List.filterMap_append]
  cases effect <;> rfl

theorem emit_undisturbed (s : LumenProtocol) (effect : Effect)
    (outward : ∀ packet endpoint, effect ≠ .processing packet endpoint) :
    Undisturbed s (s.emit effect) := by
  have quiet : (s.emit effect).processed = s.processed := by
    rw [processed_emit]
    cases effect with
    | processing packet endpoint => exact absurd rfl (outward packet endpoint)
    | transmit | callback | timeout => simp
  constructor <;> first | rfl | exact quiet | exact List.prefix_append _ _

theorem sendPacket_undisturbed (s : LumenProtocol) (packet : LumenPacket) (recipient : Endpoint) :
    Undisturbed s (s.sendPacket packet recipient) := by
  have sent := emit_undisturbed s (.transmit packet recipient) (by simp)
  simp only [sendPacket]
  split <;> split <;> first | exact sent | exact .refl s

theorem sendAck_undisturbed (s : LumenProtocol) (seq : UInt8) (recipient : Endpoint) :
    Undisturbed s (s.sendAck seq recipient) := by
  simp only [sendAck]
  split
  · exact .refl s
  · refine .trans ?_ (sendPacket_undisturbed _ _ _)
    exact .manager s _ _ s.checkCounter (s.reliabilityManager.recordAckedSequence_setup ..)

theorem sendNak_undisturbed (s : LumenProtocol) (seq : UInt8) (recipient : Endpoint) :
    Undisturbed s (s.sendNak seq recipient) := by
  simp only [sendNak]
  split
  · exact .refl s
  · split
    · exact .refl s
    · exact .trans (.manager s s.reliabilityManager _ s.checkCounter ⟨rfl,rfl⟩)
        (sendPacket_undisturbed _ _ _)

theorem nakLoop_undisturbed (endpoint : Endpoint) (missing : List UInt8) (budget : Nat)
    (s : LumenProtocol) : Undisturbed s (nakLoop endpoint budget missing s) := by
  induction missing generalizing budget s with
  | nil => unfold nakLoop; exact .refl s
  | cons seq rest ih =>
    cases budget with
    | zero => exact .refl s
    | succ budget =>
      rw [nakLoop]
      split
      · exact ih _ s
      · refine .trans (sendNak_undisturbed s seq endpoint) (.trans ?_ (ih _ _))
        exact .manager _ _ _ _ ⟨rfl,rfl⟩

theorem acknowledge_undisturbed (s : LumenProtocol) (seq : UInt8) (endpoint : Endpoint) :
    Undisturbed s (s.acknowledge seq endpoint).1 := by
  simp only [acknowledge]
  split
  · split
    · refine .trans ?_ (sendAck_undisturbed _ seq endpoint)
      exact .manager s _ _ s.checkCounter (s.reliabilityManager.recordAckedSequence_setup ..)
    · exact sendAck_undisturbed s seq endpoint
  · exact .refl s

theorem accept_undisturbed (s : LumenProtocol) (seq : UInt8) (endpoint : Endpoint) :
    Undisturbed s (s.accept seq endpoint).1 := by
  simp only [accept]
  split
  · exact acknowledge_undisturbed s seq endpoint
  · have counted := Undisturbed.manager s s.reliabilityManager s.currentSequence
      (s.checkCounter + 1) ⟨rfl,rfl⟩
    dsimp only
    split
    · exact counted.trans (nakLoop_undisturbed _ _ _ _)
    · exact counted

theorem passUp_undisturbed (s : LumenProtocol) (payload : List UInt8) (endpoint : Endpoint) :
    Undisturbed s (s.passUp payload endpoint) := by
  simp only [passUp]
  split
  · exact emit_undisturbed s _ (by simp)
  · exact .refl s

theorem recordReceived_undisturbed (s : LumenProtocol) (seq : UInt8) (endpoint : Endpoint) :
    Undisturbed s { s with
      reliabilityManager :=
        s.reliabilityManager.recordReceivedSequence s.clock.steady seq endpoint } := by
  exact .manager s _ s.currentSequence s.checkCounter
    (s.reliabilityManager.recordReceivedSequence_setup ..)

/-- Processing a packet is its mark, followed by nothing that touches the buffers. -/
theorem processCompletePacket_undisturbed (s : LumenProtocol) (packet : LumenPacket)
    (endpoint : Endpoint) :
    Undisturbed (s.emit (.processing packet endpoint)) (s.processCompletePacket packet endpoint) := by
  have record := recordReceived_undisturbed (s.emit (.processing packet endpoint))
    packet.header.sequence endpoint
  simp only [processCompletePacket]
  split
  · split
    · refine record.trans ?_
      exact .manager _ _ _ _ (ReliabilityManager.processAck_setup ..)
    · exact record
  · split
    · split
      · split
        · exact record.trans (sendPacket_undisturbed _ _ _)
        · exact record
      · exact record
    · refine record.trans ((accept_undisturbed _ packet.header.sequence endpoint).trans ?_)
      split
      · exact emit_undisturbed _ _ (by simp)
      · exact .refl _

theorem processCompletePacket_processed (s : LumenProtocol) (packet : LumenPacket)
    (endpoint : Endpoint) :
    (s.processCompletePacket packet endpoint).processed = s.processed ++ [(packet,endpoint)] := by
  rw [(processCompletePacket_undisturbed s packet endpoint).processed,processed_emit]

theorem setFrameBuffer_frameBuffers (s : LumenProtocol) (key : String) (buffer : List UInt8) :
    (s.setFrameBuffer key buffer).frameBuffers = Function.update s.frameBuffers key buffer := rfl

/-- The loop's state once `packets` have been given to it: marks in order, the rest of the
node as before. -/
theorem processAll (packets : List LumenPacket) (s : LumenProtocol) (endpoint : Endpoint) :
    let t := packets.foldl (fun s packet => s.processCompletePacket packet endpoint) s
    t.running = s.running ∧ t.frameBuffers = s.frameBuffers ∧
      t.processed = s.processed ++ packets.map (·,endpoint) := by
  induction packets generalizing s with
  | nil => simp
  | cons packet rest ih =>
    obtain ⟨running,buffers,marks⟩ := ih (s.processCompletePacket packet endpoint)
    have one := processCompletePacket_undisturbed s packet endpoint
    refine ⟨running.trans one.running,buffers.trans one.frameBuffers,?_⟩
    rw [List.foldl_cons,marks,processCompletePacket_processed]
    simp

/-- The framing function: the packets in the buffer are processed one after the other. -/
theorem processFrameBuffer_eq (s : LumenProtocol) (key : String) (endpoint : Endpoint) :
    s.processFrameBuffer key endpoint =
      ((extract (s.frameBuffers key)).2.foldl
        (fun s packet => s.processCompletePacket packet endpoint) s).setFrameBuffer key
          (extract (s.frameBuffers key)).1 := by
  simp only [processFrameBuffer,frames_extract]

theorem processFrameBuffer_effect (s : LumenProtocol) (key : String) (endpoint : Endpoint) :
    let t := s.processFrameBuffer key endpoint
    t.running = s.running ∧
    t.frameBuffers = Function.update s.frameBuffers key (extract (s.frameBuffers key)).1 ∧
    t.processed = s.processed ++ (extract (s.frameBuffers key)).2.map (·,endpoint) := by
  have loop := processAll (extract (s.frameBuffers key)).2 s endpoint
  rw [processFrameBuffer_eq]
  refine ⟨loop.1,?_,loop.2.2⟩
  rw [setFrameBuffer_frameBuffers,loop.2.1]

/-- A piece is appended to the endpoint's buffer and the framing function runs. -/
def appendPiece (key : String) (endpoint : Endpoint) (s : LumenProtocol) (piece : List UInt8) :
    LumenProtocol :=
  (s.setFrameBuffer key (s.frameBuffers key ++ piece)).processFrameBuffer key endpoint

theorem appendPiece_effect (key : String) (endpoint : Endpoint) (s : LumenProtocol)
    (piece : List UInt8) :
    let buffer := s.frameBuffers key ++ piece
    let t := appendPiece key endpoint s piece
    t.running = s.running ∧
    t.frameBuffers = Function.update s.frameBuffers key (extract buffer).1 ∧
    t.processed = s.processed ++ (extract buffer).2.map (·,endpoint) := by
  intro buffer t
  have framing := (s.setFrameBuffer key buffer).processFrameBuffer_effect key endpoint
  rw [setFrameBuffer_frameBuffers,Function.update_self,Function.update_idem] at framing
  exact framing

/-- A datagram that starts with the marker is such a piece. -/
theorem handleUdpData_appendPiece (codec : Codec) (s : LumenProtocol) (tail : List UInt8)
    (endpoint : Endpoint) (running : s.running = true) :
    handleUdpData codec s (lumenStx :: tail) endpoint =
      appendPiece (getEndpointKey endpoint) endpoint s (lumenStx :: tail) := by
  simp only [handleUdpData,running,Bool.not_true,Bool.false_eq_true,if_false,if_true,appendPiece]

/-- The buffer and the datagram are read together, and the packets in them are processed one after
the other. -/
theorem handleUdpData_eq (codec : Codec) (s : LumenProtocol) (tail : List UInt8)
    (endpoint : Endpoint) (running : s.running = true) :
    let key := getEndpointKey endpoint
    let buffer := s.frameBuffers key ++ lumenStx :: tail
    handleUdpData codec s (lumenStx :: tail) endpoint =
      ((extract buffer).2.foldl (fun s packet => s.processCompletePacket packet endpoint)
        (s.setFrameBuffer key buffer)).setFrameBuffer key (extract buffer).1 := by
  intro key buffer
  rw [handleUdpData_appendPiece codec s tail endpoint running,appendPiece,processFrameBuffer_eq,
    setFrameBuffer_frameBuffers,Function.update_self]

theorem handleUdpData_framed (codec : Codec) (s : LumenProtocol) (tail : List UInt8)
    (endpoint : Endpoint) (running : s.running = true) :
    let buffer := s.frameBuffers (getEndpointKey endpoint) ++ lumenStx :: tail
    let t := handleUdpData codec s (lumenStx :: tail) endpoint
    t.running = true ∧
    t.frameBuffers = Function.update s.frameBuffers (getEndpointKey endpoint) (extract buffer).1 ∧
    t.processed = s.processed ++ (extract buffer).2.map (·,endpoint) := by
  intro buffer t
  obtain ⟨still,buffers,marks⟩ := appendPiece_effect (getEndpointKey endpoint) endpoint s
    (lumenStx :: tail)
  simp only [t,handleUdpData_appendPiece codec s tail endpoint running]
  exact ⟨still.trans running,buffers,marks⟩

/-- Past the framing layer something is passed up, or nothing happens. -/
theorem handleUdpData_unframed_cases (codec : Codec) (s : LumenProtocol) (data : List UInt8)
    (endpoint : Endpoint) (unframed : data.head? ≠ some lumenStx) :
    handleUdpData codec s data endpoint = s ∨
      ∃ payload, handleUdpData codec s data endpoint = s.passUp payload endpoint := by
  simp only [handleUdpData]
  split
  · exact Or.inl rfl
  · split
    · exact Or.inl rfl
    · simp only [List.head?_cons,ne_eq,Option.some.injEq] at unframed
      rw [if_neg unframed]
      split
      · exact Or.inr ⟨_,rfl⟩
      · simp only [wrapRaw]
        split
        · exact Or.inl rfl
        · exact Or.inr ⟨_,rfl⟩

/-- A datagram without the marker goes past the framing layer. -/
theorem handleUdpData_unframed (codec : Codec) (s : LumenProtocol) (data : List UInt8)
    (endpoint : Endpoint) (unframed : data.head? ≠ some lumenStx) :
    Undisturbed s (handleUdpData codec s data endpoint) := by
  rcases handleUdpData_unframed_cases codec s data endpoint unframed with same | ⟨payload,same⟩
  · rw [same]
    exact .refl s
  · rw [same]
    exact passUp_undisturbed s payload endpoint

/-- Datagrams from one endpoint, one after the other. -/
def receive (codec : Codec) (endpoint : Endpoint) (s : LumenProtocol) (data : List UInt8) :
    LumenProtocol := handleUdpData codec s data endpoint

theorem receive_frames (codec : Codec) (endpoint : Endpoint) (s : LumenProtocol)
    (frames : List Frame) (nonempty : frames ≠ []) (running : s.running = true)
    (empty : s.frameBuffers (getEndpointKey endpoint) = []) :
    let t := receive codec endpoint s (frames.flatMap Frame.bytes)
    t.running = true ∧ t.frameBuffers (getEndpointKey endpoint) = [] ∧
      t.processed = s.processed ++ (frames.filterMap Frame.packet?).map (·,endpoint) := by
  have starts : ∃ tail, frames.flatMap Frame.bytes = lumenStx :: tail := by
    obtain ⟨frame,rest,rfl⟩ := List.exists_cons_of_ne_nil nonempty
    cases frame <;> exact ⟨_,rfl⟩
  obtain ⟨tail,split⟩ := starts
  have framed := handleUdpData_framed codec s tail endpoint running
  simp only [empty,List.nil_append,← split,extract_frames] at framed
  refine ⟨framed.1,?_,framed.2.2⟩
  rw [receive,framed.2.1,Function.update_self]

/-- Frames damaged outside their length field cost nothing but themselves: every intact
packet is processed once, in order and with its endpoint, nothing else is, and the buffer
is empty after every datagram. -/
theorem receive_processes_intact (codec : Codec) (endpoint : Endpoint) (s : LumenProtocol)
    (datagrams : List (List Frame)) (nonempty : ∀ frames ∈ datagrams, frames ≠ [])
    (running : s.running = true) (empty : s.frameBuffers (getEndpointKey endpoint) = []) :
    let data := datagrams.map (List.flatMap Frame.bytes)
    (Machine.run (receive codec endpoint) s data).processed =
      s.processed ++ (datagrams.flatten.filterMap Frame.packet?).map (·,endpoint) ∧
    Machine.Always (receive codec endpoint)
      (fun t => t.frameBuffers (getEndpointKey endpoint) = []) s data := by
  induction datagrams generalizing s with
  | nil => simp [Machine.always_nil,empty]
  | cons frames rest ih =>
    obtain ⟨stillRunning,nowEmpty,marks⟩ := receive_frames codec endpoint s frames
      (nonempty frames List.mem_cons_self) running empty
    obtain ⟨later,always⟩ := ih _ (fun frames member =>
      nonempty frames (List.mem_cons_of_mem _ member)) stillRunning nowEmpty
    constructor
    · rw [List.map_cons,Machine.run_cons,later,marks]
      simp
    · exact (Machine.always_cons _ _ _ _ _).mpr ⟨empty,always⟩

/-- An empty data packet. -/
def heartbeat : LumenPacket := .new ⟨.data,.low,1,0,0⟩ []

def sampleRover : Endpoint := ⟨0x0aed0002,9001⟩

/-- The heartbeat with its checksum off by one. -/
def spoiledHeartbeat : Frame :=
  .damaged heartbeat.header [] (heartbeat.calculatePacketCrc + 1) lumenEtx (by decide) rfl
    (Or.inr (by decide +kernel))

/-- One datagram with a damaged frame before an intact one. -/
theorem receive_after_spoiled :
    (Machine.run (receive .silent sampleRover) (started .baseStation .unspecified ⟨0,0⟩)
      [[spoiledHeartbeat,.intact heartbeat (by decide)].flatMap Frame.bytes]).processed =
        [(heartbeat,sampleRover)] :=
  (receive_processes_intact .silent sampleRover (started .baseStation .unspecified ⟨0,0⟩)
    [[spoiledHeartbeat,.intact heartbeat (by decide)]] (by simp) rfl rfl).1

/-! ### Arbitrary datagrams -/

/-- The calls of `processCompletePacket` made while one datagram is handled. -/
def newlyProcessed (codec : Codec) (s : LumenProtocol) (data : List UInt8) (endpoint : Endpoint) :
    List (LumenPacket × Endpoint) :=
  (handleUdpData codec s data endpoint).processed.drop s.processed.length

/-- A step that receives exactly one encoding processes its packet. -/
def ProcessesGood (codec : Codec) (s : LumenProtocol) : Input → Prop
  | .datagram data endpoint => ∀ packet : LumenPacket, packet.WellFormed → data = packet.toBytes →
      (packet,endpoint) ∈ newlyProcessed codec s data endpoint
  | _ => True

/-- A step that receives exactly one encoding finds the endpoint's buffer in sync with it,
or finds bytes there that happen to continue with the datagram into the same encoding. -/
def ReceivesInSync (s : LumenProtocol) : Input → Prop
  | .datagram data endpoint => ∀ packet : LumenPacket, packet.WellFormed → data = packet.toBytes →
      InSync (s.frameBuffers (getEndpointKey endpoint)) data ∨
        data <+: s.frameBuffers (getEndpointKey endpoint) ++ data
  | _ => True

structure Receiving (s : LumenProtocol) : Prop where
  running : s.running = true
  settled : ∀ key, Settled (s.frameBuffers key)

/-- `sendMessage` of a running node, with the target decided on the state it starts from. -/
theorem sendMessage_running (s : LumenProtocol) (payload : List UInt8) (type : MessageType)
    (priority : Priority) (recipient : Endpoint) (running : s.running = true) :
    s.sendMessage payload type priority recipient =
      match s.targetEndpoint recipient with
      | none => { s with currentSequence := s.currentSequence + 1 }
      | some target =>
        sendPacket
          (if type ≠ .ack ∧ type ≠ .nak then
            { s with
              currentSequence := s.currentSequence + 1
              reliabilityManager := s.reliabilityManager.addSendPacket s.clock.steady
                s.currentSequence (s.nextPacket payload type priority) target }
          else { s with currentSequence := s.currentSequence + 1 })
          (s.nextPacket payload type priority) target := by
  simp only [sendMessage]
  rw [if_neg (by simp [running])]
  rfl

theorem sendMessage_undisturbed (s : LumenProtocol) (payload : List UInt8) (type : MessageType)
    (priority : Priority) (recipient : Endpoint) :
    Undisturbed s (s.sendMessage payload type priority recipient) := by
  simp only [sendMessage]
  split
  · exact .refl s
  · split
    · exact .manager s s.reliabilityManager _ s.checkCounter ⟨rfl,rfl⟩
    · refine .trans ?_ (sendPacket_undisturbed _ _ _)
      split
      · exact .manager s _ _ s.checkCounter (s.reliabilityManager.addSendPacket_setup ..)
      · exact .manager s s.reliabilityManager _ s.checkCounter ⟨rfl,rfl⟩

theorem foldl_undisturbed (action : LumenProtocol → α → LumenProtocol)
    (each : ∀ s item, Undisturbed s (action s item)) (items : List α) (s : LumenProtocol) :
    Undisturbed s (items.foldl action s) := by
  induction items generalizing s with
  | nil => exact .refl s
  | cons item rest ih => exact (each s item).trans (ih _)

theorem handleRetransmissionTimer_undisturbed (s : LumenProtocol) :
    Undisturbed s s.handleRetransmissionTimer := by
  simp only [handleRetransmissionTimer]
  refine .trans (.trans ?_ (foldl_undisturbed _ (fun s recipient => ?_) _ _))
    (foldl_undisturbed _ (fun s (entry : LumenPacket × Endpoint) =>
      sendPacket_undisturbed s entry.1 entry.2) _ _)
  · exact .manager s _ s.currentSequence s.checkCounter
      (s.reliabilityManager.handleRetransmissionTimer_setup _)
  · exact emit_undisturbed s _ (by simp)

theorem handleCleanupTimer_undisturbed (s : LumenProtocol) :
    Undisturbed s s.handleCleanupTimer :=
  .manager s _ s.currentSequence s.checkCounter (s.reliabilityManager.handleCleanupTimer_setup _)

theorem head_cases (data : List UInt8) :
    data.head? ≠ some lumenStx ∨ ∃ tail, data = lumenStx :: tail := by
  cases data with
  | nil => exact Or.inl (by simp)
  | cons first tail =>
    by_cases marker : first = lumenStx
    · exact Or.inr ⟨tail,by rw [marker]⟩
    · exact Or.inl (by simpa using marker)

/-- The rule for a datagram: what keeping bytes, handling a packet and passing data up preserve
is preserved by handling the datagram. -/
theorem handleUdpData_keeps (codec : Codec) (property : LumenProtocol → Prop) (endpoint : Endpoint)
    (kept : ∀ s key bytes, property s → property (s.setFrameBuffer key bytes))
    (packets : ∀ s packet, property s → property (s.processCompletePacket packet endpoint))
    (passed : ∀ s payload, property s → property (s.passUp payload endpoint))
    (s : LumenProtocol) (data : List UInt8) (initial : property s) :
    property (handleUdpData codec s data endpoint) := by
  have loop (frames : List LumenPacket) (t : LumenProtocol) (before : property t) :
      property (frames.foldl (fun t packet => t.processCompletePacket packet endpoint) t) := by
    induction frames generalizing t with
    | nil => exact before
    | cons packet rest ih => exact ih _ (packets t packet before)
  rcases head_cases data with unframed | ⟨tail,rfl⟩
  · rcases handleUdpData_unframed_cases codec s data endpoint unframed with same | ⟨payload,same⟩
    · rw [same]
      exact initial
    · rw [same]
      exact passed s payload initial
  · cases running : s.running with
    | false =>
      have ignored : handleUdpData codec s (lumenStx :: tail) endpoint = s := by
        simp [handleUdpData,running]
      rw [ignored]
      exact initial
    | true =>
      rw [handleUdpData_eq codec s tail endpoint running]
      exact kept _ _ _ (loop _ _ (kept _ _ _ initial))

/-- A step leaves a node running, and a property of what the loop keeps holds of its buffers. -/
theorem step_buffers (codec : Codec) {property : List UInt8 → Prop} (empty : property [])
    (left : ∀ buffer, property (extract buffer).1) (s : LumenProtocol) (input : Input)
    (before : s.running = true ∧ ∀ key, property (s.frameBuffers key)) :
    (step codec s input).running = true ∧ ∀ key, property ((step codec s input).frameBuffers key) := by
  have undisturbed {t : LumenProtocol} (same : Undisturbed s t) :
      t.running = true ∧ ∀ key, property (t.frameBuffers key) := by
    rw [same.running,same.frameBuffers]
    exact before
  cases input with
  | datagram data endpoint =>
    rcases head_cases data with unframed | ⟨tail,rfl⟩
    · exact undisturbed (handleUdpData_unframed codec s data endpoint unframed)
    · obtain ⟨running,buffers,_⟩ := handleUdpData_framed codec s tail endpoint before.1
      refine ⟨running,fun key => ?_⟩
      rw [step,buffers]
      by_cases same : key = getEndpointKey endpoint
      · rw [same,Function.update_self]
        exact left _
      · rw [Function.update_of_ne same]
        exact before.2 key
  | sendMessage payload type priority recipient =>
    exact undisturbed (sendMessage_undisturbed s payload type priority recipient)
  | resetSequenceNumber => exact ⟨before.1,fun _ => empty⟩
  | setSessionActive active => exact before
  | retransmissionTimer => exact undisturbed (handleRetransmissionTimer_undisturbed s)
  | cleanupTimer => exact undisturbed (handleCleanupTimer_undisturbed s)
  | tick nanos => exact before

/-- Every step leaves the buffers in the form the loop leaves them in. -/
theorem step_receiving (codec : Codec) (s : LumenProtocol) (input : Input)
    (receiving : Receiving s) : Receiving (step codec s input) := by
  obtain ⟨running,settled⟩ := step_buffers codec (Or.inl rfl) extract_settled s input
    ⟨receiving.running,receiving.settled⟩
  exact ⟨running,settled⟩

theorem started_receiving (mode : ProtocolMode) (baseEndpoint : Endpoint) (clock : Clock) :
    Receiving (started mode baseEndpoint clock) :=
  ⟨rfl,fun _ => Or.inl rfl⟩

theorem newlyProcessed_framed (codec : Codec) (s : LumenProtocol) (tail : List UInt8)
    (endpoint : Endpoint) (running : s.running = true) :
    newlyProcessed codec s (lumenStx :: tail) endpoint =
      (extract (s.frameBuffers (getEndpointKey endpoint) ++ lumenStx :: tail)).2.map (·,endpoint) := by
  rw [newlyProcessed,(handleUdpData_framed codec s tail endpoint running).2.2,List.drop_left]

/-- One step: the packet of a good datagram is processed exactly when the buffer is in sync. -/
theorem processesGood_iff (codec : Codec) (s : LumenProtocol) (input : Input)
    (receiving : Receiving s) : ProcessesGood codec s input ↔ ReceivesInSync s input := by
  cases input with
  | datagram data endpoint =>
    have pointwise (packet : LumenPacket) (valid : packet.WellFormed) :
        (packet,endpoint) ∈ newlyProcessed codec s packet.toBytes endpoint ↔
          InSync (s.frameBuffers (getEndpointKey endpoint)) packet.toBytes ∨
            packet.toBytes <+: s.frameBuffers (getEndpointKey endpoint) ++ packet.toBytes := by
      obtain ⟨tail,encoded⟩ := packet.toBytes_cons
      rw [← packet_mem_extract_iff _ packet valid (receiving.settled _),encoded,
        newlyProcessed_framed codec s tail endpoint receiving.running]
      simp
    constructor
    · rintro good packet valid rfl
      exact (pointwise packet valid).mp (good packet valid rfl)
    · rintro sync packet valid rfl
      exact (pointwise packet valid).mpr (sync packet valid rfl)
  | _ => exact Iff.rfl

/-- Over whole runs: every good datagram is processed in its own step if and only if each
one finds the endpoint's buffer in sync. -/
theorem good_datagrams_processed_iff (codec : Codec) (mode : ProtocolMode) (baseEndpoint : Endpoint)
    (clock : Clock) (inputs : List Input) :
    Machine.Guarded (step codec) (ProcessesGood codec) (started mode baseEndpoint clock) inputs ↔
      Machine.Guarded (step codec) ReceivesInSync (started mode baseEndpoint clock) inputs :=
  Machine.guarded_congr (step codec) (step_receiving codec) (processesGood_iff codec) _ inputs
    (started_receiving mode baseEndpoint clock)

/-- A header cut off after a length field that was corrupted to its maximum. -/
def corruptedLength : List UInt8 := [0x02,0x02,0x00,0x00,0x00,0x00,0x00,0x00,0xFF,0xFF]

/-- After that datagram the node waits for 65547 bytes and a good packet is swallowed. -/
theorem corruptedLength_swallows_heartbeat :
    heartbeat.WellFormed ∧
    ¬ Machine.Guarded (step .silent) (ProcessesGood .silent)
      (started .baseStation .unspecified ⟨0,0⟩)
      [.datagram corruptedLength sampleRover,.datagram heartbeat.toBytes sampleRover] := by
  refine ⟨by decide,fun good => ?_⟩
  have member := good [.datagram corruptedLength sampleRover]
    (.datagram heartbeat.toBytes sampleRover) (List.prefix_refl _) heartbeat (by decide) rfl
  have nothing : newlyProcessed .silent (Machine.run (step .silent)
      (started .baseStation .unspecified ⟨0,0⟩) [.datagram corruptedLength sampleRover])
      heartbeat.toBytes sampleRover = [] := rfl
  rw [nothing] at member
  cases member

/-! ### What the network and the timers cannot change -/

/-- The role, the flags and the registered base of a node. -/
structure SameNode (s t : LumenProtocol) : Prop where
  mode : t.mode = s.mode
  running : t.running = s.running
  sessionActive : t.sessionActive = s.sessionActive
  serverRunning : t.serverRunning = s.serverRunning
  baseEndpoint : t.baseEndpoint = s.baseEndpoint

theorem Undisturbed.sameNode (same : Undisturbed s t) : SameNode s t :=
  ⟨same.mode,same.running,same.sessionActive,same.serverRunning,same.baseEndpoint⟩

theorem SameNode.trans (first : SameNode s t) (second : SameNode t u) : SameNode s u where
  mode := second.mode.trans first.mode
  running := second.running.trans first.running
  sessionActive := second.sessionActive.trans first.sessionActive
  serverRunning := second.serverRunning.trans first.serverRunning
  baseEndpoint := second.baseEndpoint.trans first.baseEndpoint

theorem processCompletePacket_sameNode (s : LumenProtocol) (packet : LumenPacket)
    (endpoint : Endpoint) : SameNode s (s.processCompletePacket packet endpoint) := by
  have marked : SameNode s (s.emit (.processing packet endpoint)) := ⟨rfl,rfl,rfl,rfl,rfl⟩
  exact marked.trans (processCompletePacket_undisturbed s packet endpoint).sameNode

theorem setFrameBuffer_sameNode (s : LumenProtocol) (key : String) (buffer : List UInt8) :
    SameNode s (s.setFrameBuffer key buffer) := ⟨rfl,rfl,rfl,rfl,rfl⟩

theorem handleUdpData_sameNode (codec : Codec) (s : LumenProtocol) (data : List UInt8)
    (endpoint : Endpoint) : SameNode s (handleUdpData codec s data endpoint) := by
  refine handleUdpData_keeps codec (SameNode s) endpoint ?_ ?_ ?_ s data (Undisturbed.refl s).sameNode
  · exact fun t key bytes same => same.trans (setFrameBuffer_sameNode t key bytes)
  · exact fun t packet same => same.trans (processCompletePacket_sameNode t packet endpoint)
  · exact fun t payload same => same.trans (passUp_undisturbed t payload endpoint).sameNode

theorem step_external_sameNode (codec : Codec) (s : LumenProtocol) (input : Input)
    (external : input.isExternal = true) : SameNode s (step codec s input) := by
  cases input with
  | datagram data endpoint => exact handleUdpData_sameNode codec s data endpoint
  | retransmissionTimer => exact (handleRetransmissionTimer_undisturbed s).sameNode
  | cleanupTimer => exact (handleCleanupTimer_undisturbed s).sameNode
  | tick nanos => exact ⟨rfl,rfl,rfl,rfl,rfl⟩
  | sendMessage | resetSequenceNumber | setSessionActive => cases external

end Lumen.LumenProtocol
