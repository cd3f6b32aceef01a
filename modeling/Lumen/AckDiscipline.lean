import Lumen.Answers

/-! A node packet by packet: what the framing layer completes, what goes past it, and the calls
of its owner, in any order. For the base station, which arrivals make it send an ACK, and what
the numbers recorded as acknowledged stand for. -/
namespace Lumen.LumenProtocol

open ReliabilityManager Endpoint

/-- The calls of the owner and the timers. The message manager sends only commands, data and
status. -/
def Input.isOwn : Input → Bool
  | .datagram _ _ => false
  | .sendMessage _ type _ _ => type ≠ .ack ∧ type ≠ .nak
  | _ => true

/-- The owner and the timers transmit payloads and report timeouts. -/
def Effect.IsOwn : Effect → Prop
  | .transmit packet _ => CarriesPayload packet
  | .timeout _ => True
  | _ => False

theorem own_effects (codec : Codec) (s : LumenProtocol) (input : Input) (valid : Tracking s)
    (own : input.isOwn = true) :
    ∃ more, (s.step codec input).effects = s.effects ++ more ∧
      ∀ effect ∈ more, Effect.IsOwn effect := by
  have silent (same : (s.step codec input).effects = s.effects) :
      ∃ more, (s.step codec input).effects = s.effects ++ more ∧
        ∀ effect ∈ more, Effect.IsOwn effect := ⟨[],by simp [same],by simp⟩
  cases input with
  | datagram => cases own
  | sendMessage payload type priority recipient =>
    refine ⟨_,sendMessage_effects s payload type priority recipient,fun effect member => ?_⟩
    obtain ⟨target,_,rfl⟩ := List.mem_map.mp member
    have payload : type ≠ .ack ∧ type ≠ .nak := of_decide_eq_true own
    exact payload
  | retransmissionTimer =>
    obtain ⟨more,added,fine⟩ := handleRetransmissionTimer_effects s valid
    refine ⟨more,added,fun effect member => ?_⟩
    rcases fine effect member with ⟨_,rfl⟩ | ⟨seq,info,present,rfl⟩
    · trivial
    · exact (valid.keyed seq info present).2
  | cleanupTimer | resetSequenceNumber | setSessionActive | tick => exact silent rfl

/-- The owner may act between two packets of one datagram, so they are inputs of their own. -/
inductive Arrival where
  | packet (packet : LumenPacket) (endpoint : Endpoint)
  /-- The framing layer keeps bytes for later. -/
  | buffer (key : String) (bytes : List UInt8)
  | unframed (data : List UInt8) (endpoint : Endpoint) (plain : data.head? ≠ some lumenStx)
  | own (input : Input) (own : input.isOwn = true)

def arrive (codec : Codec) (s : LumenProtocol) : Arrival → LumenProtocol
  | .packet packet endpoint => s.processCompletePacket packet endpoint
  | .buffer key bytes => s.setFrameBuffer key bytes
  | .unframed data endpoint _ => handleUdpData codec s data endpoint
  | .own input _ => s.step codec input

theorem run_packets (codec : Codec) (s : LumenProtocol) (packets : List LumenPacket)
    (endpoint : Endpoint) :
    Machine.run (arrive codec) s (packets.map fun packet => .packet packet endpoint) =
      packets.foldl (fun s packet => s.processCompletePacket packet endpoint) s := by
  induction packets generalizing s with
  | nil => rfl
  | cons packet rest ih => exact ih _

/-- Every datagram is a run of arrivals. -/
theorem handleUdpData_arrivals (codec : Codec) (s : LumenProtocol) (data : List UInt8)
    (endpoint : Endpoint) (running : s.running = true) :
    ∃ arrivals, handleUdpData codec s data endpoint = Machine.run (arrive codec) s arrivals := by
  rcases head_cases data with unframed | ⟨tail,rfl⟩
  · exact ⟨[.unframed data endpoint unframed],rfl⟩
  · let key := getEndpointKey endpoint
    let buffer := s.frameBuffers key ++ lumenStx :: tail
    refine ⟨.buffer key buffer :: ((extract buffer).2.map fun packet => .packet packet endpoint) ++
      [.buffer key (extract buffer).1],?_⟩
    rw [handleUdpData_eq codec s tail endpoint running,Machine.run_concat,Machine.run_cons,
      run_packets]
    rfl

theorem arrive_tracking (codec : Codec) (s : LumenProtocol) (input : Arrival)
    (valid : Tracking s) : Tracking (arrive codec s input) := by
  cases input with
  | packet packet endpoint =>
    exact (processCompletePacket_ages s packet endpoint).tracking valid
  | buffer key bytes => exact (setFrameBuffer_ages s key bytes).tracking valid
  | unframed data endpoint plain => exact (handleUdpData_ages codec s data endpoint).tracking valid
  | own input own => exact step_tracking codec s input valid

/-- A base station as its owner runs it. -/
structure Serving (s : LumenProtocol) : Prop where
  tracking : Tracking s
  mode : s.mode = .baseStation
  serverRunning : s.serverRunning = true

theorem own_local (codec : Codec) (s : LumenProtocol) (input : Input) (own : input.isOwn = true) :
    Local s (s.step codec input) :=
  step_local codec s input (by cases input <;> first | rfl | cases own)

theorem packet_serving (s : LumenProtocol) (packet : LumenPacket) (endpoint : Endpoint)
    (serving : Serving s) : Serving (s.processCompletePacket packet endpoint) := by
  have same := processCompletePacket_undisturbed s packet endpoint
  exact ⟨(processCompletePacket_ages s packet endpoint).tracking serving.tracking,
    same.mode.trans serving.mode,same.serverRunning.trans serving.serverRunning⟩

theorem arrive_serving (codec : Codec) (s : LumenProtocol) (input : Arrival)
    (serving : Serving s) : Serving (arrive codec s input) := by
  have tracking := arrive_tracking codec s input serving.tracking
  cases input with
  | packet packet endpoint => exact packet_serving s packet endpoint serving
  | buffer key bytes => exact ⟨tracking,serving.mode,serving.serverRunning⟩
  | unframed data endpoint plain =>
    have same := handleUdpData_sameNode codec s data endpoint
    exact ⟨tracking,same.mode.trans serving.mode,same.serverRunning.trans serving.serverRunning⟩
  | own input own =>
    exact ⟨tracking,(step_mode codec s input serving.tracking).trans serving.mode,
      (own_local codec s input own).serverRunning.trans serving.serverRunning⟩

theorem Serving.role (serving : Serving s) : s.reliabilityManager.role = .baseStation :=
  serving.tracking.managerRole.trans (by rw [serving.mode]; rfl)

/-- The ACKs among some effects: their payload and their recipient. -/
def acksIn (effects : List Effect) : List (List UInt8 × Endpoint) :=
  effects.filterMap fun
    | .transmit packet recipient =>
      if packet.header.type = .ack then some (packet.payload,recipient) else none
    | _ => none

variable (answered : Endpoint → Prop) [DecidablePred answered]

/-- One ACK with its number for every payload that is processed in a session and comes from one of
these endpoints, sent back to where it came from, and no other. -/
def AcksPayloads (codec : Codec) (s : LumenProtocol) (input : Arrival) : Prop :=
  acksIn (newEffects s (arrive codec s input)) =
    match input with
    | .packet packet endpoint =>
      if (s.sessionActive = true ∧ packet.header.type ≠ .ack ∧ packet.header.type ≠ .nak) ∧
          answered endpoint then
        [([packet.header.sequence],endpoint)]
      else []
    | _ => []

theorem newEffects_of_append (added : t.effects = s.effects ++ more) : newEffects s t = more := by
  rw [newEffects,added,List.drop_left]

theorem acksIn_sent (s : LumenProtocol) (packet : LumenPacket) (recipient : Endpoint)
    (other : packet.header.type ≠ .ack) : acksIn (s.sent packet recipient) = [] := by
  simp only [sent]
  split
  · simp [acksIn,other]
  · rfl

theorem processNak_some {s : LumenProtocol} {seq : UInt8} {entry : LumenPacket × Endpoint}
    (found : s.reliabilityManager.processNak seq = some entry) :
    ∃ info, s.tracked seq = some info ∧ entry = (info.packet,info.recipient) := by
  simp only [processNak] at found
  split at found
  · cases found
  · obtain ⟨info,present,rfl⟩ := Option.map_eq_some_iff.mp found
    exact ⟨info,present,rfl⟩

/-- The server sends only to an endpoint with an address and a port. -/
theorem Serving.sent (serving : Serving s) (packet : LumenPacket) (endpoint : Endpoint) :
    s.sent packet endpoint = if endpoint.Sendable then [.transmit packet endpoint] else [] := by
  simp [LumenProtocol.sent,LumenProtocol.canSend,serving.mode,serving.serverRunning]

theorem packet_acks (codec : Codec) (s : LumenProtocol) (packet : LumenPacket)
    (endpoint : Endpoint) (serving : Serving s) :
    AcksPayloads Sendable codec s (.packet packet endpoint) := by
  simp only [AcksPayloads,arrive]
  rw [newEffects_of_append (processCompletePacket_answer s packet endpoint serving.mode)]
  change acksIn (s.answer packet endpoint) = _
  simp only [answer]
  by_cases ack : packet.header.type = .ack
  · simp [ack,acksIn]
  · by_cases nak : packet.header.type = .nak
    · rw [if_neg ack,if_pos nak,if_neg (fun both => both.1.2.2 nak)]
      cases requested : packet.payload.head?.bind s.reliabilityManager.processNak with
      | none => rfl
      | some entry =>
        obtain ⟨seq,_,found⟩ := Option.bind_eq_some_iff.mp requested
        obtain ⟨info,present,rfl⟩ := processNak_some found
        rw [Option.toList_some,List.flatMap_singleton]
        exact acksIn_sent s _ _ (serving.tracking.keyed seq info present).2.1
    · rw [if_neg ack,if_neg nak,serving.sent]
      have own : (s.ackPacket packet.header.sequence).header.type = .ack := rfl
      have number : (s.ackPacket packet.header.sequence).payload = [packet.header.sequence] := rfl
      by_cases reached : endpoint.Sendable
      · cases s.sessionActive <;> cases s.forwards packet endpoint <;>
          simp [acksIn,passedUp,own,number,ack,nak,reached]
      · cases s.sessionActive <;> cases s.forwards packet endpoint <;>
          simp [acksIn,passedUp,ack,nak,reached]

/-- What goes past the framing layer is at most passed up. -/
theorem unframed_effects (codec : Codec) (s : LumenProtocol) (data : List UInt8)
    (endpoint : Endpoint) (plain : data.head? ≠ some lumenStx) :
    (handleUdpData codec s data endpoint).effects = s.effects ∨
    ∃ payload header, (handleUdpData codec s data endpoint).effects =
      s.effects ++ [.callback payload header endpoint] := by
  rcases handleUdpData_unframed_cases codec s data endpoint plain with same | ⟨payload,same⟩
  · exact Or.inl (congrArg LumenProtocol.effects same)
  · rw [same,passUp]
    split
    · exact Or.inr ⟨payload,_,rfl⟩
    · exact Or.inl rfl

theorem unframed_acks (codec : Codec) (s : LumenProtocol) (data : List UInt8)
    (endpoint : Endpoint) (plain : data.head? ≠ some lumenStx) :
    acksIn (newEffects s (handleUdpData codec s data endpoint)) = [] := by
  rcases unframed_effects codec s data endpoint plain with same | ⟨payload,header,added⟩
  · simp [newEffects,same,acksIn]
  · rw [newEffects_of_append added]
    rfl

theorem own_acks (codec : Codec) (s : LumenProtocol) (input : Input) (valid : Tracking s)
    (own : input.isOwn = true) : acksIn (newEffects s (s.step codec input)) = [] := by
  obtain ⟨more,added,fine⟩ := own_effects codec s input valid own
  rw [newEffects_of_append added]
  refine List.filterMap_eq_nil_iff.mpr fun effect member => ?_
  have kind := fine effect member
  cases effect with
  | transmit packet recipient => exact if_neg kind.1
  | processing | callback | timeout => rfl

theorem arrive_acks (codec : Codec) (s : LumenProtocol) (input : Arrival) (serving : Serving s) :
    AcksPayloads Sendable codec s input := by
  cases input with
  | packet packet endpoint => exact packet_acks codec s packet endpoint serving
  | buffer key bytes =>
    change acksIn (newEffects s s) = []
    simp [newEffects,acksIn]
  | unframed data endpoint plain => exact unframed_acks codec s data endpoint plain
  | own input own => exact own_acks codec s input serving.tracking own

/-! ### The numbers on record -/

inductive AckEvent where
  | acked (seq : UInt8) (endpoint : Endpoint)
  | cleared

/-- The sets of acknowledged numbers are emptied wholesale. -/
def clears (s : LumenProtocol) : Arrival → Bool
  | .own .resetSequenceNumber _ => true
  | .own .cleanupTimer _ =>
    s.clock.steady > s.reliabilityManager.lastAckCleanupTime + cleanupInterval * 2 * nanosPerMilli
  | _ => false

def ackEvents (codec : Codec) (s : LumenProtocol) (input : Arrival) : List AckEvent :=
  ((acksIn (newEffects s (arrive codec s input))).flatMap fun ack =>
    ack.1.map fun seq => .acked seq ack.2) ++ if s.clears input then [.cleared] else []

def note (acked : List (UInt8 × Endpoint)) : AckEvent → List (UInt8 × Endpoint)
  | .acked seq endpoint => acked ++ [(seq,endpoint)]
  | .cleared => []

/-- The ACKs sent since the sets were last emptied. -/
def ackedSince (events : List AckEvent) : List (UInt8 × Endpoint) := events.foldl note []

/-- Every number on record is under the key of an endpoint; for one of these endpoints it was
acknowledged to it. -/
def Recorded (events : List AckEvent) (s : LumenProtocol) : Prop :=
  ∀ key seq, s.reliabilityManager.ackedSequences key seq = true →
    ∃ endpoint, getEndpointKey endpoint = key ∧
      (answered endpoint → (seq,endpoint) ∈ ackedSince events)

theorem handleCleanupTimer_ackedSequences (rm : ReliabilityManager) (now : Nat)
    (running : rm.running = true) :
    (rm.handleCleanupTimer now).ackedSequences =
      if now > rm.lastAckCleanupTime + cleanupInterval * 2 * nanosPerMilli then fun _ _ => false
      else rm.ackedSequences := by
  simp only [ReliabilityManager.handleCleanupTimer,running,Bool.not_true,Bool.false_eq_true,
    if_false]
  cases rm
  rfl

/-- Sending a message touches nothing of the manager but the table of tracked packets. -/
theorem sendMessage_manager (s : LumenProtocol) (payload : List UInt8) (type : MessageType)
    (priority : Priority) (recipient : Endpoint) :
    ∃ table, (s.sendMessage payload type priority recipient).reliabilityManager =
      { s.reliabilityManager with sentPackets := table } := by
  have added (now : Nat) (seq : UInt8) (packet : LumenPacket) (target : Endpoint) :
      ∃ table, s.reliabilityManager.addSendPacket now seq packet target =
        { s.reliabilityManager with sentPackets := table } := by
    simp only [addSendPacket]
    split
    · exact ⟨_,rfl⟩
    · split <;> exact ⟨_,rfl⟩
  by_cases running : s.running = true
  · rw [sendMessage_running _ _ _ _ _ running]
    split
    · exact ⟨_,rfl⟩
    · rw [sendPacket_manager]
      split
      · exact added _ _ _ _
      · exact ⟨_,rfl⟩
  · exact ⟨s.reliabilityManager.sentPackets,by simp [sendMessage,running]⟩

theorem sendMessage_ackedSequences (s : LumenProtocol) (payload : List UInt8) (type : MessageType)
    (priority : Priority) (recipient : Endpoint) :
    (s.sendMessage payload type priority recipient).reliabilityManager.ackedSequences =
      s.reliabilityManager.ackedSequences := by
  obtain ⟨table,same⟩ := sendMessage_manager s payload type priority recipient
  rw [same]

theorem start_ackedSequences (rm : ReliabilityManager) (now : Nat) (stopped : rm.running = false)
    (base : rm.role = .baseStation) : (rm.start now).ackedSequences = fun _ _ => false := by
  unfold ReliabilityManager.start
  rw [if_neg (by simp [stopped])]
  dsimp only
  rw [handleRetransmissionTimer_baseStation,handleCleanupTimer_ackedSequences _ _ rfl]
  · split <;> rfl
  · exact base

/-- Only a payload adds to the record; nothing takes single numbers out of it. -/
theorem arrive_ackedSequences (codec : Codec) (s : LumenProtocol) (input : Arrival)
    (serving : Serving s) (other : ∀ packet endpoint, input ≠ .packet packet endpoint) :
    (arrive codec s input).reliabilityManager.ackedSequences =
      if s.clears input then fun _ _ => false else s.reliabilityManager.ackedSequences := by
  cases input with
  | packet packet endpoint => exact absurd rfl (other packet endpoint)
  | buffer key bytes => rfl
  | unframed data endpoint plain =>
    exact congrArg ReliabilityManager.ackedSequences
      (handleUdpData_unframed_manager codec s data endpoint plain)
  | own input own =>
    cases input with
    | datagram => cases own
    | sendMessage payload type priority recipient =>
      exact sendMessage_ackedSequences s payload type priority recipient
    | retransmissionTimer =>
      simp only [arrive,step,handleRetransmissionTimer]
      rw [handleRetransmissionTimer_baseStation _ _ serving.role]
      rfl
    | cleanupTimer =>
      have cleaned := handleCleanupTimer_ackedSequences s.reliabilityManager s.clock.steady
        serving.tracking.managerRunning
      simp only [clears,decide_eq_true_eq]
      exact cleaned
    | resetSequenceNumber | setSessionActive | tick => rfl

theorem ackedSince_append (events more : List AckEvent) :
    ackedSince (events ++ more) = more.foldl note (ackedSince events) := List.foldl_append

theorem arrive_recorded (codec : Codec) (events : List AckEvent) (s : LumenProtocol)
    (input : Arrival) (serving : Serving s) (recorded : Recorded Sendable events s) :
    Recorded Sendable (events ++ ackEvents codec s input) (arrive codec s input) := by
  have acks := arrive_acks codec s input serving
  by_cases other : ∀ packet endpoint, input ≠ .packet packet endpoint
  · have quiet : acksIn (newEffects s (arrive codec s input)) = [] := by
      cases input with
      | packet packet endpoint => exact absurd rfl (other packet endpoint)
      | buffer | unframed | own => exact acks
    intro key seq onRecord
    rw [arrive_ackedSequences codec s input serving other] at onRecord
    rw [ackedSince_append,ackEvents,quiet]
    split at onRecord
    · cases onRecord
    · next kept => simpa [kept] using recorded key seq onRecord
  · push Not at other
    obtain ⟨packet,endpoint,rfl⟩ := other
    have kept : s.clears (.packet packet endpoint) = false := rfl
    have one : acksIn (newEffects s (arrive codec s (.packet packet endpoint))) =
        if (s.sessionActive = true ∧ packet.header.type ≠ .ack ∧ packet.header.type ≠ .nak) ∧
            endpoint.Sendable then
          [([packet.header.sequence],endpoint)] else [] := acks
    intro key seq onRecord
    rw [ackedSince_append,ackEvents,one,kept]
    rcases (processCompletePacket_acked s packet endpoint key seq serving.tracking serving.mode).mp
      onRecord with ⟨payload,active,rfl,rfl⟩ | earlier
    · refine ⟨endpoint,rfl,fun reached => ?_⟩
      rw [if_pos ⟨⟨active,payload⟩,reached⟩]
      simp [note]
    · obtain ⟨owner,named,known⟩ := recorded key seq earlier
      refine ⟨owner,named,fun reached => ?_⟩
      have member := known reached
      split
      · simp [note,member]
      · simpa using member

theorem started_serving (clock : Clock) : Serving (started .baseStation .unspecified clock) :=
  ⟨started_tracking _ _ _,rfl,rfl⟩

theorem started_ackedSequences (clock : Clock) :
    (started .baseStation .unspecified clock).reliabilityManager.ackedSequences =
      fun _ _ => false := start_ackedSequences (.new .baseStation) clock.steady rfl rfl

theorem started_recorded (clock : Clock) :
    Recorded Sendable [] (started .baseStation .unspecified clock) := by
  intro key seq onRecord
  rw [started_ackedSequences] at onRecord
  cases onRecord

/-- In a run the payloads from these endpoints are acknowledged, each exactly once, and nothing else
is; and the numbers on record for them were acknowledged since the record was last emptied. -/
def AcksDiscipline (codec : Codec) (start : LumenProtocol) (inputs : List Arrival) : Prop :=
  Machine.Guarded (arrive codec) (AcksPayloads answered codec) start inputs ∧
  ∀ done, done <+: inputs →
    Recorded answered (Machine.trace (arrive codec) (ackEvents codec) start done)
      (Machine.run (arrive codec) start done)

/-- Over every run of a base station, with arrivals from any endpoints, calls and timers in any order:
every payload processed in a session is answered by exactly one ACK with its number to its source
if that has an address and a port, nothing else is acknowledged, and every number on record under
such an endpoint's key was acknowledged to that endpoint since the record was last emptied. -/
theorem acks_exactly_session_payloads (codec : Codec) (clock : Clock) (inputs : List Arrival) :
    AcksDiscipline Sendable codec (started .baseStation .unspecified clock) inputs := by
  have serving := started_serving clock
  have runs (done : List Arrival) :
      Serving (Machine.run (arrive codec) (started .baseStation .unspecified clock) done) :=
    Machine.run_invariant (arrive codec) (arrive_serving codec) _ done serving
  refine ⟨fun done input _ => arrive_acks codec _ input (runs done),fun done _ => ?_⟩
  have both := @Machine.run_trace _ _ (arrive codec) _ (ackEvents codec)
    (fun events s => Serving s ∧ Recorded Sendable events s) (fun _ _ => True) _
    ⟨serving,started_recorded clock⟩
    (fun events s input valid _ => ⟨arrive_serving codec s input valid.1,
      arrive_recorded codec events s input valid.1 valid.2⟩) done fun _ _ _ => trivial
  exact both.2

def dataPacket (seq : UInt8) : LumenPacket := .new ⟨.data,.low,seq,0,1⟩ [seq]

theorem setSessionActive_isOwn (active : Bool) : (Input.setSessionActive active).isOwn = true := rfl

/-- In a session a payload arrives. -/
def payloadFrom (endpoint : Endpoint) : List Arrival :=
  [.own (.setSessionActive true) (setSessionActive_isOwn true),.packet (dataPacket 7) endpoint]

/-- A rover gets its ACK, and the number is on record for it. -/
theorem payloadFrom_rover_acked :
    let s := Machine.run (arrive .silent) (started .baseStation .unspecified ⟨0,0⟩)
      (payloadFrom sampleRover)
    acksIn s.effects = [([7],sampleRover)] ∧
    s.reliabilityManager.ackedSequences (getEndpointKey sampleRover) 7 = true ∧
    (7,sampleRover) ∈ ackedSince (Machine.trace (arrive .silent) (ackEvents .silent)
      (started .baseStation .unspecified ⟨0,0⟩) (payloadFrom sampleRover)) := by
  have discipline := acks_exactly_session_payloads .silent ⟨0,0⟩ (payloadFrom sampleRover)
  have onRecord : (Machine.run (arrive .silent) (started .baseStation .unspecified ⟨0,0⟩)
      (payloadFrom sampleRover)).reliabilityManager.ackedSequences (getEndpointKey sampleRover) 7 =
        true := by decide +kernel
  obtain ⟨endpoint,same,known⟩ := discipline.2 _ (List.prefix_refl _) _ 7 onRecord
  cases getEndpointKey_injective same
  exact ⟨by decide +kernel,onRecord,known (by decide)⟩

/-- A payload with source port 0 is processed and its number recorded, but the server sends no ACK
there: neither half holds for every endpoint. -/
theorem payloadFrom_portless_unacked :
    ¬ Machine.Guarded (arrive .silent) (AcksPayloads (fun _ => True) .silent)
      (started .baseStation .unspecified ⟨0,0⟩) (payloadFrom ⟨0x0aed0002,0⟩) ∧
    ¬ ∀ done, done <+: payloadFrom ⟨0x0aed0002,0⟩ →
      Recorded (fun _ => True) (Machine.trace (arrive .silent) (ackEvents .silent)
          (started .baseStation .unspecified ⟨0,0⟩) done)
        (Machine.run (arrive .silent) (started .baseStation .unspecified ⟨0,0⟩) done) := by
  constructor
  · intro acks
    have answered := acks [.own (.setSessionActive true) rfl] _ (List.prefix_refl _)
    revert answered
    simp only [AcksPayloads]
    decide +kernel
  · intro recorded
    have onRecord : (Machine.run (arrive .silent) (started .baseStation .unspecified ⟨0,0⟩)
        (payloadFrom ⟨0x0aed0002,0⟩)).reliabilityManager.ackedSequences
          (getEndpointKey ⟨0x0aed0002,0⟩) 7 = true := by decide +kernel
    obtain ⟨_,_,acked⟩ := recorded _ (List.prefix_refl _) _ 7 onRecord
    have nothing : (ackedSince (Machine.trace (arrive .silent) (ackEvents .silent)
        (started .baseStation .unspecified ⟨0,0⟩) (payloadFrom ⟨0x0aed0002,0⟩))).length = 0 := by
      decide +kernel
    rw [List.eq_nil_of_length_eq_zero nothing] at acked
    cases acked trivial

end Lumen.LumenProtocol
