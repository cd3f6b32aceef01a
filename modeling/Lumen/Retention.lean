import Lumen.Answers
import Lumen.StoreForward
import Lumen.Text

/-! What becomes of the messages that the rover has handed to the protocol and that no ACK has
answered. They stay in the retransmission table until a check gives them up or the numbers are
restarted, and neither moves them to the store: after a restart the rover has only those that
were given to it once more during the outage. -/
namespace Lumen.LumenProtocol

open ReliabilityManager Endpoint

theorem processAll_tracked (packets : List LumenPacket) (s : LumenProtocol) (endpoint : Endpoint)
    (seq : UInt8) (valid : Tracking s) (rover : s.mode = .rover)
    (other : ∀ packet ∈ packets, ackNumber packet ≠ some seq) :
    (packets.foldl (fun s packet => s.processCompletePacket packet endpoint) s).tracked seq =
      s.tracked seq := by
  induction packets generalizing s with
  | nil => rfl
  | cons packet rest ih =>
    have aging := processCompletePacket_ages s packet endpoint
    have one := processCompletePacket_tracked s packet endpoint valid rover
    rw [List.foldl_cons,ih _ (aging.tracking valid) (aging.mode.trans rover)
      fun later member => other later (List.mem_cons_of_mem _ member),one]
    cases acks : ackNumber packet with
    | none => rfl
    | some number =>
      refine Function.update_of_ne (fun same : seq = number => ?_) _ _
      exact other packet List.mem_cons_self (by rw [acks,same])

/-- The packets processed between two states. -/
def processedSince (s t : LumenProtocol) : List LumenPacket :=
  (t.processed.drop s.processed.length).map Prod.fst

/-- A datagram at the rover takes away only entries that its ACKs answer. -/
theorem handleUdpData_tracked (codec : Codec) (s : LumenProtocol) (data : List UInt8)
    (endpoint : Endpoint) (seq : UInt8) (valid : Tracking s) (rover : s.mode = .rover)
    (other : ∀ packet ∈ processedSince s (handleUdpData codec s data endpoint),
      ackNumber packet ≠ some seq) :
    (handleUdpData codec s data endpoint).tracked seq = s.tracked seq := by
  rcases head_cases data with unframed | ⟨tail,rfl⟩
  · rw [handleUdpData_unframed_tracked codec s data endpoint unframed]
  · have framed := (handleUdpData_framed codec s tail endpoint valid.running).2.2
    rw [processedSince,framed,List.drop_left,List.map_map] at other
    rw [handleUdpData_eq codec s tail endpoint valid.running]
    have buffered := setFrameBuffer_ages s (getEndpointKey endpoint)
      (s.frameBuffers (getEndpointKey endpoint) ++ lumenStx :: tail)
    exact processAll_tracked _ _ endpoint seq (buffered.tracking valid) rover fun packet member =>
      other packet (List.mem_map.mpr ⟨packet,member,rfl⟩)

/-- A check that gives nothing up keeps every entry, with its packet and recipient. -/
theorem handleRetransmissionTimer_kept (s : LumenProtocol) (seq : UInt8) (info : SentPacketInfo)
    (valid : Tracking s) (rover : s.mode = .rover) (present : s.tracked seq = some info)
    (patient : SentPacketInfo.verdict s.clock.steady info ≠ .abandon) :
    ∃ later, s.handleRetransmissionTimer.tracked seq = some later ∧
      later.packet = info.packet ∧ later.recipient = info.recipient := by
  rw [tracked,handleRetransmissionTimer_manager,handleRetransmissionTimer_table _ _ _ valid.managerRunning
    (by rw [valid.managerRole,rover]; rfl)]
  change s.reliabilityManager.sentPackets seq = some info at present
  rw [present,Option.bind_some,aged]
  cases verdict : SentPacketInfo.verdict s.clock.steady info with
  | keep => exact ⟨info,rfl,rfl,rfl⟩
  | retransmit => exact ⟨_,rfl,rfl,rfl⟩
  | abandon => exact absurd verdict patient

/-! ### Calls and the table -/

/-- A node that has been stopped. -/
structure Halted (s : LumenProtocol) : Prop where
  running : s.running = false
  managerRunning : s.reliabilityManager.running = false

theorem stop_halted (s : LumenProtocol) (node : Tracking s ∨ Halted s) :
    Halted s.stop ∧ s.stop.tracked = s.tracked ∧ s.stop.effects = s.effects := by
  rcases node with valid | halted
  · have stopped : s.stop = { s with
        running := false
        reliabilityManager := s.reliabilityManager.stop } := if_neg (by simp [valid.running])
    rw [stopped]
    exact ⟨⟨rfl,rfl⟩,rfl,rfl⟩
  · have ignored : s.stop = s := if_pos (by simp [halted.running])
    rw [ignored]
    exact ⟨halted,rfl,rfl⟩

namespace Halted

theorem giveAll (halted : Halted s) (calls : List Call) : s.giveAll calls = s := by
  induction calls with
  | nil => rfl
  | cons call rest ih =>
    have ignored : s.give call = s := by simp [give,sendMessage,halted.running]
    change (s.give call).giveAll rest = s
    rw [ignored,ih]

theorem step {codec : Codec} (halted : Halted s) (event : Input)
    (external : event.isExternal = true) :
    Halted (s.step codec event) ∧ (s.step codec event).tracked = s.tracked ∧
      (s.step codec event).processed = s.processed := by
  cases event with
  | datagram data endpoint =>
    have ignored : handleUdpData codec s data endpoint = s := by
      simp [handleUdpData,halted.running]
    rw [LumenProtocol.step,ignored]
    exact ⟨halted,rfl,rfl⟩
  | retransmissionTimer =>
    have ignored : s.handleRetransmissionTimer = s := by
      simp [handleRetransmissionTimer,ReliabilityManager.handleRetransmissionTimer,
        halted.managerRunning]
    rw [LumenProtocol.step,ignored]
    exact ⟨halted,rfl,rfl⟩
  | cleanupTimer =>
    have ignored : s.handleCleanupTimer = s := by
      simp [handleCleanupTimer,ReliabilityManager.handleCleanupTimer,halted.managerRunning]
    rw [LumenProtocol.step,ignored]
    exact ⟨halted,rfl,rfl⟩
  | tick => exact ⟨⟨halted.running,halted.managerRunning⟩,rfl,rfl⟩
  | sendMessage | resetSequenceNumber | setSessionActive => cases external

end Halted

/-- No call replaces an entry. -/
theorem give_kept (s : LumenProtocol) (call : Call) (seq : UInt8) (info : SentPacketInfo)
    (valid : Tracking s) (present : s.tracked seq = some info) :
    (s.give call).tracked seq = some info := by
  rcases sendMessage_tracked_cases s call.payload call.type call.priority call.recipient valid with
    unchanged | ⟨_,_,filled⟩
  · rw [give,unchanged,present]
  · rw [give,filled]
    by_cases current : seq = s.currentSequence
    · subst current
      rw [Function.update_self,present,Option.getD_some]
    · rw [Function.update_of_ne current,present]

theorem giveAll_tracking (calls : List Call) (s : LumenProtocol) (valid : Tracking s) :
    Tracking (s.giveAll calls) := by
  induction calls generalizing s with
  | nil => exact valid
  | cons call rest ih => exact ih _ (sendMessage_tracking s _ _ _ _ valid)

theorem giveAll_kept (calls : List Call) (s : LumenProtocol) (seq : UInt8) (info : SentPacketInfo)
    (valid : Tracking s) (present : s.tracked seq = some info) :
    (s.giveAll calls).tracked seq = some info := by
  induction calls generalizing s with
  | nil => exact present
  | cons call rest ih =>
    exact ih _ (sendMessage_tracking s _ _ _ _ valid) (give_kept s call seq info valid present)

/-- The next numbers to be given out are not in use. -/
def FreeAhead (s : LumenProtocol) (count : Nat) : Prop :=
  count ≤ 256 ∧ ∀ i < count, s.tracked (s.currentSequence + UInt8.ofNat i) = none

instance (s : LumenProtocol) (count : Nat) : Decidable (FreeAhead s count) :=
  inferInstanceAs (Decidable (_ ∧ ∀ i, i < count → _))

/-- The packet is in the table for this recipient. -/
def Tracks (s : LumenProtocol) (packet : LumenPacket) (recipient : Endpoint) : Prop :=
  ∃ info, s.tracked packet.header.sequence = some info ∧ info.packet = packet ∧
    info.recipient = recipient

theorem Tracks.giveAll (tracks : Tracks s packet recipient) (valid : Tracking s)
    (calls : List Call) : Tracks (s.giveAll calls) packet recipient := by
  obtain ⟨info,present,same⟩ := tracks
  exact ⟨info,giveAll_kept calls s _ info valid present,same⟩

/-- What a call sends under a free number is tracked. -/
theorem give_tracks (s : LumenProtocol) (call : Call) (packet : LumenPacket) (recipient : Endpoint)
    (valid : Tracking s) (free : s.tracked s.currentSequence = none)
    (sent : .transmit packet recipient ∈ newEffects s (s.give call))
    (payload : CarriesPayload packet) : Tracks (s.give call) packet recipient := by
  have effects := sendMessage_effects s call.payload call.type call.priority call.recipient
  rw [newEffects,give,effects,List.drop_left] at sent
  obtain ⟨target,reaches,same⟩ := List.mem_map.mp sent
  cases same
  rw [Option.mem_toList] at reaches
  simp only [destination,valid.running,Bool.not_true,Bool.false_eq_true,if_false] at reaches
  have known := Option.eq_some_of_filter_eq_some reaches
  have filled := sendMessage_tracked s call.payload call.type call.priority call.recipient recipient
    valid payload known
  rw [free,Option.getD_none] at filled
  refine ⟨⟨s.nextPacket call.payload call.type call.priority,s.clock.steady,0,recipient⟩,?_,rfl,rfl⟩
  rw [give,filled]
  exact Function.update_self ..

theorem newEffects_trans (first : s.effects <+: t.effects) (second : t.effects <+: u.effects) :
    newEffects s u = newEffects s t ++ newEffects t u := by
  obtain ⟨before,added⟩ := first
  obtain ⟨after,grown⟩ := second
  simp only [newEffects,← grown,← added,List.append_assoc,List.drop_left]
  rw [← List.append_assoc,List.drop_left]

theorem ahead_ne (number : UInt8) (i : Nat) (positive : 0 < i) (small : i < 256) :
    number + UInt8.ofNat i ≠ number := by
  intro same
  have zero : UInt8.ofNat i = 0 := by simpa using same
  have value := congrArg UInt8.toNat zero
  rw [UInt8.toNat_ofNat_of_lt' small] at value
  exact absurd value (Nat.ne_of_gt positive)

theorem FreeAhead.give {s : LumenProtocol} {call : Call} {count : Nat} (valid : Tracking s)
    (free : FreeAhead s (count + 1)) : FreeAhead (s.give call) count := by
  refine ⟨Nat.le_of_succ_le free.1,fun i within => ?_⟩
  have next := sendMessage_currentSequence s call.payload call.type call.priority call.recipient
    valid.running
  have place : (s.give call).currentSequence + UInt8.ofNat i =
      s.currentSequence + UInt8.ofNat (i + 1) := by
    rw [LumenProtocol.give,next,UInt8.ofNat_add,UInt8.add_assoc,UInt8.add_comm (UInt8.ofNat i)]
    rfl
  have absent := free.2 (i + 1) (Nat.succ_lt_succ within)
  have bounded := free.1
  have apart := ahead_ne s.currentSequence (i + 1) (Nat.succ_pos i) (by omega)
  rw [place]
  rcases sendMessage_tracked_cases s call.payload call.type call.priority call.recipient valid with
    unchanged | ⟨_,_,filled⟩
  · rw [LumenProtocol.give,unchanged,absent]
  · rw [LumenProtocol.give,filled,Function.update_of_ne apart,absent]

theorem giveAll_tracks (calls : List Call) (s : LumenProtocol) (packet : LumenPacket)
    (recipient : Endpoint) (valid : Tracking s) (free : FreeAhead s calls.length)
    (sent : .transmit packet recipient ∈ newEffects s (s.giveAll calls))
    (payload : CarriesPayload packet) : Tracks (s.giveAll calls) packet recipient := by
  induction calls generalizing s with
  | nil => simp [giveAll,newEffects] at sent
  | cons call rest ih =>
    have first := (sendMessage_undisturbed s call.payload call.type call.priority
      call.recipient).effects
    have after := sendMessage_tracking s call.payload call.type call.priority call.recipient valid
    have split := newEffects_trans first (giveAll_undisturbed (s.give call) rest).effects
    change _ ∈ newEffects s ((s.give call).giveAll rest) at sent
    change Tracks ((s.give call).giveAll rest) packet recipient
    rw [split] at sent
    rcases List.mem_append.mp sent with now | later
    · have here : s.tracked s.currentSequence = none := by simpa using free.2 0 (Nat.succ_pos _)
      exact (give_tracks s call packet recipient valid here now payload).giveAll after rest
    · exact ih (s.give call) after (free.give valid) later

end Lumen.LumenProtocol

namespace Lumen.Rover

open Endpoint LumenProtocol

variable (codec : Codec)

/-! ### Messages without an ACK -/

/-- Status, telemetry and basic messages. -/
def IsApplication (packet : LumenPacket) : Prop :=
  packet.header.type = .data ∨ packet.header.type = .status

instance (packet : LumenPacket) : Decidable (IsApplication packet) :=
  inferInstanceAs (Decidable (_ ∨ _))

theorem IsApplication.carriesPayload (application : IsApplication packet) :
    CarriesPayload packet := by
  rcases application with data | status
  · simp [CarriesPayload,data,MessageType.data,MessageType.ack,MessageType.nak]
  · simp [CarriesPayload,status,MessageType.status,MessageType.ack,MessageType.nak]

/-- What matters for the question which messages are without an ACK. -/
inductive Exchange where
  | handed (packet : LumenPacket)
  | acked (seq : UInt8)

/-- The packet in an effect, when it carries an application message to the base station. -/
def applicationPacket (base : Option Endpoint) : Effect → Option LumenPacket
  | .transmit packet recipient =>
    if base = some recipient ∧ IsApplication packet then some packet else none
  | _ => none

/-- The application messages for the base station that a step hands to the protocol in a
session. -/
def handedPackets (s : Rover) (input : Input) : List LumenPacket :=
  if (s.step codec input).sessionState = .active then
    (newEffects s.manager.protocol (s.step codec input).manager.protocol).filterMap
      (applicationPacket s.getBaseEndpoint)
  else []

/-- Below the message layer ACKs are processed and packets repeated; everything else hands
messages over. -/
def exchanges (s : Rover) (input : Input) : List Exchange :=
  match input with
  | .protocol event _ =>
    ((processedSince s.manager.protocol (s.manager.protocol.step codec event)).filterMap
      ackNumber).map .acked
  | input => (s.handedPackets codec input).map .handed

def settle (packets : List LumenPacket) : Exchange → List LumenPacket
  | .handed packet => packets ++ [packet]
  | .acked seq => packets.filter fun packet => packet.header.sequence ≠ seq

/-- The messages handed over whose number no ACK has named since. -/
def outstanding (events : List Exchange) : List LumenPacket := events.foldl settle []

theorem mem_outstanding_handed (events : List Exchange) (packets : List LumenPacket)
    (packet : LumenPacket) :
    packet ∈ outstanding (events ++ packets.map .handed) ↔
      packet ∈ outstanding events ∨ packet ∈ packets := by
  induction packets using List.reverseRecOn with
  | nil => simp
  | append_singleton done last ih =>
    rw [List.map_append,← List.append_assoc,outstanding,List.foldl_append]
    simp only [List.map_cons,List.map_nil,List.foldl_cons,List.foldl_nil,settle]
    change packet ∈ outstanding (events ++ done.map .handed) ++ [last] ↔ _
    rw [List.mem_append,ih,List.mem_append,or_assoc]

theorem mem_outstanding_acked (events : List Exchange) (seqs : List UInt8) (packet : LumenPacket) :
    packet ∈ outstanding (events ++ seqs.map .acked) ↔
      packet ∈ outstanding events ∧ packet.header.sequence ∉ seqs := by
  induction seqs using List.reverseRecOn with
  | nil => simp
  | append_singleton done last ih =>
    rw [List.map_append,← List.append_assoc,outstanding,List.foldl_append]
    simp only [List.map_cons,List.map_nil,List.foldl_cons,List.foldl_nil,settle]
    change packet ∈ (outstanding (events ++ done.map .acked)).filter _ ↔ _
    rw [List.mem_filter,ih]
    simp [and_assoc]

/-- The rover still has the message, in its store or in the retransmission table. -/
def Held (s : Rover) (packet : LumenPacket) : Prop :=
  (∃ stored ∈ s.storedPackets, stored.payload = packet.payload ∧ stored.type = packet.header.type) ∨
  (∃ seq info, s.manager.protocol.tracked seq = some info ∧
    info.packet.payload = packet.payload ∧ info.packet.header.type = packet.header.type)

/-- A step that loses no application message for the base station from the table: the numbers are
not restarted, a check gives none up, and one is handed over only under a number that is not in
use. -/
def Retains (s : Rover) : Input → Prop
  | .runPosted position => s.posted[position]? ≠ some .resetSequence
  | .protocol .retransmissionTimer _ => ∀ seq info, s.manager.protocol.tracked seq = some info →
      s.getBaseEndpoint = some info.recipient → IsApplication info.packet →
      ReliabilityManager.SentPacketInfo.verdict s.manager.protocol.clock.steady info ≠ .abandon
  | .route message sender => s.FromBase "SESSION_ESTABLISHED" message sender →
      s.sessionState ≠ .active → FreeAhead s.manager.protocol
        (s.storedPackets.map StoredPacket.call ++
          s.reported codec sender [s.statusMessage,s.positionMessage]).length
  | input => s.sessionState = .active → (∃ message, s.offered input = some message ∧
      s.suppresses message = false) → FreeAhead s.manager.protocol 1

theorem Retains.offered {s : Rover} {input : Input} (retains : Retains codec s input)
    (active : s.sessionState = .active) (offers : ∃ message, s.offered input = some message ∧
      s.suppresses message = false) : FreeAhead s.manager.protocol 1 := by
  have none_ (nothing : s.offered input = none) : FreeAhead s.manager.protocol 1 := by
    obtain ⟨_,some_,_⟩ := offers
    cases nothing.symm.trans some_
  cases input with
  | runPosted | route => exact none_ rfl
  | protocol event external =>
    cases event with
    | retransmissionTimer => exact none_ rfl
    | _ => exact retains active offers
  | _ => exact retains active offers

/-- While no step loses one, every application message without an ACK is in the table. -/
structure Retained (events : List Exchange) (s : Rover) : Prop where
  node : Tracking s.manager.protocol ∧ s.manager.protocol.mode = .rover ∨
    Halted s.manager.protocol
  tracked : ∀ packet ∈ outstanding events, IsApplication packet ∧
    ∃ base, s.getBaseEndpoint = some base ∧ Tracks s.manager.protocol packet base

theorem mem_handedPackets (member : packet ∈ handedPackets codec s input) :
    (s.step codec input).sessionState = .active ∧ IsApplication packet ∧
      ∃ base, s.getBaseEndpoint = some base ∧ .transmit packet base ∈
        newEffects s.manager.protocol (s.step codec input).manager.protocol := by
  simp only [handedPackets] at member
  split at member
  · next active =>
    obtain ⟨effect,present,shown⟩ := List.mem_filterMap.mp member
    cases effect with
    | transmit sent recipient =>
      simp only [applicationPacket] at shown
      split at shown
      · next fits =>
        cases shown
        exact ⟨active,fits.2,recipient,fits.1,present⟩
      · cases shown
    | processing | callback | timeout => cases shown
  · cases member

/-- The layers below an unchanged table and an unchanged log. -/
theorem Retained.unchanged {events : List Exchange} {s t : Rover} {packets : List LumenPacket}
    (retained : Retained events s) (registered : t.getBaseEndpoint = s.getBaseEndpoint)
    (node : Tracking t.manager.protocol ∧ t.manager.protocol.mode = .rover ∨
      Halted t.manager.protocol)
    (table : t.manager.protocol.tracked = s.manager.protocol.tracked)
    (nothing : packets = []) : Retained (events ++ packets.map .handed) t := by
  refine ⟨node,fun packet member => ?_⟩
  rw [nothing,List.map_nil,List.append_nil] at member
  obtain ⟨application,base,known,info,present,same⟩ := retained.tracked packet member
  refine ⟨application,base,registered.trans known,info,?_,same⟩
  rw [table,present]

theorem handedPackets_silent (s : Rover) (input : Input)
    (silent : (s.step codec input).manager.protocol.effects = s.manager.protocol.effects) :
    s.handedPackets codec input = [] := by
  simp [handedPackets,newEffects,silent]

/-- Calls made under free numbers. -/
theorem Retained.calls {events : List Exchange} {s : Rover} {input : Input} {calls : List Call}
    (retained : Retained events s)
    (given : (s.step codec input).manager.protocol = s.manager.protocol.giveAll calls)
    (free : ∀ packet ∈ s.handedPackets codec input, FreeAhead s.manager.protocol calls.length) :
    Retained (events ++ (s.handedPackets codec input).map .handed) (s.step codec input) := by
  have registered := step_registered codec s input
  rcases retained.node with ⟨valid,rover⟩ | halted
  · have same := giveAll_undisturbed s.manager.protocol calls
    have after := giveAll_tracking calls s.manager.protocol valid
    refine ⟨Or.inl ⟨given ▸ after,by rw [given]; exact same.mode.trans rover⟩,?_⟩
    intro packet member
    rw [registered,given]
    rcases (mem_outstanding_handed events _ packet).mp member with earlier | now
    · obtain ⟨application,base,known,tracks⟩ := retained.tracked packet earlier
      exact ⟨application,base,known,tracks.giveAll valid calls⟩
    · obtain ⟨_,application,base,known,sent⟩ := mem_handedPackets codec now
      rw [given] at sent
      exact ⟨application,base,known,giveAll_tracks calls _ packet base valid (free packet now) sent
        application.carriesPayload⟩
  · rw [halted.giveAll] at given
    have silent := handedPackets_silent codec s input (by rw [given])
    exact retained.unchanged registered (Or.inr (given ▸ halted)) (by rw [given]) silent

/-- One call: what goes to the base station as an application message was offered. -/
theorem hands_free (s : Rover) (input : Input) (calls : List Call) (few : calls.length ≤ 1)
    (given : (s.step codec input).manager.protocol = s.manager.protocol.giveAll calls)
    (rover : s.manager.protocol.mode = .rover) (active : s.sessionState = .active)
    (application : ∀ call ∈ calls, call.type ≠ .cmd →
      call.recipient.isUnspecified = true ∨ s.getBaseEndpoint = some call.recipient →
      ∃ message, s.offered input = some message ∧ s.suppresses message = false)
    (retains : Retains codec s input) (member : packet ∈ s.handedPackets codec input) :
    FreeAhead s.manager.protocol calls.length := by
  obtain ⟨_,isApplication,base,known,sent⟩ := mem_handedPackets codec member
  rw [given] at sent
  match calls,few with
  | [],_ => simp [giveAll,newEffects] at sent
  | [call],_ =>
    have effects := sendMessage_effects s.manager.protocol call.payload call.type call.priority
      call.recipient
    change _ ∈ newEffects _ (s.manager.protocol.give call) at sent
    rw [newEffects,give,effects,List.drop_left] at sent
    obtain ⟨target,reaches,same⟩ := List.mem_map.mp sent
    cases same
    have other : call.type ≠ .cmd := by
      rintro command
      rcases isApplication with data | status
      · cases command.symm.trans data
      · cases command.symm.trans status
    refine retains.offered codec active (application call List.mem_cons_self other ?_)
    rw [Option.mem_toList] at reaches
    simp only [destination] at reaches
    split at reaches
    · cases reaches
    · have target := Option.eq_some_of_filter_eq_some reaches
      simp only [targetEndpoint,rover] at target
      split at target
      · next open_ => exact Or.inl open_
      · cases target
        exact Or.inr known

theorem step_messages_retained (events : List Exchange) (s : Rover) (input : Input)
    (retained : Retained events s) (retains : Retains codec s input)
    (above : ∀ event external, input ≠ .protocol event external) :
    Retained (events ++ (s.handedPackets codec input).map .handed) (s.step codec input) := by
  have registered := step_registered codec s input
  cases step_moves codec s input with
  | below event external same => exact absurd same (above event external)
  | stores message base offers known lost same =>
    have silent : (s.step codec input).manager = s.manager := same.manager
    exact retained.unchanged registered (by rw [silent]; exact retained.node) (by rw [silent])
      (handedPackets_silent codec s input (by rw [silent]))
  | stops same after =>
    obtain ⟨halted,table,silent⟩ := stop_halted s.manager.protocol
      (retained.node.imp And.left id)
    have protocol : (s.step codec input).manager.protocol = s.manager.protocol.stop := by
      rw [after]
      rfl
    exact retained.unchanged registered (Or.inr (protocol ▸ halted)) (by rw [protocol,table])
      (handedPackets_silent codec s input (by rw [protocol,silent]))
  | resets position same queued =>
    subst same
    exact absurd queued retains
  | hands calls few hands settled application =>
    refine retained.calls codec hands.protocol fun packet member => ?_
    have now := (mem_handedPackets codec member).1
    have active : s.sessionState = .active := settled.wasActive now
    rcases retained.node with ⟨_,rover⟩ | halted
    · exact hands_free codec s input calls few hands.protocol rover active application retains
        member
    · have same := hands.protocol
      rw [halted.giveAll] at same
      rw [handedPackets_silent codec s input (by rw [same])] at member
      cases member
  | forwards base known announced apart active emptied given =>
    obtain ⟨message,sender,rfl,fromBase⟩ := announced
    refine retained.calls codec given fun packet member => ?_
    have same : base = sender := Option.some.inj (known.symm.trans fromBase.2.1)
    rw [same]
    exact retains fromBase apart

/-- Below the message layer, an entry that no ACK names is kept unless it is given up. -/
theorem below_tracks (s : LumenProtocol) (event : LumenProtocol.Input)
    (external : event.isExternal = true) (packet : LumenPacket) (base : Endpoint)
    (valid : Tracking s) (rover : s.mode = .rover) (tracks : Tracks s packet base)
    (patient : event = .retransmissionTimer → ∀ info,
      s.tracked packet.header.sequence = some info → info.packet = packet →
      ReliabilityManager.SentPacketInfo.verdict s.clock.steady info ≠ .abandon)
    (unanswered : packet.header.sequence ∉
      (processedSince s (s.step codec event)).filterMap ackNumber) :
    Tracks (s.step codec event) packet base := by
  obtain ⟨info,present,samePacket,sameBase⟩ := tracks
  cases event with
  | datagram data endpoint =>
    refine ⟨info,?_,samePacket,sameBase⟩
    rw [LumenProtocol.step,handleUdpData_tracked codec s data endpoint _ valid rover,present]
    intro other member acks
    exact unanswered (List.mem_filterMap.mpr ⟨other,member,acks⟩)
  | retransmissionTimer =>
    obtain ⟨later,kept,packet',recipient'⟩ := handleRetransmissionTimer_kept s _ info valid rover
      present (patient rfl info present samePacket)
    exact ⟨later,kept,packet'.trans samePacket,recipient'.trans sameBase⟩
  | cleanupTimer =>
    refine ⟨info,?_,samePacket,sameBase⟩
    rw [← present]
    exact congrFun (ReliabilityManager.handleCleanupTimer_sentPackets _ _) _
  | tick => exact ⟨info,present,samePacket,sameBase⟩
  | sendMessage | resetSequenceNumber | setSessionActive => cases external

theorem step_retained (events : List Exchange) (s : Rover) (input : Input)
    (retained : Retained events s) (retains : Retains codec s input) :
    Retained (events ++ s.exchanges codec input) (s.step codec input) := by
  by_cases above : ∀ event external, input ≠ .protocol event external
  · have handed : s.exchanges codec input = (s.handedPackets codec input).map .handed := by
      cases input with
      | protocol event external => exact absurd rfl (above event external)
      | _ => rfl
    rw [handed]
    exact step_messages_retained codec events s input retained retains above
  · push Not at above
    obtain ⟨event,external,rfl⟩ := above
    rcases retained.node with ⟨valid,rover⟩ | halted
    · refine ⟨Or.inl ⟨step_tracking codec _ event valid,
        (step_mode codec _ event valid).trans rover⟩,fun packet member => ?_⟩
      obtain ⟨earlier,unanswered⟩ := (mem_outstanding_acked events _ packet).mp member
      obtain ⟨application,base,known,tracks⟩ := retained.tracked packet earlier
      refine ⟨application,base,(step_registered codec s _).trans known,?_⟩
      refine below_tracks codec s.manager.protocol event external packet base valid rover tracks ?_
        unanswered
      rintro rfl info present samePacket
      obtain ⟨other,found,_,sameBase⟩ := tracks
      cases found.symm.trans present
      exact retains _ _ present (sameBase ▸ known) (samePacket ▸ application)
    · obtain ⟨after,table,marks⟩ := halted.step event external
      refine ⟨Or.inr after,fun packet member => ?_⟩
      obtain ⟨earlier,_⟩ := (mem_outstanding_acked events _ packet).mp member
      obtain ⟨application,base,known,info,present,same⟩ := retained.tracked packet earlier
      exact ⟨application,base,(step_registered codec s _).trans known,info,by
        rw [← present]; exact congrFun table _,same⟩

theorem launched_tracking (roverId : String) (base : Endpoint) (clock : Clock) :
    Tracking (new roverId base clock).launched.manager.protocol := by
  have setup := (ReliabilityManager.new .rover).start_setup clock.steady
  refine ⟨rfl,setup.1,setup.2,fun seq info present => ?_⟩
  have table : (new roverId base clock).launched.manager.protocol.tracked =
      ((ReliabilityManager.new .rover).start clock.steady).sentPackets := by
    simp [launched,MessageManager.start,new,LumenProtocol.start,LumenProtocol.new,tracked,
      ProtocolMode.role]
  rw [table,ReliabilityManager.start_sentPackets _ clock.steady rfl] at present
  cases present

theorem started_retained (roverId : String) (base : Endpoint) (clock : Clock) :
    Retained [] (started codec roverId base clock) := by
  obtain ⟨calls,_,_,hands⟩ := sendCommand_hands codec
    (((new roverId base clock).launched.enter .handshakeInit).setHandshakeRetryCount 0)
    "SESSION_INIT" roverId
  have protocol : (started codec roverId base clock).manager.protocol =
      (new roverId base clock).launched.manager.protocol.giveAll calls := hands.protocol
  refine ⟨Or.inl ?_,fun packet member => ?_⟩
  · rw [protocol]
    exact ⟨giveAll_tracking calls _ (launched_tracking roverId base clock),
      (giveAll_undisturbed _ calls).mode⟩
  · cases member

/-- As long as the numbers are not restarted, no check gives such a message up and none is handed over
under a number in use: every application message for the base station that was handed over in a
session and that no ACK has answered is in the table, with its packet. -/
theorem unanswered_messages_tracked (roverId : String) (base : Endpoint) (clock : Clock)
    (inputs : List Input)
    (retains : Machine.Guarded (step codec) (Retains codec) (started codec roverId base clock)
      inputs) :
    ∀ packet ∈ outstanding (Machine.trace (step codec) (exchanges codec)
        (started codec roverId base clock) inputs),
      Tracks (Machine.run (step codec) (started codec roverId base clock) inputs).manager.protocol
        packet base := by
  intro packet member
  have retained := Machine.run_trace (step codec) (exchanges codec) _
    (started_retained codec roverId base clock) (step_retained codec) inputs retains
  obtain ⟨_,known,registered,tracks⟩ := retained.tracked packet member
  have same := (initiateHandshake_steady codec (new roverId base clock).launched).registered
  have first : (new roverId base clock).launched.getBaseEndpoint = some known :=
    same.symm.trans ((run_registered codec _ inputs).symm.trans registered)
  obtain ⟨_,named⟩ := Option.ite_none_left_eq_some.mp first
  cases Option.some.inj named
  exact tracks

/-- Both reports of a session wait for their ACKs, one check later. -/
def reportsUnanswered : List Input :=
  [fromStation "SESSION_ACCEPT",fromStation "SESSION_ESTABLISHED",seconds 6,retransmissionCheck]

theorem reportsUnanswered_tracked :
    let s := Machine.run (step .silent) sampleStart reportsUnanswered
    let packets := outstanding (Machine.trace (step .silent) (exchanges .silent) sampleStart
      reportsUnanswered)
    packets.length = 2 ∧ ∀ packet ∈ packets, Tracks s.manager.protocol packet sampleStation := by
  refine ⟨by decide +kernel,?_⟩
  refine unanswered_messages_tracked .silent "rover-a" sampleStation ⟨0,0⟩ reportsUnanswered ?_
  have patient : ∀ seq ∈ ReliabilityManager.sequences,
      ((Machine.run (step .silent) sampleStart (reportsUnanswered.take 3)).manager.protocol.tracked
        seq).all (fun info => ReliabilityManager.SentPacketInfo.verdict 6000000000 info ≠ .abandon) =
          true := by decide +kernel
  have time : (Machine.run (step .silent) sampleStart
      (reportsUnanswered.take 3)).manager.protocol.clock.steady = 6000000000 := by decide +kernel
  rw [← time] at patient
  change Machine.Guarded (step .silent) (Retains .silent) sampleStart _
  simp only [reportsUnanswered,Machine.guarded_cons]
  refine ⟨?_,?_,?_,?_,Machine.guarded_nil _ _ _⟩
  · intro announced
    exact absurd announced.2.2 (by decide)
  · intro _ _
    decide +kernel
  · rintro _ ⟨_,offers,_⟩
    cases offers
  · intro seq info present _ _
    have checked := patient seq (ReliabilityManager.mem_sequences seq)
    change ((Machine.run (step .silent) sampleStart
      (reportsUnanswered.take 3)).manager.protocol.tracked seq) = some info at present
    rw [present] at checked
    exact of_decide_eq_true checked

/-! ### After a restart of the numbers -/

/-- Disconnected, the rover is given a message for the base station and stores it so. -/
def Stows (s : Rover) (input : Input) (stored : StoredPacket) : Prop :=
  s.sessionState = .disconnected ∧ ∃ message base, s.offered input = some message ∧
    s.suppresses message = false ∧ s.getBaseEndpoint = some base ∧
    stored = ⟨message,message.serialise codec,message.getLumenType,message.getLumenPriority,base⟩

/-- The store is neither forwarded nor thrown away. -/
def KeepsStore (s : Rover) (input : Input) : Prop :=
  input ≠ .stop ∧ ¬ s.becomesActive codec input

/-- An offered message is stored exactly when the session is lost and low power mode does not hold it
back. -/
theorem mem_storedPackets_offered (s : Rover) (input : Input) (message : Message)
    (stored : StoredPacket) (offers : s.offered input = some message) :
    stored ∈ (s.step codec input).storedPackets ↔
      Stows codec s input stored ∨ stored ∈ s.storedPackets ∧ KeepsStore codec s input := by
  have same := step_offered codec s input message offers
  have live : input ≠ .stop := by
    rintro rfl
    cases offers
  have settled : (s.step codec input).sessionState = s.sessionState := by
    rw [same.sessionState]
    rcases report_cases codec s message with ignored | ⟨_,_,_,kept | sent⟩
    · rw [ignored]
    · rw [kept.2]
      rfl
    · rw [sent.2]
      rfl
  have keeps : KeepsStore codec s input :=
    ⟨live,fun becomes => becomes.1 (settled.symm.trans becomes.2)⟩
  have stows (stored : StoredPacket) : Stows codec s input stored ↔ s.sessionState = .disconnected ∧
      ∃ base, s.suppresses message = false ∧ s.getBaseEndpoint = some base ∧
        stored = ⟨message,message.serialise codec,message.getLumenType,message.getLumenPriority,
          base⟩ := by
    simp [Stows,offers]
  rw [same.stored,stows]
  simp only [keeps,and_true]
  cases registered : s.getBaseEndpoint with
  | none => simp [report,registered]
  | some base =>
    cases held : s.suppresses message with
    | true => simp [report,registered,held]
    | false =>
      by_cases lost : s.sessionState = .disconnected
      · simp [report,registered,held,lost,storeMessageForLater,or_comm]
      · by_cases active : s.sessionState = .active
        · simp [report,registered,held,active,transmit]
        · simp [report,registered,held,lost,active]

/-- The store after a step: what the step stows, and what was there unless the step empties it. -/
theorem mem_storedPackets_step (s : Rover) (input : Input) (stored : StoredPacket) :
    stored ∈ (s.step codec input).storedPackets ↔
      Stows codec s input stored ∨ stored ∈ s.storedPackets ∧ KeepsStore codec s input := by
  cases offers : s.offered input with
  | some message => exact mem_storedPackets_offered codec s input message stored offers
  | none =>
    have nothing : ¬ Stows codec s input stored := by
      rintro ⟨_,message,_,offered,_⟩
      cases offers.symm.trans offered
    have unchanged (same : (s.step codec input).storedPackets = s.storedPackets)
        (settled : (s.step codec input).sessionState = .active → s.sessionState = .active)
        (live : input ≠ .stop) : stored ∈ (s.step codec input).storedPackets ↔
          Stows codec s input stored ∨ stored ∈ s.storedPackets ∧ KeepsStore codec s input := by
      have keeps : KeepsStore codec s input :=
        ⟨live,fun becomes => becomes.1 (settled becomes.2)⟩
      simp [same,nothing,keeps]
    by_cases live : input = .stop
    · subst live
      simp [nothing,KeepsStore,step,stop]
    · cases step_moves codec s input with
      | hands calls few hands settled => exact unchanged hands.stored settled.wasActive live
      | stores message base offered => cases offers.symm.trans offered
      | forwards base known announced apart active cleared =>
        simp [cleared,nothing,KeepsStore,becomesActive,apart,active]
      | below event external same kept sessionState =>
        exact unchanged kept (fun active => sessionState.symm.trans active) live
      | resets position same queued kept sessionState =>
        exact unchanged kept (fun active => sessionState.symm.trans active) live
      | stops same => exact absurd same live

/-- The message was given to the rover once more while it was disconnected, and what the rover stored
then has been neither forwarded nor thrown away since. -/
def Reoffered (start : Rover) (done : List Input) (packet : LumenPacket) : Prop :=
  ∃ before input after stored, done = before ++ input :: after ∧
    Stows codec (Machine.run (step codec) start before) input stored ∧
    stored.payload = packet.payload ∧ stored.type = packet.header.type ∧
    Machine.Guarded (step codec) (KeepsStore codec)
      (Machine.run (step codec) start (before ++ [input])) after

theorem stored_iff_reoffered (start : Rover) (empty : start.storedPackets = []) (done : List Input)
    (packet : LumenPacket) :
    (∃ stored ∈ (Machine.run (step codec) start done).storedPackets,
      stored.payload = packet.payload ∧ stored.type = packet.header.type) ↔
        Reoffered codec start done packet := by
  have waits := @Machine.waits_iff _ _ (step codec) _ (fun s stored => stored ∈ s.storedPackets) _ _
    (mem_storedPackets_step codec) start done
  constructor
  · rintro ⟨stored,member,same⟩
    rcases (waits stored).mp member with ⟨before,input,after,split,stows,kept⟩ | ⟨early,_⟩
    · exact ⟨before,input,after,stored,split,stows,same.1,same.2,kept⟩
    · rw [empty] at early
      cases early
  · rintro ⟨before,input,after,stored,split,stows,payload,type,kept⟩
    exact ⟨stored,(waits stored).mpr (Or.inl ⟨before,input,after,split,stows,kept⟩),payload,type⟩

/-- A restart of the numbers clears the table and does nothing else to what the rover holds. -/
theorem held_after_restart (s : Rover) (position : Nat) (packet : LumenPacket)
    (queued : s.posted[position]? = some .resetSequence) :
    Held (s.step codec (.runPosted position)) packet ↔
      ∃ stored ∈ s.storedPackets, stored.payload = packet.payload ∧
        stored.type = packet.header.type := by
  have cleared : (s.step codec (.runPosted position)).manager.protocol.tracked = fun _ => none := by
    simp only [step,runPosted,queued,runHandler]
    rfl
  have kept : (s.step codec (.runPosted position)).storedPackets = s.storedPackets := by
    simp only [step,runPosted,queued,runHandler]
  simp [Held,cleared,kept]

theorem exchanges_restart (s : Rover) (position : Nat)
    (queued : s.posted[position]? = some .resetSequence) :
    s.exchanges codec (.runPosted position) = [] := by
  have silent : s.handedPackets codec (.runPosted position) = [] := by
    apply handedPackets_silent
    simp only [step,runPosted,queued,runHandler]
    rfl
  rw [exchanges,silent,List.map_nil]
  intro event external impossible
  cases impossible

/-- In every run, whenever a posted restart of the numbers runs: the rover still holds every
application message for the base station that was handed over in a session and that no ACK has
answered if and only if each of them was given to it once more during the outage. -/
theorem restart_keeps_unanswered_iff (roverId : String) (base : Endpoint) (clock : Clock)
    (done : List Input) (position : Nat)
    (queued : (Machine.run (step codec) (started codec roverId base clock) done).posted[position]? =
      some .resetSequence) :
    (∀ packet ∈ outstanding (Machine.trace (step codec) (exchanges codec)
        (started codec roverId base clock) (done ++ [.runPosted position])),
      Held (Machine.run (step codec) (started codec roverId base clock)
        (done ++ [.runPosted position])) packet) ↔
    ∀ packet ∈ outstanding (Machine.trace (step codec) (exchanges codec)
        (started codec roverId base clock) done),
      Reoffered codec (started codec roverId base clock) done packet := by
  rw [Machine.trace_concat,exchanges_restart codec _ position queued,List.append_nil,
    Machine.run_concat]
  refine forall_congr' fun packet => imp_congr_right fun _ => ?_
  rw [held_after_restart codec _ position packet queued]
  exact stored_iff_reoffered codec _ (started_storedPackets codec roverId base clock) done packet

def ackOf (seq : UInt8) : LumenPacket := .new ⟨.ack,.high,0,0,1⟩ [seq]

def sampleNote : Input := .sendMessage ⟨"rover-a",0,.basic "ready"⟩ sampleStation

/-- Both reports of a session are acknowledged, a message is not. The session is lost, and the owner
gives the message to the rover again before the numbers are restarted. -/
def noteRepeated : List Input :=
  [fromStation "SESSION_ACCEPT",fromStation "SESSION_ESTABLISHED",
    .protocol (.datagram ((ackOf 2).toBytes ++ (ackOf 3).toBytes) sampleStation) rfl,
    sampleNote,.timeoutNotification sampleStation,.runPosted 1,sampleNote]

/-- A library that knows the text of the message. -/
def noteLibrary : Codec := Texts.library
  [[("content","ready"),("msg_type","BasicMessage"),("sender","rover-a"),
    ("timestamp","1970-01-01T00:00:00.000000000+0000")]]

def notePacket : LumenPacket :=
  let payload := (⟨"rover-a",0,.basic "ready"⟩ : Message).serialise noteLibrary
  .new ⟨.data,.medium,4,0,.ofNat payload.length⟩ payload

def isRestart : Posted → Bool
  | .resetSequence => true
  | _ => false

theorem queued_of_isRestart {found : Option Posted} (restart : found.any isRestart = true) :
    found = some .resetSequence := by
  cases found with
  | none => cases restart
  | some handler => cases handler <;> first | rfl | cases restart

theorem noteRepeated_held :
    let start := started noteLibrary "rover-a" sampleStation ⟨0,0⟩
    let packets := outstanding (Machine.trace (step noteLibrary) (exchanges noteLibrary) start
      (noteRepeated ++ [.runPosted 1]))
    packets = [notePacket] ∧ ∀ packet ∈ packets,
      Held (Machine.run (step noteLibrary) start (noteRepeated ++ [.runPosted 1])) packet := by
  intro start packets
  have queued : (Machine.run (step noteLibrary) start noteRepeated).posted[1]? =
      some .resetSequence := queued_of_isRestart (by decide +kernel)
  refine ⟨by decide +kernel,?_⟩
  refine (restart_keeps_unanswered_iff noteLibrary "rover-a" sampleStation ⟨0,0⟩ noteRepeated 1
    queued).mpr ?_
  have only : outstanding (Machine.trace (step noteLibrary) (exchanges noteLibrary) start
      noteRepeated) = [notePacket] := by decide +kernel
  intro packet member
  change packet ∈ outstanding (Machine.trace (step noteLibrary) (exchanges noteLibrary) start
    noteRepeated) at member
  rw [only] at member
  cases List.mem_singleton.mp member
  have offers (s : Rover) (known : s.getBaseEndpoint = some sampleStation) :
      s.offered sampleNote = some ⟨"rover-a",0,.basic "ready"⟩ := if_pos (Or.inr known)
  refine ⟨noteRepeated.dropLast,sampleNote,[],_,rfl,⟨by decide +kernel,_,sampleStation,
    offers _ (by decide +kernel),by decide +kernel,by decide +kernel,rfl⟩,rfl,rfl,
    Machine.guarded_nil _ _ _⟩

/-- The reports sent at the start of the session are given up with it; restarting the numbers
leaves the rover with neither. -/
theorem sessionLost_loses_reports :
    ¬ ∀ done position, done ++ [.runPosted position] <+: sessionLost ++ [.runPosted 4] →
      (Machine.run (step .silent) sampleStart done).posted[position]? = some .resetSequence →
      ∀ packet ∈ outstanding (Machine.trace (step .silent) (exchanges .silent) sampleStart
          (done ++ [.runPosted position])),
        Held (Machine.run (step .silent) sampleStart (done ++ [.runPosted position])) packet := by
  intro held
  have queued : (Machine.run (step .silent) sampleStart sessionLost).posted[4]? =
      some .resetSequence := queued_of_isRestart (by decide +kernel)
  have reports : (outstanding (Machine.trace (step .silent) (exchanges .silent) sampleStart
      (sessionLost ++ [.runPosted 4]))).length = 2 := by decide +kernel
  have empty : (Machine.run (step .silent) sampleStart sessionLost).storedPackets.length = 0 := by
    decide +kernel
  obtain ⟨packet,member⟩ := List.exists_mem_of_length_pos (reports ▸ Nat.two_pos)
  have still := held sessionLost 4 (List.prefix_refl _) queued packet member
  rw [Machine.run_concat,held_after_restart .silent _ 4 packet queued,
    List.eq_nil_of_length_eq_zero empty] at still
  obtain ⟨_,impossible,_⟩ := still
  cases impossible

end Lumen.Rover
