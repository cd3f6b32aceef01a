import Mathlib.Logic.Relation
import Lumen.BaseReplies
import Lumen.RoverReplies
import Lumen.Text

/-! What the nodes put on the wire. A packet is built once, for a message that is logged, and may
be transmitted again much later, from the table of the reliability manager or from the packets the
rover has stored; all that time it stays the packet of that message, for that endpoint. -/
namespace Lumen

open Endpoint Message Texts

namespace ReliabilityManager

/-- The check repeats packets of the table only. -/
theorem handleRetransmissionTimer_repeats (rm : ReliabilityManager) (now : Nat)
    (entry : LumenPacket × Endpoint) (listed : entry ∈ (rm.handleRetransmissionTimer now).2.1) :
    ∃ seq info, rm.sentPackets seq = some info ∧ entry = (info.packet,info.recipient) := by
  cases running : rm.running with
  | false =>
    simp only [handleRetransmissionTimer,running] at listed
    cases listed
  | true =>
    cases role : rm.role with
    | baseStation =>
      rw [handleRetransmissionTimer_baseStation rm now role] at listed
      cases listed
    | rover =>
      obtain ⟨seq,late⟩ := (mem_handleRetransmissionTimer rm now running role entry).mp listed
      obtain ⟨info,present,_,same⟩ := LumenProtocol.mem_due late
      exact ⟨seq,info,present,same⟩

/-- What the check leaves in the table was there before. -/
theorem handleRetransmissionTimer_fades (rm : ReliabilityManager) (now : Nat) (seq : UInt8)
    (later : SentPacketInfo)
    (left : (rm.handleRetransmissionTimer now).1.sentPackets seq = some later) :
    ∃ info, rm.sentPackets seq = some info ∧ later.packet = info.packet ∧
      later.recipient = info.recipient := by
  cases running : rm.running with
  | false =>
    simp only [handleRetransmissionTimer,running] at left
    exact ⟨later,left,rfl,rfl⟩
  | true =>
    cases role : rm.role with
    | baseStation =>
      rw [handleRetransmissionTimer_baseStation rm now role] at left
      exact ⟨later,left,rfl,rfl⟩
    | rover =>
      rw [handleRetransmissionTimer_table rm now seq running role] at left
      obtain ⟨info,present,aging⟩ := Option.bind_eq_some_iff.mp left
      exact ⟨info,present,aged_some aging⟩

theorem addSendPacket_adds (rm : ReliabilityManager) (now : Nat) (seq key : UInt8)
    (packet : LumenPacket) (recipient : Endpoint) (info : SentPacketInfo)
    (present : (rm.addSendPacket now seq packet recipient).sentPackets key = some info) :
    rm.sentPackets key = some info ∨ info.packet = packet ∧ info.recipient = recipient := by
  simp only [addSendPacket] at present
  split at present
  · exact Or.inl present
  · split at present
    · exact Or.inl present
    · dsimp only at present
      by_cases same : key = seq
      · rw [same,Function.update_self] at present
        cases present
        exact Or.inr ⟨rfl,rfl⟩
      · rw [Function.update_of_ne same] at present
        exact Or.inl present

end ReliabilityManager

namespace LumenProtocol

open ReliabilityManager

theorem SameNode.canSend (node : SameNode s t) : t.canSend = s.canSend := by
  cases s
  cases t
  obtain ⟨rfl,rfl,rfl,rfl,rfl⟩ := node
  rfl

/-! ### The socket -/

/-- Whatever was given to the socket satisfies a condition, and so does what may be given to it
again. -/
structure Emits (fine : LumenPacket → Endpoint → Prop) (s : LumenProtocol) : Prop where
  sent : ∀ packet recipient, .transmit packet recipient ∈ s.effects → fine packet recipient
  kept : ∀ seq info, s.tracked seq = some info → s.canSend info.recipient = true →
    fine info.packet info.recipient

namespace Emits

variable {fine : LumenPacket → Endpoint → Prop}

theorem mono {wider : LumenPacket → Endpoint → Prop} (emits : Emits fine s)
    (weaker : ∀ packet recipient, fine packet recipient → wider packet recipient) :
    Emits wider s where
  sent := fun packet recipient logged => weaker _ _ (emits.sent packet recipient logged)
  kept := fun seq info present able => weaker _ _ (emits.kept seq info present able)

/-- Entries may go, and nothing new is transmitted. -/
theorem fades (emits : Emits fine s) (effects : t.effects = s.effects)
    (able : ∀ recipient, t.canSend recipient = true → s.canSend recipient = true)
    (table : ∀ seq later, t.tracked seq = some later → ∃ info, s.tracked seq = some info ∧
      later.packet = info.packet ∧ later.recipient = info.recipient) : Emits fine t where
  sent := by
    rw [effects]
    exact emits.sent
  kept := by
    intro seq later present free
    obtain ⟨info,before,packet,recipient⟩ := table seq later present
    rw [packet,recipient]
    rw [recipient] at free
    exact emits.kept seq info before (able _ free)

theorem same (emits : Emits fine s) (effects : t.effects = s.effects) (able : t.canSend = s.canSend)
    (table : t.tracked = s.tracked) : Emits fine t := by
  apply emits.fades effects
  · rw [able]
    exact fun _ free => free
  · rw [table]
    exact fun seq later present => ⟨later,present,rfl,rfl⟩

theorem emit (emits : Emits fine s) (effect : Effect)
    (good : ∀ packet recipient, effect = .transmit packet recipient → fine packet recipient) :
    Emits fine (s.emit effect) where
  sent := by
    intro packet recipient logged
    rcases List.mem_append.mp logged with old | new
    · exact emits.sent packet recipient old
    · exact good packet recipient (List.mem_singleton.mp new).symm
  kept := emits.kept

theorem processing (emits : Emits fine s) (packet : LumenPacket) (endpoint : Endpoint) :
    Emits fine (s.emit (.processing packet endpoint)) := by
  apply emits.emit
  intro _ _ same
  cases same

theorem callback (emits : Emits fine s) (payload : List UInt8) (header : LumenHeader)
    (endpoint : Endpoint) : Emits fine (s.emit (.callback payload header endpoint)) := by
  apply emits.emit
  intro _ _ same
  cases same

theorem sendPacket (emits : Emits fine s) (packet : LumenPacket) (recipient : Endpoint)
    (good : s.canSend recipient = true → fine packet recipient) :
    Emits fine (s.sendPacket packet recipient) := by
  rw [sendPacket_eq]
  split
  · next able =>
    apply emits.emit
    intro other target same
    cases same
    exact good able
  · exact emits

end Emits

section Reception

variable {fine : LumenPacket → Endpoint → Prop} {s : LumenProtocol}
  (control : ∀ (s : LumenProtocol) (type : MessageType) (seq : UInt8) (recipient : Endpoint),
    type = .ack ∨ type = .nak → fine (s.nextPacket [seq] type .high) recipient)

include control

theorem Emits.sendAck (emits : Emits fine s) (seq : UInt8) (recipient : Endpoint) :
    Emits fine (s.sendAck seq recipient) := by
  simp only [LumenProtocol.sendAck]
  split
  · exact emits
  · apply Emits.sendPacket
    · exact emits.same rfl rfl (recordAckedSequence_sentPackets _ seq recipient)
    · exact fun _ => control _ _ _ _ (Or.inl rfl)

theorem Emits.sendNak (emits : Emits fine s) (seq : UInt8) (recipient : Endpoint) :
    Emits fine (s.sendNak seq recipient) := by
  simp only [LumenProtocol.sendNak]
  split
  · exact emits
  · split
    · exact emits
    · apply Emits.sendPacket
      · exact emits.same rfl rfl rfl
      · exact fun _ => control _ _ _ _ (Or.inr rfl)

theorem Emits.nakLoop (endpoint : Endpoint) (missing : List UInt8) (budget : Nat)
    (emits : Emits fine s) : Emits fine (nakLoop endpoint budget missing s) := by
  induction missing generalizing budget s with
  | nil =>
    unfold LumenProtocol.nakLoop
    exact emits
  | cons seq rest ih =>
    cases budget with
    | zero => exact emits
    | succ budget =>
      rw [LumenProtocol.nakLoop]
      split
      · exact ih _ emits
      · exact ih _ ((emits.sendNak control seq endpoint).same rfl rfl rfl)

theorem Emits.acknowledge (emits : Emits fine s) (seq : UInt8) (endpoint : Endpoint) :
    Emits fine (s.acknowledge seq endpoint).1 := by
  simp only [LumenProtocol.acknowledge]
  split
  · split
    · apply Emits.sendAck control
      exact emits.same rfl rfl (recordAckedSequence_sentPackets _ seq endpoint)
    · exact emits.sendAck control seq endpoint
  · exact emits

theorem Emits.accept (emits : Emits fine s) (seq : UInt8) (endpoint : Endpoint) :
    Emits fine (s.accept seq endpoint).1 := by
  simp only [LumenProtocol.accept]
  split
  · exact emits.acknowledge control seq endpoint
  · dsimp only
    split
    · apply Emits.nakLoop control
      exact emits.same rfl rfl rfl
    · exact emits.same rfl rfl rfl

/-- A packet is answered by an ACK, by NAKs, or by what the table holds for it. -/
theorem Emits.processCompletePacket (emits : Emits fine s) (packet : LumenPacket)
    (endpoint : Endpoint) : Emits fine (s.processCompletePacket packet endpoint) := by
  have marked : Emits fine (s.emit (.processing packet endpoint)) :=
    emits.processing packet endpoint
  have noted : Emits fine { s.emit (.processing packet endpoint) with
      reliabilityManager := s.reliabilityManager.recordReceivedSequence s.clock.steady
        packet.header.sequence endpoint } :=
    marked.same rfl rfl (recordReceivedSequence_sentPackets _ _ _ _)
  simp only [LumenProtocol.processCompletePacket]
  split
  · split
    · refine noted.fades rfl (fun _ free => free) ?_
      intro seq later present
      exact ⟨later,processAck_sentPackets_some present,rfl,rfl⟩
    · exact noted
  · split
    · split
      · split
        · next tracked recipient found =>
          apply noted.sendPacket
          intro able
          simp only [processNak] at found
          split at found
          · cases found
          · obtain ⟨info,present,same⟩ := Option.map_eq_some_iff.mp found
            cases same
            exact noted.kept _ info present able
        · exact noted
      · exact noted
    · have accepted := noted.accept control packet.header.sequence endpoint
      split
      · exact accepted.callback _ _ endpoint
      · exact accepted

theorem Emits.handleUdpData (codec : Codec) (emits : Emits fine s) (data : List UInt8)
    (endpoint : Endpoint) : Emits fine (handleUdpData codec s data endpoint) := by
  refine handleUdpData_keeps codec (Emits fine) endpoint ?_ ?_ ?_ s data emits
  · exact fun t key bytes before => before.same rfl rfl rfl
  · exact fun t packet before => before.processCompletePacket control packet endpoint
  · intro t payload before
    simp only [passUp]
    split
    · exact before.callback _ _ endpoint
    · exact before

end Reception

theorem Emits.handleRetransmissionTimer {fine : LumenPacket → Endpoint → Prop} {s : LumenProtocol}
    (emits : Emits fine s) : Emits fine s.handleRetransmissionTimer := by
  have node : SameNode s s.handleRetransmissionTimer :=
    (handleRetransmissionTimer_undisturbed s).sameNode
  constructor
  · rw [handleRetransmissionTimer_log]
    intro packet recipient logged
    rcases List.mem_append.mp logged with old | new
    · exact emits.sent packet recipient old
    · rcases List.mem_append.mp new with report | again
      · obtain ⟨_,_,same⟩ := List.mem_map.mp report
        cases same
      · obtain ⟨entry,listed,sends⟩ := List.mem_flatMap.mp again
        obtain ⟨able,same⟩ := mem_sent.mp sends
        obtain ⟨seq,info,present,rfl⟩ := handleRetransmissionTimer_repeats _ _ entry listed
        cases same
        exact emits.kept seq info present able
  · rw [node.canSend,tracked,handleRetransmissionTimer_manager]
    intro seq later left able
    obtain ⟨info,present,packet,recipient⟩ := handleRetransmissionTimer_fades _ _ seq later left
    rw [packet,recipient]
    rw [recipient] at able
    exact emits.kept seq info present able

/-- The table after a message: what it held, and the packet of the message for its target. -/
theorem sendMessage_adds (s : LumenProtocol) (payload : List UInt8) (type : MessageType)
    (priority : Priority) (recipient : Endpoint) (seq : UInt8) (info : SentPacketInfo)
    (present : (s.sendMessage payload type priority recipient).tracked seq = some info) :
    s.tracked seq = some info ∨ s.running = true ∧ info.packet = s.nextPacket payload type priority ∧
      s.targetEndpoint recipient = some info.recipient := by
  cases running : s.running with
  | false =>
    simp only [sendMessage,running] at present
    exact Or.inl present
  | true =>
    rw [sendMessage_running s payload type priority recipient running] at present
    split at present
    · exact Or.inl present
    · next target aims =>
      simp only [tracked,sendPacket_manager] at present
      split at present
      · rcases addSendPacket_adds _ _ _ seq _ target info present with old | ⟨packet,recipient⟩
        · exact Or.inl old
        · exact Or.inr ⟨rfl,packet,by rw [recipient,aims]⟩
      · exact Or.inl present

/-- A message leaves for its destination, now and whenever it is repeated. -/
theorem Emits.sendMessage {fine : LumenPacket → Endpoint → Prop} {s : LumenProtocol}
    (emits : Emits fine s) (payload : List UInt8) (type : MessageType) (priority : Priority)
    (recipient : Endpoint)
    (good : ∀ target, s.destination recipient = some target →
      fine (s.nextPacket payload type priority) target) :
    Emits fine (s.sendMessage payload type priority recipient) := by
  have node : SameNode s (s.sendMessage payload type priority recipient) :=
    (sendMessage_undisturbed s payload type priority recipient).sameNode
  constructor
  · rw [sendMessage_effects]
    intro packet target logged
    rcases List.mem_append.mp logged with old | new
    · exact emits.sent packet target old
    · obtain ⟨destination,aims,same⟩ := List.mem_map.mp new
      cases same
      exact good target (Option.mem_toList.mp aims)
  · rw [node.canSend]
    intro seq info present able
    rcases sendMessage_adds s payload type priority recipient seq info present with
      old | ⟨running,packet,aims⟩
    · exact emits.kept seq info old able
    · rw [packet]
      apply good
      simp [destination,running,aims,able,Option.filter]

/-! ### What can happen below the messages -/

/-- What can happen to the protocol of a node besides the sending of a message. Bytes are kept for
the given senders only. -/
inductive Moves (codec : Codec) (heard : Endpoint → Prop) (s : LumenProtocol) : LumenProtocol → Prop where
  | datagram (data : List UInt8) (sender : Endpoint) (known : heard sender) :
      Moves codec heard s (handleUdpData codec s data sender)
  | text (data : List UInt8) (sender : Endpoint) (unframed : data.head? ≠ some lumenStx) :
      Moves codec heard s (handleUdpData codec s data sender)
  | keeps (bytes : List UInt8) (sender : Endpoint) (known : heard sender) :
      Moves codec heard s (s.setFrameBuffer (getEndpointKey sender) bytes)
  | packet (packet : LumenPacket) (sender : Endpoint) :
      Moves codec heard s (s.processCompletePacket packet sender)
  | retransmissionTimer : Moves codec heard s s.handleRetransmissionTimer
  | cleanupTimer : Moves codec heard s s.handleCleanupTimer
  | tick (nanos : Nat) : Moves codec heard s (s.tick nanos)
  | resetSequenceNumber : Moves codec heard s s.resetSequenceNumber
  | setSessionActive (active : Bool) : Moves codec heard s (s.setSessionActive active)
  | stop : Moves codec heard s s.stop
  | close : Moves codec heard s { s with serverRunning := false }

theorem stop_frameBuffers (s : LumenProtocol) : s.stop.frameBuffers = s.frameBuffers := by
  simp only [stop]
  split <;> rfl

theorem Moves.emits {fine : LumenPacket → Endpoint → Prop}
    (control : ∀ (s : LumenProtocol) (type : MessageType) (seq : UInt8) (recipient : Endpoint),
      type = .ack ∨ type = .nak → fine (s.nextPacket [seq] type .high) recipient)
    (moves : Moves codec heard s t) (emits : Emits fine s) : Emits fine t := by
  cases moves with
  | datagram data sender => exact emits.handleUdpData control codec data sender
  | text data sender => exact emits.handleUdpData control codec data sender
  | packet packet sender => exact emits.processCompletePacket control packet sender
  | retransmissionTimer => exact emits.handleRetransmissionTimer
  | cleanupTimer => exact emits.same rfl rfl (handleCleanupTimer_sentPackets _ _)
  | keeps | tick | setSessionActive => exact emits.same rfl rfl rfl
  | resetSequenceNumber => exact emits.fades rfl (fun _ free => free) nofun
  | stop =>
    simp only [LumenProtocol.stop]
    split
    · exact emits
    · exact emits.same rfl rfl rfl
  | close =>
    refine emits.fades rfl ?_ fun _ later present => ⟨later,present,rfl,rfl⟩
    intro recipient able
    simp only [canSend] at able ⊢
    split at able
    · cases of_decide_eq_true able
      contradiction
    · exact able

/-- A buffer that is empty stays so while nothing is heard from its endpoint. -/
theorem Moves.frameBuffers (moves : Moves codec heard s t) (endpoint : Endpoint)
    (silent : ¬ heard endpoint) (empty : s.frameBuffers (getEndpointKey endpoint) = []) :
    t.frameBuffers (getEndpointKey endpoint) = [] := by
  have other (sender : Endpoint) (known : heard sender) :
      getEndpointKey endpoint ≠ getEndpointKey sender := by
    intro same
    rw [getEndpointKey_injective same] at silent
    exact silent known
  cases moves with
  | datagram data sender known =>
    rcases head_cases data with unframed | ⟨tail,rfl⟩
    · rw [(handleUdpData_unframed codec s data sender unframed).frameBuffers]
      exact empty
    · cases running : s.running with
      | false =>
        simp only [handleUdpData,running]
        exact empty
      | true =>
        obtain ⟨_,buffers,_⟩ := handleUdpData_framed codec s tail sender running
        rw [buffers,Function.update_of_ne (other sender known)]
        exact empty
  | text data sender unframed =>
    rw [(handleUdpData_unframed codec s data sender unframed).frameBuffers]
    exact empty
  | keeps bytes sender known =>
    rw [setFrameBuffer_frameBuffers,Function.update_of_ne (other sender known)]
    exact empty
  | packet packet sender =>
    rw [(processCompletePacket_undisturbed s packet sender).frameBuffers]
    exact empty
  | retransmissionTimer =>
    rw [(handleRetransmissionTimer_undisturbed s).frameBuffers]
    exact empty
  | resetSequenceNumber => rfl
  | stop =>
    rw [stop_frameBuffers]
    exact empty
  | cleanupTimer | tick | setSessionActive | close => exact empty

/-- The endpoint a datagram comes from. -/
def Input.sender? : Input → Option Endpoint
  | .datagram _ endpoint => some endpoint
  | _ => none

theorem step_moves (codec : Codec) (s : LumenProtocol) (input : Input)
    (external : input.isExternal = true) (known : ∀ sender, input.sender? = some sender → heard sender) :
    Moves codec heard s (s.step codec input) := by
  cases input with
  | datagram data sender => exact .datagram data sender (known sender rfl)
  | retransmissionTimer => exact .retransmissionTimer
  | cleanupTimer => exact .cleanupTimer
  | tick nanos => exact .tick nanos
  | sendMessage | resetSequenceNumber | setSessionActive => cases external

end LumenProtocol

/-! ### Messages and their packets -/

/-- The packet carries this message. -/
structure Message.Genuine (codec : Codec) (message : Message) (packet : LumenPacket) : Prop where
  type : packet.header.type = message.getLumenType
  priority : packet.header.priority = message.getLumenPriority
  payload : packet.payload = message.serialise codec

/-- An acknowledgement or a request, or a message of the log for the endpoint it was sent to. -/
def Vouched (codec : Codec) (sent : List (Message × Endpoint)) (packet : LumenPacket)
    (recipient : Endpoint) : Prop :=
  ¬ LumenProtocol.CarriesPayload packet ∧ packet.header.InRange ∨
    ∃ message, (message,recipient) ∈ sent ∧ message.Genuine codec packet

namespace MessageManager

variable (codec : Codec) (heard : Endpoint → Prop)

/-- What can happen to the message manager of a node. -/
inductive Operation (m : MessageManager) : MessageManager → Prop where
  | sends (message : Message) (recipient : Endpoint) : Operation m { m with
      protocol := m.protocol.sendMessage (message.serialise codec) message.getLumenType
        message.getLumenPriority recipient
      sent := m.sent ++ (m.protocol.destination recipient).toList.map (message,·) }
  | logs (entries : List (Message × Endpoint)) : Operation m { m with sent := m.sent ++ entries }
  | moves (protocol : LumenProtocol) (moved : m.protocol.Moves codec heard protocol) :
      Operation m { m with protocol := protocol }
  | halts : Operation m { m with running := false }

/-- Any number of such operations. -/
def Operates : MessageManager → MessageManager → Prop :=
  Relation.ReflTransGen (Operation codec heard)

variable {codec heard}

theorem Operates.refl (m : MessageManager) : Operates codec heard m m := Relation.ReflTransGen.refl

theorem Operates.trans (first : Operates codec heard m n) (second : Operates codec heard n k) :
    Operates codec heard m k := Relation.ReflTransGen.trans first second

theorem Operates.one (operation : Operation codec heard m n) : Operates codec heard m n :=
  Relation.ReflTransGen.single operation

/-- What every operation keeps is kept. -/
theorem Operates.keeps (property : MessageManager → Prop)
    (each : ∀ {m n}, Operation codec heard m n → property m → property n)
    (operates : Operates codec heard m n) (before : property m) : property n := by
  induction operates with
  | refl => exact before
  | tail _ operation after => exact each operation after

theorem Operates.sendMessage (m : MessageManager) (message : Message) (recipient : Endpoint) :
    Operates codec heard m (m.sendMessage codec message recipient) := by
  simp only [MessageManager.sendMessage]
  split
  · exact .refl m
  · exact .one (.sends message recipient)

theorem Operates.sendRawMessage (m : MessageManager) (message : Message) (recipient : Endpoint) :
    Operates codec heard m (m.sendRawMessage message recipient) := by
  simp only [MessageManager.sendRawMessage]
  split
  · exact .refl m
  · exact .one (.logs _)

theorem Operates.below (m : MessageManager) {protocol : LumenProtocol}
    (moves : m.protocol.Moves codec heard protocol) :
    Operates codec heard m { m with protocol := protocol } := .one (.moves protocol moves)

/-- The log only grows. -/
theorem Operates.sent (operates : Operates codec heard m n) : m.sent <+: n.sent := by
  apply operates.keeps (m.sent <+: ·.sent) _ (List.prefix_refl m.sent)
  intro k n operation before
  apply before.trans
  cases operation with
  | sends | logs => exact List.prefix_append _ _
  | moves | halts => exact List.prefix_refl _

theorem vouched_control (sent : List (Message × Endpoint)) (s : LumenProtocol) (type : MessageType)
    (seq : UInt8) (recipient : Endpoint) (control : type = .ack ∨ type = .nak) :
    Vouched codec sent (s.nextPacket [seq] type .high) recipient := by
  have known : type.value ≤ 5 ∧ Priority.high.value ≤ 2 := by
    rcases control with rfl | rfl <;> decide
  refine Or.inl ⟨fun payload => ?_,known⟩
  rcases control with ack | nak
  · exact payload.1 ack
  · exact payload.2 nak

theorem Vouched.mono {sent later : List (Message × Endpoint)} {packet : LumenPacket}
    {recipient : Endpoint} (grows : sent ⊆ later) (vouched : Vouched codec sent packet recipient) :
    Vouched codec later packet recipient := by
  rcases vouched with control | ⟨message,logged,genuine⟩
  · exact Or.inl control
  · exact Or.inr ⟨message,grows logged,genuine⟩

/-- The packets on the wire and in the table stay those of logged messages. -/
theorem Operation.emits (operation : Operation codec heard m n)
    (emits : m.protocol.Emits (Vouched codec m.sent)) : n.protocol.Emits (Vouched codec n.sent) := by
  have wider (entries : List (Message × Endpoint)) :
      m.protocol.Emits (Vouched codec (m.sent ++ entries)) :=
    emits.mono fun _ _ => Vouched.mono (List.subset_append_left m.sent entries)
  cases operation with
  | sends message recipient =>
    apply (wider _).sendMessage
    intro target aims
    refine Or.inr ⟨message,?_,⟨rfl,rfl,rfl⟩⟩
    rw [aims]
    exact List.mem_append_right _ (List.mem_singleton_self _)
  | logs entries => exact wider entries
  | moves protocol moved => exact moved.emits (vouched_control m.sent) emits
  | halts => exact emits

theorem Operates.emits (operates : Operates codec heard m n)
    (emits : m.protocol.Emits (Vouched codec m.sent)) : n.protocol.Emits (Vouched codec n.sent) :=
  operates.keeps (fun m => m.protocol.Emits (Vouched codec m.sent))
    (fun operation before => operation.emits before) emits

theorem Operates.frameBuffers (operates : Operates codec heard m n) (endpoint : Endpoint)
    (silent : ¬ heard endpoint) (empty : m.protocol.frameBuffers (getEndpointKey endpoint) = []) :
    n.protocol.frameBuffers (getEndpointKey endpoint) = [] := by
  apply operates.keeps (·.protocol.frameBuffers (getEndpointKey endpoint) = []) _ empty
  intro k n operation before
  cases operation with
  | sends message recipient =>
    rw [(LumenProtocol.sendMessage_undisturbed _ _ _ _ recipient).frameBuffers]
    exact before
  | moves protocol moved => exact moved.frameBuffers endpoint silent before
  | logs | halts => exact before

end MessageManager

/-! ### The rover -/

/-- A stored packet is still the packet of its message. -/
structure StoredPacket.Genuine (codec : Codec) (packet : StoredPacket) : Prop where
  payload : packet.payload = packet.message.serialise codec
  type : packet.type = packet.message.getLumenType
  priority : packet.priority = packet.message.getLumenPriority

namespace Rover

open MessageManager

variable (codec : Codec) (heard : Endpoint → Prop)

/-- The rover works with its message manager, and what it stores it stores unchanged. -/
structure Works (s t : Rover) : Prop where
  manager : Operates codec heard s.manager t.manager
  stored : ∀ packet ∈ t.storedPackets, packet ∈ s.storedPackets ∨ packet.Genuine codec

variable {codec heard}

namespace Works

theorem trans (first : Works codec heard s t) (second : Works codec heard t u) :
    Works codec heard s u where
  manager := first.manager.trans second.manager
  stored := by
    intro packet member
    rcases second.stored packet member with middle | genuine
    · exact first.stored packet middle
    · exact Or.inr genuine

theorem of_manager (manager : Operates codec heard s.manager t.manager)
    (stored : t.storedPackets = s.storedPackets) : Works codec heard s t where
  manager := manager
  stored := by rw [stored]; exact fun _ member => Or.inl member

theorem of_same (manager : t.manager = s.manager) (stored : t.storedPackets = s.storedPackets) :
    Works codec heard s t := of_manager (by rw [manager]; exact .refl _) stored

/-- A change of the session or of the timers comes first. -/
theorem after (works : Works codec heard t u) (manager : t.manager = s.manager)
    (stored : t.storedPackets = s.storedPackets) : Works codec heard s u :=
  (of_same manager stored).trans works

end Works

section

variable (s : Rover)

theorem transmit_works (message : Message) (recipient : Endpoint) :
    Works codec heard s (s.transmit codec message recipient) :=
  .of_manager (.sendMessage s.manager message recipient) rfl

theorem storeMessageForLater_works (message : Message) (recipient : Endpoint) :
    Works codec heard s (s.storeMessageForLater codec message recipient) where
  manager := .refl s.manager
  stored := by
    intro packet member
    rcases List.mem_append.mp member with old | new
    · exact Or.inl old
    · rw [List.mem_singleton.mp new]
      exact Or.inr ⟨rfl,rfl,rfl⟩

theorem report_works (message : Message) : Works codec heard s (s.report codec message) := by
  simp only [report]
  split
  · exact .of_same rfl rfl
  · split
    · exact .of_same rfl rfl
    · split
      · exact storeMessageForLater_works s message _
      · split
        · exact transmit_works s message _
        · exact .of_same rfl rfl

theorem sendMessage_works (message : Message) (recipient : Endpoint) :
    Works codec heard s (s.sendMessage codec message recipient) := by
  simp only [sendMessage]
  split
  · exact .of_same rfl rfl
  · split
    · exact .of_same rfl rfl
    · split
      · exact storeMessageForLater_works s message _
      · split
        · split
          · exact .of_same rfl rfl
          · exact transmit_works s message _
        · exact .of_same rfl rfl

theorem sendRawMessage_works (message : Message) (recipient : Endpoint) :
    Works codec heard s (s.sendRawMessage message recipient) := by
  simp only [sendRawMessage]
  split
  · exact .of_same rfl rfl
  · split
    · exact .of_same rfl rfl
    · split
      · exact .of_same rfl rfl
      · exact .of_manager (.sendRawMessage s.manager message recipient) rfl

theorem sendCommand_works (command params : String) :
    Works codec heard s (s.sendCommand codec command params) := by
  simp only [sendCommand]
  split
  · exact .of_same rfl rfl
  · split
    · exact .of_same rfl rfl
    · split
      · exact transmit_works s _ _
      · split
        · exact transmit_works s _ _
        · exact .of_same rfl rfl

theorem scanForRovers_works (discoveryPort : UInt16) (text : String) :
    Works codec heard s (s.scanForRovers discoveryPort text) := by
  simp only [scanForRovers]
  split
  · exact .of_same rfl rfl
  · exact .of_manager (.one (.logs _)) rfl

theorem handleDiscoveryCommand_works (command senderId : String) (sender : Endpoint) :
    Works codec heard s (s.handleDiscoveryCommand command senderId sender) := by
  simp only [handleDiscoveryCommand]
  split
  · exact .of_same rfl rfl
  · split
    · split <;> exact .of_same rfl rfl
    · split
      · split
        · exact .of_same rfl rfl
        · exact sendRawMessage_works s _ sender
      · exact .of_same rfl rfl

theorem handleStatusTimer_works : Works codec heard s (s.handleStatusTimer codec) :=
  (report_works s _).trans (.of_same rfl rfl)

theorem handlePositionTelemetryTimer_works :
    Works codec heard s (s.handlePositionTelemetryTimer codec) :=
  (report_works s _).trans (.of_same rfl rfl)

theorem sendStored_works (packet : StoredPacket) (genuine : packet.Genuine codec) :
    Works codec heard s (s.sendStored packet) := by
  refine .of_manager (.one ?_) rfl
  have sends := @Operation.sends codec heard s.manager packet.message packet.recipient
  rw [← genuine.payload,← genuine.type,← genuine.priority] at sends
  exact sends

/-- What was stored leaves as the packets of the stored messages. -/
theorem sendStoredPackets_works (genuine : ∀ packet ∈ s.storedPackets, packet.Genuine codec) :
    Works codec heard s s.sendStoredPackets := by
  have loop (packets : List StoredPacket) (t : Rover)
      (each : ∀ packet ∈ packets, packet.Genuine codec) :
      Works codec heard t (packets.foldl sendStored t) := by
    induction packets generalizing t with
    | nil => exact .of_same rfl rfl
    | cons packet rest ih =>
      have first : Works codec heard t (t.sendStored packet) :=
        sendStored_works t packet (each packet List.mem_cons_self)
      exact first.trans (ih _ fun other member => each other (List.mem_cons_of_mem _ member))
  exact ⟨(loop s.storedPackets s genuine).manager,nofun⟩

theorem handleSessionEstablished_works
    (genuine : ∀ packet ∈ s.storedPackets, packet.Genuine codec) :
    Works codec heard s (s.handleSessionEstablished codec) := by
  by_cases active : s.sessionState = .active
  · have ignored : s.handleSessionEstablished codec = s := if_pos active
    rw [ignored]
    exact .of_same rfl rfl
  · let t := (((s.enter .active).setHandshakeRetryCount 0).setHandshakeTimer false).setProbeTimer false
    have unfolded : s.handleSessionEstablished codec =
        (t.sendStoredPackets.handleStatusTimer codec).handlePositionTelemetryTimer codec :=
      if_neg active
    have forwarded : Works codec heard s t.sendStoredPackets :=
      (sendStoredPackets_works t genuine).after rfl rfl
    rw [unfolded]
    exact (forwarded.trans (handleStatusTimer_works _)).trans (handlePositionTelemetryTimer_works _)

theorem handleSessionAccept_works : Works codec heard s (s.handleSessionAccept codec) := by
  by_cases waiting : s.sessionState = .handshakeInit ∨ s.sessionState = .disconnected
  · obtain ⟨_,manager,stored,_⟩ := confirming_fields s
    have confirmed : Works codec heard s
        (s.confirming.sendCommand codec "SESSION_CONFIRM" s.roverId) :=
      (sendCommand_works s.confirming _ _).after manager stored
    rw [handleSessionAccept_eq codec s waiting]
    exact confirmed.trans (.of_same rfl rfl)
  · rw [handleSessionAccept_ignored codec s waiting]
    exact .of_same rfl rfl

theorem handleBaseDisconnect_works : Works codec heard s s.handleBaseDisconnect := by
  simp only [handleBaseDisconnect]
  split <;> exact .of_same rfl rfl

theorem setTarget_works (params : String) : Works codec heard s (s.setTarget codec params) := by
  simp only [setTarget]
  split
  · split <;> exact .of_same rfl rfl
  · exact .of_same rfl rfl

theorem routeMessage_works (message : Message) (sender : Endpoint)
    (genuine : ∀ packet ∈ s.storedPackets, packet.Genuine codec) :
    Works codec heard s (s.routeMessage codec message sender) := by
  have routed := routeMessage_routed codec s message sender
  generalize s.routeMessage codec message sender = t at routed ⊢
  cases routed with
  | accept => exact handleSessionAccept_works s
  | established => exact handleSessionEstablished_works s genuine
  | ignored | power => exact .of_same rfl rfl
  | target params => exact setTarget_works s params
  | discovery command => exact handleDiscoveryCommand_works s command message.sender sender
  | up =>
    simp only [handUp]
    split <;> exact .of_same rfl rfl

theorem askAgain_works (command : String) :
    Works codec heard s ((s.sendCommand codec command s.roverId).setHandshakeTimer true) :=
  (sendCommand_works s _ _).trans (.of_same rfl rfl)

theorem initiateHandshake_works : Works codec heard s (s.initiateHandshake codec) := by
  simp only [initiateHandshake]
  split
  · exact .of_same rfl rfl
  · apply (askAgain_works _ _).after
    · split <;> rfl
    · split <;> rfl

theorem handleMovementTimer_works : Works codec heard s (s.handleMovementTimer codec) := by
  simp only [handleMovementTimer]
  split
  · exact .of_same rfl rfl
  · split
    · split
      · exact .of_same rfl rfl
      · exact (sendMessage_works _ _ _).after rfl rfl
    · exact .of_same rfl rfl

theorem expire_works (timer : Timer) : Works codec heard s (s.expire codec timer) := by
  cases timer with
  | status =>
    simp only [expire]
    split
    · exact (handleStatusTimer_works _).after rfl rfl
    · exact .of_same rfl rfl
  | positionTelemetry =>
    simp only [expire]
    split
    · exact (handlePositionTelemetryTimer_works _).after rfl rfl
    · exact .of_same rfl rfl
  | movement =>
    simp only [expire]
    split
    · exact (handleMovementTimer_works _).after rfl rfl
    · exact .of_same rfl rfl
  | handshake =>
    simp only [expire,handleHandshakeTimer]
    split
    · split
      · split
        · exact (askAgain_works _ _).after rfl rfl
        · exact (handleBaseDisconnect_works _).after rfl rfl
      · exact .of_same rfl rfl
    · exact .of_same rfl rfl
  | probe =>
    simp only [expire,handleProbeTimer]
    split
    · split
      · have probed (t : Rover) :
            Works codec heard t ((t.sendCommand codec "SESSION_INIT" t.roverId).setProbeTimer true) :=
          (sendCommand_works t _ _).trans (.of_same rfl rfl)
        exact (probed _).after rfl rfl
      · exact .of_same rfl rfl
    · exact .of_same rfl rfl

theorem runPosted_works (position : Nat) : Works codec heard s (s.runPosted position) := by
  simp only [runPosted]
  split
  · next handler _ =>
    cases handler with
    | resetSequence => exact .of_manager (.below s.manager .resetSequenceNumber) rfl
    | packetTimeout recipient =>
      simp only [runHandler,handlePacketTimeout]
      split
      · exact (handleBaseDisconnect_works _).after rfl rfl
      · exact .of_same rfl rfl
    | armProbe | armHandshake | application | discovery => exact .of_same rfl rfl
  · exact .of_same rfl rfl

theorem stop_works : Works codec heard s s.stop where
  manager := .trans (.one .halts) (.below _ .stop)
  stored := nofun

/-- The endpoint a datagram comes from. -/
def Input.sender? : Input → Option Endpoint
  | .protocol input _ => input.sender?
  | _ => none

/-- Everything the rover does with its message manager. -/
theorem step_works (input : Input) (genuine : ∀ packet ∈ s.storedPackets, packet.Genuine codec)
    (known : ∀ sender, input.sender? = some sender → heard sender) :
    Works codec heard s (s.step codec input) := by
  cases input with
  | route message sender => exact routeMessage_works s message sender genuine
  | expire timer => exact expire_works s timer
  | runPosted position => exact runPosted_works s position
  | sendMessage message recipient => exact sendMessage_works s message recipient
  | sendRawMessage message recipient => exact sendRawMessage_works s message recipient
  | sendCommand command params => exact sendCommand_works s command params
  | sendTelemetry readings => exact report_works s _
  | sendStatus => exact report_works s _
  | handlePositionTelemetryTimer => exact handlePositionTelemetryTimer_works s
  | scanForRovers discoveryPort text => exact scanForRovers_works s discoveryPort text
  | stop => exact stop_works s
  | protocol input external =>
    exact .of_manager (.below s.manager (LumenProtocol.step_moves codec _ input external known)) rfl
  | timeoutNotification | updateStatus | updateCurrentPosition
  | setApplicationMessageHandler | setDiscoveryMessageHandler => exact .of_same rfl rfl

end

/-- Everything the rover has put on the wire, may put on it again or keeps for later is the packet
of a message. -/
structure Traced (codec : Codec) (s : Rover) : Prop where
  emits : s.manager.protocol.Emits (Vouched codec s.manager.sent)
  stored : ∀ packet ∈ s.storedPackets, packet.Genuine codec

theorem Works.traced (works : Works codec heard s t) (traced : Traced codec s) : Traced codec t where
  emits := works.manager.emits traced.emits
  stored := by
    intro packet member
    rcases works.stored packet member with old | genuine
    · exact traced.stored packet old
    · exact genuine

theorem step_traced (s : Rover) (input : Input) (traced : Traced codec s) :
    Traced codec (s.step codec input) :=
  (@step_works codec (fun _ => True) s input traced.stored fun _ _ => trivial).traced traced

theorem launched_emits (roverId : String) (base : Endpoint) (clock : Clock)
    (fine : LumenPacket → Endpoint → Prop) :
    (new roverId base clock).launched.manager.protocol.Emits fine where
  sent := by
    intro packet recipient logged
    have silent : (new roverId base clock).launched.manager.protocol.effects = [] := rfl
    rw [silent] at logged
    cases logged
  kept := by
    intro seq info present
    have table : (new roverId base clock).launched.manager.protocol.tracked =
        ((ReliabilityManager.new .rover).start clock.steady).sentPackets := by
      simp [launched,MessageManager.start,new,LumenProtocol.start,LumenProtocol.new,
        LumenProtocol.tracked,ProtocolMode.role]
    rw [table,ReliabilityManager.start_sentPackets _ clock.steady rfl] at present
    cases present

theorem started_works (roverId : String) (base : Endpoint) (clock : Clock) :
    Works codec heard (new roverId base clock).launched (started codec roverId base clock) :=
  initiateHandshake_works _

theorem started_traced (roverId : String) (base : Endpoint) (clock : Clock) :
    Traced codec (started codec roverId base clock) :=
  (@started_works codec (fun _ => True) roverId base clock).traced
    ⟨launched_emits roverId base clock _,nofun⟩

/-- In every run, whatever a rover puts on the wire, for the first time or again, is an
acknowledgement, a request, or the packet of a message it has sent to that endpoint. -/
theorem packets_are_messages (roverId : String) (base : Endpoint) (clock : Clock)
    (inputs : List Input) :
    let s := Machine.run (step codec) (started codec roverId base clock) inputs
    ∀ packet recipient, .transmit packet recipient ∈ s.manager.protocol.effects →
      LumenProtocol.CarriesPayload packet →
        ∃ message, (message,recipient) ∈ s.manager.sent ∧ message.Genuine codec packet := by
  intro s packet recipient transmitted payload
  have traced : Traced codec s := Machine.run_invariant (step codec) step_traced _ inputs
    (started_traced roverId base clock)
  rcases traced.emits.sent packet recipient transmitted with ⟨control,_⟩ | genuine
  · exact absurd payload control
  · exact genuine

/-- The packet that opens a session. -/
def initPacket : LumenPacket :=
  let payload := write (commandMembers "rover-a" "SESSION_INIT" "rover-a")
  .new ⟨.cmd,.high,0,0,.ofNat payload.length⟩ payload

/-- The request for a session, repeated by the retransmission timer after six seconds. -/
theorem repeatedInit_is_message :
    let s := Machine.run (step handshakeLibrary)
      (started handshakeLibrary "rover-a" ⟨0x0aed0001,9000⟩ ⟨0,0⟩)
      [.protocol (.tick 6000000000) rfl,.protocol .retransmissionTimer rfl]
    .transmit initPacket ⟨0x0aed0001,9000⟩ ∈ s.manager.protocol.effects.drop 1 ∧
      ∃ message, (message,⟨0x0aed0001,9000⟩) ∈ s.manager.sent ∧
        message.Genuine handshakeLibrary initPacket := by
  intro s
  have again : .transmit initPacket ⟨0x0aed0001,9000⟩ ∈ s.manager.protocol.effects.drop 1 := by
    decide +kernel
  exact ⟨again,packets_are_messages "rover-a" ⟨0x0aed0001,9000⟩ ⟨0,0⟩ _ initPacket _
    (List.mem_of_mem_drop again) (by decide)⟩

end Rover

/-! ### The base station -/

namespace BaseStation

open MessageManager

variable {codec : Codec} {heard : Endpoint → Prop} (s : BaseStation)

theorem sendCommand_operates (command params : String) :
    Operates codec heard s.manager (s.sendCommand codec command params).manager := by
  simp only [sendCommand]
  split
  · exact .sendMessage s.manager _ _
  · exact .refl _

theorem setSessionActive_operates (active : Bool) :
    Operates codec heard s.manager (s.setSessionActive active).manager :=
  .below s.manager (.setSessionActive active)

theorem handleSessionInit_operates (roverId : String) (sender : Endpoint) :
    Operates codec heard s.manager (s.handleSessionInit codec roverId sender).manager := by
  simp only [handleSessionInit]
  split
  · exact sendCommand_operates s _ _
  · have same : (s.updateOnInit roverId sender).1.manager = s.manager := by
      simp only [updateOnInit]
      split
      · rfl
      · split <;> rfl
    have reset : Operates codec heard s.manager
        (if (s.updateOnInit roverId sender).2.2 then
          (s.updateOnInit roverId sender).1.setSessionActive false
        else (s.updateOnInit roverId sender).1).manager := by
      rw [← same]
      split
      · exact setSessionActive_operates _ false
      · exact .refl _
    split
    · exact reset.trans (sendCommand_operates _ _ _)
    · exact reset

theorem handleSessionConfirm_operates (roverId : String) (sender : Endpoint) :
    Operates codec heard s.manager (s.handleSessionConfirm codec roverId sender).manager := by
  simp only [handleSessionConfirm]
  split
  · exact .refl _
  · have entered : Operates codec heard s.manager
        ({ s with sessionState := .active }.setSessionActive true).manager :=
      setSessionActive_operates { s with sessionState := .active } true
    exact entered.trans (sendCommand_operates _ _ _)

theorem routeMessage_operates (message : Message) (sender : Endpoint) :
    Operates codec heard s.manager (s.routeMessage codec message sender).manager := by
  have up : Operates codec heard s.manager (s.handUp message sender).manager := by
    simp only [handUp]
    split <;> exact .refl _
  simp only [routeMessage]
  split
  · split
    · simp only [handleInternalCommand]
      split
      · exact handleSessionInit_operates s _ sender
      · split
        · exact handleSessionConfirm_operates s _ sender
        · exact .refl _
    · exact up
  · exact up

theorem stop_operates : Operates codec heard s.manager s.stop.manager :=
  ((setSessionActive_operates s false).trans (.below _ .close)).trans
    ((Operates.below _ .stop).trans (.one .halts))

/-- The endpoint a datagram comes from. -/
def Input.sender? : Input → Option Endpoint
  | .protocol input _ => input.sender?
  | _ => none

/-- Everything the base station does with its message manager. -/
theorem step_operates (input : Input) (known : ∀ sender, input.sender? = some sender → heard sender) :
    Operates codec heard s.manager (s.step codec input).manager := by
  cases input with
  | route message sender => exact routeMessage_operates s message sender
  | sendCommand command params => exact sendCommand_operates s command params
  | setLowPowerMode enable => exact sendCommand_operates s _ _
  | setRoverTarget latitude longitude => exact sendCommand_operates s _ _
  | sendMessage message recipient =>
    simp only [step,sendMessage]
    split
    · exact .refl _
    · exact .sendMessage s.manager message recipient
  | sendRawMessage message recipient =>
    simp only [step,sendRawMessage]
    split
    · exact .refl _
    · exact .sendRawMessage s.manager message recipient
  | protocol input external =>
    exact .below s.manager (LumenProtocol.step_moves codec _ input external known)
  | stop => exact stop_operates s
  | setStatusCallback | setApplicationMessageHandler => exact .refl _

theorem started_emits (stationId : String) (clock : Clock) (fine : LumenPacket → Endpoint → Prop) :
    (started stationId clock).manager.protocol.Emits fine where
  sent := by
    intro packet recipient logged
    have silent : (started stationId clock).manager.protocol.effects = [] := rfl
    rw [silent] at logged
    cases logged
  kept := by
    intro seq info present
    have table : (started stationId clock).manager.protocol.tracked =
        ((ReliabilityManager.new .baseStation).start clock.steady).sentPackets := by
      simp [started,start,setSessionActive,onProtocol,MessageManager.start,new,LumenProtocol.start,
        LumenProtocol.new,LumenProtocol.tracked,ProtocolMode.role,LumenProtocol.setSessionActive]
    rw [table,ReliabilityManager.start_sentPackets _ clock.steady rfl] at present
    cases present

/-- In every run, whatever the base station puts on the wire, for the first time or again, is an
acknowledgement or the packet of a message it has sent to that endpoint. -/
theorem base_packets_are_messages (stationId : String) (clock : Clock) (inputs : List Input) :
    let s := Machine.run (step codec) (started stationId clock) inputs
    ∀ packet recipient, .transmit packet recipient ∈ s.manager.protocol.effects →
      LumenProtocol.CarriesPayload packet →
        ∃ message, (message,recipient) ∈ s.manager.sent ∧ message.Genuine codec packet := by
  intro s packet recipient transmitted payload
  have emits : s.manager.protocol.Emits (Vouched codec s.manager.sent) := by
    refine @Machine.run_invariant _ _ (step codec) (fun s : BaseStation =>
      s.manager.protocol.Emits (Vouched codec s.manager.sent)) ?_ _ inputs (started_emits _ _ _)
    intro t input before
    exact (@step_operates codec (fun _ => True) t input fun _ _ => trivial).emits before
  rcases emits.sent packet recipient transmitted with ⟨control,_⟩ | genuine
  · exact absurd payload control
  · exact genuine

/-- The packet that accepts a session. -/
def acceptPacket : LumenPacket :=
  let payload := write (commandMembers "base" "SESSION_ACCEPT" "base")
  .new ⟨.cmd,.high,0,0,.ofNat payload.length⟩ payload

/-- A rover that has missed the acceptance asks for it. -/
def missedAcceptance : List Input :=
  [.route ⟨"rover-a",0,.command "SESSION_INIT" "rover-a"⟩ ⟨0x0aed0002,9001⟩,
    .protocol (.datagram (LumenPacket.new ⟨.nak,.high,0,0,1⟩ [0]).toBytes ⟨0x0aed0002,9001⟩) rfl]

theorem missedAcceptance_is_message :
    let s := Machine.run (step handshakeLibrary) (started "base" ⟨0,0⟩) missedAcceptance
    .transmit acceptPacket ⟨0x0aed0002,9001⟩ ∈ s.manager.protocol.effects.drop 1 ∧
      ∃ message, (message,⟨0x0aed0002,9001⟩) ∈ s.manager.sent ∧
        message.Genuine handshakeLibrary acceptPacket := by
  intro s
  have again : .transmit acceptPacket ⟨0x0aed0002,9001⟩ ∈ s.manager.protocol.effects.drop 1 := by
    decide +kernel
  exact ⟨again,base_packets_are_messages "base" ⟨0,0⟩ missedAcceptance acceptPacket _
    (List.mem_of_mem_drop again) (by decide)⟩

end BaseStation

end Lumen
