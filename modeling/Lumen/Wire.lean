import Lumen.Datagram
import Lumen.Movement
import Lumen.Unopened

/-! Both nodes with all their layers, and a network that carries bytes. Every datagram that was
transmitted may arrive at any later time, any number of times or never, as long as it fits the
receive buffer; other nodes send bytes under their own endpoints, and none that can be read as a
message under the id of the rover. What was found for messages holds for the bytes. -/
namespace Lumen

open Endpoint Message Machine LumenProtocol

/-! ### The network -/

/-- The packet at a position of a log, if it was transmitted to the endpoint. -/
def packetFor (endpoint : Endpoint) (effects : List Effect) (position : Nat) : Option LumenPacket :=
  match effects[position]? with
  | some (.transmit packet recipient) => if recipient = endpoint then some packet else none
  | _ => none

theorem packetFor_mem {endpoint : Endpoint} {effects : List Effect} {position : Nat}
    {packet : LumenPacket} (found : packetFor endpoint effects position = some packet) :
    .transmit packet endpoint ∈ effects := by
  simp only [packetFor] at found
  split at found
  · next here =>
    split at found
    · next same =>
      cases found
      rw [← same]
      exact List.mem_of_getElem? here
    · cases found
  · cases found

namespace Wire

open Lumen.System Texts

variable (codec : Codec) (parties : Parties)

inductive Input where
  /-- A call of the owner or a timer. -/
  | base (input : BaseStation.Input)
  | rover (input : Rover.Input)
  /-- A copy of the packet at this position of the sender's log arrives. -/
  | toBase (position : Nat)
  | toRover (position : Nat)
  /-- The text of the message at this position of the sender's log arrives without a frame. -/
  | textToBase (position : Nat)
  | textToRover (position : Nat)
  /-- A datagram of another node arrives. -/
  | otherToBase (datagram : List UInt8) (sender : Endpoint)
  | otherToRover (datagram : List UInt8) (sender : Endpoint)

def baseReceives (s : System) (datagram : List UInt8) (sender : Endpoint) : System :=
  { s with base := s.base.receiveDatagram codec datagram sender }

def roverReceives (s : System) (datagram : List UInt8) (sender : Endpoint) : System :=
  { s with rover := s.rover.receiveDatagram codec datagram sender }

def step (s : System) : Input → System
  | .base input => { s with base := s.base.step codec input }
  | .rover input => { s with rover := s.rover.step codec input }
  | .toBase position =>
    match packetFor parties.base s.rover.manager.protocol.effects position with
    | some packet => baseReceives codec s packet.toBytes parties.rover
    | none => s
  | .toRover position =>
    match packetFor parties.rover s.base.manager.protocol.effects position with
    | some packet => roverReceives codec s packet.toBytes parties.base
    | none => s
  | .textToBase position =>
    match copyFor parties.base s.rover.manager.sent position with
    | some message => baseReceives codec s (message.serialise codec) parties.rover
    | none => s
  | .textToRover position =>
    match copyFor parties.rover s.base.manager.sent position with
    | some message => roverReceives codec s (message.serialise codec) parties.base
    | none => s
  | .otherToBase datagram sender => baseReceives codec s datagram sender
  | .otherToRover datagram sender => roverReceives codec s datagram sender

/-- Nothing that can be read from the bytes another node has sent to the base station carries the
id of the rover. -/
def Foreign (base : BaseStation) (datagram : List UInt8) (sender : Endpoint) : Prop :=
  ∀ payload now message,
    Stack.Found (base.manager.protocol.frameBuffers (getEndpointKey sender))
      (datagram.take serverSockBufSize) payload →
    deserialise codec now payload = some message → message.sender ≠ parties.roverId

/-- The assumptions about the network and the owners. As for messages: session commands come from
the handshake code only, the base station is not stopped, and the other nodes use neither the
endpoint of the rover nor that of the base station. And for bytes: datagrams come from the network
only, those of the two parties have at most 1024 bytes, and nothing that can be read from the bytes
of another node carries the id of the rover. Without the limit a cut packet would be kept and
swallow what comes after it. -/
def Admissible (s : System) : Input → Prop
  | .base input => input.isTraffic = true ∧ input.Speaks Plain s.base ∧ input.sender? = none
  | .rover input => (∀ message sender, input ≠ .route message sender) ∧
      input.Speaks Plain s.rover ∧ input.sender? = none
  | .toBase position =>
    ∀ packet, packetFor parties.base s.rover.manager.protocol.effects position = some packet →
      packet.totalSize ≤ serverSockBufSize
  | .toRover position =>
    ∀ packet, packetFor parties.rover s.base.manager.protocol.effects position = some packet →
      packet.totalSize ≤ clientSockBufSize
  | .textToBase position =>
    ∀ message, copyFor parties.base s.rover.manager.sent position = some message →
      (message.serialise codec).length ≤ serverSockBufSize
  | .textToRover position =>
    ∀ message, copyFor parties.rover s.base.manager.sent position = some message →
      (message.serialise codec).length ≤ clientSockBufSize
  | .otherToBase datagram sender => sender ≠ parties.rover ∧ Foreign codec parties s.base datagram sender
  | .otherToRover _ sender => sender ≠ parties.base

/-- The text of a message that is logged for the endpoint. -/
def Logged (sent : List (Message × Endpoint)) (endpoint : Endpoint) (payload : List UInt8) : Prop :=
  ∃ message, (message,endpoint) ∈ sent ∧ payload = message.serialise codec

/-- What the owner of the base station was given as coming from the rover was read from a text of
the rover, under the id of the rover. -/
def Delivered (s : System) : Prop :=
  ∀ entry ∈ s.base.handed, entry.Concerns parties.peer →
    ∃ payload now message, (Logged codec s.rover.manager.sent parties.base payload ∨
        Wraps codec parties.rover payload) ∧
      deserialise codec now payload = some message ∧ message.sender = parties.roverId ∧
        entry.Shows message

/-- The rover is in low power mode, or has a target, only by an order of the base station. -/
structure Ordered (s : System) : Prop where
  power : s.rover.lowPowerMode = true → ∃ order, (order,parties.rover) ∈ s.base.manager.sent ∧
    order.content = .command "SET_LOW_POWER" "1"
  target : ∀ target, s.rover.targetCoordinate = some target →
    ∃ order, (order,parties.rover) ∈ s.base.manager.sent ∧ Rover.Aims codec order target

/-- The invariant: the parties agree, what they have put on the wire are their messages, and so is
what was handed up and what was obeyed; and they can hear each other. -/
structure Sound (s : System) : Prop where
  agreed : Agreed parties s
  delivered : Delivered codec parties s
  ordered : Ordered codec parties s
  base : s.base.manager.protocol.Emits (Vouched codec s.base.manager.sent)
  rover : s.rover.Traced codec
  listening : s.rover.panel.messageCallback = true ∧ s.rover.panel.protocolCallback = true
  hearing : s.base.manager.messageCallback = true ∧ s.base.manager.protocol.messageCallback = true
  fresh : s.base.Fresh parties.peer

/-- Neither party keeps bytes of the other. -/
structure Clear (s : System) : Prop where
  base : s.base.manager.protocol.frameBuffers (getEndpointKey parties.rover) = []
  rover : s.rover.manager.protocol.frameBuffers (getEndpointKey parties.base) = []

variable {codec parties}

/-- A message manager reads payloads while it runs. -/
theorem handleLumenMessage_some {m : MessageManager} {payload : List UInt8} {message : Message}
    (read : m.handleLumenMessage codec payload = some message) :
    m.running = true ∧ deserialise codec m.protocol.clock.system payload = some message := by
  simp only [MessageManager.handleLumenMessage] at read
  split at read
  · cases read
  · next running =>
    split at read
    · cases read
    · exact ⟨by simpa using running,(Option.filter_eq_some_iff.mp read).1⟩

/-! ### What the parties send -/

theorem wellFormed_of_vouched {sent : List (Message × Endpoint)} {packet : LumenPacket}
    {recipient : Endpoint} (vouched : Vouched codec sent packet recipient)
    (fits : packet.totalSize ≤ 1024) : packet.WellFormed := by
  refine (LumenPacket.wellFormed_iff packet).mpr ⟨?_,?_⟩
  · rcases vouched with ⟨_,control⟩ | ⟨message,_,genuine⟩
    · exact control
    · have known := message.enumerators_inRange
      rw [← genuine.type,← genuine.priority] at known
      exact known
  · simp only [LumenPacket.totalSize] at fits
    omega

/-- In a packet of a party that arrives whole stands a message of its log, or no payload. -/
theorem logged_of_packet {sent : List (Message × Endpoint)} {packet : LumenPacket}
    {recipient : Endpoint} {payload : List UInt8} (vouched : Vouched codec sent packet recipient)
    (valid : packet.WellFormed) (found : Stack.Found [] packet.toBytes payload) :
    Logged codec sent recipient payload := by
  rcases found with ⟨_,other,member,carries,same⟩ | ⟨unframed,_⟩
  · have framed : extract packet.toBytes = ([],[packet]) :=
      extract_inSync [] _ valid (Or.inl rfl) (Or.inl rfl)
    rw [List.nil_append,framed] at member
    rw [List.mem_singleton.mp member] at carries same
    rcases vouched with ⟨control,_⟩ | ⟨message,logged,genuine⟩
    · exact absurd carries control
    · exact ⟨message,logged,same.trans genuine.payload⟩
  · exact absurd rfl unframed

theorem logged_of_text (readable : codec.Readable) {sent : List (Message × Endpoint)}
    {message : Message} {recipient : Endpoint} {buffer payload : List UInt8}
    (logged : (message,recipient) ∈ sent)
    (found : Stack.Found buffer (message.serialise codec) payload) :
    Logged codec sent recipient payload := by
  rcases found with ⟨framed,_⟩ | ⟨_,same⟩
  · rw [readable.brace message] at framed
    exact absurd framed (by decide)
  · exact ⟨message,logged,same⟩

theorem handshake_of_read {message read : Message}
    (commands : ∀ command params, read.content = .command command params →
      message.content = .command command params) (handshake : read.isHandshake = true) :
    message.isHandshake = true := by
  simp only [isHandshake,decide_eq_true_eq] at handshake ⊢
  rcases handshake with init | accept | confirm | established
  · exact Or.inl (isCommand_of_read commands init)
  · exact Or.inr (Or.inl (isCommand_of_read commands accept))
  · exact Or.inr (Or.inr (Or.inl (isCommand_of_read commands confirm)))
  · exact Or.inr (Or.inr (Or.inr (isCommand_of_read commands established)))

theorem plain_of_wraps (readable : codec.Readable) {payload : List UInt8} {now : Nat}
    {read : Message} {sender : Endpoint} (wraps : Wraps codec sender payload)
    (found : deserialise codec now payload = some read) : read.Plain := by
  obtain ⟨timestamp,content,rfl⟩ := wraps
  by_contra handshake
  have carried := handshake_of_read (read_back readable found).2 (Bool.eq_true_of_not_eq_false handshake)
  cases carried

/-- What the rover has sent makes the base station deal with the rover. -/
theorem distinct_of_logged (readable : codec.Readable) {s : System} (agreed : Agreed parties s)
    {payload : List UInt8} {now : Nat} {read : Message}
    (source : Logged codec s.rover.manager.sent parties.base payload ∨
      Wraps codec parties.rover payload)
    (found : deserialise codec now payload = some read) (handshake : read.isHandshake = true) :
    Session.Distinct parties.peer ⟨read.sender,parties.rover⟩ := by
  rcases source with ⟨message,logged,rfl⟩ | wraps
  · obtain ⟨sender,commands⟩ := read_back readable found
    have signed := agreed.rover.signed _ logged (handshake_of_read commands handshake)
    exact iff_of_true (sender.trans signed) rfl
  · cases handshake.symm.trans (plain_of_wraps readable wraps found)

/-- What the base station has sent tells the rover the truth. -/
theorem answered_of_logged (readable : codec.Readable) {s : System} (agreed : Agreed parties s)
    {payload : List UInt8} {now : Nat} {read : Message}
    (source : Logged codec s.base.manager.sent parties.rover payload ∨
      Wraps codec parties.base payload)
    (found : deserialise codec now payload = some read) :
    Answered parties s.base.session (read,parties.rover) := by
  intro handshake
  rcases source with ⟨message,logged,rfl⟩ | wraps
  · obtain ⟨sender,commands⟩ := read_back readable found
    obtain ⟨signed,held,established⟩ := agreed.base.answered _ logged
      (handshake_of_read commands handshake)
    exact ⟨sender.trans signed,held,fun named => established (isCommand_of_read commands named)⟩
  · cases handshake.symm.trans (plain_of_wraps readable wraps found)

/-- A command read from a text of the base station is one of its commands. -/
theorem order_of_logged (readable : codec.Readable) {sent : List (Message × Endpoint)}
    {endpoint sender : Endpoint} {payload : List UInt8} {now : Nat} {read : Message}
    {command params : String} (source : Logged codec sent endpoint payload ∨ Wraps codec sender payload)
    (found : deserialise codec now payload = some read)
    (content : read.content = .command command params) :
    ∃ order, (order,endpoint) ∈ sent ∧ order.content = .command command params := by
  rcases source with ⟨order,logged,rfl⟩ | ⟨timestamp,text,rfl⟩
  · exact ⟨order,logged,(read_back readable found).2 command params content⟩
  · cases (read_back readable found).2 command params content

/-! ### What arrives at the base station -/

theorem base_quiet {s : System} {base : BaseStation} (agreed : Agreed parties s)
    (quiet : BaseStation.Quiet s.base base) (sent : base.manager.sent = s.base.manager.sent) :
    Agreed parties { s with base := base } := by
  have honest := agreed.base
  apply agreed.baseMoves
  · refine ⟨quiet.valid honest.valid,quiet.up honest.up,quiet.stationId.trans honest.stationId,?_,?_⟩
    · rw [quiet.session]
      exact honest.distinct
    · rw [quiet.session,sent]
      exact honest.answered
  · rw [quiet.session]
    exact .refl _ _

/-- The established peer has the id of the rover exactly if it has its endpoint, so what concerns the
rover was read from the rover. -/
theorem Delivered.routes {s : System} {base : BaseStation} {message : Message} {sender : Endpoint}
    {payload : List UInt8} {now : Nat}
    (delivered : Delivered codec parties { s with base := base })
    (honest : BaseHonest parties base)
    (known : sender = parties.rover → Logged codec s.rover.manager.sent parties.base payload ∨
      Wraps codec parties.rover payload)
    (found : deserialise codec now payload = some message) :
    Delivered codec parties { s with base := base.routeMessage codec message sender } := by
  intro entry member concerns
  rcases base.routeMessage_hands codec message sender honest.valid entry member with
    old | ⟨new,established⟩
  · exact delivered entry old concerns
  · obtain ⟨shows_,named⟩ := BaseStation.mem_handedFor new
    have distinct : message.sender = parties.roverId ↔ sender = parties.rover :=
      honest.distinct _ (congrArg Session.peer? established)
    rcases named parties.peer concerns with id | endpoint
    · exact ⟨payload,now,message,known (distinct.mp id),found,id,shows_⟩
    · exact ⟨payload,now,message,known endpoint,found,distinct.mpr endpoint,shows_⟩

/-- The log of the rover only grows. -/
theorem Delivered.grows {s : System} {rover : Rover} (delivered : Delivered codec parties s)
    (grown : s.rover.manager.sent <+: rover.manager.sent) :
    Delivered codec parties { s with rover := rover } := by
  intro entry member concerns
  obtain ⟨payload,now,message,source,found,sender,shows_⟩ := delivered entry member concerns
  refine ⟨payload,now,message,source.imp_left ?_,found,sender,shows_⟩
  rintro ⟨original,logged,same⟩
  exact ⟨original,grown.subset logged,same⟩

variable (codec parties) in
/-- What holds of the base station while a datagram is handled. -/
structure BaseHandles (heard : Endpoint → Prop) (s : System) (base : BaseStation) : Prop where
  agreed : Agreed parties { s with base := base }
  delivered : Delivered codec parties { s with base := base }
  fresh : base.Fresh parties.peer
  operates : MessageManager.Operates codec heard s.base.manager base.manager

theorem BaseHandles.moves {s : System} {base : BaseStation}
    (handles : BaseHandles codec parties heard s base) {protocol : LumenProtocol}
    (node : base.manager.protocol.SameNode protocol)
    (moves : base.manager.protocol.Moves codec heard protocol) :
    BaseHandles codec parties heard s (base.setProtocol protocol) where
  agreed := base_quiet (s := { s with base := base }) handles.agreed
    (base.onProtocol_quiet (fun _ => protocol) node) rfl
  delivered := handles.delivered
  fresh := handles.fresh.moves node moves
  operates := handles.operates.trans (.below base.manager moves)

theorem BaseHandles.reads {s : System} {base : BaseStation}
    (handles : BaseHandles codec parties heard s base) (payload : List UInt8) (sender : Endpoint)
    (distinct : ∀ now message, deserialise codec now payload = some message →
      message.isHandshake = true → Session.Distinct parties.peer ⟨message.sender,sender⟩)
    (known : sender = parties.rover → Logged codec s.rover.manager.sent parties.base payload ∨
      Wraps codec parties.rover payload) :
    BaseHandles codec parties heard s (base.handleLumenMessage codec payload sender) := by
  simp only [BaseStation.handleLumenMessage]
  split
  · next message read =>
    obtain ⟨running,found⟩ := handleLumenMessage_some read
    have received := handles.agreed.baseReceives codec message sender (distinct _ message found)
    simp only [System.baseReceives,if_pos running] at received
    have honest := handles.agreed.base
    exact ⟨received,handles.delivered.routes honest known found,
      handles.fresh.routeMessage honest.valid message sender honest.distinct,
      handles.operates.trans (base.routeMessage_operates message sender)⟩
  · exact handles

/-- A datagram in which nobody else poses as the rover. -/
theorem baseReceives_handles (readable : codec.Readable) (s : System) (sound : Sound codec parties s)
    (datagram : List UInt8) (sender : Endpoint)
    (known : (datagram.take serverSockBufSize).head? = some lumenStx → heard sender)
    (sent : sender = parties.rover → ∀ payload,
      Stack.Found (s.base.manager.protocol.frameBuffers (getEndpointKey sender))
        (datagram.take serverSockBufSize) payload →
      Logged codec s.rover.manager.sent parties.base payload)
    (foreign : sender ≠ parties.rover → Foreign codec parties s.base datagram sender) :
    BaseHandles codec parties heard s (s.base.receiveDatagram codec datagram sender) := by
  apply (BaseStation.stack codec).receiveDatagram_keeps codec (BaseHandles codec parties heard s)
  · intro framed base bytes handles
    exact handles.moves (setFrameBuffer_sameNode _ _ bytes) (.keeps bytes sender (known framed))
  · intro base packet handles
    exact handles.moves (processCompletePacket_sameNode _ packet sender) (.packet packet sender)
  · intro unframed base handles
    exact handles.moves (handleUdpData_sameNode codec _ _ sender) (.text _ sender unframed)
  · intro base payload source handles
    apply handles.reads payload sender
    · intro now message found handshake
      by_cases same : sender = parties.rover
      · rw [same] at source sent ⊢
        exact distinct_of_logged readable sound.agreed (source.imp_left (sent rfl payload)) found
          handshake
      · rcases source with stands | wraps
        · exact iff_of_false (foreign same payload now message stands found) same
        · cases handshake.symm.trans (plain_of_wraps readable wraps found)
    · rintro rfl
      exact source.imp_left (sent rfl payload)
  · exact ⟨sound.agreed,sound.delivered,sound.fresh,.refl _⟩

/-! ### What arrives at the rover -/

/-- The log of the base station only grows. -/
theorem Ordered.grows {s : System} {base : BaseStation} (ordered : Ordered codec parties s)
    (grown : s.base.manager.sent <+: base.manager.sent) :
    Ordered codec parties { s with base := base } where
  power := by
    intro low
    obtain ⟨order,logged,content⟩ := ordered.power low
    exact ⟨order,grown.subset logged,content⟩
  target := by
    intro target aim
    obtain ⟨order,logged,aims⟩ := ordered.target target aim
    exact ⟨order,grown.subset logged,aims⟩

/-- An order that is new to the rover is in the log of the base station. -/
theorem Ordered.steps {s : System} {rover : Rover} (input : Rover.Input)
    (ordered : Ordered codec parties { s with rover := rover })
    (told : ∀ message sender, input = .route message sender → rover.getBaseEndpoint = some sender →
      ∀ command params, message.content = .command command params →
        ∃ order, (order,parties.rover) ∈ s.base.manager.sent ∧
          order.content = .command command params) :
    Ordered codec parties { s with rover := rover.step codec input } where
  power := by
    intro low
    rcases rover.step_power codec input low with before | ⟨message,sender,routed,base,command⟩
    · exact ordered.power before
    · exact told message sender routed base _ _ command
  target := by
    intro target aim
    rcases rover.step_target codec input target aim with
      before | ⟨message,sender,routed,base,params,command,parsed⟩
    · exact ordered.target target before
    · obtain ⟨order,logged,content⟩ := told message sender routed base _ _ command
      exact ⟨order,logged,params,content,parsed⟩

variable (codec parties) in
structure RoverHandles (heard : Endpoint → Prop) (s : System) (rover : Rover) : Prop where
  agreed : Agreed parties { s with rover := rover }
  ordered : Ordered codec parties { s with rover := rover }
  works : Rover.Works codec heard s.rover rover
  traced : rover.Traced codec
  listening : rover.panel.messageCallback = true ∧ rover.panel.protocolCallback = true

theorem RoverHandles.moves {s : System} {rover : Rover}
    (handles : RoverHandles codec parties heard s rover) {protocol : LumenProtocol}
    (node : rover.manager.protocol.SameNode protocol)
    (moves : rover.manager.protocol.Moves codec heard protocol)
    (callback : protocol.messageCallback = rover.manager.protocol.messageCallback) :
    RoverHandles codec parties heard s (rover.setProtocol protocol) := by
  have works : Rover.Works codec heard rover (rover.setProtocol protocol) :=
    .of_manager (.below rover.manager moves) rfl
  have steady : Rover.Steady rover (rover.setProtocol protocol) :=
    ⟨rfl,rfl,node,.refl _,fun _ member => Or.inl member⟩
  exact ⟨handles.agreed.roverAlone ⟨steady,Or.inl rfl⟩,⟨handles.ordered.power,handles.ordered.target⟩,
    handles.works.trans works,works.traced handles.traced,handles.listening.1,callback.trans handles.listening.2⟩

theorem RoverHandles.reads (readable : codec.Readable) {s : System} {rover : Rover}
    (handles : RoverHandles codec parties heard s rover) (payload : List UInt8) (sender : Endpoint)
    (told : sender = parties.base → Logged codec s.base.manager.sent parties.rover payload ∨
      Wraps codec parties.base payload) :
    RoverHandles codec parties heard s (rover.handleLumenMessage codec payload sender) := by
  simp only [Rover.handleLumenMessage]
  split
  · next message read =>
    obtain ⟨running,found⟩ := handleLumenMessage_some read
    have received := handles.agreed.roverReceives codec message sender fun same =>
      answered_of_logged readable handles.agreed (told same) found
    simp only [System.roverReceives,if_pos running] at received
    have ordered : Ordered codec parties { s with rover := rover.routeMessage codec message sender } := by
      apply handles.ordered.steps (.route message sender)
      rintro _ _ ⟨⟩ base command params content
      have same : sender = parties.base :=
        (Option.some.inj (handles.agreed.rover.registered.symm.trans base)).symm
      exact order_of_logged readable (told same) found content
    have works : Rover.Works codec heard rover (rover.routeMessage codec message sender) :=
      rover.routeMessage_works message sender handles.traced.stored
    exact ⟨received,ordered,handles.works.trans works,works.traced handles.traced,
      rover.step_listening codec (.route message sender) handles.listening⟩
  · exact handles

/-- A datagram in which nobody else poses as the base station. -/
theorem roverReceives_handles (readable : codec.Readable) (s : System)
    (sound : Sound codec parties s) (datagram : List UInt8) (sender : Endpoint)
    (known : (datagram.take clientSockBufSize).head? = some lumenStx → heard sender)
    (sent : sender = parties.base → ∀ payload,
      Stack.Found (s.rover.manager.protocol.frameBuffers (getEndpointKey sender))
        (datagram.take clientSockBufSize) payload →
      Logged codec s.base.manager.sent parties.rover payload) :
    RoverHandles codec parties heard s (s.rover.receiveDatagram codec datagram sender) := by
  apply (Rover.stack codec).receiveDatagram_keeps codec (RoverHandles codec parties heard s)
  · intro framed rover bytes handles
    exact handles.moves (setFrameBuffer_sameNode _ _ bytes) (.keeps bytes sender (known framed)) rfl
  · intro rover packet handles
    exact handles.moves (processCompletePacket_sameNode _ packet sender) (.packet packet sender)
      (processCompletePacket_undisturbed _ packet sender).messageCallback
  · intro unframed rover handles
    exact handles.moves (handleUdpData_sameNode codec _ _ sender) (.text _ sender unframed)
      (step_messageCallback codec _ (.datagram _ sender))
  · intro rover payload source handles
    apply handles.reads readable payload sender
    rintro rfl
    exact source.imp_left (sent rfl payload)
  · exact ⟨sound.agreed,sound.ordered,.of_same rfl rfl,sound.rover,sound.listening⟩

/-! ### Every run -/

theorem Sound.baseHandles {s : System} {base : BaseStation} (sound : Sound codec parties s)
    (handles : BaseHandles codec parties heard s base) :
    Sound codec parties { s with base := base } :=
  ⟨handles.agreed,handles.delivered,sound.ordered.grows handles.operates.sent,
    handles.operates.emits sound.base,sound.rover,sound.listening,
    handles.operates.listening sound.hearing,handles.fresh⟩

theorem Sound.roverHandles {s : System} {rover : Rover} (sound : Sound codec parties s)
    (handles : RoverHandles codec parties heard s rover) :
    Sound codec parties { s with rover := rover } :=
  ⟨handles.agreed,sound.delivered.grows handles.works.manager.sent,handles.ordered,sound.base,
    handles.traced,handles.listening,sound.hearing,sound.fresh⟩

theorem Clear.baseHandles {s : System} {base : BaseStation} (clear : Clear parties s)
    (handles : BaseHandles codec parties heard s base) (silent : ¬ heard parties.rover) :
    Clear parties { s with base := base } :=
  ⟨handles.operates.frameBuffers parties.rover silent clear.base,clear.rover⟩

theorem Clear.roverHandles {s : System} {rover : Rover} (clear : Clear parties s)
    (handles : RoverHandles codec parties heard s rover) (silent : ¬ heard parties.base) :
    Clear parties { s with rover := rover } :=
  ⟨clear.base,handles.works.manager.frameBuffers parties.base silent clear.rover⟩

/-- A packet of the rover arrives at the base station. -/
theorem packet_toBase (readable : codec.Readable) {s : System} (sound : Sound codec parties s)
    (clear : Clear parties s) {packet : LumenPacket}
    (transmitted : .transmit packet parties.base ∈ s.rover.manager.protocol.effects)
    (fits : packet.totalSize ≤ serverSockBufSize) :
    Sound codec parties (baseReceives codec s packet.toBytes parties.rover) ∧
      Clear parties (baseReceives codec s packet.toBytes parties.rover) := by
  have vouched := sound.rover.emits.sent packet parties.base transmitted
  have valid := wellFormed_of_vouched vouched fits
  have whole : packet.toBytes.take serverSockBufSize = packet.toBytes :=
    List.take_of_length_le (by rw [LumenPacket.toBytes_length]; exact fits)
  have handles : BaseHandles codec parties (fun _ => True) s
      (s.base.receiveDatagram codec packet.toBytes parties.rover) := by
    apply baseReceives_handles readable s sound packet.toBytes parties.rover fun _ => trivial
    · rw [whole,clear.base]
      exact fun _ payload => logged_of_packet vouched valid
    · exact fun other => absurd rfl other
  refine ⟨sound.baseHandles handles,?_,clear.rover⟩
  exact (BaseStation.stack codec).receiveDatagram_clear codec (fun _ _ => rfl) s.base packet
    parties.rover valid fits clear.base

theorem packet_toRover (readable : codec.Readable) {s : System} (sound : Sound codec parties s)
    (clear : Clear parties s) {packet : LumenPacket}
    (transmitted : .transmit packet parties.rover ∈ s.base.manager.protocol.effects)
    (fits : packet.totalSize ≤ clientSockBufSize) :
    Sound codec parties (roverReceives codec s packet.toBytes parties.base) ∧
      Clear parties (roverReceives codec s packet.toBytes parties.base) := by
  have vouched := sound.base.sent packet parties.rover transmitted
  have valid := wellFormed_of_vouched vouched fits
  have whole : packet.toBytes.take clientSockBufSize = packet.toBytes :=
    List.take_of_length_le (by rw [LumenPacket.toBytes_length]; exact fits)
  have handles : RoverHandles codec parties (fun _ => True) s
      (s.rover.receiveDatagram codec packet.toBytes parties.base) := by
    apply roverReceives_handles readable s sound packet.toBytes parties.base fun _ => trivial
    rw [whole,clear.rover]
    exact fun _ payload => logged_of_packet vouched valid
  refine ⟨sound.roverHandles handles,clear.base,?_⟩
  exact (Rover.stack codec).receiveDatagram_clear codec (fun _ _ => rfl) s.rover packet
    parties.base valid fits clear.rover

/-- The bare text of a message does not touch the buffers. -/
theorem text_toBase (readable : codec.Readable) {s : System} (sound : Sound codec parties s)
    (clear : Clear parties s) {message : Message}
    (logged : (message,parties.base) ∈ s.rover.manager.sent)
    (fits : (message.serialise codec).length ≤ serverSockBufSize) :
    Sound codec parties (baseReceives codec s (message.serialise codec) parties.rover) ∧
      Clear parties (baseReceives codec s (message.serialise codec) parties.rover) := by
  have whole := List.take_of_length_le fits
  have handles : BaseHandles codec parties (fun _ => False) s
      (s.base.receiveDatagram codec (message.serialise codec) parties.rover) := by
    apply baseReceives_handles readable s sound _ parties.rover
    · rw [whole,readable.brace message]
      intro framed
      exact absurd framed (by decide)
    · rw [whole]
      exact fun _ payload => logged_of_text readable logged
    · exact fun other => absurd rfl other
  exact ⟨sound.baseHandles handles,clear.baseHandles handles id⟩

theorem text_toRover (readable : codec.Readable) {s : System} (sound : Sound codec parties s)
    (clear : Clear parties s) {message : Message}
    (logged : (message,parties.rover) ∈ s.base.manager.sent)
    (fits : (message.serialise codec).length ≤ clientSockBufSize) :
    Sound codec parties (roverReceives codec s (message.serialise codec) parties.base) ∧
      Clear parties (roverReceives codec s (message.serialise codec) parties.base) := by
  have whole := List.take_of_length_le fits
  have handles : RoverHandles codec parties (fun _ => False) s
      (s.rover.receiveDatagram codec (message.serialise codec) parties.base) := by
    apply roverReceives_handles readable s sound _ parties.base
    · rw [whole,readable.brace message]
      intro framed
      exact absurd framed (by decide)
    · rw [whole]
      exact fun _ payload => logged_of_text readable logged
  exact ⟨sound.roverHandles handles,clear.roverHandles handles id⟩

/-- A call of the owner of the base station, or one of its timers. -/
theorem own_base {s : System} (sound : Sound codec parties s) (clear : Clear parties s)
    (input : BaseStation.Input) (traffic : input.isTraffic = true) (spoken : input.Speaks Plain s.base)
    (local_ : input.sender? = none) :
    Sound codec parties { s with base := s.base.step codec input } ∧
      Clear parties { s with base := s.base.step codec input } := by
  have agreed := step_agreed codec s (.base input) sound.agreed ⟨traffic,spoken⟩
  have operates : MessageManager.Operates codec (fun _ => False) s.base.manager
      (s.base.step codec input).manager := by
    apply s.base.step_operates input
    rw [local_]
    exact nofun
  have delivered : Delivered codec parties { s with base := s.base.step codec input } := by
    intro entry member
    have quiet := BaseStation.step_quiet codec s.base input traffic
    exact sound.delivered entry (quiet.handed ▸ member)
  have handles : BaseHandles codec parties (fun _ => False) s (s.base.step codec input) :=
    ⟨agreed,delivered,sound.fresh.step input traffic,operates⟩
  exact ⟨sound.baseHandles handles,clear.baseHandles handles id⟩

theorem own_rover {s : System} (sound : Sound codec parties s) (clear : Clear parties s)
    (input : Rover.Input) (own : ∀ message sender, input ≠ .route message sender)
    (spoken : input.Speaks Plain s.rover) (local_ : input.sender? = none) :
    Sound codec parties { s with rover := s.rover.step codec input } ∧
      Clear parties { s with rover := s.rover.step codec input } := by
  have agreed := step_agreed codec s (.rover input) sound.agreed ⟨own,spoken⟩
  have works : Rover.Works codec (fun _ => False) s.rover (s.rover.step codec input) := by
    apply s.rover.step_works input sound.rover.stored
    rw [local_]
    exact nofun
  have ordered : Ordered codec parties { s with rover := s.rover.step codec input } :=
    sound.ordered.steps input fun message sender routed => absurd routed (own message sender)
  have handles : RoverHandles codec parties (fun _ => False) s (s.rover.step codec input) :=
    ⟨agreed,ordered,works,works.traced sound.rover,s.rover.step_listening codec input sound.listening⟩
  exact ⟨sound.roverHandles handles,clear.roverHandles handles id⟩

/-- Bytes of another node, kept or not, do not touch what is kept of the other party. -/
theorem foreign_toBase (readable : codec.Readable) {s : System} (sound : Sound codec parties s)
    (clear : Clear parties s) {datagram : List UInt8} {sender : Endpoint}
    (apart : sender ≠ parties.rover) (foreign : Foreign codec parties s.base datagram sender) :
    Sound codec parties (baseReceives codec s datagram sender) ∧
      Clear parties (baseReceives codec s datagram sender) := by
  have handles : BaseHandles codec parties (· = sender) s
      (s.base.receiveDatagram codec datagram sender) :=
    baseReceives_handles readable s sound datagram sender (fun _ => rfl)
      (fun same => absurd same apart) fun _ => foreign
  exact ⟨sound.baseHandles handles,clear.baseHandles handles fun same => apart same.symm⟩

theorem foreign_toRover (readable : codec.Readable) {s : System} (sound : Sound codec parties s) (clear : Clear parties s)
    {sender : Endpoint} (datagram : List UInt8) (apart : sender ≠ parties.base) :
    Sound codec parties (roverReceives codec s datagram sender) ∧
      Clear parties (roverReceives codec s datagram sender) := by
  have handles : RoverHandles codec parties (· = sender) s
      (s.rover.receiveDatagram codec datagram sender) :=
    roverReceives_handles readable s sound datagram sender (fun _ => rfl)
      fun same => absurd same apart
  exact ⟨sound.roverHandles handles,clear.roverHandles handles fun same => apart same.symm⟩

/-- One step keeps the invariant, whatever bytes the network and the other nodes bring. -/
theorem step_sound (readable : codec.Readable) (s : System) (input : Input)
    (before : Sound codec parties s ∧ Clear parties s)
    (admissible : Admissible codec parties s input) :
    Sound codec parties (step codec parties s input) ∧ Clear parties (step codec parties s input) := by
  obtain ⟨sound,clear⟩ := before
  cases input with
  | base input => exact own_base sound clear input admissible.1 admissible.2.1 admissible.2.2
  | rover input => exact own_rover sound clear input admissible.1 admissible.2.1 admissible.2.2
  | toBase position =>
    simp only [step]
    split
    · next packet found =>
      exact packet_toBase readable sound clear (packetFor_mem found) (admissible packet found)
    · exact ⟨sound,clear⟩
  | toRover position =>
    simp only [step]
    split
    · next packet found =>
      exact packet_toRover readable sound clear (packetFor_mem found) (admissible packet found)
    · exact ⟨sound,clear⟩
  | textToBase position =>
    simp only [step]
    split
    · next message found =>
      exact text_toBase readable sound clear (copyFor_mem found) (admissible message found)
    · exact ⟨sound,clear⟩
  | textToRover position =>
    simp only [step]
    split
    · next message found =>
      exact text_toRover readable sound clear (copyFor_mem found) (admissible message found)
    · exact ⟨sound,clear⟩
  | otherToBase datagram sender => exact foreign_toBase readable sound clear admissible.1 admissible.2
  | otherToRover datagram sender => exact foreign_toRover readable sound clear datagram admissible

theorem started_sound (baseClock roverClock : Clock) :
    Sound codec parties (System.started codec parties baseClock roverClock) ∧
      Clear parties (System.started codec parties baseClock roverClock) := by
  have works : Rover.Works codec (fun _ => False)
      (Rover.new parties.roverId parties.base roverClock).launched
      (Rover.started codec parties.roverId parties.base roverClock) := Rover.started_works _ _ _
  have panel := Rover.started_panel codec parties.roverId parties.base roverClock
  have idle : Ordered codec parties (System.started codec parties baseClock roverClock) := by
    constructor
    · intro low
      cases (congrArg Rover.Panel.lowPowerMode panel).symm.trans low
    · intro target aim
      cases (congrArg Rover.Panel.targetCoordinate panel).symm.trans aim
  refine ⟨⟨started_agreed codec baseClock roverClock,nofun,idle,BaseStation.started_emits _ _ _,
    Rover.started_traced _ _ _,?_,⟨rfl,rfl⟩,BaseStation.started_fresh _ _⟩,rfl,works.manager.frameBuffers parties.base id rfl⟩
  simp only [System.started,panel]
  exact ⟨rfl,rfl⟩

theorem run_sound (readable : codec.Readable) (baseClock roverClock : Clock) (inputs : List Input)
    (admissible : Guarded (step codec parties) (Admissible codec parties)
      (System.started codec parties baseClock roverClock) inputs) :
    let s := run (step codec parties) (System.started codec parties baseClock roverClock) inputs
    Sound codec parties s ∧ Clear parties s :=
  always_of_guarded (step codec parties) (step_sound readable) _ inputs
    (started_sound baseClock roverClock) admissible inputs (List.prefix_refl inputs)

/-- With all layers and on the level of bytes: whenever the rover is in session, the base station is
in session with this rover. Other nodes do not use the rover's id, no datagram of the two parties
has more than 1024 bytes, and the base station is not stopped. -/
theorem active_rover_is_known (readable : codec.Readable) (baseClock roverClock : Clock)
    (inputs : List Input)
    (admissible : Guarded (step codec parties) (Admissible codec parties)
      (System.started codec parties baseClock roverClock) inputs) :
    let s := run (step codec parties) (System.started codec parties baseClock roverClock) inputs
    s.rover.sessionState = .active →
      s.base.sessionState = .active ∧ s.base.connectedRoverId = parties.roverId ∧
        s.base.roverEndpoint = parties.rover := by
  intro s active
  have sound := (run_sound readable baseClock roverClock inputs admissible).1
  exact (BaseStation.established_iff s.base parties.peer).mp (sound.agreed.active active)

/-- In every run, what the owner of the base station is given as coming from the rover, its status
under its id or a message under its endpoint, is what the base station has read from the text of a
message that the rover has sent to it. That other nodes do not use the rover's id, and that no
datagram of the two parties has more than 1024 bytes, is assumed: a message of another node under
the id of the rover would be handed up as well. -/
theorem handed_was_sent (readable : codec.Readable) (baseClock roverClock : Clock)
    (inputs : List Input)
    (admissible : Guarded (step codec parties) (Admissible codec parties)
      (System.started codec parties baseClock roverClock) inputs)
    (named : parties.roverId ≠ "Unknown:" ++ getEndpointKey parties.rover) :
    let s := run (step codec parties) (System.started codec parties baseClock roverClock) inputs
    ∀ entry ∈ s.base.handed, entry.Concerns parties.peer →
      ∃ original now message, (original,parties.base) ∈ s.rover.manager.sent ∧
        original.sender = parties.roverId ∧
        deserialise codec now (original.serialise codec) = some message ∧ entry.Shows message := by
  intro s entry member concerns
  have sound := (run_sound readable baseClock roverClock inputs admissible).1
  obtain ⟨payload,now,message,source,found,signed,shows_⟩ := sound.delivered entry member concerns
  rcases source with ⟨original,logged,rfl⟩ | ⟨timestamp,content,rfl⟩
  · have sender := (read_back readable found).1
    exact ⟨original,now,message,logged,sender.symm.trans signed,found,shows_⟩
  · -- a text that is no JSON is read under a name that is not the id of the rover
    exact absurd (signed.symm.trans (read_back readable found).1) named

/-- In every run, a rover in low power mode was put into it by the base station, and a rover that
heads for a target was given it by the base station. No other node steers the rover, as long as it
does not use the endpoint of the base station; datagrams of the two parties have at most 1024
bytes. -/
theorem obeyed_was_ordered (readable : codec.Readable) (baseClock roverClock : Clock)
    (inputs : List Input)
    (admissible : Guarded (step codec parties) (Admissible codec parties)
      (System.started codec parties baseClock roverClock) inputs) :
    let s := run (step codec parties) (System.started codec parties baseClock roverClock) inputs
    (s.rover.lowPowerMode = true → ∃ order, (order,parties.rover) ∈ s.base.manager.sent ∧
      order.content = .command "SET_LOW_POWER" "1") ∧
    ∀ target, s.rover.targetCoordinate = some target →
      ∃ order, (order,parties.rover) ∈ s.base.manager.sent ∧ Rover.Aims codec order target := by
  intro s
  have sound := (run_sound readable baseClock roverClock inputs admissible).1
  exact ⟨sound.ordered.power,sound.ordered.target⟩

theorem library_readable (known : List (List (String × String)))
    (distinct : ∀ members ∈ known, ∀ others ∈ known, write members = write others → members = others)
    (closed : ∀ members ∈ known, write members ≠ [0x7b]) : (library known).Readable where
  brace := by
    intro message
    simp only [serialise,library]
    cases (flat? _).filter _ <;> rfl
  strings := by
    intro message json parsed
    obtain ⟨members,found,rfl⟩ := Option.map_eq_some_iff.mp parsed
    have listed := List.mem_of_find?_eq_some found
    have same : write members = message.serialise (library known) := by
      simpa using List.find?_some found
    simp only [serialise,library] at same
    generalize chosen : (flat? _).filter _ = object at same
    cases object with
    | none => exact absurd same (closed members listed)
    | some own =>
      obtain ⟨flat,here⟩ := Option.filter_eq_some_iff.mp chosen
      rw [distinct members listed own (of_decide_eq_true here) same,← flat?_eq flat]
      exact fun key => rfl

theorem handshakeLibrary_readable : handshakeLibrary.Readable :=
  library_readable handshakeTexts handshakeTexts_distinct (by decide +kernel)

/-- The texts of the handshake arrive, without their frames. -/
def bareHandshake : List Input := [.textToBase 0,.textToRover 0,.textToBase 1,.textToRover 1]

theorem small_text {found : Option Message}
    (fits : found.all (fun message => (message.serialise handshakeLibrary).length ≤ 1024) = true)
    (message : Message) (here : found = some message) :
    (message.serialise handshakeLibrary).length ≤ 1024 := by
  rw [here] at fits
  exact of_decide_eq_true fits

theorem bareHandshake_admissible :
    Guarded (step handshakeLibrary sampleParties) (Admissible handshakeLibrary sampleParties)
      (System.started handshakeLibrary sampleParties ⟨0,0⟩ ⟨0,0⟩) bareHandshake := by
  simp only [bareHandshake,guarded_cons]
  exact ⟨small_text (by decide +kernel),small_text (by decide +kernel),small_text (by decide +kernel),
    small_text (by decide +kernel),guarded_nil _ _ _⟩

theorem bareHandshake_is_known :
    (run (step handshakeLibrary sampleParties)
      (System.started handshakeLibrary sampleParties ⟨0,0⟩ ⟨0,0⟩)
      bareHandshake).base.connectedRoverId = "rover-a" :=
  (active_rover_is_known handshakeLibrary_readable ⟨0,0⟩ ⟨0,0⟩ bareHandshake
    bareHandshake_admissible (by decide +kernel)).2.1

/-- After the handshake the rover reports its status, and the report arrives twice. -/
def reportedTwice : List Input :=
  .base .setApplicationMessageHandler :: bareHandshake ++
    [.rover .sendStatus,.textToBase 2,.textToBase 2]

theorem reportedTwice_admissible :
    Guarded (step handshakeLibrary sampleParties) (Admissible handshakeLibrary sampleParties)
      (System.started handshakeLibrary sampleParties ⟨0,0⟩ ⟨0,0⟩) reportedTwice := by
  simp only [reportedTwice,bareHandshake,List.cons_append,List.nil_append,guarded_cons]
  refine ⟨⟨rfl,trivial,rfl⟩,small_text (by decide +kernel),small_text (by decide +kernel),
    small_text (by decide +kernel),small_text (by decide +kernel),⟨?_,trivial,rfl⟩,
    small_text (by decide +kernel),small_text (by decide +kernel),guarded_nil _ _ _⟩
  intro _ _ same
  cases same

theorem reportedTwice_was_sent :
    let s := run (step handshakeLibrary sampleParties)
      (System.started handshakeLibrary sampleParties ⟨0,0⟩ ⟨0,0⟩) reportedTwice
    s.base.handed.length = 2 ∧ ∀ entry ∈ s.base.handed,
      ∃ original now message, (original,sampleParties.base) ∈ s.rover.manager.sent ∧
        original.sender = sampleParties.roverId ∧
        deserialise handshakeLibrary now (original.serialise handshakeLibrary) = some message ∧
          entry.Shows message := by
  intro s
  have twice : s.base.handed.length = 2 := by decide +kernel
  have concerns : s.base.handed.all (·.Concerns sampleParties.peer) = true := by decide +kernel
  have sent := handed_was_sent handshakeLibrary_readable ⟨0,0⟩ ⟨0,0⟩ reportedTwice
    reportedTwice_admissible (by decide +kernel)
  have last : run (step handshakeLibrary sampleParties)
      (System.started handshakeLibrary sampleParties ⟨0,0⟩ ⟨0,0⟩) reportedTwice = s := rfl
  simp only [last] at sent
  refine ⟨twice,fun entry member => sent entry member ?_⟩
  exact of_decide_eq_true (List.all_eq_true.mp concerns entry member)

/-- After the handshake the base station orders low power mode, and the order arrives. -/
def powerOrdered : List Input := bareHandshake ++ [.base (.setLowPowerMode true),.textToRover 2]

theorem powerOrdered_admissible :
    Guarded (step handshakeLibrary sampleParties) (Admissible handshakeLibrary sampleParties)
      (System.started handshakeLibrary sampleParties ⟨0,0⟩ ⟨0,0⟩) powerOrdered := by
  refine (guarded_append _ _ _ bareHandshake _).mpr ⟨bareHandshake_admissible,?_⟩
  simp only [guarded_cons]
  exact ⟨⟨rfl,trivial,rfl⟩,small_text (by decide +kernel),guarded_nil _ _ _⟩

theorem powerOrdered_was_ordered :
    ∃ order, (order,sampleParties.rover) ∈
        (run (step handshakeLibrary sampleParties)
          (System.started handshakeLibrary sampleParties ⟨0,0⟩ ⟨0,0⟩) powerOrdered).base.manager.sent ∧
      order.content = .command "SET_LOW_POWER" "1" :=
  (obeyed_was_ordered handshakeLibrary_readable ⟨0,0⟩ ⟨0,0⟩ powerOrdered powerOrdered_admissible).1
    (by decide +kernel)

end Wire

end Lumen
