import Lumen.Stack
import Lumen.Traffic

/-! What a datagram can do to a whole node: which payloads it makes the protocol pass up, and that
these are handled one after the other. What is read from the text of a message is that message, as
far as the JSON library can be relied on. -/
namespace Lumen

open Endpoint Message Machine LumenProtocol

namespace LumenProtocol

theorem passed_sent (s : LumenProtocol) (packet : LumenPacket) (recipient : Endpoint) :
    (s.sent packet recipient).filterMap Effect.passed? = [] := by
  refine List.filterMap_eq_nil_iff.mpr fun effect member => ?_
  rw [(mem_sent.mp member).2]
  rfl

/-- A packet makes the protocol pass up its payload, or nothing. -/
theorem payloads_packet_cases (s : LumenProtocol) (packet : LumenPacket) (endpoint : Endpoint) :
    payloads s (s.processCompletePacket packet endpoint) = [] ∨ CarriesPayload packet ∧
      payloads s (s.processCompletePacket packet endpoint) = [(packet.payload,endpoint)] := by
  have marked (more : List Effect)
      (added : (s.processCompletePacket packet endpoint).effects =
        s.effects ++ .processing packet endpoint :: more) :
      payloads s (s.processCompletePacket packet endpoint) = more.filterMap Effect.passed? := by
    rw [payloads,newEffects_of_append added]
    rfl
  cases mode : s.mode with
  | rover =>
    by_cases payload : CarriesPayload packet
    · cases callback : s.messageCallback with
      | true => exact Or.inr ⟨payload,payloads_packet s packet endpoint mode payload callback⟩
      | false =>
        left
        obtain ⟨naks,added,shape⟩ := processCompletePacket_rover s packet endpoint mode payload
        rw [marked _ added,callback]
        refine List.filterMap_eq_nil_iff.mpr fun effect member => ?_
        rw [if_neg Bool.false_ne_true,List.append_nil] at member
        obtain ⟨_,_,_,_,rfl,_⟩ := shape effect member
        rfl
    · left
      rw [marked [] (processCompletePacket_rover_control s packet endpoint mode payload)]
      rfl
  | baseStation =>
    rw [marked _ (processCompletePacket_answer s packet endpoint mode),answer]
    split
    · exact Or.inl rfl
    · next ack =>
      split
      · left
        refine List.filterMap_eq_nil_iff.mpr fun effect member => ?_
        obtain ⟨entry,_,sends⟩ := List.mem_flatMap.mp member
        rw [(mem_sent.mp sends).2]
        rfl
      · next nak =>
        have acks : (if s.sessionActive then s.sent (s.ackPacket packet.header.sequence) endpoint
            else []).filterMap Effect.passed? = [] := by
          split
          · exact passed_sent s _ endpoint
          · rfl
        rw [List.filterMap_append,acks,List.nil_append]
        split
        · exact Or.inr ⟨⟨ack,nak⟩,rfl⟩
        · exact Or.inl rfl

/-- The text of a basic message with an unknown sender, as it is made for text that is no JSON. -/
def Wraps (codec : Codec) (endpoint : Endpoint) (payload : List UInt8) : Prop :=
  ∃ timestamp content, payload = Message.serialise codec
    ⟨"Unknown:" ++ getEndpointKey endpoint,timestamp,.basic content⟩

/-- Data that is not framed is passed up as it is, in a basic message, or not at all. -/
theorem payloads_text (codec : Codec) (s : LumenProtocol) (data : List UInt8) (endpoint : Endpoint)
    (unframed : data.head? ≠ some lumenStx) :
    payloads s (handleUdpData codec s data endpoint) = [] ∨
      ∃ payload, (payload = data ∨ Wraps codec endpoint payload) ∧
        payloads s (handleUdpData codec s data endpoint) = [(payload,endpoint)] := by
  have nothing : payloads s s = [] := by
    rw [payloads,newEffects_of_append (List.append_nil s.effects).symm]
    rfl
  have passed (payload : List UInt8) : payloads s (s.passUp payload endpoint) = [] ∨
      payloads s (s.passUp payload endpoint) = [(payload,endpoint)] := by
    simp only [passUp]
    split
    · right
      rw [payloads,newEffects_of_append rfl]
      rfl
    · exact Or.inl nothing
  simp only [handleUdpData]
  split
  · exact Or.inl nothing
  · split
    · exact Or.inl nothing
    · next first tail =>
      have plain : ¬ first = lumenStx := fun same => unframed (congrArg some same)
      rw [if_neg plain]
      split
      · rcases passed (first :: tail) with none_ | one
        · exact Or.inl none_
        · exact Or.inr ⟨_,Or.inl rfl,one⟩
      · simp only [wrapRaw]
        split
        · exact Or.inl nothing
        · rcases passed _ with none_ | one
          · exact Or.inl none_
          · exact Or.inr ⟨_,Or.inr ⟨_,_,rfl⟩,one⟩

end LumenProtocol

namespace Stack

variable {ν : Type} (codec : Codec) (stack : Stack ν)

theorem advance_nothing (node : ν) (protocol : LumenProtocol)
    (silent : payloads (stack.protocol node) protocol = []) :
    stack.advance node protocol = stack.setProtocol node protocol := by
  rw [advance,silent]
  rfl

theorem advance_one (node : ν) (protocol : LumenProtocol) (payload : List UInt8) (sender : Endpoint)
    (passed : payloads (stack.protocol node) protocol = [(payload,sender)]) :
    stack.advance node protocol =
      stack.handleLumenMessage (stack.setProtocol node protocol) payload sender := by
  rw [advance,passed]
  rfl

/-- A payload that stands in what was received: in a packet, or without any frame. -/
def Found (buffer data payload : List UInt8) : Prop :=
  data.head? = some lumenStx ∧
      (∃ packet ∈ (extract (buffer ++ data)).2, CarriesPayload packet ∧ payload = packet.payload) ∨
    data.head? ≠ some lumenStx ∧ payload = data

/-- Data without a frame goes up as one piece. -/
theorem handleUdpData_text (node : ν) (data : List UInt8) (sender : Endpoint)
    (running : (stack.protocol node).running = true) (some_ : data ≠ [])
    (unframed : data.head? ≠ some lumenStx) :
    stack.handleUdpData codec node data sender =
      stack.advance node (LumenProtocol.handleUdpData codec (stack.protocol node) data sender) := by
  cases data with
  | nil => exact absurd rfl some_
  | cons first tail =>
    have plain : ¬ first = lumenStx := fun same => unframed (congrArg some same)
    simp only [handleUdpData,running]
    exact if_neg plain

/-- The packets of a datagram are handled one after the other. -/
theorem foldl_packets_keep (property : ν → Prop) (sender : Endpoint) (frames : List LumenPacket)
    (packets : ∀ node packet, property node → property (stack.setProtocol node
      ((stack.protocol node).processCompletePacket packet sender)))
    (reads : ∀ after packet, packet ∈ frames → CarriesPayload packet → property after →
      property (stack.handleLumenMessage after packet.payload sender))
    (node : ν) (initial : property node) :
    property (frames.foldl (fun node packet => stack.processCompletePacket node packet sender)
      node) := by
  induction frames generalizing node with
  | nil => exact initial
  | cons packet rest ih =>
    apply ih fun after other member => reads after other (List.mem_cons_of_mem _ member)
    have moved := packets node packet initial
    change property (stack.advance node _)
    rcases payloads_packet_cases (stack.protocol node) packet sender with silent | ⟨payload,passed⟩
    · rw [stack.advance_nothing node _ silent]
      exact moved
    · rw [stack.advance_one node _ _ sender passed]
      exact reads _ packet List.mem_cons_self payload moved

/-- The rule for a datagram at a whole node: what keeping bytes, handling a packet and reading a
payload preserve is preserved by the arrival of the datagram. -/
theorem receiveDatagram_keeps (property : ν → Prop) (datagram : List UInt8) (sender : Endpoint)
    (kept : (datagram.take stack.sockBufSize).head? = some lumenStx → ∀ node bytes, property node →
      property (stack.setFrameBuffer node (getEndpointKey sender) bytes))
    (packets : ∀ node packet, property node → property (stack.setProtocol node
      ((stack.protocol node).processCompletePacket packet sender)))
    (texts : (datagram.take stack.sockBufSize).head? ≠ some lumenStx → ∀ node, property node →
      property (stack.setProtocol node (LumenProtocol.handleUdpData codec (stack.protocol node)
        (datagram.take stack.sockBufSize) sender)))
    (node : ν)
    (reads : ∀ after payload, Found ((stack.protocol node).frameBuffers (getEndpointKey sender))
        (datagram.take stack.sockBufSize) payload ∨ Wraps codec sender payload → property after →
      property (stack.handleLumenMessage after payload sender))
    (initial : property node) : property (stack.receiveDatagram codec node datagram sender) := by
  unfold receiveDatagram
  generalize datagram.take stack.sockBufSize = data at kept texts reads ⊢
  by_cases ignored : (stack.protocol node).running = false ∨ data = []
  · have same : stack.handleUdpData codec node data sender = node := by
      rcases ignored with stopped | rfl
      · simp [handleUdpData,stopped]
      · simp [handleUdpData]
    rw [same]
    exact initial
  · obtain ⟨stopped,some_⟩ := not_or.mp ignored
    have running := Bool.eq_true_of_not_eq_false stopped
    rcases head_cases data with unframed | ⟨tail,rfl⟩
    · have moved := texts unframed node initial
      rw [stack.handleUdpData_text codec node data sender running some_ unframed]
      rcases payloads_text codec (stack.protocol node) data sender unframed with
        silent | ⟨payload,source,passed⟩
      · rw [stack.advance_nothing node _ silent]
        exact moved
      · rw [stack.advance_one node _ payload sender passed]
        exact reads _ payload (source.imp_left fun same => Or.inr ⟨unframed,same⟩) moved
    · rw [stack.handleUdpData_frames codec node tail sender running]
      apply kept rfl
      apply stack.foldl_packets_keep property sender _ packets
      · intro after packet found payload
        exact reads after _ (Or.inl (Or.inl ⟨rfl,packet,found,payload,rfl⟩))
      · exact kept rfl _ _ initial

/-- A packet that arrives whole leaves nothing behind. -/
theorem receiveDatagram_clear (lawful : ∀ node protocol,
      stack.protocol (stack.setProtocol node protocol) = protocol)
    (node : ν) (packet : LumenPacket) (sender : Endpoint) (valid : packet.WellFormed)
    (fits : packet.totalSize ≤ stack.sockBufSize)
    (empty : (stack.protocol node).frameBuffers (getEndpointKey sender) = []) :
    (stack.protocol (stack.receiveDatagram codec node packet.toBytes sender)).frameBuffers
      (getEndpointKey sender) = [] := by
  cases running : (stack.protocol node).running with
  | false =>
    simp only [receiveDatagram,handleUdpData,running]
    exact empty
  | true =>
    rw [stack.receiveDatagram_packet codec node packet sender running valid fits empty,
      setFrameBuffer,lawful,setFrameBuffer_frameBuffers,Function.update_self]

end Stack

/-! ### The base station with all its layers -/

namespace BaseStation

variable (codec : Codec)

def setProtocol (s : BaseStation) (protocol : LumenProtocol) : BaseStation :=
  s.onProtocol fun _ => protocol

/-- The message manager reads a payload, and its callback is `route_message`. -/
def handleLumenMessage (s : BaseStation) (payload : List UInt8) (sender : Endpoint) : BaseStation :=
  match s.manager.handleLumenMessage codec payload with
  | some message => s.routeMessage codec message sender
  | none => s

def stack : Stack BaseStation :=
  ⟨fun s => s.manager.protocol,setProtocol,handleLumenMessage codec,serverSockBufSize⟩

def receiveDatagram (s : BaseStation) (datagram : List UInt8) (sender : Endpoint) : BaseStation :=
  (stack codec).receiveDatagram codec s datagram sender

/-- What the owner is given names its source: the status callback by the id, the application handler
by the endpoint. -/
def Handed.Concerns (peer : Peer) : Handed → Prop
  | .status id _ => id = peer.id
  | .application _ sender => sender = peer.endpoint

/-- The owner is given what the message says. -/
def Handed.Shows (message : Message) : Handed → Prop
  | .status id data => id = message.sender ∧ statusData message = some data
  | .application given _ => given = message

instance (peer : Peer) : DecidablePred (Handed.Concerns peer)
  | .status id _ => inferInstanceAs (Decidable (id = peer.id))
  | .application _ sender => inferInstanceAs (Decidable (sender = peer.endpoint))

/-- The callbacks are given what the message says, under the name of its sender. -/
theorem mem_handedFor {s : BaseStation} {message : Message} {sender : Endpoint} {entry : Handed}
    (member : entry ∈ s.handedFor message sender) :
    entry.Shows message ∧ ∀ peer : Peer, entry.Concerns peer →
      message.sender = peer.id ∨ sender = peer.endpoint := by
  rcases List.mem_append.mp member with status | application
  · split at status
    · obtain ⟨data,shown,rfl⟩ := List.mem_map.mp status
      exact ⟨⟨rfl,Option.mem_toList.mp shown⟩,fun _ => Or.inl⟩
    · cases status
  · split at application
    · cases List.mem_singleton.mp application
      exact ⟨rfl,fun _ => Or.inr⟩
    · cases application

/-- Whatever is handed up while a message is handled comes from the established peer. -/
theorem routeMessage_hands (s : BaseStation) (message : Message) (sender : Endpoint) (valid : Valid s)
    (entry : Handed) (member : entry ∈ (s.routeMessage codec message sender).handed) :
    entry ∈ s.handed ∨ entry ∈ s.handedFor message sender ∧
      s.session = .established ⟨message.sender,sender⟩ := by
  by_cases same : (s.step codec (.route message sender)).handed = s.handed
  · exact Or.inl (same ▸ member)
  · obtain ⟨_,_,routed,added,established⟩ := step_handed codec s _ valid same
    cases routed
    have here : entry ∈ s.handed ++ s.handedFor message sender := added ▸ member
    rcases List.mem_append.mp here with old | new
    · exact Or.inl old
    · exact Or.inr ⟨new,established⟩

end BaseStation

/-! ### Reading back -/

/-- What the code relies on when it reads texts of the JSON library: an object is written with its
brace first, and its strings are read as they were written. -/
structure Codec.Readable (codec : Codec) : Prop where
  brace : ∀ message : Message, (message.serialise codec).head? = some 0x7b
  strings : ∀ (message : Message) json, codec.parse (message.serialise codec) = some json →
    ∀ key, json.string? key = (message.toJson codec).string? key

namespace Message

variable {codec : Codec}

theorem toJson_sender (message : Message) :
    (message.toJson codec).string? "sender" = some message.sender := by
  obtain ⟨sender,timestamp,content⟩ := message
  cases content <;> rfl

theorem toJson_command (message : Message) {command params : String}
    (named : (message.toJson codec).string? "command" = some command)
    (given : (message.toJson codec).string? "params" = some params) :
    message.content = .command command params := by
  obtain ⟨sender,timestamp,content⟩ := message
  cases content with
  | command own other =>
    cases named
    cases given
    rfl
  | basic | telemetry | status => cases named

/-- What a text is read as has the sender the text names. -/
theorem deserialise_sender {now : Nat} {text : List UInt8} {read : Message}
    (found : deserialise codec now text = some read) :
    ∃ json, codec.parse text = some json ∧ json.string? "sender" = some read.sender ∧
      ∀ command params, read.content = .command command params →
        json.string? "command" = some command ∧ json.string? "params" = some params := by
  simp only [deserialise,Option.bind_eq_bind,Option.bind_eq_some_iff] at found
  obtain ⟨json,parsed,msgType,typed,_,_,chosen⟩ := found
  refine ⟨json,parsed,?_⟩
  split at chosen
  · simp only [basicFromJson,Option.bind_eq_bind,Option.bind_eq_some_iff] at chosen
    obtain ⟨content,_,sender,named,made⟩ := chosen
    cases made
    exact ⟨named,by simp⟩
  · split at chosen
    · simp only [commandFromJson,Option.bind_eq_bind,Option.bind_eq_some_iff] at chosen
      obtain ⟨command,asked,params,given,sender,named,made⟩ := chosen
      cases made
      refine ⟨named,fun _ _ same => ?_⟩
      cases same
      exact ⟨asked,given⟩
    · split at chosen
      · simp only [telemetryFromJson,Option.bind_eq_bind,Option.bind_eq_some_iff] at chosen
        obtain ⟨readings,_,sender,named,made⟩ := chosen
        cases made
        exact ⟨named,by simp⟩
      · split at chosen
        · simp only [statusFromJson,Option.bind_eq_bind,Option.bind_eq_some_iff] at chosen
          obtain ⟨levelStr,_,description,_,sender,named,level,_,made⟩ := chosen
          cases made
          exact ⟨named,by simp⟩
        · cases chosen

/-- A message is read under its own sender, and as a command only if it is that command. -/
theorem read_back (readable : codec.Readable) {message read : Message} {now : Nat}
    (found : deserialise codec now (message.serialise codec) = some read) :
    read.sender = message.sender ∧ ∀ command params, read.content = .command command params →
      message.content = .command command params := by
  obtain ⟨json,parsed,named,commands⟩ := deserialise_sender found
  have same := readable.strings message json parsed
  rw [same,toJson_sender] at named
  refine ⟨(Option.some.inj named).symm,fun command params content => ?_⟩
  obtain ⟨asked,given⟩ := commands command params content
  rw [same] at asked given
  exact toJson_command message asked given

theorem isCommand_of_read {message read : Message} {name : String}
    (commands : ∀ command params, read.content = .command command params →
      message.content = .command command params) (named : read.isCommand name = true) :
    message.isCommand name = true := by
  obtain ⟨sender,timestamp,content⟩ := read
  cases content with
  | command command params =>
    have same := commands command params rfl
    simp only [isCommand] at named
    simpa only [isCommand,same] using named
  | basic | telemetry | status => cases named

end Message

end Lumen
