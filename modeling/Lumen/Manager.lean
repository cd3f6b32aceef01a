import Lumen.Reception

/-! The message manager: between the messages of the application and the payloads of the
protocol. `sent` logs every message that leaves the node, framed or raw, with the endpoint
it goes to; it is what the network has to deliver. -/
namespace Lumen

namespace LumenProtocol

/-- Whether `sendPacket` gives a packet for this recipient to the socket. -/
def canSend (s : LumenProtocol) (recipient : Endpoint) : Bool :=
  match s.mode with
  | .baseStation => s.serverRunning ∧ recipient.Sendable
  | .rover => s.getBaseEndpoint = some recipient ∨ recipient.Sendable

/-- Where a message for the recipient leaves the node to, if it does. -/
def destination (s : LumenProtocol) (recipient : Endpoint) : Option Endpoint :=
  if !s.running then none else (s.targetEndpoint recipient).filter s.canSend

theorem sendPacket_eq (s : LumenProtocol) (packet : LumenPacket) (recipient : Endpoint) :
    s.sendPacket packet recipient =
      if s.canSend recipient then s.emit (.transmit packet recipient) else s := by
  unfold sendPacket canSend
  cases s.mode <;> simp

/-- The log of the protocol agrees: one packet to the destination, or nothing. -/
theorem sendMessage_effects (s : LumenProtocol) (payload : List UInt8) (type : MessageType)
    (priority : Priority) (recipient : Endpoint) :
    (s.sendMessage payload type priority recipient).effects =
      s.effects ++ (s.destination recipient).toList.map
        (.transmit (s.nextPacket payload type priority)) := by
  have sent (t : LumenProtocol) (target : Endpoint) (same : t.effects = s.effects)
      (able : t.canSend target = s.canSend target) :
      (t.sendPacket (s.nextPacket payload type priority) target).effects =
        s.effects ++ ((some target).filter s.canSend).toList.map
          (.transmit (s.nextPacket payload type priority)) := by
    rw [sendPacket_eq,able]
    by_cases free : s.canSend target <;> simp [free,emit,same,Option.filter]
  simp only [destination]
  cases running : s.running with
  | false => simp [sendMessage,running]
  | true =>
    rw [sendMessage_running _ _ _ _ _ running]
    cases s.targetEndpoint recipient with
    | none => simp
    | some target =>
      by_cases data : type ≠ .ack ∧ type ≠ .nak
      · simp only [if_pos data]; exact sent _ target rfl rfl
      · simp only [if_neg data]; exact sent _ target rfl rfl

theorem destination_baseStation (s : LumenProtocol) (recipient : Endpoint)
    (base : s.mode = .baseStation) :
    s.destination recipient =
      if s.running = true ∧ s.serverRunning = true ∧ recipient.Sendable then some recipient
      else none := by
  by_cases up : s.running = true <;> by_cases open_ : recipient.isUnspecified = true <;>
    by_cases server : s.serverRunning = true <;>
    simp [destination,targetEndpoint,canSend,base,up,open_,server,Endpoint.Sendable,Option.filter]

/-- The registered base station is always reachable for the socket. -/
theorem destination_registered (s : LumenProtocol) (base : Endpoint) (rover : s.mode = .rover)
    (running : s.running = true) (registered : s.getBaseEndpoint = some base) :
    s.destination base = some base := by
  have known : base.isUnspecified = false := by
    simp only [getBaseEndpoint] at registered
    split at registered
    · cases registered
    · next specified => cases registered; simpa using specified
  simp [destination,targetEndpoint,canSend,rover,running,registered,known,Option.filter]

end LumenProtocol

/-- A log of sent messages grows by messages that satisfy a condition. -/
def SendsOnly (allowed : Message → Prop) (sent later : List (Message × Endpoint)) : Prop :=
  ∃ more, later = sent ++ more ∧ ∀ entry ∈ more, allowed entry.1

namespace SendsOnly

variable {allowed : Message → Prop}

theorem refl (sent : List (Message × Endpoint)) : SendsOnly allowed sent sent :=
  ⟨[],by simp,by simp⟩

theorem trans {sent later last : List (Message × Endpoint)} (first : SendsOnly allowed sent later)
    (second : SendsOnly allowed later last) : SendsOnly allowed sent last := by
  obtain ⟨more,rfl,fine⟩ := first
  obtain ⟨further,rfl,fineLater⟩ := second
  refine ⟨more ++ further,List.append_assoc ..,?_⟩
  intro entry member
  rcases List.mem_append.mp member with early | late
  · exact fine entry early
  · exact fineLater entry late

theorem mono {wider : Message → Prop} {sent later : List (Message × Endpoint)}
    (sends : SendsOnly allowed sent later) (weaker : ∀ message, allowed message → wider message) :
    SendsOnly wider sent later := by
  obtain ⟨more,added,fine⟩ := sends
  exact ⟨more,added,fun entry member => weaker _ (fine entry member)⟩

theorem length_le {sent later : List (Message × Endpoint)} (sends : SendsOnly allowed sent later) :
    sent.length ≤ later.length := by
  obtain ⟨more,rfl,_⟩ := sends
  simp

/-- Whatever stands after the old log is new. -/
theorem new {sent later : List (Message × Endpoint)} (sends : SendsOnly allowed sent later)
    {position : Nat} {entry : Message × Endpoint} (beyond : sent.length ≤ position)
    (here : later[position]? = some entry) : allowed entry.1 := by
  obtain ⟨more,rfl,fine⟩ := sends
  rw [List.getElem?_append_right beyond] at here
  exact fine entry (List.mem_of_getElem? here)

/-- One message, to at most one endpoint. -/
theorem one (sent : List (Message × Endpoint)) {message : Message} (target : Option Endpoint)
    (fine : allowed message) :
    SendsOnly allowed sent (sent ++ target.toList.map (message,·)) := by
  refine ⟨_,rfl,?_⟩
  intro entry member
  obtain ⟨_,_,rfl⟩ := List.mem_map.mp member
  exact fine

end SendsOnly

structure MessageManager where
  running : Bool
  /-- Whether the owner's callback is registered. -/
  messageCallback : Bool
  protocol : LumenProtocol
  sent : List (Message × Endpoint)

namespace MessageManager

def start (m : MessageManager) : MessageManager :=
  if m.running then m else
    { m with running := true, protocol := { m.protocol with messageCallback := true } }

def stop (m : MessageManager) : MessageManager := { m with running := false }

def sendMessage (codec : Codec) (m : MessageManager) (message : Message) (recipient : Endpoint) :
    MessageManager :=
  if !m.running then m else
    let payload := message.serialise codec
    { m with
      protocol :=
        m.protocol.sendMessage payload message.getLumenType message.getLumenPriority recipient
      sent := m.sent ++ (m.protocol.destination recipient).toList.map (message,·) }

theorem sendMessage_sent (codec : Codec) (m : MessageManager) (message : Message)
    (recipient : Endpoint) :
    (m.sendMessage codec message recipient).sent =
      m.sent ++ if m.running then (m.protocol.destination recipient).toList.map (message,·)
        else [] := by
  cases running : m.running <;> simp [sendMessage,running]

/-- Where a raw message for the recipient leaves the node to, if it does. -/
def rawDestination (m : MessageManager) (recipient : Endpoint) : Option Endpoint :=
  match m.protocol.mode with
  | .baseStation => if m.protocol.serverRunning ∧ recipient.Sendable then some recipient else none
  | .rover =>
    if recipient.isUnspecified ∨ m.protocol.getBaseEndpoint = some recipient then
      m.protocol.getBaseEndpoint
    else if recipient.Sendable then some recipient else none

def sendRawMessage (m : MessageManager) (message : Message) (recipient : Endpoint) :
    MessageManager :=
  if !m.running then m else
    { m with sent := m.sent ++ (m.rawDestination recipient).toList.map (message,·) }

section SendsOnly

variable {allowed : Message → Prop}

theorem sendMessage_sendsOnly (codec : Codec) (m : MessageManager) (message : Message)
    (recipient : Endpoint) (fine : allowed message) :
    SendsOnly allowed m.sent (m.sendMessage codec message recipient).sent := by
  rw [sendMessage_sent]
  split
  · exact .one m.sent _ fine
  · rw [List.append_nil]
    exact .refl m.sent

theorem sendRawMessage_sendsOnly (m : MessageManager) (message : Message) (recipient : Endpoint)
    (fine : allowed message) :
    SendsOnly allowed m.sent (m.sendRawMessage message recipient).sent := by
  simp only [sendRawMessage]
  split
  · exact .refl m.sent
  · exact .one m.sent _ fine

end SendsOnly

/-- The message passed to the owner's callback for a payload of the protocol. -/
def handleLumenMessage (codec : Codec) (m : MessageManager) (payload : List UInt8) :
    Option Message :=
  if !m.running then none
  else if !Message.isValidJson codec payload then none
  else (Message.deserialise codec m.protocol.clock.system payload).filter fun _ => m.messageCallback

end MessageManager

end Lumen
