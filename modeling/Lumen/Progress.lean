import Lumen.RoundOutcome
import Lumen.Wire

/-! The handshake through all layers, with real packets. As long as the base station waits for the
rover and the parties have sent no datagram above the size of the receive buffers, no earlier traffic
stands in its way: the timer of the rover and at most four datagrams, each arriving whole, lead into
a session. -/
namespace Lumen

open Endpoint Message Machine LumenProtocol

/-! ### Commands leave as packets -/

namespace LumenProtocol

/-- A base station that has acknowledged nothing passes every payload up. -/
theorem Unopened.payloads {s : LumenProtocol} (unopened : Unopened s) (packet : LumenPacket)
    (endpoint : Endpoint) (carries : CarriesPayload packet) (callback : s.messageCallback = true) :
    payloads s (s.processCompletePacket packet endpoint) = [(packet.payload,endpoint)] := by
  have unknown : s.reliabilityManager.hasAckedSequence packet.header.sequence endpoint = false := by
    rw [hasAckedSequence_iff _ _ _ unopened.role,unopened.record]
  have passes : s.answer packet endpoint = [passedUp packet endpoint] := by
    simp [answer,carries.1,carries.2,unopened.sessionActive,forwards,unknown,callback]
  rw [LumenProtocol.payloads,
    newEffects_of_append (processCompletePacket_answer s packet endpoint unopened.mode),passes]
  rfl

theorem Unopened.setFrameBuffer {s : LumenProtocol} (unopened : Unopened s) (key : String)
    (bytes : List UInt8) : Unopened (s.setFrameBuffer key bytes) :=
  ⟨unopened.mode,unopened.role,unopened.sessionActive,unopened.record⟩

end LumenProtocol

namespace BaseStation

variable (codec : Codec)

end BaseStation

namespace Wire

open Lumen.System Texts

variable {codec : Codec} {parties : Parties}

theorem exists_packetFor {endpoint : Endpoint} {effects : List Effect} {packet : LumenPacket}
    (transmitted : .transmit packet endpoint ∈ effects) :
    ∃ position, packetFor endpoint effects position = some packet := by
  obtain ⟨position,here⟩ := List.mem_iff_getElem?.mp transmitted
  exact ⟨position,by simp [packetFor,here]⟩

variable (codec) in
/-- A packet with this command is on its way, and the libraries carry it. -/
structure Underway (effects : List Effect) (endpoint : Endpoint) (sender name : String)
    (packet : LumenPacket) (message : Message) : Prop where
  transmitted : .transmit packet endpoint ∈ effects
  genuine : message.Genuine codec packet
  carried : Carried codec message
  sender : message.sender = sender
  command : message.isCommand name = true

namespace Underway

variable {effects : List Effect} {endpoint : Endpoint} {sender name : String} {packet : LumenPacket}
  {message : Message}

theorem size (underway : Underway codec effects endpoint sender name packet message) :
    packet.totalSize ≤ 1024 := by
  have fits := underway.carried.fits
  simp only [clientSockBufSize] at fits
  simp only [LumenPacket.totalSize,lumenHeaderSize,underway.genuine.payload]
  omega

theorem wellFormed (underway : Underway codec effects endpoint sender name packet message) :
    packet.WellFormed := by
  have vouched : Vouched codec [(message,endpoint)] packet endpoint :=
    Or.inr ⟨message,List.mem_singleton_self _,underway.genuine⟩
  exact wellFormed_of_vouched vouched underway.size

end Underway

variable (codec parties) in
/-- The commands of the handshake, as the parties would send them now, are carried. -/
structure Audible (s : System) : Prop where
  rover : ∀ name, name = "SESSION_INIT" ∨ name = "SESSION_CONFIRM" →
    Carried codec ⟨parties.roverId,s.rover.manager.protocol.clock.system,
      .command name parties.roverId⟩
  base : ∀ name, name = "SESSION_ACCEPT" ∨ name = "SESSION_ESTABLISHED" →
    Carried codec ⟨parties.stationId,s.base.manager.protocol.clock.system,
      .command name parties.stationId⟩

theorem Audible.same {s t : System} (audible : Audible codec parties s)
    (rover : t.rover.manager.protocol.clock = s.rover.manager.protocol.clock)
    (base : t.base.manager.protocol.clock = s.base.manager.protocol.clock) :
    Audible codec parties t := by
  constructor
  · rw [rover]
    exact audible.rover
  · rw [base]
    exact audible.base

/-! ### What the base station does with a command of the rover -/

section BaseHears

variable {s : System} (sound : Sound codec parties s) (clear : Clear parties s)
  {packet : LumenPacket} {message : Message}

include sound clear

end BaseHears

/-! ### What the rover does with a command of the base station -/

section RoverHears

variable {s : System} (sound : Sound codec parties s) (clear : Clear parties s) (up : s.rover.Up)
  (apart : parties.stationId ≠ parties.roverId) {packet : LumenPacket} {message : Message}

include sound clear up apart

end RoverHears

/-! ### A few datagrams complete the handshake -/

def Input.isDelivery : Input → Bool
  | .toBase _ | .toRover _ => true
  | _ => false

variable (codec parties) in
/-- At most so many datagrams of the two parties, each arriving whole, lead into the session. -/
def Completes (s : System) (most : Nat) : Prop :=
  ∃ more : List Input, more.length ≤ most ∧ (∀ input ∈ more, input.isDelivery = true) ∧
    Guarded (step codec parties) (Admissible codec parties) s more ∧
    (run (step codec parties) s more).rover.sessionState = .active ∧
    (run (step codec parties) s more).base.session = .established parties.peer

theorem Completes.after {s : System} {most : Nat} (input : Input) (delivery : input.isDelivery = true)
    (admissible : Admissible codec parties s input)
    (completes : Completes codec parties (step codec parties s input) most) :
    Completes codec parties s (most + 1) := by
  obtain ⟨more,short,deliveries,guarded,active,established⟩ := completes
  refine ⟨input :: more,Nat.succ_le_succ short,?_,(guarded_cons _ _ _ _ _).mpr ⟨admissible,guarded⟩,
    active,established⟩
  intro next member
  rcases List.mem_cons.mp member with rfl | later
  · exact delivery
  · exact deliveries next later

theorem Sound.up {s : System} (sound : Sound codec parties s)
    (state : s.rover.sessionState ≠ .inactive) : s.rover.Up := by
  apply sound.agreed.rover.live.resolve_right
  exact fun down => state down.sessionState

section Completes

variable (readable : codec.Readable) {s : System} (sound : Sound codec parties s)
  (clear : Clear parties s)

include readable sound clear

theorem Completes.toBase {most : Nat}
    (underway : Underway codec s.rover.manager.protocol.effects parties.base parties.roverId name
      packet message)
    (rest : let t := baseReceives codec s packet.toBytes parties.rover
      Sound codec parties t → Clear parties t → Completes codec parties t most) :
    Completes codec parties s (most + 1) := by
  obtain ⟨position,found⟩ := exists_packetFor underway.transmitted
  obtain ⟨next,kept⟩ := packet_toBase readable sound clear underway.transmitted underway.size
  have moved : step codec parties s (.toBase position) =
      baseReceives codec s packet.toBytes parties.rover := by
    simp only [step,found]
  refine .after (.toBase position) rfl ?_ (moved ▸ rest next kept)
  intro other here
  cases found.symm.trans here
  exact underway.size

theorem Completes.toRover {most : Nat}
    (underway : Underway codec s.base.manager.protocol.effects parties.rover parties.stationId name
      packet message)
    (rest : let t := roverReceives codec s packet.toBytes parties.base
      Sound codec parties t → Clear parties t → Completes codec parties t most) :
    Completes codec parties s (most + 1) := by
  obtain ⟨position,found⟩ := exists_packetFor underway.transmitted
  obtain ⟨next,kept⟩ := packet_toRover readable sound clear underway.transmitted underway.size
  have moved : step codec parties s (.toRover position) =
      roverReceives codec s packet.toBytes parties.base := by
    simp only [step,found]
  refine .after (.toRover position) rfl ?_ (moved ▸ rest next kept)
  intro other here
  cases found.symm.trans here
  exact underway.size

variable (apart : parties.stationId ≠ parties.roverId)

include apart

end Completes

end Wire

end Lumen
