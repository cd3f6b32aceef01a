import Lumen.AckDelivery
import Lumen.AckDiscipline

/-! One rover and the base station it is registered with, in both directions. The network holds
every packet either of them ever transmitted to the other, so that it may lose, repeat, delay
and reorder them at will. An ACK carries only a number, and takes away whatever the rover holds
under it by then. -/
namespace Lumen.LumenProtocol

open ReliabilityManager Endpoint

/-- All of a packet, as the message callback gets it. -/
def content (packet : LumenPacket) : List UInt8 × LumenHeader := (packet.payload,packet.header)

theorem content_injective : Function.Injective content := by
  rintro ⟨header,payload,_⟩ ⟨_,_,_⟩ same
  cases same
  rfl

def callbackFrom (endpoint : Endpoint) : Effect → Option (List UInt8 × LumenHeader)
  | .callback payload header source => if source = endpoint then some (payload,header) else none
  | _ => none

/-- What was passed up from an endpoint. -/
def passed (s : LumenProtocol) (endpoint : Endpoint) : List (List UInt8 × LumenHeader) :=
  s.effects.filterMap (callbackFrom endpoint)

def transmitTo (recipient : Endpoint) : Effect → Option LumenPacket
  | .transmit packet target => if target = recipient then some packet else none
  | _ => none

/-- What was transmitted to an endpoint. -/
def transmitted (s : LumenProtocol) (recipient : Endpoint) : List LumenPacket :=
  s.effects.filterMap (transmitTo recipient)

/-- The payloads that arrived from an endpoint. -/
def received (s : LumenProtocol) (endpoint : Endpoint) : List LumenPacket :=
  s.processed.filterMap fun entry =>
    if entry.2 = endpoint ∧ CarriesPayload entry.1 then some entry.1 else none

theorem mem_received {s : LumenProtocol} {endpoint : Endpoint} {packet : LumenPacket} :
    packet ∈ s.received endpoint ↔ (packet,endpoint) ∈ s.processed ∧ CarriesPayload packet := by
  simp only [received,List.mem_filterMap,Option.ite_none_right_eq_some,Option.some.injEq]
  constructor
  · rintro ⟨entry,member,⟨rfl,payload⟩,rfl⟩
    exact ⟨member,payload⟩
  · rintro ⟨member,payload⟩
    exact ⟨_,member,⟨rfl,payload⟩,rfl⟩

theorem processCompletePacket_receives (s : LumenProtocol) (packet : LumenPacket)
    (endpoint : Endpoint) :
    (s.processCompletePacket packet endpoint).received endpoint =
      s.received endpoint ++ if CarriesPayload packet then [packet] else [] := by
  rw [received,processCompletePacket_processed,List.filterMap_append]
  by_cases payload : CarriesPayload packet
  · simp [received,payload]
  · simp [received,payload]

theorem sent_passes_nothing (s : LumenProtocol) (packet : LumenPacket)
    (recipient endpoint : Endpoint) :
    (s.sent packet recipient).filterMap (callbackFrom endpoint) = [] := by
  simp only [sent]
  split <;> rfl

/-- What an answer passes up from an endpoint. -/
theorem answer_passes (s : LumenProtocol) (packet : LumenPacket) (source endpoint : Endpoint) :
    (s.answer packet source).filterMap (callbackFrom endpoint) =
      if CarriesPayload packet ∧ s.forwards packet source = true ∧ source = endpoint
      then [content packet] else [] := by
  simp only [answer]
  by_cases ack : packet.header.type = .ack
  · simp [ack,CarriesPayload]
  · by_cases nak : packet.header.type = .nak
    · rw [if_neg ack,if_pos nak,if_neg (fun both => both.1.2 nak)]
      cases packet.payload.head?.bind s.reliabilityManager.processNak with
      | none => rfl
      | some entry =>
        rw [Option.toList_some,List.flatMap_singleton]
        exact sent_passes_nothing ..
    · rw [if_neg ack,if_neg nak,List.filterMap_append]
      have acked : (if s.sessionActive then s.sent (s.ackPacket packet.header.sequence) source
          else []).filterMap (callbackFrom endpoint) = [] := by
        split
        · exact sent_passes_nothing ..
        · rfl
      rw [acked,List.nil_append]
      by_cases same : source = endpoint <;> cases s.forwards packet source <;>
        simp [CarriesPayload,ack,nak,passedUp,content,callbackFrom,same]

/-- The base station passes up what is not recorded as acknowledged. -/
theorem processCompletePacket_passes (s : LumenProtocol) (packet : LumenPacket)
    (endpoint : Endpoint) (base : s.mode = .baseStation) (callback : s.messageCallback = true) :
    (s.processCompletePacket packet endpoint).passed endpoint =
      s.passed endpoint ++
        if CarriesPayload packet ∧
          s.reliabilityManager.hasAckedSequence packet.header.sequence endpoint = false
        then [content packet] else [] := by
  rw [passed,processCompletePacket_answer s packet endpoint base,List.filterMap_append]
  refine congrArg (s.passed endpoint ++ ·) ?_
  change (s.answer packet endpoint).filterMap (callbackFrom endpoint) = _
  rw [answer_passes]
  simp [forwards,callback]

/-- The rover passes up everything. -/
theorem processCompletePacket_acts (s : LumenProtocol) (packet : LumenPacket)
    (endpoint : Endpoint) (rover : s.mode = .rover) (callback : s.messageCallback = true) :
    (s.processCompletePacket packet endpoint).passed endpoint =
      s.passed endpoint ++ if CarriesPayload packet then [content packet] else [] := by
  by_cases payload : CarriesPayload packet
  · obtain ⟨naks,added,fine⟩ := processCompletePacket_rover s packet endpoint rover payload
    have quiet : naks.filterMap (callbackFrom endpoint) = [] := by
      refine List.filterMap_eq_nil_iff.mpr fun effect member => ?_
      obtain ⟨_,_,_,_,rfl,_⟩ := fine effect member
      rfl
    rw [passed,added,List.filterMap_append,List.filterMap_cons,List.filterMap_append,quiet]
    simp [payload,callback,passedUp,content,passed,callbackFrom]
  · rw [passed,processCompletePacket_rover_control s packet endpoint rover payload,
      List.filterMap_append]
    simp [payload,passed,callbackFrom]

/-- The owner and the timers pass nothing up. -/
theorem own_passed (codec : Codec) (s : LumenProtocol) (input : Input) (endpoint : Endpoint)
    (valid : Tracking s) (own : input.isOwn = true) :
    (s.step codec input).passed endpoint = s.passed endpoint := by
  obtain ⟨more,added,fine⟩ := own_effects codec s input valid own
  have quiet : more.filterMap (callbackFrom endpoint) = [] := by
    refine List.filterMap_eq_nil_iff.mpr fun effect member => ?_
    have kind := fine effect member
    cases effect with
    | callback => cases kind
    | processing | transmit | timeout => rfl
  rw [passed,added,List.filterMap_append,quiet,List.append_nil,passed]

/-! ### What an ACK answers -/

def payloadUnder (endpoint : Endpoint) (seq : UInt8) : Effect → Option LumenPacket
  | .processing packet source =>
    if source = endpoint ∧ CarriesPayload packet ∧ packet.header.sequence = seq then some packet
    else none
  | _ => none

/-- The payloads under a number that had arrived when the log was this long. -/
def arrivedBefore (s : LumenProtocol) (endpoint : Endpoint) (seq : UInt8) (position : Nat) :
    List LumenPacket :=
  (s.effects.take position).filterMap (payloadUnder endpoint seq)

theorem received_of_arrivedBefore {s : LumenProtocol} {endpoint : Endpoint} {seq : UInt8}
    {position : Nat} {packet : LumenPacket}
    (arrived : packet ∈ s.arrivedBefore endpoint seq position) : packet ∈ s.received endpoint := by
  obtain ⟨effect,member,here⟩ := List.mem_filterMap.mp arrived
  cases effect with
  | processing other source =>
    simp only [payloadUnder] at here
    split at here
    · next kind =>
      cases here
      obtain ⟨rfl,payload,_⟩ := kind
      exact mem_received.mpr ⟨List.mem_filterMap.mpr ⟨_,List.mem_of_mem_take member,rfl⟩,payload⟩
    · cases here
  | transmit | callback | timeout => cases here

/-- Every ACK to the endpoint names a number under which a payload had arrived from there. -/
def AcksAnswer (s : LumenProtocol) (endpoint : Endpoint) : Prop :=
  ∀ position ack seq, s.effects[position]? = some (.transmit ack endpoint) →
    ackNumber ack = some seq → s.arrivedBefore endpoint seq position ≠ []

theorem AcksAnswer.append {s t : LumenProtocol} {endpoint : Endpoint} {more : List Effect}
    (answer : AcksAnswer s endpoint) (added : t.effects = s.effects ++ more)
    (new : ∀ place ack seq, more[place]? = some (.transmit ack endpoint) →
      ackNumber ack = some seq → (more.take place).filterMap (payloadUnder endpoint seq) ≠ []) :
    AcksAnswer t endpoint := by
  intro position ack seq here named
  simp only [arrivedBefore]
  rw [added] at here ⊢
  by_cases earlier : position < s.effects.length
  · rw [List.getElem?_append_left earlier] at here
    rw [List.take_append_of_le_length (Nat.le_of_lt earlier)]
    exact answer position ack seq here named
  · rw [List.getElem?_append_right (Nat.le_of_not_lt earlier)] at here
    rw [List.take_append,List.filterMap_append]
    exact List.append_ne_nil_of_right_ne_nil _ (new _ ack seq here named)

/-- The only ACK among the answers to a packet names its number. -/
theorem answer_ackNumber (s : LumenProtocol) (packet ack : LumenPacket)
    (endpoint recipient : Endpoint) (seq : UInt8) (valid : Tracking s) (base : s.mode = .baseStation)
    (member : .transmit ack recipient ∈ s.answer packet endpoint)
    (named : ackNumber ack = some seq) :
    CarriesPayload packet ∧ packet.header.sequence = seq := by
  rcases (mem_answer valid base).mp member with
    ⟨_,number,info,_,present,_,same⟩ | ⟨payload,_,_,same⟩ | ⟨_,_,same⟩
  · cases same
    rw [ackNumber,if_neg (valid.keyed number info present).2.1] at named
    cases named
  · cases same
    exact ⟨payload,Option.some.inj named⟩
  · cases same

theorem processCompletePacket_acksAnswer (s : LumenProtocol) (packet : LumenPacket)
    (endpoint : Endpoint) (valid : Tracking s) (base : s.mode = .baseStation)
    (answers : AcksAnswer s endpoint) :
    AcksAnswer (s.processCompletePacket packet endpoint) endpoint := by
  refine answers.append (processCompletePacket_answer s packet endpoint base) ?_
  intro place ack seq here named
  cases place with
  | zero => cases here
  | succ place =>
    obtain ⟨payload,number⟩ := answer_ackNumber s packet ack endpoint endpoint seq valid base
      (List.mem_of_getElem? here) named
    simp [payloadUnder,payload,number]

theorem own_acksAnswer (codec : Codec) (s : LumenProtocol) (input : Input) (endpoint : Endpoint)
    (valid : Tracking s) (own : input.isOwn = true) (answers : AcksAnswer s endpoint) :
    AcksAnswer (s.step codec input) endpoint := by
  obtain ⟨more,added,fine⟩ := own_effects codec s input valid own
  refine answers.append added fun place ack seq here named => ?_
  have payload := fine _ (List.mem_of_getElem? here)
  rw [ackNumber,if_neg payload.1] at named
  cases named

end Lumen.LumenProtocol

namespace Lumen.Link

open LumenProtocol ReliabilityManager

inductive Event where
  | rover (input : LumenProtocol.Input) (own : input.isOwn = true)
  | base (input : LumenProtocol.Input) (own : input.isOwn = true)
  /-- The packet at this place in the rover's log reaches the base station. -/
  | up (position : Nat)
  /-- The packet at this place in the base station's log reaches the rover. -/
  | down (position : Nat)

/-- A packet in the base station's log that was transmitted to the rover. -/
def replyPacket (link : Link) (position : Nat) : Option LumenPacket :=
  link.base.effects[position]?.bind (transmitTo link.roverEndpoint)

def exchange (codec : Codec) (link : Link) : Event → Link
  | .rover input _ => { link with rover := link.rover.step codec input }
  | .base input _ => { link with base := link.base.step codec input }
  | .up position =>
    match link.sentPacket position with
    | some packet =>
      { link with base := link.base.processCompletePacket packet link.roverEndpoint }
    | none => link
  | .down position =>
    match link.replyPacket position with
    | some packet =>
      { link with rover := link.rover.processCompletePacket packet link.rover.baseEndpoint }
    | none => link

/-- Both nodes as their owners run them. -/
structure Paired (link : Link) : Prop where
  rover : Tracking link.rover
  roverMode : link.rover.mode = .rover
  roverCallback : link.rover.messageCallback = true
  base : Serving link.base
  baseCallback : link.base.messageCallback = true

theorem exchange_paired (codec : Codec) (link : Link) (event : Event) (valid : Paired link) :
    Paired (link.exchange codec event) := by
  cases event with
  | rover input own =>
    have callback := (own_local codec link.rover input own).messageCallback
    exact ⟨step_tracking codec link.rover input valid.rover,
      (step_mode codec link.rover input valid.rover).trans valid.roverMode,
      callback.trans valid.roverCallback,valid.base,valid.baseCallback⟩
  | base input own =>
    have callback := (own_local codec link.base input own).messageCallback
    exact ⟨valid.rover,valid.roverMode,valid.roverCallback,
      arrive_serving codec link.base (.own input own) valid.base,callback.trans valid.baseCallback⟩
  | up position =>
    simp only [exchange]
    split
    · next packet _ =>
      have same := processCompletePacket_undisturbed link.base packet link.roverEndpoint
      exact ⟨valid.rover,valid.roverMode,valid.roverCallback,
        packet_serving link.base packet _ valid.base,same.messageCallback.trans valid.baseCallback⟩
    · exact valid
  | down position =>
    simp only [exchange]
    split
    · next packet _ =>
      have same := processCompletePacket_undisturbed link.rover packet link.rover.baseEndpoint
      exact ⟨(processCompletePacket_ages link.rover packet _).tracking valid.rover,
        same.mode.trans valid.roverMode,same.messageCallback.trans valid.roverCallback,valid.base,
        valid.baseCallback⟩
    · exact valid

theorem started_paired (roverEndpoint baseEndpoint : Endpoint) (roverClock baseClock : Clock) :
    Paired (started roverEndpoint baseEndpoint roverClock baseClock) :=
  ⟨started_tracking _ _ _,rfl,rfl,started_serving baseClock,rfl⟩

/-! ### ACKs in flight -/

/-- When the arrival of a packet takes an entry from the rover's table, the base station has
received the packet of the entry. -/
def DischargesReceived (codec : Codec) (link : Link) : Event → Prop
  | .down position => ∀ seq info, link.rover.tracked seq = some info →
      (link.exchange codec (.down position)).rover.tracked seq = none →
        info.packet ∈ link.base.received link.roverEndpoint
  | _ => True

/-- An ACK arrives only while the rover's table has, under its number, nothing or the packet
that had last reached the base station under that number when the ACK was sent. -/
def AcksCurrent (link : Link) : Event → Prop
  | .down position => ∀ ack seq info packet, link.replyPacket position = some ack →
      ackNumber ack = some seq → link.rover.tracked seq = some info →
      (link.base.arrivedBefore link.roverEndpoint seq position).getLast? = some packet →
        info.packet = packet
  | _ => True

theorem replyPacket_some {link : Link} {position : Nat} {packet : LumenPacket}
    (found : link.replyPacket position = some packet) :
    link.base.effects[position]? = some (.transmit packet link.roverEndpoint) := by
  obtain ⟨effect,here,shape⟩ := Option.bind_eq_some_iff.mp found
  cases effect with
  | transmit other target =>
    simp only [transmitTo] at shape
    split at shape
    · next same =>
      cases shape
      rw [here,same]
    · cases shape
  | processing | callback | timeout => cases shape

theorem exchange_acksAnswer (codec : Codec) (link : Link) (event : Event) (valid : Paired link)
    (answers : AcksAnswer link.base link.roverEndpoint) :
    AcksAnswer (link.exchange codec event).base (link.exchange codec event).roverEndpoint := by
  cases event with
  | rover input own => exact answers
  | base input own =>
    exact own_acksAnswer codec link.base input _ valid.base.tracking own answers
  | up position =>
    simp only [exchange]
    split
    · exact processCompletePacket_acksAnswer link.base _ _ valid.base.tracking valid.base.mode
        answers
    · exact answers
  | down position =>
    simp only [exchange]
    split <;> exact answers

theorem exchange_discharges (codec : Codec) (link : Link) (event : Event) (valid : Paired link)
    (answers : AcksAnswer link.base link.roverEndpoint) (current : AcksCurrent link event) :
    DischargesReceived codec link event := by
  cases event with
  | rover | base | up => trivial
  | down position =>
    intro seq info present gone
    cases found : link.replyPacket position with
    | none =>
      simp only [exchange,found] at gone
      rw [present] at gone
      cases gone
    | some ack =>
      simp only [exchange,found] at gone
      rw [processCompletePacket_tracked _ _ _ valid.rover valid.roverMode] at gone
      cases named : ackNumber ack with
      | none =>
        rw [named] at gone
        cases present.symm.trans gone
      | some number =>
        rw [named] at gone
        have same : seq = number := by
          by_contra other
          have kept := Function.update_of_ne other none link.rover.tracked
          cases present.symm.trans (kept.symm.trans gone)
        subst same
        have arrived := answers position ack seq (replyPacket_some found) named
        have latest := List.getLast?_eq_some_getLast arrived
        rw [current ack seq info _ found named present latest]
        exact received_of_arrivedBefore (List.getLast_mem arrived)

/-- In every run, with any losses, repetitions and delays in both directions and any resets:
as long as every ACK that arrives is for the packet now under its number, an ACK discharges
only what the base station has received. -/
theorem acks_discharge_received (codec : Codec) (roverEndpoint baseEndpoint : Endpoint)
    (roverClock baseClock : Clock) (events : List Event)
    (current : Machine.Guarded (exchange codec) AcksCurrent
      (started roverEndpoint baseEndpoint roverClock baseClock) events) :
    Machine.Guarded (exchange codec) (DischargesReceived codec)
      (started roverEndpoint baseEndpoint roverClock baseClock) events := by
  intro done event within
  have invariant := @Machine.run_invariant _ _ (exchange codec)
    (fun link => Paired link ∧ AcksAnswer link.base link.roverEndpoint)
    (fun link event valid => ⟨exchange_paired codec link event valid.1,
      exchange_acksAnswer codec link event valid.1 valid.2⟩)
    (started roverEndpoint baseEndpoint roverClock baseClock) done
    ⟨started_paired _ _ _ _,fun position ack seq here => by cases here⟩
  exact exchange_discharges codec _ event invariant.1 invariant.2 (current done event within)

def sessionOn : Event := .base (.setSessionActive true) rfl

def roverSends (payload : List UInt8) : Event :=
  .rover (.sendMessage payload .data .low .unspecified) rfl

/-- The base station of a session receives and acknowledges the rover's first packet. -/
def firstAcked : List Event := [sessionOn,roverSends [1],.up 0]

theorem firstAcked_discharged :
    (Machine.run (exchange .silent) sampleLink (firstAcked ++ [.down 1])).rover.tracked 0 = none ∧
    Machine.Guarded (exchange .silent) (DischargesReceived .silent) sampleLink
      (firstAcked ++ [.down 1]) := by
  refine ⟨by decide +kernel,?_⟩
  apply acks_discharge_received
  simp only [firstAcked,sessionOn,roverSends,List.cons_append,List.nil_append,Machine.guarded_cons,
    AcksCurrent,true_and]
  refine ⟨fun ack seq info packet found named present latest => ?_,Machine.guarded_nil _ _ _⟩
  have number : some seq = some 0 := by
    rw [← named,show ack = .new ⟨.ack,.high,0,0,1⟩ [0] from
      Option.some.inj (found.symm.trans (by decide +kernel))]
    rfl
  cases number
  have tracked : some info.packet = some (.new ⟨.data,.low,0,0,1⟩ [1]) :=
    (congrArg (Option.map SentPacketInfo.packet) present.symm).trans (by decide +kernel)
  have answered : some packet = some (.new ⟨.data,.low,0,0,1⟩ [1]) :=
    latest.symm.trans (by decide +kernel)
  exact Option.some.inj (tracked.trans answered.symm)

/-- The rover restarts its numbers before the ACK arrives, and sends another packet that the
base station never sees. -/
theorem firstAcked_discharges_another :
    ¬ Machine.Guarded (exchange .silent) (DischargesReceived .silent) sampleLink
      (firstAcked ++ [.rover .resetSequenceNumber rfl,roverSends [2],.down 1]) := by
  intro received
  have taken := received (firstAcked ++ [.rover .resetSequenceNumber rfl,roverSends [2]]) (.down 1)
    (List.prefix_refl _) 0 ⟨.new ⟨.data,.low,0,0,1⟩ [2],0,0,sampleBase⟩ (by decide +kernel) (by decide +kernel)
  revert taken
  decide +kernel

end Lumen.Link
