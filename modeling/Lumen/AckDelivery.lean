import Lumen.Answers

/-! Acknowledgement and delivery on the link from one rover to the base station. The
network may deliver any packet the rover ever transmitted to the base, any number of times
and in any order. The base station recognises duplicates by endpoint and 8-bit number
only, so a packet received for the first time under a number that is still recorded as
acknowledged is acknowledged and dropped. -/
namespace Lumen.LumenProtocol

open ReliabilityManager Endpoint

def Effect.isAck : Effect → Bool
  | .transmit packet _ => packet.header.type = .ack
  | _ => false

def Acks (s t : LumenProtocol) : Prop := ∃ effect ∈ newEffects s t, Effect.isAck effect = true

/-- The base station acknowledges a payload, in session, when it can answer its sender. -/
theorem acks_iff (s : LumenProtocol) (packet : LumenPacket) (endpoint : Endpoint)
    (valid : Tracking s) (base : s.mode = .baseStation) :
    Acks s (s.processCompletePacket packet endpoint) ↔
      CarriesPayload packet ∧ s.sessionActive = true ∧ s.canSend endpoint = true := by
  rw [Acks,newEffects,processCompletePacket_answer s packet endpoint base,List.drop_left]
  constructor
  · rintro ⟨effect,member,ack⟩
    rcases List.mem_cons.mp member with rfl | answered
    · cases ack
    · rcases (mem_answer valid base).mp answered with
        ⟨_,seq,info,_,present,_,rfl⟩ | ⟨payload,active,able,_⟩ | ⟨_,_,rfl⟩
      · -- a NAK brings back a tracked packet, and no ACK is tracked
        exact absurd (of_decide_eq_true ack) (valid.keyed seq info present).2.1
      · exact ⟨payload,active,able⟩
      · cases ack
  · rintro ⟨payload,active,able⟩
    refine ⟨.transmit (s.ackPacket packet.header.sequence) endpoint,?_,rfl⟩
    exact List.mem_cons_of_mem _
      ((mem_answer valid base).mpr (Or.inr (Or.inl ⟨payload,active,able,rfl⟩)))

/-- After the reception a packet has been passed up if it was before, or if it is a payload under a
number that was not recorded as acknowledged. -/
theorem passedUp_iff (s : LumenProtocol) (packet : LumenPacket) (endpoint : Endpoint)
    (valid : Tracking s) (base : s.mode = .baseStation) (callback : s.messageCallback = true) :
    passedUp packet endpoint ∈ (s.processCompletePacket packet endpoint).effects ↔
      passedUp packet endpoint ∈ s.effects ∨ CarriesPayload packet ∧
        s.reliabilityManager.hasAckedSequence packet.header.sequence endpoint = false := by
  have fresh : s.forwards packet endpoint = true ↔
      s.reliabilityManager.hasAckedSequence packet.header.sequence endpoint = false := by
    simp [forwards,callback]
  rw [processCompletePacket_answer s packet endpoint base,List.mem_append,← fresh]
  refine or_congr_right ⟨fun member => ?_,fun up => ?_⟩
  · rcases List.mem_cons.mp member with same | answered
    · cases same
    · rcases (mem_answer valid base).mp answered with
        ⟨_,_,_,_,_,_,same⟩ | ⟨_,_,_,same⟩ | ⟨payload,forwards,_⟩
      · cases same
      · cases same
      · exact ⟨payload,forwards⟩
  · exact List.mem_cons_of_mem _
      ((mem_answer valid base).mpr (Or.inr (Or.inr ⟨up.1,up.2,rfl⟩)))

end Lumen.LumenProtocol

namespace Lumen

open LumenProtocol

/-- One rover and the base station it is registered with. -/
structure Link where
  rover : LumenProtocol
  base : LumenProtocol
  /-- Where the rover's datagrams come from. -/
  roverEndpoint : Endpoint

namespace Link

inductive Input where
  | rover (input : LumenProtocol.Input)
  /-- Anything at the base station but a reception. -/
  | base (input : LumenProtocol.Input) (own : input.isDatagram = false)
  /-- The packet at this place in the rover's log reaches the base station. -/
  | deliver (position : Nat)

/-- A packet in the rover's log that was transmitted to its base station. -/
def sentPacket (link : Link) (position : Nat) : Option LumenPacket :=
  match link.rover.effects[position]? with
  | some (.transmit packet recipient) =>
    if recipient = link.rover.baseEndpoint then some packet else none
  | _ => none

def step (codec : Codec) (link : Link) : Input → Link
  | .rover input => { link with rover := link.rover.step codec input }
  | .base input _ => { link with base := link.base.step codec input }
  | .deliver position =>
    match link.sentPacket position with
    | some packet =>
      { link with base := link.base.processCompletePacket packet link.roverEndpoint }
    | none => link

/-- Both nodes as their owners start them. -/
def started (roverEndpoint baseEndpoint : Endpoint) (roverClock baseClock : Clock) : Link where
  rover := LumenProtocol.started .rover baseEndpoint roverClock
  base := LumenProtocol.started .baseStation .unspecified baseClock
  roverEndpoint := roverEndpoint

/-- When the reception of a packet makes the base station send an ACK, the payload has been
passed to the message callback by the end of the step. -/
def AckMeansDelivered (codec : Codec) (link : Link) : Input → Prop
  | .deliver position => ∀ packet, link.sentPacket position = some packet →
      Acks link.base (link.step codec (.deliver position)).base →
        .callback packet.payload packet.header link.roverEndpoint ∈
          (link.step codec (.deliver position)).base.effects
  | _ => True

/-- A payload that arrives in session, from an endpoint that can be answered, and has not been passed
up has a number that is not recorded as acknowledged. -/
def NewPayloadFresh (link : Link) : Input → Prop
  | .deliver position => ∀ packet, link.sentPacket position = some packet → CarriesPayload packet →
      link.base.sessionActive = true → link.roverEndpoint.Sendable →
      .callback packet.payload packet.header link.roverEndpoint ∉ link.base.effects →
        link.base.reliabilityManager.hasAckedSequence packet.header.sequence
          link.roverEndpoint = false
  | _ => True

/-- The base station is at work, as its owner runs it. -/
structure Attentive (link : Link) : Prop where
  tracking : Tracking link.base
  mode : link.base.mode = .baseStation
  callback : link.base.messageCallback = true
  serverRunning : link.base.serverRunning = true

theorem step_attentive (codec : Codec) (link : Link) (input : Input) (valid : Attentive link) :
    Attentive (link.step codec input) := by
  cases input with
  | rover input => exact ⟨valid.tracking,valid.mode,valid.callback,valid.serverRunning⟩
  | base input own =>
    have same := step_local codec link.base input own
    exact ⟨step_tracking codec link.base input valid.tracking,
      (step_mode codec link.base input valid.tracking).trans valid.mode,
      same.messageCallback.trans valid.callback,same.serverRunning.trans valid.serverRunning⟩
  | deliver position =>
    simp only [step]
    split
    · next packet sent =>
      have same := processCompletePacket_undisturbed link.base packet link.roverEndpoint
      exact ⟨(processCompletePacket_ages link.base packet _).tracking valid.tracking,
        same.mode.trans valid.mode,same.messageCallback.trans valid.callback,
        same.serverRunning.trans valid.serverRunning⟩
    · exact valid

theorem started_attentive (roverEndpoint baseEndpoint : Endpoint) (roverClock baseClock : Clock) :
    Attentive (started roverEndpoint baseEndpoint roverClock baseClock) :=
  ⟨started_tracking _ _ _,rfl,rfl,rfl⟩

/-- One step, exactly. -/
theorem ackMeansDelivered_iff (codec : Codec) (link : Link) (input : Input)
    (valid : Attentive link) : AckMeansDelivered codec link input ↔ NewPayloadFresh link input := by
  cases input with
  | rover | base => rfl
  | deliver position =>
    have able : link.base.canSend link.roverEndpoint = true ↔ link.roverEndpoint.Sendable := by
      simp [canSend,valid.mode,valid.serverRunning]
    refine forall_congr' fun packet => forall_congr' fun sent => ?_
    have whole : (link.step codec (.deliver position)).base =
        link.base.processCompletePacket packet link.roverEndpoint := by
      simp only [step,sent]
    have passed := passedUp_iff link.base packet link.roverEndpoint valid.tracking valid.mode
      valid.callback
    rw [whole,acks_iff _ _ _ valid.tracking valid.mode,able]
    constructor
    · intro delivered payload active sendable new
      exact ((passed.mp (delivered ⟨payload,active,sendable⟩)).resolve_left new).2
    · rintro fresh ⟨payload,active,sendable⟩
      apply passed.mpr
      by_cases before : passedUp packet link.roverEndpoint ∈ link.base.effects
      · exact Or.inl before
      · exact Or.inr ⟨payload,fresh payload active sendable before⟩

/-- In every run, whatever the network repeats or reorders and whenever the acknowledged numbers are
cleared: an ACK always means delivery exactly when every payload that comes in a session and has not
been passed up finds a fresh number. -/
theorem ack_means_delivered_iff (codec : Codec) (roverEndpoint baseEndpoint : Endpoint)
    (roverClock baseClock : Clock) (inputs : List Input) :
    Machine.Guarded (step codec) (AckMeansDelivered codec)
        (started roverEndpoint baseEndpoint roverClock baseClock) inputs ↔
      Machine.Guarded (step codec) NewPayloadFresh
        (started roverEndpoint baseEndpoint roverClock baseClock) inputs :=
  Machine.guarded_congr (step codec) (step_attentive codec) (ackMeansDelivered_iff codec) _ inputs
    (started_attentive _ _ _ _)

def sampleBase : Endpoint := ⟨0x0aed0001,9000⟩

/-- The base station of a session receives the rover's first packet; the rover sends
another after restarting its numbers. -/
def restartedNumbers : List Input :=
  [.base (.setSessionActive true) rfl,
    .rover (.sendMessage [1] .data .low .unspecified),.deliver 0,
    .rover .resetSequenceNumber,
    .rover (.sendMessage [2] .data .low .unspecified)]

def sampleLink : Link := started sampleRover sampleBase ⟨0,0⟩ ⟨0,0⟩

/-- Up to the restart every payload that arrives is fresh. -/
theorem restartedNumbers_acked :
    Acks (Machine.run (step .silent) sampleLink (restartedNumbers.take 2)).base
      (Machine.run (step .silent) sampleLink (restartedNumbers.take 3)).base ∧
    Machine.Guarded (step .silent) (AckMeansDelivered .silent) sampleLink restartedNumbers := by
  refine ⟨⟨.transmit (.new ⟨.ack,.high,0,0,1⟩ [0]) sampleRover,by decide +kernel,rfl⟩,?_⟩
  apply (ack_means_delivered_iff .silent sampleRover sampleBase ⟨0,0⟩ ⟨0,0⟩ restartedNumbers).mpr
  simp only [restartedNumbers,Machine.guarded_cons,NewPayloadFresh,true_and]
  refine ⟨fun packet sent _ _ _ _ => ?_,Machine.guarded_nil _ _ _⟩
  have first : packet = .new ⟨.data,.low,0,0,1⟩ [1] :=
    Option.some.inj (sent.symm.trans (by decide +kernel))
  subst first
  decide +kernel

/-- The second packet is acknowledged and its payload never passed up. -/
theorem restartedNumbers_lose_payload :
    ¬ Machine.Guarded (step .silent) (AckMeansDelivered .silent) sampleLink
      (restartedNumbers ++ [.deliver 1]) := by
  intro delivered
  have lost := delivered restartedNumbers (.deliver 1) (List.prefix_refl _)
    (.new ⟨.data,.low,0,0,1⟩ [2]) (by decide +kernel)
    ⟨.transmit (.new ⟨.ack,.high,1,0,1⟩ [0]) sampleRover,by decide +kernel,rfl⟩
  revert lost
  decide +kernel

/-- A packet received for the first time has a number that is not recorded as acknowledged. -/
def FirstReceptionFresh (link : Link) : Input → Prop
  | .deliver position => ∀ packet, link.sentPacket position = some packet →
      (packet,link.roverEndpoint) ∉ link.base.processed →
        link.base.reliabilityManager.hasAckedSequence packet.header.sequence
          link.roverEndpoint = false
  | _ => True

/-- Every payload received so far has been passed up. -/
structure Delivering (link : Link) : Prop where
  attentive : Attentive link
  delivered : ∀ packet, (packet,link.roverEndpoint) ∈ link.base.processed →
    CarriesPayload packet → .callback packet.payload packet.header link.roverEndpoint ∈
      link.base.effects

theorem processCompletePacket_effects (s : LumenProtocol) (packet : LumenPacket)
    (endpoint : Endpoint) : s.effects <+: (s.processCompletePacket packet endpoint).effects :=
  (List.prefix_append s.effects [.processing packet endpoint]).trans
    (processCompletePacket_undisturbed s packet endpoint).effects

theorem step_delivering (codec : Codec) (link : Link) (input : Input) (valid : Delivering link)
    (fresh : FirstReceptionFresh link input) : Delivering (link.step codec input) := by
  refine ⟨step_attentive codec link input valid.attentive,?_⟩
  cases input with
  | rover input => exact valid.delivered
  | base input own =>
    have same := step_local codec link.base input own
    intro packet member payload
    exact same.effects.subset
      (valid.delivered packet (by rw [← same.processed]; exact member) payload)
  | deliver position =>
    simp only [step]
    split
    · next packet sent =>
      intro other member payload
      rw [processCompletePacket_processed] at member
      have kept (earlier : (other,link.roverEndpoint) ∈ link.base.processed) :=
        (processCompletePacket_effects link.base packet link.roverEndpoint).subset
          (valid.delivered other earlier payload)
      rcases List.mem_append.mp member with earlier | now
      · exact kept earlier
      · obtain ⟨rfl,_⟩ := Prod.mk.inj (List.mem_singleton.mp now)
        by_cases again : (other,link.roverEndpoint) ∈ link.base.processed
        · exact kept again
        · exact (passedUp_iff _ _ _ valid.attentive.tracking valid.attentive.mode
            valid.attentive.callback).mpr
            (Or.inr ⟨payload,fresh other sent again⟩)
    · exact valid.delivered

/-- In particular an ACK means delivery when no packet that is received for the first time finds its
number recorded. -/
theorem ack_means_delivered (codec : Codec) (roverEndpoint baseEndpoint : Endpoint)
    (roverClock baseClock : Clock) (inputs : List Input)
    (fresh : Machine.Guarded (step codec) FirstReceptionFresh
      (started roverEndpoint baseEndpoint roverClock baseClock) inputs) :
    Machine.Guarded (step codec) (AckMeansDelivered codec)
      (started roverEndpoint baseEndpoint roverClock baseClock) inputs := by
  intro done input within
  have sooner : done <+: inputs := (List.prefix_append done [input]).trans within
  have valid := Machine.always_of_guarded (step codec) (step_delivering codec) _ inputs
    ⟨started_attentive roverEndpoint baseEndpoint roverClock baseClock,fun _ member => by cases member⟩
    fresh done sooner
  apply (ackMeansDelivered_iff codec _ input valid.attentive).mpr
  cases input with
  | rover | base => trivial
  | deliver position =>
    intro packet sent payload _ _ new
    refine fresh done _ within packet sent fun again => ?_
    exact new (valid.delivered packet again payload)

end Link

end Lumen
