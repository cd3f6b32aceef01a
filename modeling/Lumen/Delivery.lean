import Lumen.Exchange
import Lumen.Firsts

/-! What reaches the owners. The base station knows a repeated packet by the numbers it has
recorded as acknowledged, and forgets them all from time to time; the rover does not look for
repetitions; and neither puts packets back in order. When payloads are nevertheless passed up
once, and in the order in which they were sent. -/
namespace Lumen.Link

open LumenProtocol ReliabilityManager Endpoint Firsts

/-- Everything the rover transmitted to its base station, retransmissions included. -/
def sent (link : Link) : List LumenPacket := link.rover.transmitted link.rover.baseEndpoint

theorem mem_sent {link : Link} {position : Nat} {packet : LumenPacket}
    (found : link.sentPacket position = some packet) : packet ∈ link.sent := by
  simp only [sentPacket] at found
  split at found
  · next here => exact List.mem_filterMap.mpr ⟨_,List.mem_of_getElem? here,found⟩
  · cases found

theorem exchange_sent (codec : Codec) (link : Link) (event : Event) (valid : Paired link) :
    ∃ more, (link.exchange codec event).sent = link.sent ++ more := by
  have grows (rover : LumenProtocol) (more : List Effect)
      (added : rover.effects = link.rover.effects ++ more)
      (same : rover.baseEndpoint = link.rover.baseEndpoint) :
      ∃ packets, rover.transmitted rover.baseEndpoint = link.sent ++ packets :=
    ⟨_,by rw [transmitted,same,added,List.filterMap_append]; rfl⟩
  cases event with
  | rover input own =>
    obtain ⟨more,added,_⟩ := own_effects codec link.rover input valid.rover own
    exact grows _ more added (own_local codec link.rover input own).baseEndpoint
  | base input own => exact ⟨[],(List.append_nil _).symm⟩
  | up position =>
    refine ⟨[],?_⟩
    simp only [exchange]
    split <;> exact (List.append_nil _).symm
  | down position =>
    simp only [exchange]
    split
    · next packet _ =>
      obtain ⟨more,added⟩ := processCompletePacket_effects link.rover packet
        link.rover.baseEndpoint
      exact grows _ more added.symm
        (processCompletePacket_undisturbed link.rover packet _).baseEndpoint
    · exact ⟨[],(List.append_nil _).symm⟩

theorem mem_receives {s : LumenProtocol} {packet other : LumenPacket} {endpoint : Endpoint} :
    other ∈ (s.processCompletePacket packet endpoint).received endpoint ↔
      other ∈ s.received endpoint ∨ CarriesPayload packet ∧ other = packet := by
  rw [processCompletePacket_receives,List.mem_append]
  by_cases payload : CarriesPayload packet <;> simp [payload]

theorem own_hasAcked (codec : Codec) (s : LumenProtocol) (input : LumenProtocol.Input)
    (own : input.isOwn = true) (seq : UInt8) (endpoint : Endpoint) (serving : Serving s)
    (known : (s.step codec input).reliabilityManager.hasAckedSequence seq endpoint = true) :
    s.reliabilityManager.hasAckedSequence seq endpoint = true := by
  have after : Serving (s.step codec input) := arrive_serving codec s (.own input own) serving
  rw [hasAckedSequence_iff _ _ _ after.role] at known
  rw [hasAckedSequence_iff _ _ _ serving.role]
  have kept := arrive_ackedSequences codec s (.own input own) serving nofun
  simp only [arrive] at kept
  rw [kept] at known
  split at known
  · cases known
  · exact known

/-- Nothing reached the base station; it may have forgotten numbers. -/
structure BaseQuiet (link next : Link) : Prop where
  roverEndpoint : next.roverEndpoint = link.roverEndpoint
  passed : next.base.passed link.roverEndpoint = link.base.passed link.roverEndpoint
  received : next.base.received link.roverEndpoint = link.base.received link.roverEndpoint
  recorded : ∀ seq,
    next.base.reliabilityManager.hasAckedSequence seq link.roverEndpoint = true →
      link.base.reliabilityManager.hasAckedSequence seq link.roverEndpoint = true

/-- All that can happen at the base station: nothing of the rover's arrives, or one packet the
rover sent is processed. -/
theorem exchange_cases (codec : Codec) (link : Link) (event : Event) (valid : Paired link) :
    BaseQuiet link (link.exchange codec event) ∨
    ∃ position packet, event = .up position ∧ link.sentPacket position = some packet ∧
      link.exchange codec event =
        { link with base := link.base.processCompletePacket packet link.roverEndpoint } := by
  cases event with
  | rover input own => exact Or.inl ⟨rfl,rfl,rfl,fun _ known => known⟩
  | base input own =>
    refine Or.inl ⟨rfl,own_passed codec link.base input _ valid.base.tracking own,?_,
      fun seq => own_hasAcked codec link.base input own seq _ valid.base⟩
    rw [received,exchange,(own_local codec link.base input own).processed,← received]
  | up position =>
    cases found : link.sentPacket position with
    | none =>
      refine Or.inl ?_
      simp only [exchange,found]
      exact ⟨rfl,rfl,rfl,fun _ known => known⟩
    | some packet => exact Or.inr ⟨position,packet,rfl,found,by simp only [exchange,found]⟩
  | down position =>
    refine Or.inl ?_
    simp only [exchange]
    split <;> exact ⟨rfl,rfl,rfl,fun _ known => known⟩

/-- What the base station has received was sent, what it has passed up it received, and the
numbers it has on record are of packets it received. -/
structure Uplink (link : Link) : Prop where
  paired : Paired link
  sent : ∀ packet ∈ link.base.received link.roverEndpoint, packet ∈ link.sent
  source : ∀ given ∈ link.base.passed link.roverEndpoint,
    ∃ packet ∈ link.base.received link.roverEndpoint, content packet = given
  recorded : ∀ seq, link.base.reliabilityManager.hasAckedSequence seq link.roverEndpoint = true →
    ∃ packet ∈ link.base.received link.roverEndpoint, packet.header.sequence = seq

theorem exchange_uplink (codec : Codec) (link : Link) (event : Event) (valid : Uplink link) :
    Uplink (link.exchange codec event) := by
  have paired := exchange_paired codec link event valid.paired
  rcases exchange_cases codec link event valid.paired with quiet | ⟨_,packet,_,found,whole⟩
  · obtain ⟨more,grown⟩ := exchange_sent codec link event valid.paired
    refine ⟨paired,?_,?_,?_⟩ <;> rw [quiet.roverEndpoint]
    · rw [quiet.received,grown]
      exact fun packet member => List.mem_append_left _ (valid.sent packet member)
    · rw [quiet.passed,quiet.received]
      exact valid.source
    · rw [quiet.received]
      exact fun seq known => valid.recorded seq (quiet.recorded seq known)
  · rw [whole] at paired ⊢
    refine ⟨paired,?_,?_,?_⟩
    · intro other member
      rcases mem_receives.mp member with earlier | ⟨_,rfl⟩
      · exact valid.sent other earlier
      · exact mem_sent found
    · intro given member
      rw [processCompletePacket_passes _ _ _ valid.paired.base.mode valid.paired.baseCallback]
        at member
      rcases List.mem_append.mp member with earlier | now
      · obtain ⟨other,arrived,same⟩ := valid.source given earlier
        exact ⟨other,mem_receives.mpr (Or.inl arrived),same⟩
      · split at now
        · next fresh =>
          exact ⟨packet,mem_receives.mpr (Or.inr ⟨fresh.1,rfl⟩),(List.mem_singleton.mp now).symm⟩
        · cases now
    · intro seq known
      rcases (processCompletePacket_hasAcked _ _ _ _ _ valid.paired.base.tracking
        valid.paired.base.mode).mp known with ⟨payload,_,rfl,_⟩ | earlier
      · exact ⟨packet,mem_receives.mpr (Or.inr ⟨payload,rfl⟩),rfl⟩
      · obtain ⟨other,arrived,same⟩ := valid.recorded seq earlier
        exact ⟨other,mem_receives.mpr (Or.inl arrived),same⟩

theorem started_uplink (roverEndpoint baseEndpoint : Endpoint) (roverClock baseClock : Clock) :
    Uplink (started roverEndpoint baseEndpoint roverClock baseClock) := by
  refine ⟨started_paired _ _ _ _,fun _ member => (by cases member),fun _ member => (by cases member),
    ?_⟩
  intro seq known
  change (LumenProtocol.started .baseStation .unspecified
    baseClock).reliabilityManager.hasAckedSequence seq roverEndpoint = true at known
  rw [hasAckedSequence_iff _ _ _ (started_serving baseClock).role,started_ackedSequences] at known
  cases known

/-! ### Repetitions at the base station -/

/-- Every payload under a number is one and the same packet. -/
def NumbersUsedOnce (link : Link) (_ : Event) : Prop :=
  ∀ first ∈ link.sent, ∀ second ∈ link.sent, CarriesPayload first → CarriesPayload second →
    first.header.sequence = second.header.sequence → first = second

/-- A payload that arrives again finds its number on record. -/
def CopiesRecorded (link : Link) : Event → Prop
  | .up position => ∀ packet, link.sentPacket position = some packet →
      packet ∈ link.base.received link.roverEndpoint →
        link.base.reliabilityManager.hasAckedSequence packet.header.sequence
          link.roverEndpoint = true
  | _ => True

def BaseDeliversOnce (link : Link) : Prop := (link.base.passed link.roverEndpoint).Nodup

/-- What the base station has received it has passed up. -/
def AllPassed (link : Link) : Prop :=
  ∀ packet ∈ link.base.received link.roverEndpoint,
    content packet ∈ link.base.passed link.roverEndpoint

theorem exchange_allPassed (codec : Codec) (link : Link) (event : Event) (valid : Uplink link)
    (all : AllPassed link) (once : NumbersUsedOnce link event) :
    AllPassed (link.exchange codec event) := by
  rcases exchange_cases codec link event valid.paired with quiet | ⟨_,packet,_,found,whole⟩
  · rw [AllPassed,quiet.roverEndpoint,quiet.received,quiet.passed]
    exact all
  · rw [whole]
    intro other member
    change content other ∈ (link.base.processCompletePacket packet link.roverEndpoint).passed
      link.roverEndpoint
    rw [processCompletePacket_passes _ _ _ valid.paired.base.mode valid.paired.baseCallback]
    rcases mem_receives.mp member with earlier | ⟨payload,rfl⟩
    · exact List.mem_append_left _ (all other earlier)
    · cases known : link.base.reliabilityManager.hasAckedSequence other.header.sequence
        link.roverEndpoint with
      | false => simp [payload]
      | true =>
        obtain ⟨twin,arrived,number⟩ := valid.recorded _ known
        have same := once twin (valid.sent twin arrived) other (mem_sent found)
          (mem_received.mp arrived).2 payload number
        exact List.mem_append_left _ (same ▸ all twin arrived)

theorem exchange_deliversOnce (codec : Codec) (link : Link) (event : Event) (valid : Uplink link)
    (distinct : BaseDeliversOnce link) (recorded : CopiesRecorded link event) :
    BaseDeliversOnce (link.exchange codec event) := by
  rcases exchange_cases codec link event valid.paired with
    quiet | ⟨position,packet,rfl,found,whole⟩
  · rw [BaseDeliversOnce,quiet.roverEndpoint,quiet.passed]
    exact distinct
  · rw [whole,BaseDeliversOnce,processCompletePacket_passes _ _ _ valid.paired.base.mode
      valid.paired.baseCallback]
    split
    · next fresh =>
      refine distinct.append (List.nodup_singleton _) fun given earlier now => ?_
      rw [List.mem_singleton.mp now] at earlier
      obtain ⟨twin,arrived,same⟩ := valid.source _ earlier
      have again := recorded packet found (content_injective same ▸ arrived)
      cases fresh.2.symm.trans again
    · rw [List.append_nil]
      exact distinct

theorem exchange_deliversTwice (codec : Codec) (link : Link) (event : Event) (valid : Uplink link)
    (all : AllPassed link) (forgotten : ¬ CopiesRecorded link event) :
    ¬ BaseDeliversOnce (link.exchange codec event) := by
  intro distinct
  cases event with
  | rover | base | down => exact forgotten trivial
  | up position =>
    refine forgotten fun packet found arrived => ?_
    by_contra unknown
    simp only [exchange,found,BaseDeliversOnce] at distinct
    rw [processCompletePacket_passes _ _ _ valid.paired.base.mode valid.paired.baseCallback,
      if_pos ⟨(mem_received.mp arrived).2,Bool.eq_false_iff.mpr unknown⟩] at distinct
    exact List.disjoint_of_nodup_append distinct (all packet arrived) (List.mem_singleton_self _)

/-- In every run in which numbers are not used twice, with any losses, repetitions and delays:
the base station passes every packet up at most once exactly when every payload that arrives
again finds its number still on record. -/
theorem base_delivers_once_iff (codec : Codec) (roverEndpoint baseEndpoint : Endpoint)
    (roverClock baseClock : Clock) (events : List Event)
    (once : Machine.Guarded (exchange codec) NumbersUsedOnce
      (started roverEndpoint baseEndpoint roverClock baseClock) events) :
    Machine.Always (exchange codec) BaseDeliversOnce
        (started roverEndpoint baseEndpoint roverClock baseClock) events ↔
      Machine.Guarded (exchange codec) CopiesRecorded
        (started roverEndpoint baseEndpoint roverClock baseClock) events :=
  @Machine.always_iff_guarded_within _ _ (exchange codec)
    (fun link => Uplink link ∧ AllPassed link) BaseDeliversOnce NumbersUsedOnce CopiesRecorded
    (fun link event valid once => ⟨exchange_uplink codec link event valid.1,
      exchange_allPassed codec link event valid.1 valid.2 once⟩)
    (fun link event valid _ => exchange_deliversOnce codec link event valid.1)
    (fun link event valid _ _ => exchange_deliversTwice codec link event valid.1 valid.2)
    _ events ⟨started_uplink _ _ _ _,fun _ member => (by cases member)⟩ List.nodup_nil once

instance (link : Link) (event : Event) : Decidable (NumbersUsedOnce link event) :=
  inferInstanceAs (Decidable (∀ first ∈ link.sent, ∀ second ∈ link.sent, _))

instance (link : Link) : (event : Event) → Decidable (CopiesRecorded link event)
  | .up position => inferInstanceAs (Decidable (∀ packet ∈ link.sentPacket position,
      packet ∈ link.base.received link.roverEndpoint → _))
  | .rover _ _ | .base _ _ | .down _ => isTrue trivial

instance (link : Link) : Decidable (BaseDeliversOnce link) :=
  inferInstanceAs (Decidable (link.base.passed link.roverEndpoint).Nodup)

/-- The network repeats the first packet of a session. -/
def repeatedPacket : List Event :=
  [sessionOn,roverSends [1],.up 0,.up 0]

theorem repeatedPacket_delivered_once :
    (Machine.run (exchange .silent) sampleLink repeatedPacket).base.passed sampleRover =
      [([1],⟨.data,.low,0,0,1⟩)] ∧
    Machine.Always (exchange .silent) BaseDeliversOnce sampleLink repeatedPacket :=
  ⟨by decide +kernel,(base_delivers_once_iff .silent sampleRover sampleBase ⟨0,0⟩ ⟨0,0⟩
    repeatedPacket (by decide +kernel)).mpr (by decide +kernel)⟩

def InSession (link : Link) : Event → Prop
  | .up _ => link.base.sessionActive = true
  | _ => True

instance (link : Link) : (event : Event) → Decidable (InSession link event)
  | .up _ => inferInstanceAs (Decidable (_ = true))
  | .rover _ _ | .base _ _ | .down _ => isTrue trivial

/-- The ACK is lost, and the rover retransmits after six seconds. -/
def repeatedAfterCleanup : List Event :=
  [sessionOn,.base (.tick 8000000000) rfl,roverSends [1],.up 0,
    .rover (.tick 6000000000) rfl,.base (.tick 6000000000) rfl,
    .rover .retransmissionTimer rfl,.base .cleanupTimer rfl,.up 1]

theorem repeatedAfterCleanup_delivered_twice :
    Machine.Guarded (exchange .silent) NumbersUsedOnce sampleLink repeatedAfterCleanup ∧
    Machine.Guarded (exchange .silent) InSession sampleLink repeatedAfterCleanup ∧
    ¬ Machine.Always (exchange .silent) BaseDeliversOnce sampleLink repeatedAfterCleanup := by
  refine ⟨by decide +kernel,by decide +kernel,fun once => ?_⟩
  have distinct := once repeatedAfterCleanup (List.prefix_refl _)
  revert distinct
  decide +kernel

/-! ### Repetitions at the rover -/

def RoverActsOnce (link : Link) : Prop := (link.rover.passed link.rover.baseEndpoint).Nodup

/-- No payload of the base station reaches the rover again. -/
def NoCopies (link : Link) : Event → Prop
  | .down position => ∀ packet, link.replyPacket position = some packet →
      packet ∉ link.rover.received link.rover.baseEndpoint
  | _ => True

/-- The rover has passed up every payload it received, as often as it received it. -/
structure Downlink (link : Link) : Prop where
  paired : Paired link
  acted : link.rover.passed link.rover.baseEndpoint =
    (link.rover.received link.rover.baseEndpoint).map content

/-- All that can happen at the rover: nothing of the base station's arrives, or one packet the
base station sent is processed. -/
theorem exchange_rover_cases (codec : Codec) (link : Link) (event : Event) (valid : Paired link) :
    (link.exchange codec event).rover.baseEndpoint = link.rover.baseEndpoint ∧
    (((link.exchange codec event).rover.passed link.rover.baseEndpoint =
        link.rover.passed link.rover.baseEndpoint ∧
      (link.exchange codec event).rover.received link.rover.baseEndpoint =
        link.rover.received link.rover.baseEndpoint) ∨
    ∃ position packet, event = .down position ∧ link.replyPacket position = some packet ∧
      (link.exchange codec event).rover =
        link.rover.processCompletePacket packet link.rover.baseEndpoint) := by
  cases event with
  | rover input own =>
    have same := own_local codec link.rover input own
    refine ⟨same.baseEndpoint,Or.inl ⟨own_passed codec link.rover input _ valid.rover own,?_⟩⟩
    rw [received,exchange,same.processed,← received]
  | base input own => exact ⟨rfl,Or.inl ⟨rfl,rfl⟩⟩
  | up position =>
    simp only [exchange]
    split <;> exact ⟨rfl,Or.inl ⟨rfl,rfl⟩⟩
  | down position =>
    cases found : link.replyPacket position with
    | none =>
      simp only [exchange,found]
      exact ⟨trivial,Or.inl ⟨trivial,trivial⟩⟩
    | some packet =>
      have whole : (link.exchange codec (.down position)).rover =
          link.rover.processCompletePacket packet link.rover.baseEndpoint := by
        simp only [exchange,found]
      rw [whole]
      exact ⟨(processCompletePacket_undisturbed link.rover packet _).baseEndpoint,
        Or.inr ⟨position,packet,rfl,found,rfl⟩⟩

theorem exchange_downlink (codec : Codec) (link : Link) (event : Event) (valid : Downlink link) :
    Downlink (link.exchange codec event) := by
  obtain ⟨same,quiet | ⟨_,packet,_,_,whole⟩⟩ :=
    exchange_rover_cases codec link event valid.paired
  · refine ⟨exchange_paired codec link event valid.paired,?_⟩
    rw [same,quiet.1,quiet.2]
    exact valid.acted
  · refine ⟨exchange_paired codec link event valid.paired,?_⟩
    rw [same,whole,processCompletePacket_acts _ _ _ valid.paired.roverMode
      valid.paired.roverCallback,processCompletePacket_receives,List.map_append,valid.acted]
    split <;> rfl

theorem exchange_actsOnce (codec : Codec) (link : Link) (event : Event) (valid : Downlink link)
    (distinct : RoverActsOnce link) (new : NoCopies link event) :
    RoverActsOnce (link.exchange codec event) := by
  obtain ⟨same,quiet | ⟨position,packet,rfl,found,whole⟩⟩ :=
    exchange_rover_cases codec link event valid.paired
  · rw [RoverActsOnce,same,quiet.1]
    exact distinct
  · rw [RoverActsOnce,same,whole,processCompletePacket_acts _ _ _ valid.paired.roverMode
      valid.paired.roverCallback]
    split
    · refine distinct.append (List.nodup_singleton _) fun given earlier now => ?_
      rw [List.mem_singleton.mp now,valid.acted] at earlier
      exact new packet found ((List.mem_map_of_injective content_injective).mp earlier)
    · rw [List.append_nil]
      exact distinct

theorem exchange_actsTwice (codec : Codec) (link : Link) (event : Event) (valid : Downlink link)
    (copy : ¬ NoCopies link event) : ¬ RoverActsOnce (link.exchange codec event) := by
  intro distinct
  cases event with
  | rover | base | up => exact copy trivial
  | down position =>
    refine copy fun packet found arrived => ?_
    have same := (processCompletePacket_undisturbed link.rover packet
      link.rover.baseEndpoint).baseEndpoint
    simp only [exchange,found,RoverActsOnce] at distinct
    rw [same] at distinct
    change ((link.rover.processCompletePacket packet link.rover.baseEndpoint).passed
      link.rover.baseEndpoint).Nodup at distinct
    rw [processCompletePacket_acts _ _ _ valid.paired.roverMode valid.paired.roverCallback,
      if_pos (mem_received.mp arrived).2,valid.acted] at distinct
    exact List.disjoint_of_nodup_append distinct (List.mem_map_of_mem arrived)
      (List.mem_singleton_self _)

/-- In every run, with any repetitions and delays and with the base station's answers to the
rover's NAKs: the rover acts on every packet at most once exactly when none reaches it twice. -/
theorem rover_acts_once_iff (codec : Codec) (roverEndpoint baseEndpoint : Endpoint)
    (roverClock baseClock : Clock) (events : List Event) :
    Machine.Always (exchange codec) RoverActsOnce
        (started roverEndpoint baseEndpoint roverClock baseClock) events ↔
      Machine.Guarded (exchange codec) NoCopies
        (started roverEndpoint baseEndpoint roverClock baseClock) events :=
  Machine.always_iff_guarded (exchange codec) (exchange_downlink codec)
    (exchange_actsOnce codec) (fun link event valid _ => exchange_actsTwice codec link event valid)
    _ events ⟨started_paired _ _ _ _,rfl⟩ List.nodup_nil

instance (link : Link) : Decidable (RoverActsOnce link) :=
  inferInstanceAs (Decidable (link.rover.passed link.rover.baseEndpoint).Nodup)

/-- The network repeats a command. -/
theorem repeatedCommand_executed_twice :
    ¬ Machine.Always (exchange .silent) RoverActsOnce sampleLink
      [.base (.sendMessage [1] .cmd .high sampleRover) rfl,.down 0,.down 0] := by
  intro once
  have distinct := once _ (List.prefix_refl _)
  revert distinct
  decide +kernel

/-! ### Order -/

/-- What the rover sent, in the order of the first transmissions. -/
def inSendingOrder (link : Link) : List (List UInt8 × LumenHeader) :=
  ((link.sent.filter fun packet => CarriesPayload packet).map content).eraseDups

/-- The payloads passed up, repetitions removed, are among those sent, in the same order. -/
def DeliversInOrder (link : Link) : Prop :=
  ((link.base.passed link.roverEndpoint).map Prod.fst).eraseDups.Sublist
    (link.inSendingOrder.map Prod.fst)

/-- A payload that is about to be passed up for the first time was sent after every other that
was passed up. -/
def PassesInOrder (link : Link) : Event → Prop
  | .up position => ∀ packet, link.sentPacket position = some packet → CarriesPayload packet →
      link.base.reliabilityManager.hasAckedSequence packet.header.sequence
        link.roverEndpoint = false →
      content packet ∉ link.base.passed link.roverEndpoint →
      ∀ given ∈ link.base.passed link.roverEndpoint,
        link.inSendingOrder.idxOf given < link.inSendingOrder.idxOf (content packet)
  | _ => True

/-- Different packets carry different payloads. -/
def PayloadsDistinct (link : Link) (_ : Event) : Prop :=
  ∀ first ∈ link.sent, ∀ second ∈ link.sent, CarriesPayload first → CarriesPayload second →
    first.payload = second.payload → first = second

theorem mem_inSendingOrder {link : Link} {given : List UInt8 × LumenHeader} :
    given ∈ link.inSendingOrder ↔
      ∃ packet ∈ link.sent, CarriesPayload packet ∧ content packet = given := by
  simp [inSendingOrder,List.mem_eraseDups,and_assoc]

theorem exchange_inSendingOrder (codec : Codec) (link : Link) (event : Event)
    (valid : Paired link) :
    ∃ more, (link.exchange codec event).inSendingOrder = link.inSendingOrder ++ more := by
  obtain ⟨more,grown⟩ := exchange_sent codec link event valid
  rw [inSendingOrder,grown,List.filter_append,List.map_append,List.eraseDups_append]
  exact ⟨_,rfl⟩

theorem exchange_follows (codec : Codec) (link : Link) (event : Event) (valid : Uplink link)
    (follows : Follows link.inSendingOrder (link.base.passed link.roverEndpoint))
    (inOrder : PassesInOrder link event) :
    Follows (link.exchange codec event).inSendingOrder
      ((link.exchange codec event).base.passed (link.exchange codec event).roverEndpoint) := by
  rcases exchange_cases codec link event valid.paired with
    quiet | ⟨position,packet,rfl,found,whole⟩
  · obtain ⟨more,grown⟩ := exchange_inSendingOrder codec link event valid.paired
    rw [grown,quiet.roverEndpoint,quiet.passed]
    exact follows.append_order more
  · rw [whole]
    change Follows link.inSendingOrder
      ((link.base.processCompletePacket packet link.roverEndpoint).passed link.roverEndpoint)
    rw [processCompletePacket_passes _ _ _ valid.paired.base.mode valid.paired.baseCallback]
    split
    · next fresh =>
      exact follows.concat (mem_inSendingOrder.mpr ⟨packet,mem_sent found,fresh.1,rfl⟩) fun new =>
        inOrder packet found fresh.1 fresh.2 new
    · rw [List.append_nil]
      exact follows

theorem exchange_inOrder (codec : Codec) (roverEndpoint baseEndpoint : Endpoint)
    (roverClock baseClock : Clock) (events : List Event)
    (inOrder : Machine.Guarded (exchange codec) PassesInOrder
      (started roverEndpoint baseEndpoint roverClock baseClock) events) :
    Machine.Always (exchange codec) DeliversInOrder
      (started roverEndpoint baseEndpoint roverClock baseClock) events := by
  intro done within
  have both := @Machine.always_of_guarded _ _ (exchange codec)
    (fun link => Uplink link ∧
      Follows link.inSendingOrder (link.base.passed link.roverEndpoint)) PassesInOrder
    (fun link event valid inOrder => ⟨exchange_uplink codec link event valid.1,
      exchange_follows codec link event valid.1 valid.2 inOrder⟩)
    _ events ⟨started_uplink _ _ _ _,Follows.nil _⟩ inOrder done within
  have ordered := both.2.sublist (nodup_eraseDups _)
  exact (eraseDups_map_sublist Prod.fst _).trans (ordered.map Prod.fst)

/-- A payload that is passed up too late stays out of order, since it is no other's. -/
theorem exchange_overtaken (codec : Codec) (link : Link) (event : Event) (valid : Uplink link)
    (distinct : PayloadsDistinct link event) (late : ¬ PassesInOrder link event) :
    ¬ DeliversInOrder (link.exchange codec event) := by
  intro ordered
  cases event with
  | rover | base | down => exact late trivial
  | up position =>
    refine late fun packet found payload fresh new => ?_
    have alone (first second : List UInt8 × LumenHeader) (one : first ∈ link.inSendingOrder)
        (two : second ∈ link.inSendingOrder) (same : first.1 = second.1) : first = second := by
      obtain ⟨left,leftSent,leftPayload,rfl⟩ := mem_inSendingOrder.mp one
      obtain ⟨right,rightSent,rightPayload,rfl⟩ := mem_inSendingOrder.mp two
      rw [distinct left leftSent right rightSent leftPayload rightPayload same]
    have nodup : (link.inSendingOrder.map Prod.fst).Nodup :=
      List.Nodup.map_on (fun first one second two => alone first second one two) (nodup_eraseDups _)
    have listed : content packet ∈ link.inSendingOrder :=
      mem_inSendingOrder.mpr ⟨packet,mem_sent found,payload,rfl⟩
    have known (given : List UInt8 × LumenHeader)
        (earlier : given ∈ link.base.passed link.roverEndpoint) : given ∈ link.inSendingOrder := by
      obtain ⟨other,arrived,rfl⟩ := valid.source given earlier
      exact mem_inSendingOrder.mpr ⟨other,valid.sent other arrived,(mem_received.mp arrived).2,rfl⟩
    simp only [exchange,found,DeliversInOrder] at ordered
    rw [processCompletePacket_passes _ _ _ valid.paired.base.mode valid.paired.baseCallback,
      if_pos ⟨payload,fresh⟩,List.map_append,List.map_singleton] at ordered
    have unheard : (content packet).1 ∉ (link.base.passed link.roverEndpoint).map Prod.fst := by
      intro member
      obtain ⟨given,earlier,same⟩ := List.mem_map.mp member
      exact new (alone given (content packet) (known given earlier) listed same ▸ earlier)
    intro given earlier
    have before := (Follows.of_sublist ordered nodup).last unheard given.1 (List.mem_map_of_mem earlier)
    change (link.inSendingOrder.map Prod.fst).idxOf given.1 <
      (link.inSendingOrder.map Prod.fst).idxOf (content packet).1 at before
    rwa [idxOf_map nodup (known given earlier),idxOf_map nodup listed] at before

/-- In every run, with any losses, repetitions and delays and the rover's retransmissions: as
long as no payload is overtaken on its way to the message callback, payloads are passed up in
the order in which they were sent; and when different packets carry different payloads, only
then. -/
theorem base_delivers_in_order_iff (codec : Codec) (roverEndpoint baseEndpoint : Endpoint)
    (roverClock baseClock : Clock) (events : List Event) :
    (Machine.Guarded (exchange codec) PassesInOrder
        (started roverEndpoint baseEndpoint roverClock baseClock) events →
      Machine.Always (exchange codec) DeliversInOrder
        (started roverEndpoint baseEndpoint roverClock baseClock) events) ∧
    (Machine.Guarded (exchange codec) PayloadsDistinct
        (started roverEndpoint baseEndpoint roverClock baseClock) events →
      Machine.Always (exchange codec) DeliversInOrder
        (started roverEndpoint baseEndpoint roverClock baseClock) events →
      Machine.Guarded (exchange codec) PassesInOrder
        (started roverEndpoint baseEndpoint roverClock baseClock) events) := by
  refine ⟨exchange_inOrder codec roverEndpoint baseEndpoint roverClock baseClock events,?_⟩
  intro distinct ordered done event within
  have valid := Machine.run_invariant (exchange codec) (exchange_uplink codec)
    (started roverEndpoint baseEndpoint roverClock baseClock) done (started_uplink _ _ _ _)
  by_contra late
  have next := ordered _ within
  rw [Machine.run_concat] at next
  exact exchange_overtaken codec _ event valid (distinct done event within) late next

instance (link : Link) : (event : Event) → Decidable (PassesInOrder link event)
  | .up position => inferInstanceAs (Decidable (∀ packet ∈ link.sentPacket position,
      CarriesPayload packet → _ = false → _ ∉ _ →
        ∀ given ∈ link.base.passed link.roverEndpoint, _))
  | .rover _ _ | .base _ _ | .down _ => isTrue trivial

instance (link : Link) : Decidable (DeliversInOrder link) :=
  inferInstanceAs (Decidable (List.Sublist _ _))

/-- Two messages of a session, still on their way. -/
def twoMessages : List Event := [sessionOn,roverSends [1],roverSends [2]]

theorem twoMessages_in_order :
    (Machine.run (exchange .silent) sampleLink
      (twoMessages ++ [.up 0,.up 1,.up 0])).base.passed sampleRover =
        [([1],⟨.data,.low,0,0,1⟩),([2],⟨.data,.low,1,0,1⟩)] ∧
    Machine.Always (exchange .silent) DeliversInOrder sampleLink
      (twoMessages ++ [.up 0,.up 1,.up 0]) :=
  ⟨by decide +kernel,(base_delivers_in_order_iff .silent sampleRover sampleBase ⟨0,0⟩ ⟨0,0⟩ _).1
    (by decide +kernel)⟩

/-- The second message overtakes the first. -/
theorem twoMessages_overtaken :
    Machine.Guarded (exchange .silent) InSession sampleLink (twoMessages ++ [.up 1,.up 0]) ∧
    ¬ Machine.Always (exchange .silent) DeliversInOrder sampleLink
      (twoMessages ++ [.up 1,.up 0]) := by
  refine ⟨by decide +kernel,fun ordered => ?_⟩
  have sorted := ordered _ (List.prefix_refl _)
  revert sorted
  decide +kernel

/-- A payload that is about to be passed up for the first time was sent after every other that
has arrived. -/
def ArrivesInOrder (link : Link) : Event → Prop
  | .up position => ∀ packet, link.sentPacket position = some packet → CarriesPayload packet →
      link.base.reliabilityManager.hasAckedSequence packet.header.sequence
        link.roverEndpoint = false →
      content packet ∉ link.base.passed link.roverEndpoint →
      ∀ other ∈ link.base.received link.roverEndpoint, other ≠ packet →
        link.inSendingOrder.idxOf (content other) < link.inSendingOrder.idxOf (content packet)
  | _ => True

/-- In particular when no payload arrives, on its way to the message callback, after one that was
sent later. -/
theorem base_delivers_in_order (codec : Codec) (roverEndpoint baseEndpoint : Endpoint)
    (roverClock baseClock : Clock) (events : List Event)
    (inOrder : Machine.Guarded (exchange codec) ArrivesInOrder
      (started roverEndpoint baseEndpoint roverClock baseClock) events) :
    Machine.Always (exchange codec) DeliversInOrder
      (started roverEndpoint baseEndpoint roverClock baseClock) events := by
  refine exchange_inOrder codec roverEndpoint baseEndpoint roverClock baseClock events ?_
  intro done event within
  have valid := Machine.run_invariant (exchange codec) (exchange_uplink codec)
    (started roverEndpoint baseEndpoint roverClock baseClock) done (started_uplink _ _ _ _)
  cases event with
  | rover | base | down => trivial
  | up position =>
    intro packet found payload fresh new given earlier
    obtain ⟨other,arrived,rfl⟩ := valid.source given earlier
    refine inOrder done _ within packet found payload fresh new other arrived fun same => ?_
    subst same
    exact new earlier

end Lumen.Link
