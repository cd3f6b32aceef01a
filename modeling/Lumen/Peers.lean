import Lumen.NakRate

/-! One table and one counter for all recipients. An ACK discharges by number whoever sent it,
a NAK for a gap goes to the base station whoever left the gap, and a NAK is answered by number
whoever asks. When the peers match nevertheless. -/
namespace Lumen.LumenProtocol

open ReliabilityManager Endpoint

/-- Entries for other recipients than the sender of an ACK stay, exactly when the entry under
the number it names, if there is one, is for its sender. -/
theorem ack_keeps_other_recipients_iff (codec : Codec) (s : LumenProtocol) (packet : LumenPacket)
    (endpoint : Endpoint) (reachable : Reachable codec s) (rover : s.mode = .rover)
    (ack : packet.header.type = .ack) :
    (∀ seq info, s.tracked seq = some info → info.recipient ≠ endpoint →
      (s.processCompletePacket packet endpoint).tracked seq = some info) ↔
    (∀ seq info, packet.payload.head? = some seq → s.tracked seq = some info →
      info.recipient = endpoint) := by
  have number : ackNumber packet = packet.payload.head? := if_pos ack
  rw [processCompletePacket_tracked s packet endpoint reachable.tracking rover,number]
  constructor
  · intro kept seq info named present
    by_contra other
    have still := kept seq info present other
    rw [named] at still
    simp at still
  · intro own seq info present other
    cases named : packet.payload.head? with
    | none => exact present
    | some acked =>
      refine (Function.update_of_ne (fun same : seq = acked => ?_) _ _).trans present
      subst same
      exact other (own seq info named present)

def sampleNode : LumenProtocol := started .rover ⟨0x0aed0001,9000⟩ ⟨0,0⟩

def strangerAck : LumenPacket := .new ⟨.ack,.high,0,0,1⟩ [0]

/-- The base station's own ACK discharges the first packet and leaves the one for another
rover alone. -/
theorem ownAck_keeps_other :
    let s := (sampleNode.sendMessage [1] .data .low .unspecified).sendMessage [2] .data .low
      sampleRover
    (s.tracked 1).isSome = true ∧
    ∀ seq info, s.tracked seq = some info → info.recipient ≠ (⟨0x0aed0001,9000⟩ : Endpoint) →
      (s.processCompletePacket strangerAck ⟨0x0aed0001,9000⟩).tracked seq = some info := by
  intro s
  have reachable : Reachable .silent s :=
    ⟨.rover,⟨0x0aed0001,9000⟩,⟨0,0⟩,[.sendMessage [1] .data .low .unspecified,
      .sendMessage [2] .data .low sampleRover],rfl⟩
  refine ⟨by decide +kernel,(ack_keeps_other_recipients_iff .silent s strangerAck _ reachable
    (by decide +kernel) (by decide)).mpr ?_⟩
  intro seq info named present
  have zero : seq = 0 := (Option.some.inj named).symm
  subst zero
  have entry : (s.tracked 0).map (·.recipient) = some ⟨0x0aed0001,9000⟩ := by decide +kernel
  rw [present] at entry
  exact Option.some.inj entry

/-- A packet for the base station is outstanding under number 0; any endpoint's ACK of 0 takes
it away. -/
theorem strangerAck_discharges :
    let s := sampleNode.sendMessage [1] .data .low .unspecified
    Reachable .silent s ∧ s.mode = .rover ∧
    ¬ ∀ seq info, s.tracked seq = some info → info.recipient ≠ sampleRover →
      (s.processCompletePacket strangerAck sampleRover).tracked seq = some info := by
  intro s
  have present : s.tracked 0 = some ⟨sampleNode.nextPacket [1] .data .low,0,0,⟨0x0aed0001,9000⟩⟩ := by
    decide +kernel
  refine ⟨⟨.rover,⟨0x0aed0001,9000⟩,⟨0,0⟩,[.sendMessage [1] .data .low .unspecified],rfl⟩,
    by decide +kernel,fun kept => ?_⟩
  have still := kept 0 _ present (by decide)
  have gone : (s.processCompletePacket strangerAck sampleRover).tracked 0 = none := by
    decide +kernel
  cases gone.symm.trans still

/-! ### Gaps -/

theorem nakLoop_receivedSequences (endpoint : Endpoint) (missing : List UInt8) (budget : Nat)
    (s : LumenProtocol) :
    (nakLoop endpoint budget missing s).reliabilityManager.receivedSequences =
      s.reliabilityManager.receivedSequences := by
  induction missing generalizing budget s with
  | nil => unfold nakLoop; rfl
  | cons number rest ih =>
    cases budget with
    | zero => rfl
    | succ budget =>
      rw [nakLoop]
      split
      · exact ih _ s
      · refine (ih _ _).trans ?_
        change (s.sendNak number endpoint).reliabilityManager.receivedSequences = _
        rw [sendNak_manager]

/-- Looking for gaps does not change the record of what arrived. -/
theorem processCompletePacket_received (s : LumenProtocol) (packet : LumenPacket)
    (endpoint : Endpoint) (rover : s.mode = .rover) (payload : CarriesPayload packet) :
    (s.processCompletePacket packet endpoint).reliabilityManager.receivedSequences =
      (s.noted packet endpoint).reliabilityManager.receivedSequences := by
  have known : (s.noted packet endpoint).mode = .rover := rover
  have accepted : ((s.noted packet endpoint).accept packet.header.sequence
      endpoint).1.reliabilityManager.receivedSequences =
        (s.noted packet endpoint).reliabilityManager.receivedSequences := by
    simp only [accept]
    split
    · next base => cases known.symm.trans base
    · dsimp only
      split
      · exact nakLoop_receivedSequences _ _ _ _
      · rfl
  rw [processCompletePacket_payload s packet endpoint payload]
  dsimp only
  split <;> exact accepted

/-- A number found missing is not on record for that sender. -/
theorem getMissingSequences_absent (rm : ReliabilityManager) (sender : Endpoint) (seq : UInt8)
    (missing : seq ∈ rm.getMissingSequences sender) :
    rm.receivedSequences (getEndpointKey sender) seq = none := by
  simp only [getMissingSequences] at missing
  split at missing
  · cases missing
  · split at missing
    · cases missing
    · exact Option.isNone_iff_eq_none.mp (List.mem_filter.mp missing).2

theorem gaps_absent (s : LumenProtocol) (packet : LumenPacket) (endpoint : Endpoint) (seq : UInt8)
    (missing : seq ∈ s.gaps packet endpoint) :
    (s.noted packet endpoint).reliabilityManager.receivedSequences (getEndpointKey endpoint) seq =
      none := by
  simp only [gaps] at missing
  split at missing
  · exact getMissingSequences_absent _ endpoint seq missing
  · cases missing

/-- The rover's NAKs to the base station name numbers it has not received from the base
station, and what the base station sends on a NAK goes to where the NAK came from. -/
def RepairsForPeer (codec : Codec) (s : LumenProtocol) (input : Arrival) : Prop :=
  (s.mode = .rover → ∀ packet base seq,
    .transmit packet base ∈ newEffects s (arrive codec s input) → packet.header.type = .nak →
    s.getBaseEndpoint = some base → packet.payload.head? = some seq →
    (arrive codec s input).reliabilityManager.receivedSequences (getEndpointKey base) seq = none) ∧
  (s.mode = .baseStation → ∀ nak endpoint, input = .packet nak endpoint →
    nak.header.type = .nak → ∀ packet recipient,
    .transmit packet recipient ∈ newEffects s (arrive codec s input) → recipient = endpoint)

/-- Of the gaps it finds in the numbers of another endpoint, a rover asks for none that it has
received from the base station; and the tracked packet whose number a NAK names, if there is one
that can be sent, is for the sender of the NAK. -/
def AsksPeer (s : LumenProtocol) : Arrival → Prop
  | .packet packet endpoint =>
    (s.mode = .rover → CarriesPayload packet → ∀ base, s.getBaseEndpoint = some base →
      endpoint ≠ base → ∀ seq ∈ s.asked packet endpoint,
        s.reliabilityManager.receivedSequences (getEndpointKey base) seq = none) ∧
    (s.mode = .baseStation → packet.header.type = .nak → ∀ seq info,
      packet.payload.head? = some seq → s.tracked seq = some info →
        s.canSend info.recipient = true → info.recipient = endpoint)
  | _ => True

theorem mem_requestsIn {effects : List Effect} {seq : UInt8} :
    seq ∈ requestsIn effects ↔ ∃ packet target, .transmit packet target ∈ effects ∧
      packet.header.type = .nak ∧ packet.payload.head? = some seq := by
  constructor
  · intro member
    obtain ⟨effect,here,named⟩ := List.mem_filterMap.mp member
    cases effect with
    | transmit packet target =>
      simp only [requestIn] at named
      split at named
      · next nak => exact ⟨packet,target,here,nak,named⟩
      · cases named
    | processing | callback | timeout => cases named
  · rintro ⟨packet,target,here,nak,named⟩
    exact List.mem_filterMap.mpr ⟨_,here,(if_pos nak).trans named⟩

/-- A packet of the base station does not stand in another endpoint's record. -/
theorem noted_received (s : LumenProtocol) (packet : LumenPacket) (endpoint base : Endpoint)
    (other : endpoint ≠ base) :
    (s.noted packet endpoint).reliabilityManager.receivedSequences (getEndpointKey base) =
      s.reliabilityManager.receivedSequences (getEndpointKey base) := by
  have keys : getEndpointKey base ≠ getEndpointKey endpoint :=
    fun same => other (getEndpointKey_injective same).symm
  simp only [noted,recordReceivedSequence]
  split
  · rfl
  · simp only [Function.update_of_ne keys]

theorem asked_gaps {s : LumenProtocol} {packet : LumenPacket} {endpoint : Endpoint} {seq : UInt8}
    (member : seq ∈ s.asked packet endpoint) : seq ∈ s.gaps packet endpoint :=
  (dueRequests_sublist s _ _).subset member

/-- What a payload makes the rover send are requests to its base station. -/
theorem payload_transmits (s : LumenProtocol) (packet nak : LumenPacket) (endpoint target : Endpoint)
    (rover : s.mode = .rover) (payload : CarriesPayload packet)
    (member : .transmit nak target ∈ newEffects s (s.processCompletePacket packet endpoint)) :
    s.getBaseEndpoint = some target := by
  obtain ⟨naks,added,fine⟩ := processCompletePacket_rover s packet endpoint rover payload
  rw [newEffects_of_append added] at member
  have here : .transmit nak target ∈ naks := by
    cases callback : s.messageCallback <;> simpa [callback,passedUp] using member
  obtain ⟨_,_,_,_,same,_,_,registered⟩ := fine _ here
  cases same
  exact registered

/-- The rover's half, for one packet. -/
theorem rover_repairs_iff (s : LumenProtocol) (packet : LumenPacket) (endpoint : Endpoint)
    (rover : s.mode = .rover) :
    (∀ nak base seq, .transmit nak base ∈ newEffects s (s.processCompletePacket packet endpoint) →
      nak.header.type = .nak → s.getBaseEndpoint = some base → nak.payload.head? = some seq →
        (s.processCompletePacket packet endpoint).reliabilityManager.receivedSequences
          (getEndpointKey base) seq = none) ↔
    (CarriesPayload packet → ∀ base, s.getBaseEndpoint = some base → endpoint ≠ base →
      ∀ seq ∈ s.asked packet endpoint,
        s.reliabilityManager.receivedSequences (getEndpointKey base) seq = none) := by
  by_cases payload : CarriesPayload packet
  · rw [processCompletePacket_received s packet endpoint rover payload]
    have asks (base : Endpoint) (registered : s.getBaseEndpoint = some base) :
        requestsIn (newEffects s (s.processCompletePacket packet endpoint)) =
          s.asked packet endpoint := by
      rw [payload_asked s packet endpoint rover payload,registered]
      rfl
    constructor
    · intro absent _ base registered other seq member
      rw [← asks base registered] at member
      obtain ⟨nak,target,sent,isNak,named⟩ := mem_requestsIn.mp member
      have same := payload_transmits s packet nak endpoint target rover payload sent
      rw [← noted_received s packet endpoint base other]
      rw [registered] at same
      cases same
      exact absent nak base seq sent isNak registered named
    · intro absent nak base seq sent isNak registered named
      have member : seq ∈ s.asked packet endpoint := by
        rw [← asks base registered]
        exact mem_requestsIn.mpr ⟨nak,base,sent,isNak,named⟩
      by_cases own : endpoint = base
      · subst own
        exact gaps_absent s packet endpoint seq (asked_gaps member)
      · rw [noted_received s packet endpoint base own]
        exact absent payload base registered own seq member
  · rw [newEffects_of_append (processCompletePacket_rover_control s packet endpoint rover payload)]
    simp [payload]

/-- The base station's half, for one NAK. -/
theorem base_repairs_iff (s : LumenProtocol) (packet : LumenPacket) (endpoint : Endpoint)
    (valid : Tracking s) (base : s.mode = .baseStation) (nak : packet.header.type = .nak) :
    (∀ sent recipient, .transmit sent recipient ∈
        newEffects s (s.processCompletePacket packet endpoint) → recipient = endpoint) ↔
    ∀ seq info, packet.payload.head? = some seq → s.tracked seq = some info →
      s.canSend info.recipient = true → info.recipient = endpoint := by
  have control : ¬ CarriesPayload packet := fun payload => payload.2 nak
  rw [newEffects_of_append (processCompletePacket_answer s packet endpoint base)]
  constructor
  · intro back seq info named present able
    refine back info.packet info.recipient (List.mem_cons_of_mem _ ?_)
    exact (mem_answer valid base).mpr (Or.inl ⟨nak,seq,info,named,present,able,rfl⟩)
  · intro own sent recipient member
    rcases List.mem_cons.mp member with same | answered
    · cases same
    · rcases (mem_answer valid base).mp answered with
        ⟨_,seq,info,named,present,able,same⟩ | ⟨payload,_⟩ | ⟨payload,_⟩
      · cases same
        exact own seq info named present able
      · exact absurd payload control
      · exact absurd payload control

theorem repairs_iff (codec : Codec) (s : LumenProtocol) (input : Arrival) (valid : Tracking s) :
    RepairsForPeer codec s input ↔ AsksPeer s input := by
  have quiet (other : ∀ packet endpoint, input ≠ .packet packet endpoint)
      (none : ∀ packet recipient, .transmit packet recipient ∈ newEffects s (arrive codec s input) →
        packet.header.type ≠ .nak) : RepairsForPeer codec s input :=
    ⟨fun _ packet base _ member isNak => absurd isNak (none packet base member),
      fun _ nak endpoint same => absurd same (other nak endpoint)⟩
  cases input with
  | packet packet endpoint =>
    refine and_congr (forall_congr' (rover_repairs_iff s packet endpoint)) ?_
    refine forall_congr' fun base => ?_
    constructor
    · intro back nak
      exact (base_repairs_iff s packet endpoint valid base nak).mp (back packet endpoint rfl nak)
    · intro own _ _ same nak
      cases same
      exact (base_repairs_iff s packet endpoint valid base nak).mpr (own nak)
  | buffer key bytes =>
    refine iff_of_true (quiet (by simp) fun packet recipient member => ?_) trivial
    change _ ∈ newEffects s s at member
    simp [newEffects] at member
  | unframed data endpoint plain =>
    refine iff_of_true (quiet (by simp) fun packet recipient member => ?_) trivial
    rcases unframed_effects codec s data endpoint plain with same | ⟨payload,header,added⟩
    · simp [arrive,newEffects,same] at member
    · rw [arrive,newEffects_of_append added] at member
      simp at member
  | own input own =>
    obtain ⟨more,added,fine⟩ := own_effects codec s input valid own
    refine iff_of_true (quiet (by simp) fun packet recipient member => ?_) trivial
    rw [arrive,newEffects_of_append added] at member
    exact (fine _ member).2

/-- Over every run of a node, with arrivals from any endpoints: a rover asks the base station only
for numbers it has not received from it, and a base station answers a NAK only to its sender,
exactly when the gaps of other endpoints contain no number on record for the base station that is
due, and every NAK names a packet of its sender. -/
theorem naks_repair_peer_iff (codec : Codec) (mode : ProtocolMode) (baseEndpoint : Endpoint)
    (clock : Clock) (inputs : List Arrival) :
    Machine.Guarded (arrive codec) (RepairsForPeer codec) (started mode baseEndpoint clock) inputs ↔
      Machine.Guarded (arrive codec) AsksPeer (started mode baseEndpoint clock) inputs :=
  Machine.guarded_congr (arrive codec) (arrive_tracking codec)
    (fun s input valid => repairs_iff codec s input valid) _ inputs
    (started_tracking mode baseEndpoint clock)

/-- A rover that hears only its base station asks it for its own numbers. -/
theorem base_only_asksPeer (codec : Codec) (base : Endpoint) (packets : List LumenPacket)
    (s : LumenProtocol) (rover : s.mode = .rover) (registered : s.getBaseEndpoint = some base) :
    Machine.Guarded (arrive codec) AsksPeer s (packets.map fun packet => .packet packet base) := by
  induction packets generalizing s with
  | nil => exact Machine.guarded_nil _ _ _
  | cons packet rest ih =>
    have same := processCompletePacket_undisturbed s packet base
    rw [List.map_cons,Machine.guarded_cons]
    refine ⟨⟨fun _ _ known here other => ?_,fun station => ?_⟩,ih _ (same.mode.trans rover) ?_⟩
    · exact absurd (Option.some.inj (registered.symm.trans here)) other
    · cases rover.symm.trans station
    · have kept : (s.processCompletePacket packet base).baseEndpoint = s.baseEndpoint := same.baseEndpoint
      simpa only [getBaseEndpoint,arrive,kept] using registered

def fromBase (seq : UInt8) : Arrival := .packet (dataPacket seq) ⟨0x0aed0001,9000⟩

def fromOther (seq : UInt8) : Arrival := .packet (dataPacket seq) sampleRover

/-- The fifth packet of the base station shows that the number 4 is missing. -/
def gapFromBase : List Arrival := [fromBase 0,fromBase 1,fromBase 2,fromBase 3,fromBase 5]

/-- The base station's command is lost, and the rover it is for asks for it. -/
def commandAskedFor : List Arrival :=
  [.own (.sendMessage [1] .cmd .high sampleRover) rfl,
    .packet (.new ⟨.nak,.high,0,0,1⟩ [0]) sampleRover]

theorem gapFromBase_reported :
    .transmit (.new ⟨.nak,.high,0,0,1⟩ [4]) ⟨0x0aed0001,9000⟩ ∈
      (Machine.run (arrive .silent) sampleNode gapFromBase).effects ∧
    Machine.Guarded (arrive .silent) (RepairsForPeer .silent) sampleNode gapFromBase ∧
    .transmit (.new ⟨.cmd,.high,0,0,1⟩ [1]) sampleRover ∈
      (Machine.run (arrive .silent) (started .baseStation .unspecified ⟨0,0⟩)
        commandAskedFor).effects.drop 1 ∧
    Machine.Guarded (arrive .silent) (RepairsForPeer .silent)
      (started .baseStation .unspecified ⟨0,0⟩) commandAskedFor := by
  refine ⟨by decide +kernel,(naks_repair_peer_iff .silent .rover ⟨0x0aed0001,9000⟩ ⟨0,0⟩
    gapFromBase).mpr ?_,by decide +kernel,(naks_repair_peer_iff .silent .baseStation .unspecified ⟨0,0⟩
    commandAskedFor).mpr ?_⟩
  · exact base_only_asksPeer .silent ⟨0x0aed0001,9000⟩ ([0,1,2,3,5].map dataPacket) sampleNode rfl rfl
  · simp only [commandAskedFor,Machine.guarded_cons]
    have kept : ((arrive .silent (started .baseStation .unspecified ⟨0,0⟩)
        (.own (.sendMessage [1] .cmd .high sampleRover) rfl)).tracked 0).map (·.recipient) =
          some sampleRover := by decide +kernel
    refine ⟨trivial,⟨fun rover => ?_,fun _ _ seq info named present _ => ?_⟩,Machine.guarded_nil _ _ _⟩
    · cases rover
    · have zero : seq = 0 := (Option.some.inj named).symm
      subst zero
      rw [present] at kept
      exact Option.some.inj kept

/-- The base station's packet 2 has arrived when the gap below another rover's packet 3 is
looked for; and a base station holds a packet for one rover when another asks for its number. -/
theorem gaps_of_others_reported :
    ¬ Machine.Guarded (arrive .silent) (RepairsForPeer .silent)
        (started .rover ⟨0x0aed0001,9000⟩ ⟨0,0⟩)
        [fromBase 2,fromOther 3,fromOther 3,fromOther 3,fromOther 3] ∧
    ¬ Machine.Guarded (arrive .silent) (RepairsForPeer .silent)
        (started .baseStation .unspecified ⟨0,0⟩)
        [.own (.sendMessage [1] .cmd .high sampleRover) rfl,
          .packet (.new ⟨.nak,.high,0,0,1⟩ [0]) ⟨0x0aed0003,9001⟩] := by
  constructor
  · intro repaired
    have absent := (repaired [fromBase 2,fromOther 3,fromOther 3,fromOther 3] (fromOther 3)
      (List.prefix_refl _)).1 (by decide +kernel) (.new ⟨.nak,.high,0,0,1⟩ [2]) ⟨0x0aed0001,9000⟩ 2
      (by decide +kernel) rfl (by decide +kernel) rfl
    revert absent
    decide +kernel
  · intro repaired
    have same := (repaired [.own (.sendMessage [1] .cmd .high sampleRover) rfl] _
      (List.prefix_refl _)).2 (by decide +kernel) _ _ rfl rfl
      (.new ⟨.cmd,.high,0,0,1⟩ [1]) sampleRover (by decide +kernel)
    revert same
    decide +kernel

/-- Gaps are found only in the numbers of the base station, and a NAK names a number whose
tracked packet, if there is one, is for the sender of the NAK. -/
def MatchesPeer (s : LumenProtocol) : Arrival → Prop
  | .packet packet endpoint =>
    (s.mode = .rover → CarriesPayload packet → s.gaps packet endpoint ≠ [] →
      s.getBaseEndpoint = some endpoint) ∧
    (s.mode = .baseStation → packet.header.type = .nak → ∀ seq info,
      packet.payload.head? = some seq → s.tracked seq = some info → info.recipient = endpoint)
  | _ => True

theorem MatchesPeer.asksPeer {s : LumenProtocol} {input : Arrival} (matching : MatchesPeer s input) :
    AsksPeer s input := by
  cases input with
  | packet packet endpoint =>
    refine ⟨fun rover payload base registered other seq member => ?_,
      fun base nak seq info named present _ => matching.2 base nak seq info named present⟩
    have own := matching.1 rover payload (List.ne_nil_of_mem (asked_gaps member))
    exact absurd (Option.some.inj (own.symm.trans registered)) other
  | buffer | unframed | own => trivial

/-- In particular when gaps are found only in the base station's numbers and NAKs name packets of
their sender. -/
theorem naks_repair_peer (codec : Codec) (mode : ProtocolMode) (baseEndpoint : Endpoint)
    (clock : Clock) (inputs : List Arrival)
    (matching : Machine.Guarded (arrive codec) MatchesPeer (started mode baseEndpoint clock)
      inputs) :
    Machine.Guarded (arrive codec) (RepairsForPeer codec) (started mode baseEndpoint clock)
      inputs := by
  intro done input within
  have valid := Machine.run_invariant (arrive codec) (arrive_tracking codec)
    (started mode baseEndpoint clock) done (started_tracking mode baseEndpoint clock)
  exact (repairs_iff codec _ input valid).mpr (matching done input within).asksPeer

end Lumen.LumenProtocol
