import Lumen.SentTable
import Lumen.Manager

/-! What processing one packet adds to the log, in full. The base station answers a payload
with an ACK when its session is active and passes it up unless the number is recorded as
acknowledged; a NAK brings back a tracked packet. The rover looks for gaps and passes every
payload up. -/
namespace Lumen.LumenProtocol

open ReliabilityManager Endpoint

theorem acknowledge_forwards (s : LumenProtocol) (seq : UInt8) (endpoint : Endpoint) :
    (s.acknowledge seq endpoint).2 = !s.reliabilityManager.hasAckedSequence seq endpoint := by
  simp only [acknowledge]
  split
  · split <;> simp_all
  · rfl

/-- What a reception has added to the log. -/
def newEffects (s t : LumenProtocol) : List Effect := t.effects.drop s.effects.length

/-- Anything but ACK and NAK. -/
def CarriesPayload (packet : LumenPacket) : Prop :=
  packet.header.type ≠ .ack ∧ packet.header.type ≠ .nak

instance (packet : LumenPacket) : Decidable (CarriesPayload packet) :=
  inferInstanceAs (Decidable (_ ∧ _))

theorem recordReceivedSequence_hasAckedSequence (rm : ReliabilityManager) (now : Nat) (seq : UInt8)
    (sender endpoint : Endpoint) (other : UInt8) :
    (rm.recordReceivedSequence now other sender).hasAckedSequence seq endpoint =
      rm.hasAckedSequence seq endpoint := by
  simp only [recordReceivedSequence]
  split <;> rfl

def Input.isDatagram : Input → Bool
  | .datagram _ _ => true
  | _ => false

/-- The log may have grown; no packet was started, and the node is set up as before. -/
structure Local (s t : LumenProtocol) : Prop where
  effects : s.effects <+: t.effects
  processed : t.processed = s.processed
  messageCallback : t.messageCallback = s.messageCallback
  serverRunning : t.serverRunning = s.serverRunning
  baseEndpoint : t.baseEndpoint = s.baseEndpoint

theorem Undisturbed.isLocal {s t : LumenProtocol} (same : Undisturbed s t) : Local s t :=
  ⟨same.effects,same.processed,same.messageCallback,same.serverRunning,same.baseEndpoint⟩

/-- A step that is no reception. -/
theorem step_local (codec : Codec) (s : LumenProtocol) (input : Input)
    (own : input.isDatagram = false) : Local s (step codec s input) := by
  cases input with
  | datagram => cases own
  | sendMessage payload type priority recipient =>
    exact (sendMessage_undisturbed s payload type priority recipient).isLocal
  | retransmissionTimer => exact (handleRetransmissionTimer_undisturbed s).isLocal
  | resetSequenceNumber | setSessionActive | cleanupTimer | tick =>
    exact ⟨List.prefix_refl _,rfl,rfl,rfl,rfl⟩

/-- The ACK the base station sends for a number. -/
def ackPacket (s : LumenProtocol) (seq : UInt8) : LumenPacket := s.nextPacket [seq] .ack .high

def sent (s : LumenProtocol) (packet : LumenPacket) (recipient : Endpoint) : List Effect :=
  if s.canSend recipient then [.transmit packet recipient] else []

theorem mem_sent {s : LumenProtocol} {packet : LumenPacket} {recipient : Endpoint}
    {effect : Effect} :
    effect ∈ s.sent packet recipient ↔
      s.canSend recipient = true ∧ effect = .transmit packet recipient := by
  unfold sent
  split <;> simp_all

/-- What can be sent is decided by the mode, the transport and the base station. -/
theorem Undisturbed.sent (same : Undisturbed s t) : t.sent = s.sent := by
  have able : t.canSend = s.canSend := by
    funext recipient
    have base : t.getBaseEndpoint = s.getBaseEndpoint := by
      rw [getBaseEndpoint,same.baseEndpoint,getBaseEndpoint]
    cases mode : s.mode <;>
      simp [canSend,same.mode,mode,same.serverRunning,base]
  funext packet recipient
  rw [LumenProtocol.sent,able,LumenProtocol.sent]

theorem sendPacket_effects (s : LumenProtocol) (packet : LumenPacket) (recipient : Endpoint) :
    (s.sendPacket packet recipient).effects = s.effects ++ s.sent packet recipient := by
  rw [sendPacket_eq,sent]
  split
  · rfl
  · rw [List.append_nil]

theorem sendAck_effects (s : LumenProtocol) (seq : UInt8) (recipient : Endpoint)
    (base : s.mode = .baseStation) :
    (s.sendAck seq recipient).effects = s.effects ++ s.sent (s.ackPacket seq) recipient := by
  simp only [sendAck]
  rw [if_neg (not_not.mpr base)]
  exact sendPacket_effects _ _ recipient

theorem sendAck_manager (s : LumenProtocol) (seq : UInt8) (recipient : Endpoint)
    (base : s.mode = .baseStation) :
    (s.sendAck seq recipient).reliabilityManager =
      s.reliabilityManager.recordAckedSequence seq recipient := by
  simp only [sendAck]
  rw [if_neg (not_not.mpr base)]
  exact sendPacket_manager _ _ recipient

/-- Recording a number twice is recording it once. -/
theorem recordAckedSequence_twice (rm : ReliabilityManager) (seq : UInt8) (endpoint : Endpoint) :
    (rm.recordAckedSequence seq endpoint).recordAckedSequence seq endpoint =
      rm.recordAckedSequence seq endpoint := by
  by_cases base : rm.role = .baseStation
  · simp [recordAckedSequence,base]
  · simp [recordAckedSequence,base]

theorem recordAckedSequence_acked (rm : ReliabilityManager) (seq other : UInt8)
    (endpoint : Endpoint) (key : String) (base : rm.role = .baseStation) :
    (rm.recordAckedSequence seq endpoint).ackedSequences key other = true ↔
      (other = seq ∧ key = getEndpointKey endpoint) ∨ rm.ackedSequences key other = true := by
  simp only [recordAckedSequence,base,ne_eq,not_true_eq_false,if_false]
  by_cases same : key = getEndpointKey endpoint
  · subst same
    by_cases number : other = seq
    · simp [number]
    · simp [number]
  · simp [same]

theorem hasAckedSequence_iff (rm : ReliabilityManager) (seq : UInt8) (endpoint : Endpoint)
    (base : rm.role = .baseStation) :
    rm.hasAckedSequence seq endpoint = rm.ackedSequences (getEndpointKey endpoint) seq := by
  simp [hasAckedSequence,base]

/-- The state that looks at a packet: its arrival is on record. -/
def noted (s : LumenProtocol) (packet : LumenPacket) (endpoint : Endpoint) : LumenProtocol :=
  { s.emit (.processing packet endpoint) with
    reliabilityManager := s.reliabilityManager.recordReceivedSequence s.clock.steady
      packet.header.sequence endpoint }

/-- Whether the base station passes the payload up. -/
def forwards (s : LumenProtocol) (packet : LumenPacket) (endpoint : Endpoint) : Bool :=
  !s.reliabilityManager.hasAckedSequence packet.header.sequence endpoint && s.messageCallback

def passedUp (packet : LumenPacket) (endpoint : Endpoint) : Effect :=
  .callback packet.payload packet.header endpoint

/-- What follows the mark of a packet in the base station's log. -/
def answer (s : LumenProtocol) (packet : LumenPacket) (endpoint : Endpoint) : List Effect :=
  if packet.header.type = .ack then []
  else if packet.header.type = .nak then
    (packet.payload.head?.bind s.reliabilityManager.processNak).toList.flatMap fun entry =>
      s.sent entry.1 entry.2
  else
    (if s.sessionActive then s.sent (s.ackPacket packet.header.sequence) endpoint else []) ++
      if s.forwards packet endpoint then [passedUp packet endpoint] else []

theorem acknowledge_effects (s : LumenProtocol) (seq : UInt8) (endpoint : Endpoint)
    (base : s.mode = .baseStation) :
    (s.acknowledge seq endpoint).1.effects =
      s.effects ++ if s.sessionActive then s.sent (s.ackPacket seq) endpoint else [] := by
  simp only [acknowledge]
  split
  · split
    · exact sendAck_effects _ seq endpoint base
    · exact sendAck_effects s seq endpoint base
  · rw [List.append_nil]

theorem acknowledge_manager (s : LumenProtocol) (seq : UInt8) (endpoint : Endpoint)
    (base : s.mode = .baseStation) :
    (s.acknowledge seq endpoint).1.reliabilityManager =
      if s.sessionActive then s.reliabilityManager.recordAckedSequence seq endpoint
      else s.reliabilityManager := by
  simp only [acknowledge]
  split
  · split
    · have recorded := sendAck_manager { s with
        reliabilityManager := s.reliabilityManager.recordAckedSequence seq endpoint } seq endpoint
        base
      exact recorded.trans (recordAckedSequence_twice ..)
    · exact sendAck_manager s seq endpoint base
  · rfl

theorem processNak_recorded (rm : ReliabilityManager) (now : Nat) (seq number : UInt8)
    (endpoint : Endpoint) :
    (rm.recordReceivedSequence now seq endpoint).processNak number = rm.processNak number := by
  simp only [recordReceivedSequence]
  split <;> rfl

/-- Neither the ACK nor the NAK branch is taken. -/
theorem processCompletePacket_payload (s : LumenProtocol) (packet : LumenPacket)
    (endpoint : Endpoint) (payload : CarriesPayload packet) :
    s.processCompletePacket packet endpoint =
      let accepted := (s.noted packet endpoint).accept packet.header.sequence endpoint
      if accepted.2 = true ∧ accepted.1.messageCallback = true then
        accepted.1.emit (passedUp packet endpoint)
      else accepted.1 :=
  (if_neg payload.1).trans (if_neg payload.2)

/-- A NAK at the base station. -/
theorem processCompletePacket_nak (s : LumenProtocol) (packet : LumenPacket)
    (endpoint : Endpoint) (base : s.mode = .baseStation) (nak : packet.header.type = .nak) :
    s.processCompletePacket packet endpoint =
      (packet.payload.head?.bind s.reliabilityManager.processNak).elim (s.noted packet endpoint)
        fun entry => (s.noted packet endpoint).sendPacket entry.1 entry.2 := by
  have other : packet.header.type ≠ .ack := by rw [nak]; decide
  have same (number : UInt8) : s.reliabilityManager.processNak number =
    (s.noted packet endpoint).reliabilityManager.processNak number := (processNak_recorded ..).symm
  simp only [processCompletePacket,if_neg other,if_pos nak]
  split
  · next requested rest _ payload =>
    rw [payload,List.head?_cons,Option.bind_some]
    split
    · next tracked recipient found =>
      rw [(same requested).trans found]
      rfl
    · next found =>
      rw [(same requested).trans found]
      rfl
  · next nothing =>
    cases payload : packet.payload with
    | nil => rfl
    | cons requested rest => exact absurd payload (nothing requested rest base)

/-- An ACK at the base station. -/
theorem processCompletePacket_ack (s : LumenProtocol) (packet : LumenPacket)
    (endpoint : Endpoint) (base : s.mode = .baseStation) (ack : packet.header.type = .ack) :
    s.processCompletePacket packet endpoint = s.noted packet endpoint := by
  simp only [processCompletePacket,if_pos ack]
  split
  · next rover _ => cases base.symm.trans rover
  · rfl

/-- The decision on a payload at the base station. -/
theorem accept_noted (s : LumenProtocol) (packet : LumenPacket) (endpoint : Endpoint)
    (base : s.mode = .baseStation) :
    let accepted := (s.noted packet endpoint).accept packet.header.sequence endpoint
    accepted.1.reliabilityManager = (if s.sessionActive then
      (s.noted packet endpoint).reliabilityManager.recordAckedSequence packet.header.sequence endpoint
      else (s.noted packet endpoint).reliabilityManager) ∧
    accepted.1.effects = (s.noted packet endpoint).effects ++
      (if s.sessionActive then s.sent (s.ackPacket packet.header.sequence) endpoint else []) ∧
    (accepted.2 = true ∧ accepted.1.messageCallback = true ↔ s.forwards packet endpoint = true) := by
  have known : (s.noted packet endpoint).mode = .baseStation := base
  have decided : (s.noted packet endpoint).accept packet.header.sequence endpoint =
      (s.noted packet endpoint).acknowledge packet.header.sequence endpoint := by
    rw [accept,known]
  have same := accept_undisturbed (s.noted packet endpoint) packet.header.sequence endpoint
  rw [decided] at same ⊢
  refine ⟨acknowledge_manager _ _ endpoint known,acknowledge_effects _ _ endpoint known,?_⟩
  have fresh : (s.noted packet endpoint).reliabilityManager.hasAckedSequence packet.header.sequence
      endpoint = s.reliabilityManager.hasAckedSequence packet.header.sequence endpoint :=
    recordReceivedSequence_hasAckedSequence ..
  have callback : (s.noted packet endpoint).messageCallback = s.messageCallback := rfl
  rw [acknowledge_forwards,same.messageCallback,fresh,callback,forwards,Bool.and_eq_true]

/-- The base station's log grows by the mark of the packet and its answer. -/
theorem processCompletePacket_answer (s : LumenProtocol) (packet : LumenPacket)
    (endpoint : Endpoint) (base : s.mode = .baseStation) :
    (s.processCompletePacket packet endpoint).effects =
      s.effects ++ .processing packet endpoint :: s.answer packet endpoint := by
  have marked (more : List Effect) : s.effects ++ .processing packet endpoint :: more =
      (s.noted packet endpoint).effects ++ more := by simp [noted,emit]
  rw [marked]
  by_cases ack : packet.header.type = .ack
  · rw [processCompletePacket_ack s packet endpoint base ack,answer,if_pos ack,List.append_nil]
  · by_cases nak : packet.header.type = .nak
    · rw [processCompletePacket_nak s packet endpoint base nak,answer,if_neg ack,if_pos nak]
      cases packet.payload.head?.bind s.reliabilityManager.processNak with
      | none => simp
      | some entry =>
        have same : (s.noted packet endpoint).sent entry.1 entry.2 = s.sent entry.1 entry.2 := rfl
        rw [Option.elim_some,sendPacket_effects,same,Option.toList_some,List.flatMap_singleton]
    · obtain ⟨accepts,logged,passes⟩ := accept_noted s packet endpoint base
      rw [processCompletePacket_payload s packet endpoint ⟨ack,nak⟩,answer,if_neg ack,if_neg nak]
      simp only [passes,← List.append_assoc,← logged]
      split
      · rfl
      · rw [List.append_nil]

theorem processNak_eq (s : LumenProtocol) (seq : UInt8) (valid : Tracking s)
    (base : s.mode = .baseStation) : s.reliabilityManager.processNak seq =
      (s.tracked seq).map fun info => (info.packet,info.recipient) := by
  have role : s.reliabilityManager.role = .baseStation :=
    valid.managerRole.trans (by rw [base]; rfl)
  simp only [processNak,valid.managerRunning,role]
  rfl

/-- All that can be in an answer: the tracked packet that a NAK names, the ACK of a payload in
session, and the payload. -/
theorem mem_answer {s : LumenProtocol} {packet : LumenPacket} {endpoint : Endpoint}
    {effect : Effect} (valid : Tracking s) (base : s.mode = .baseStation) :
    effect ∈ s.answer packet endpoint ↔
      (packet.header.type = .nak ∧ ∃ seq info, packet.payload.head? = some seq ∧
        s.tracked seq = some info ∧ s.canSend info.recipient = true ∧
          effect = .transmit info.packet info.recipient) ∨
      (CarriesPayload packet ∧ s.sessionActive = true ∧ s.canSend endpoint = true ∧
        effect = .transmit (s.ackPacket packet.header.sequence) endpoint) ∨
      (CarriesPayload packet ∧ s.forwards packet endpoint = true ∧
        effect = passedUp packet endpoint) := by
  by_cases ack : packet.header.type = .ack
  · have other : packet.header.type ≠ .nak := by rw [ack]; decide
    have control : ¬ CarriesPayload packet := fun payload => payload.1 ack
    rw [answer,if_pos ack]
    simp [other,control]
  by_cases nak : packet.header.type = .nak
  · have control : ¬ CarriesPayload packet := fun payload => payload.2 nak
    rw [answer,if_neg ack,if_pos nak]
    simp only [nak,control,true_and,false_and,or_false]
    cases named : packet.payload.head? with
    | none => simp
    | some seq =>
      rw [Option.bind_some,processNak_eq s seq valid base]
      cases present : s.tracked seq <;> simp [mem_sent,present]
  · have payload : CarriesPayload packet := ⟨ack,nak⟩
    rw [answer,if_neg ack,if_neg nak,List.mem_append]
    simp only [nak,payload,true_and,false_and,false_or]
    refine or_congr ?_ ?_
    · cases s.sessionActive <;> simp [mem_sent]
    · cases s.forwards packet endpoint <;> simp

/-- The base station's manager: the arrival is recorded, and in a session the number of a
payload as acknowledged. -/
theorem processCompletePacket_manager (s : LumenProtocol) (packet : LumenPacket)
    (endpoint : Endpoint) (base : s.mode = .baseStation) :
    (s.processCompletePacket packet endpoint).reliabilityManager =
      if CarriesPayload packet ∧ s.sessionActive = true then
        (s.noted packet endpoint).reliabilityManager.recordAckedSequence packet.header.sequence
          endpoint
      else (s.noted packet endpoint).reliabilityManager := by
  by_cases payload : CarriesPayload packet
  · have accepted := (accept_noted s packet endpoint base).1
    have manager : (s.processCompletePacket packet endpoint).reliabilityManager =
        ((s.noted packet endpoint).accept packet.header.sequence endpoint).1.reliabilityManager := by
      rw [processCompletePacket_payload s packet endpoint payload]
      dsimp only
      split <;> rfl
    rw [manager,accepted]
    simp only [payload,true_and]
  · rw [if_neg fun both => payload both.1]
    by_cases ack : packet.header.type = .ack
    · rw [processCompletePacket_ack s packet endpoint base ack]
    · have nak : packet.header.type = .nak := by
        by_contra other
        exact payload ⟨ack,other⟩
      rw [processCompletePacket_nak s packet endpoint base nak]
      cases packet.payload.head?.bind s.reliabilityManager.processNak with
      | none => rfl
      | some entry => exact sendPacket_manager _ _ _

/-- The numbers recorded as acknowledged: in a session every payload adds its own. -/
theorem processCompletePacket_acked (s : LumenProtocol) (packet : LumenPacket)
    (endpoint : Endpoint) (key : String) (seq : UInt8) (valid : Tracking s)
    (base : s.mode = .baseStation) :
    (s.processCompletePacket packet endpoint).reliabilityManager.ackedSequences key seq = true ↔
      (CarriesPayload packet ∧ s.sessionActive = true ∧ seq = packet.header.sequence ∧
        key = getEndpointKey endpoint) ∨ s.reliabilityManager.ackedSequences key seq = true := by
  have recorded : (s.noted packet endpoint).reliabilityManager.ackedSequences =
      s.reliabilityManager.ackedSequences := by
    simp only [noted,recordReceivedSequence]
    split <;> rfl
  have role : (s.noted packet endpoint).reliabilityManager.role = .baseStation := by
    have same := (s.reliabilityManager.recordReceivedSequence_setup s.clock.steady
      packet.header.sequence endpoint).2
    exact same.trans (valid.managerRole.trans (by rw [base]; rfl))
  rw [processCompletePacket_manager s packet endpoint base]
  by_cases acks : CarriesPayload packet ∧ s.sessionActive = true
  · rw [if_pos acks,recordAckedSequence_acked _ _ _ _ _ role,recorded]
    simp [acks]
  · rw [if_neg acks,recorded]
    constructor
    · exact Or.inr
    · rintro (⟨payload,active,_⟩ | known)
      · exact absurd ⟨payload,active⟩ acks
      · exact known

/-- The same, by endpoint. -/
theorem processCompletePacket_hasAcked (s : LumenProtocol) (packet : LumenPacket)
    (endpoint : Endpoint) (seq : UInt8) (from_ : Endpoint) (valid : Tracking s)
    (base : s.mode = .baseStation) :
    (s.processCompletePacket packet endpoint).reliabilityManager.hasAckedSequence seq from_ = true ↔
      (CarriesPayload packet ∧ s.sessionActive = true ∧ seq = packet.header.sequence ∧
        from_ = endpoint) ∨ s.reliabilityManager.hasAckedSequence seq from_ = true := by
  have role (t : LumenProtocol) (tracking : Tracking t) (mode : t.mode = .baseStation) :
      t.reliabilityManager.role = .baseStation := tracking.managerRole.trans (by rw [mode]; rfl)
  have aging := processCompletePacket_ages s packet endpoint
  rw [hasAckedSequence_iff _ _ _ (role s valid base),
    hasAckedSequence_iff _ _ _ (role _ (aging.tracking valid) (aging.mode.trans base)),
    processCompletePacket_acked s packet endpoint _ seq valid base,
    getEndpointKey_injective.eq_iff]

/-! ### The rover -/

/-- The number an ACK answers. -/
def ackNumber (packet : LumenPacket) : Option UInt8 :=
  if packet.header.type = .ack then packet.payload.head? else none

/-- At the rover an ACK takes the entry under its number away, and no other packet touches the
table. -/
theorem processCompletePacket_tracked (s : LumenProtocol) (packet : LumenPacket)
    (endpoint : Endpoint) (valid : Tracking s) (rover : s.mode = .rover) :
    (s.processCompletePacket packet endpoint).tracked =
      match ackNumber packet with
      | some seq => Function.update s.tracked seq none
      | none => s.tracked := by
  have record (seq : UInt8) : (s.reliabilityManager.recordReceivedSequence s.clock.steady seq
      endpoint).sentPackets = s.tracked := recordReceivedSequence_sentPackets ..
  have setup (seq : UInt8) := s.reliabilityManager.recordReceivedSequence_setup s.clock.steady seq
    endpoint
  have mode : (s.emit (.processing packet endpoint)).mode = .rover := rover
  simp only [processCompletePacket,ackNumber]
  by_cases ack : packet.header.type = .ack
  · rw [if_pos ack,if_pos ack]
    simp only [mode]
    cases packet.payload with
    | nil => exact record _
    | cons seq rest =>
      have running := (setup packet.header.sequence).1.trans valid.managerRunning
      have role := (setup packet.header.sequence).2.trans valid.managerRole
      rw [rover] at role
      simp only [tracked,processAck,List.head?_cons]
      rw [if_neg (by simp [emit,running,role,ProtocolMode.role])]
      exact congrArg (Function.update · seq none) (record _)
  · rw [if_neg ack,if_neg ack]
    split
    · simp only [mode]
      exact record _
    · have kept := accept_tracked { s.emit (.processing packet endpoint) with
        reliabilityManager := s.reliabilityManager.recordReceivedSequence s.clock.steady
          packet.header.sequence endpoint } packet.header.sequence endpoint
      split
      · exact kept.trans (record _)
      · exact kept.trans (record _)

/-- A NAK for one of the numbers, to the registered base station. -/
def IsNakFor (base : Option Endpoint) (numbers : List UInt8) (effect : Effect) : Prop :=
  ∃ number ∈ numbers, ∃ packet target, effect = .transmit packet target ∧
    packet.header.type = .nak ∧ packet.payload = [number] ∧ base = some target

theorem sendNak_manager (s : LumenProtocol) (number : UInt8) (endpoint : Endpoint) :
    (s.sendNak number endpoint).reliabilityManager = s.reliabilityManager := by
  simp only [sendNak]
  split
  · rfl
  · split
    · rfl
    · exact sendPacket_manager _ _ _

theorem sendNak_effects (s : LumenProtocol) (number : UInt8) (endpoint : Endpoint) :
    ∃ naks, (s.sendNak number endpoint).effects = s.effects ++ naks ∧
      ∀ effect ∈ naks, IsNakFor s.getBaseEndpoint [number] effect := by
  simp only [sendNak]
  split
  · exact ⟨[],by simp,by simp⟩
  · split
    · exact ⟨[],by simp,by simp⟩
    · next base registered =>
      refine ⟨_,sendPacket_effects _ _ base,?_⟩
      intro effect member
      simp only [sent] at member
      split at member
      · rw [List.mem_singleton.mp member]
        exact ⟨number,List.mem_singleton_self _,_,base,rfl,rfl,rfl,registered⟩
      · cases member

theorem nakLoop_effects (endpoint : Endpoint) (missing : List UInt8) (budget : Nat)
    (s : LumenProtocol) :
    ∃ naks, (nakLoop endpoint budget missing s).effects = s.effects ++ naks ∧
      ∀ effect ∈ naks, IsNakFor s.getBaseEndpoint missing effect := by
  have wider (first : UInt8) (rest : List UInt8) (base : Option Endpoint) (effect : Effect)
      (within : IsNakFor base rest effect) : IsNakFor base (first :: rest) effect := by
    obtain ⟨number,member,shape⟩ := within
    exact ⟨number,List.mem_cons_of_mem _ member,shape⟩
  induction missing generalizing budget s with
  | nil => exact ⟨[],by unfold nakLoop; simp,by simp⟩
  | cons number rest ih =>
    cases budget with
    | zero => exact ⟨[],by simp [nakLoop],by simp⟩
    | succ budget =>
      rw [nakLoop]
      split
      · obtain ⟨naks,added,fine⟩ := ih (budget + 1) s
        exact ⟨naks,added,fun effect member => wider _ _ _ _ (fine effect member)⟩
      · obtain ⟨first,sentFirst,one⟩ := sendNak_effects s number endpoint
        obtain ⟨naks,added,fine⟩ := ih budget { s.sendNak number endpoint with
          reliabilityManager := (s.sendNak number endpoint).reliabilityManager.recordNakSent
            (s.sendNak number endpoint).clock.steady number }
        have same := sendNak_undisturbed s number endpoint
        refine ⟨first ++ naks,?_,?_⟩
        · rw [added]
          simp only [sentFirst,List.append_assoc]
        · intro effect member
          rcases List.mem_append.mp member with here | later
          · obtain ⟨other,single,shape⟩ := one effect here
            exact ⟨other,List.mem_cons.mpr (Or.inl (List.mem_singleton.mp single)),shape⟩
          · have kept := fine effect later
            simp only [getBaseEndpoint,same.baseEndpoint] at kept
            exact wider _ _ _ _ kept

/-- The numbers the rover finds missing when this packet makes it look. -/
def gaps (s : LumenProtocol) (packet : LumenPacket) (endpoint : Endpoint) : List UInt8 :=
  if (s.checkCounter + 1) % 5 = 0 then
    (s.noted packet endpoint).reliabilityManager.getMissingSequences endpoint
  else []

/-- The rover that is about to look for gaps. -/
def counted (s : LumenProtocol) (packet : LumenPacket) (endpoint : Endpoint) : LumenProtocol :=
  { s.noted packet endpoint with checkCounter := s.checkCounter + 1 }

/-- A payload at the rover: look for gaps, then pass it up. -/
theorem processCompletePacket_looks (s : LumenProtocol) (packet : LumenPacket)
    (endpoint : Endpoint) (rover : s.mode = .rover) (payload : CarriesPayload packet) :
    let looked := nakLoop endpoint maxNaksPerCheck (s.gaps packet endpoint)
      (s.counted packet endpoint)
    s.processCompletePacket packet endpoint =
      if looked.messageCallback then looked.emit (passedUp packet endpoint) else looked := by
  have known : (s.noted packet endpoint).mode = .rover := rover
  have decided : (s.noted packet endpoint).accept packet.header.sequence endpoint =
      (nakLoop endpoint maxNaksPerCheck (s.gaps packet endpoint) (s.counted packet endpoint),
        true) := by
    simp only [accept,gaps]
    split
    · next base => cases known.symm.trans base
    · refine Prod.ext ?_ rfl
      change (if (s.checkCounter + 1) % 5 = 0 then (s.counted packet endpoint).checkSequenceGaps
        endpoint else s.counted packet endpoint) = _
      split
      · rfl
      · unfold nakLoop; rfl
  rw [processCompletePacket_payload s packet endpoint payload,decided]
  simp only [true_and]

/-- The rover's log grows by the mark, NAKs for the gaps found, and the payload. -/
theorem processCompletePacket_rover (s : LumenProtocol) (packet : LumenPacket)
    (endpoint : Endpoint) (rover : s.mode = .rover) (payload : CarriesPayload packet) :
    ∃ naks, (s.processCompletePacket packet endpoint).effects =
        s.effects ++ .processing packet endpoint :: (naks ++
          if s.messageCallback then [passedUp packet endpoint] else []) ∧
      ∀ effect ∈ naks, IsNakFor s.getBaseEndpoint (s.gaps packet endpoint) effect := by
  obtain ⟨naks,added,fine⟩ := nakLoop_effects endpoint (s.gaps packet endpoint) maxNaksPerCheck
    (s.counted packet endpoint)
  have callback : (nakLoop endpoint maxNaksPerCheck (s.gaps packet endpoint)
      (s.counted packet endpoint)).messageCallback = s.messageCallback :=
    (nakLoop_undisturbed endpoint _ _ _).messageCallback
  have marked : (s.counted packet endpoint).effects =
      s.effects ++ [.processing packet endpoint] := rfl
  refine ⟨naks,?_,fine⟩
  rw [processCompletePacket_looks s packet endpoint rover payload,callback]
  split
  · simp [emit,added,marked]
  · simp [added,marked]

/-- ACKs and NAKs leave only their mark in the rover's log. -/
theorem processCompletePacket_rover_control (s : LumenProtocol) (packet : LumenPacket)
    (endpoint : Endpoint) (rover : s.mode = .rover) (control : ¬ CarriesPayload packet) :
    (s.processCompletePacket packet endpoint).effects =
      s.effects ++ [.processing packet endpoint] := by
  have mode : (s.emit (.processing packet endpoint)).mode = .rover := rover
  simp only [processCompletePacket]
  split
  · simp only [mode]
    cases packet.payload <;> rfl
  · next other =>
    split
    · simp only [mode]
      rfl
    · next payload => exact absurd ⟨other,payload⟩ control

/-! ### The retransmission timer -/

theorem handleRetransmissionTimer_manager (s : LumenProtocol) :
    s.handleRetransmissionTimer.reliabilityManager =
      (s.reliabilityManager.handleRetransmissionTimer s.clock.steady).1 := by
  have reports (timeouts : List Endpoint) (t : LumenProtocol) :
      (timeouts.foldl (fun t recipient => t.emit (.timeout recipient)) t).reliabilityManager =
        t.reliabilityManager := by
    induction timeouts generalizing t with
    | nil => rfl
    | cons recipient rest ih => exact ih _
  have copies (packets : List (LumenPacket × Endpoint)) (t : LumenProtocol) :
      (packets.foldl (fun t entry => t.sendPacket entry.1 entry.2) t).reliabilityManager =
        t.reliabilityManager := by
    induction packets generalizing t with
    | nil => rfl
    | cons entry rest ih => exact (ih _).trans (sendPacket_manager t entry.1 entry.2)
  simp only [handleRetransmissionTimer]
  rw [copies,reports]

theorem foldl_timeouts (timeouts : List Endpoint) (s : LumenProtocol) :
    timeouts.foldl (fun s recipient => s.emit (.timeout recipient)) s =
      { s with effects := s.effects ++ timeouts.map .timeout } := by
  induction timeouts generalizing s with
  | nil => simp
  | cons recipient rest ih =>
    rw [List.foldl_cons,ih]
    simp [emit]

theorem foldl_sendPacket_effects (packets : List (LumenPacket × Endpoint)) (s : LumenProtocol) :
    (packets.foldl (fun s entry => s.sendPacket entry.1 entry.2) s).effects =
      s.effects ++ packets.flatMap fun entry => s.sent entry.1 entry.2 := by
  induction packets generalizing s with
  | nil => simp
  | cons entry rest ih =>
    have same : (s.sendPacket entry.1 entry.2).sent = s.sent :=
      (sendPacket_undisturbed s entry.1 entry.2).sent
    rw [List.foldl_cons,ih,same,sendPacket_effects,List.flatMap_cons,List.append_assoc]

/-- The log of a check: the reports of the manager, then the packets it queued. -/
theorem handleRetransmissionTimer_log (s : LumenProtocol) :
    s.handleRetransmissionTimer.effects = s.effects ++
      ((s.reliabilityManager.handleRetransmissionTimer s.clock.steady).2.2.map .timeout ++
        (s.reliabilityManager.handleRetransmissionTimer s.clock.steady).2.1.flatMap
          fun entry => s.sent entry.1 entry.2) := by
  simp only [handleRetransmissionTimer]
  rw [foldl_sendPacket_effects,foldl_timeouts,List.append_assoc]
  rfl

/-- The retransmission timer reports timeouts and transmits packets of the table. -/
theorem handleRetransmissionTimer_effects (s : LumenProtocol) (valid : Tracking s) :
    ∃ more, s.handleRetransmissionTimer.effects = s.effects ++ more ∧
      ∀ effect ∈ more, (∃ recipient, effect = .timeout recipient) ∨
        ∃ seq info, s.tracked seq = some info ∧ effect = .transmit info.packet info.recipient := by
  refine ⟨_,handleRetransmissionTimer_log s,fun effect member => ?_⟩
  rcases List.mem_append.mp member with report | repeated
  · obtain ⟨recipient,_,same⟩ := List.mem_map.mp report
    exact Or.inl ⟨recipient,same.symm⟩
  · obtain ⟨entry,listed,sends⟩ := List.mem_flatMap.mp repeated
    cases role : s.reliabilityManager.role with
    | baseStation =>
      rw [handleRetransmissionTimer_baseStation _ _ role] at listed
      cases listed
    | rover =>
      obtain ⟨seq,late⟩ := (mem_handleRetransmissionTimer _ _ valid.managerRunning role entry).mp
        listed
      obtain ⟨info,present,_,rfl⟩ := mem_due late
      exact Or.inr ⟨seq,info,present,(mem_sent.mp sends).2⟩

end Lumen.LumenProtocol
