import Lumen.Reception
import Mathlib.Data.List.Nodup

/-! The retransmission table over whole runs: what the periodic check does to it, which
steps can touch an entry, and when the table holds the packet that was sent last under a
number. `emplace` never replaces an entry, so an old entry under the number decides. -/
namespace Lumen.ReliabilityManager

theorem mem_sequences (seq : UInt8) : seq ∈ sequences :=
  List.mem_map.mpr ⟨seq.toNat,List.mem_range.mpr seq.toNat_lt,UInt8.ofNat_toNat⟩

theorem nodup_sequences : sequences.Nodup := by
  refine List.Nodup.map_on (fun a small b small' same => ?_) List.nodup_range
  have values := congrArg UInt8.toNat same
  rw [UInt8.toNat_ofNat_of_lt' (List.mem_range.mp small),
    UInt8.toNat_ofNat_of_lt' (List.mem_range.mp small')] at values
  exact values

/-- What the check leaves of an entry. -/
def aged (now : Nat) (info : SentPacketInfo) : Option SentPacketInfo :=
  match SentPacketInfo.verdict now info with
  | .keep => some info
  | .retransmit => some { info with sentTime := now, retryCount := info.retryCount + 1 }
  | .abandon => none

/-- What the check queues for an entry. -/
def due (now : Nat) : Option SentPacketInfo → List (LumenPacket × Endpoint)
  | none => []
  | some info =>
    if SentPacketInfo.verdict now info = .retransmit then [(info.packet,info.recipient)] else []

theorem aged_some (aging : aged now info = some later) :
    later.packet = info.packet ∧ later.recipient = info.recipient := by
  simp only [aged] at aging
  split at aging
  · cases aging; exact ⟨rfl,rfl⟩
  · cases aging; exact ⟨rfl,rfl⟩
  · cases aging

theorem checkEntry_table (now : Nat) (callback : Bool) (check : Check) (seq : UInt8) :
    (checkEntry now callback check seq).table =
      Function.update check.table seq ((check.table seq).bind (aged now)) := by
  simp only [checkEntry]
  split
  · next absent => rw [absent,Option.bind_none,← absent,Function.update_eq_self]
  · next info present =>
    rw [present,Option.bind_some,aged]
    cases SentPacketInfo.verdict now info with
    | keep => simp only [← present,Function.update_eq_self]
    | retransmit => rfl
    | abandon => rfl

theorem checkEntry_packets (now : Nat) (callback : Bool) (check : Check) (seq : UInt8) :
    (checkEntry now callback check seq).packets = check.packets ++ due now (check.table seq) := by
  simp only [checkEntry]
  split
  · next absent => rw [absent,due,List.append_nil]
  · next info present =>
    rw [present,due]
    split <;> simp_all

/-- What the check reports about an entry. -/
def reports (now : Nat) (timeoutCallback : Bool) : Option SentPacketInfo → List Endpoint
  | none => []
  | some info =>
    if SentPacketInfo.verdict now info = .abandon ∧ info.recipient.port = 9000 ∧ timeoutCallback
    then [info.recipient] else []

theorem checkEntry_timeouts (now : Nat) (callback : Bool) (check : Check) (seq : UInt8) :
    (checkEntry now callback check seq).timeouts =
      check.timeouts ++ reports now callback (check.table seq) := by
  simp only [checkEntry]
  split
  · next absent => rw [absent,reports,List.append_nil]
  · next info present =>
    rw [present,reports]
    split
    · next kept => simp [kept]
    · next again => simp [again]
    · next given =>
      simp only [given,true_and]
      split <;> simp_all

/-- The whole loop, over numbers that are visited once. -/
theorem foldl_checkEntry (now : Nat) (callback : Bool) (seqs : List UInt8) (once : seqs.Nodup)
    (check : Check) :
    let result := seqs.foldl (checkEntry now callback) check
    (∀ seq, result.table seq =
      if seq ∈ seqs then (check.table seq).bind (aged now) else check.table seq) ∧
    result.packets = check.packets ++ seqs.flatMap (fun seq => due now (check.table seq)) ∧
    result.timeouts = check.timeouts ++
      seqs.flatMap fun seq => reports now callback (check.table seq) := by
  induction seqs generalizing check with
  | nil => simp
  | cons first rest ih =>
    obtain ⟨apart,once⟩ := List.nodup_cons.mp once
    obtain ⟨table,packets,timeouts⟩ := ih once (checkEntry now callback check first)
    have untouched (seq : UInt8) (member : seq ∈ rest) :
        (checkEntry now callback check first).table seq = check.table seq := by
      rw [checkEntry_table]
      exact Function.update_of_ne (fun same : seq = first => apart (same ▸ member)) _ _
    refine ⟨fun seq => ?_,?_,?_⟩
    · rw [List.foldl_cons,table seq]
      by_cases member : seq ∈ rest
      · simp [member,untouched seq member]
      · by_cases same : seq = first
        · subst same; simp [member,checkEntry_table]
        · simp [member,same,checkEntry_table]
    · rw [List.foldl_cons,packets,checkEntry_packets,List.flatMap_cons,List.append_assoc]
      congr 2
      exact List.flatMap_congr fun seq member => by rw [untouched seq member]
    · rw [List.foldl_cons,timeouts,checkEntry_timeouts,List.flatMap_cons,List.append_assoc]
      congr 2
      exact List.flatMap_congr fun seq member => by rw [untouched seq member]

theorem handleRetransmissionTimer_table (rm : ReliabilityManager) (now : Nat) (seq : UInt8)
    (running : rm.running = true) (rover : rm.role = .rover) :
    (rm.handleRetransmissionTimer now).1.sentPackets seq =
      (rm.sentPackets seq).bind (aged now) := by
  have loop := (foldl_checkEntry now rm.timeoutCallback sequences nodup_sequences
    ⟨rm.sentPackets,[],[]⟩).1 seq
  rw [if_pos (mem_sequences seq)] at loop
  simpa [handleRetransmissionTimer,getPacketsToRetransmit,running,rover] using loop

theorem mem_handleRetransmissionTimer (rm : ReliabilityManager) (now : Nat)
    (running : rm.running = true) (rover : rm.role = .rover) (entry : LumenPacket × Endpoint) :
    entry ∈ (rm.handleRetransmissionTimer now).2.1 ↔
      ∃ seq, entry ∈ due now (rm.sentPackets seq) := by
  have loop := (foldl_checkEntry now rm.timeoutCallback sequences nodup_sequences
    ⟨rm.sentPackets,[],[]⟩).2.1
  simp only [handleRetransmissionTimer,getPacketsToRetransmit,running,rover,Bool.not_true,
    Bool.false_eq_true,if_false,loop,List.nil_append,List.mem_flatMap]
  constructor
  · rintro ⟨seq,_,member⟩
    exact ⟨seq,member⟩
  · rintro ⟨seq,member⟩
    exact ⟨seq,mem_sequences seq,member⟩

theorem handleRetransmissionTimer_baseStation (rm : ReliabilityManager) (now : Nat)
    (base : rm.role = .baseStation) : rm.handleRetransmissionTimer now = (rm,[],[]) := by
  simp [handleRetransmissionTimer,base]

theorem recordReceivedSequence_sentPackets (rm : ReliabilityManager) (now : Nat) (seq : UInt8)
    (sender : Endpoint) :
    (rm.recordReceivedSequence now seq sender).sentPackets = rm.sentPackets := by
  simp only [recordReceivedSequence]
  split <;> rfl

theorem recordAckedSequence_sentPackets (rm : ReliabilityManager) (seq : UInt8)
    (endpoint : Endpoint) : (rm.recordAckedSequence seq endpoint).sentPackets = rm.sentPackets := by
  simp only [recordAckedSequence]
  split <;> rfl

theorem processAck_sentPackets_some {rm : ReliabilityManager} {seq key : UInt8}
    {info : SentPacketInfo} (present : (rm.processAck seq).sentPackets key = some info) :
    rm.sentPackets key = some info := by
  simp only [processAck] at present
  split at present
  · exact present
  · dsimp only at present
    by_cases same : key = seq
    · rw [same,Function.update_self] at present
      cases present
    · rwa [Function.update_of_ne same] at present

theorem handleCleanupTimer_sentPackets (rm : ReliabilityManager) (now : Nat) :
    (rm.handleCleanupTimer now).sentPackets = rm.sentPackets := by
  simp only [handleCleanupTimer]
  split
  · rfl
  · cases rm; rfl

/-- The check that `start` makes runs on a cleared table. -/
theorem start_sentPackets (rm : ReliabilityManager) (now : Nat) (stopped : rm.running = false)
    (seq : UInt8) : (rm.start now).sentPackets seq = none := by
  unfold start
  rw [if_neg (by simp [stopped])]
  dsimp only
  rw [handleCleanupTimer_sentPackets]
  cases role : rm.role with
  | baseStation => rw [handleRetransmissionTimer_baseStation _ _ rfl]
  | rover => rw [handleRetransmissionTimer_table _ _ _ rfl rfl,Option.bind_none]

theorem start_setup (rm : ReliabilityManager) (now : Nat) :
    (rm.start now).running = true ∧ (rm.start now).role = rm.role := by
  simp only [start]
  split
  · next running => exact ⟨running,rfl⟩
  · have check := handleRetransmissionTimer_setup { rm.resetState with running := true } now
    have cleanup := handleCleanupTimer_setup
      (handleRetransmissionTimer { rm.resetState with running := true } now).1 now
    exact ⟨cleanup.1.trans check.1,cleanup.2.trans check.2⟩

/-- An entry that is there already wins. -/
theorem addSendPacket_sentPackets (rm : ReliabilityManager) (now : Nat) (seq : UInt8)
    (packet : LumenPacket) (recipient : Endpoint) (running : rm.running = true) :
    (rm.addSendPacket now seq packet recipient).sentPackets =
      Function.update rm.sentPackets seq
        (some ((rm.sentPackets seq).getD ⟨packet,now,0,recipient⟩)) := by
  simp only [addSendPacket]
  rw [running]
  simp only [Bool.not_true,Bool.false_eq_true,if_false]
  split
  · next info present => rw [present,Option.getD_some,← present,Function.update_eq_self]
  · next absent => rw [absent,Option.getD_none]

end Lumen.ReliabilityManager

namespace Lumen.LumenProtocol

open ReliabilityManager Endpoint

def tracked (s : LumenProtocol) : UInt8 → Option SentPacketInfo :=
  s.reliabilityManager.sentPackets

/-- A packet that may be tracked under the number. -/
def Trackable (seq : UInt8) (packet : LumenPacket) : Prop :=
  packet.header.sequence = seq ∧ packet.header.type ≠ .ack ∧ packet.header.type ≠ .nak

/-- A running node with its manager set up for it and every entry under its own number. -/
structure Tracking (s : LumenProtocol) : Prop where
  running : s.running = true
  managerRunning : s.reliabilityManager.running = true
  managerRole : s.reliabilityManager.role = s.mode.role
  keyed : ∀ seq info, s.tracked seq = some info → Trackable seq info.packet

/-- Entries may go and their retry state may change; at the base station nothing happens
to them. -/
structure Ages (s t : LumenProtocol) : Prop where
  mode : t.mode = s.mode
  running : t.running = s.running
  managerRunning : t.reliabilityManager.running = s.reliabilityManager.running
  managerRole : t.reliabilityManager.role = s.reliabilityManager.role
  fades : ∀ seq later, t.tracked seq = some later → ∃ info, s.tracked seq = some info ∧
    later.packet = info.packet ∧ later.recipient = info.recipient
  kept : s.mode = .baseStation → t.tracked = s.tracked

namespace Ages

theorem ofUndisturbed (same : Undisturbed s t) (table : t.tracked = s.tracked) : Ages s t where
  mode := same.mode
  running := same.running
  managerRunning := same.managerRunning
  managerRole := same.managerRole
  fades := fun seq later present => ⟨later,by rw [← table]; exact present,rfl,rfl⟩
  kept := fun _ => table

theorem refl (s : LumenProtocol) : Ages s s := ofUndisturbed (.refl s) rfl

theorem trans (first : Ages s t) (second : Ages t u) : Ages s u where
  mode := second.mode.trans first.mode
  running := second.running.trans first.running
  managerRunning := second.managerRunning.trans first.managerRunning
  managerRole := second.managerRole.trans first.managerRole
  fades := fun seq later present => by
    obtain ⟨middle,between,packet,recipient⟩ := second.fades seq later present
    obtain ⟨info,before,packet',recipient'⟩ := first.fades seq middle between
    exact ⟨info,before,packet.trans packet',recipient.trans recipient'⟩
  kept := fun base => (second.kept (first.mode.trans base)).trans (first.kept base)

theorem foldl (action : LumenProtocol → α → LumenProtocol)
    (each : ∀ s item, Ages s (action s item)) (items : List α) (s : LumenProtocol) :
    Ages s (items.foldl action s) := by
  induction items generalizing s with
  | nil => exact .refl s
  | cons item rest ih => exact (each s item).trans (ih _)

theorem tracking (aging : Ages s t) (valid : Tracking s) : Tracking t where
  running := aging.running.trans valid.running
  managerRunning := aging.managerRunning.trans valid.managerRunning
  managerRole := by rw [aging.managerRole,aging.mode]; exact valid.managerRole
  keyed := fun seq later present => by
    obtain ⟨info,before,packet,_⟩ := aging.fades seq later present
    rw [packet]
    exact valid.keyed seq info before

end Ages

theorem sendPacket_manager (s : LumenProtocol) (packet : LumenPacket) (recipient : Endpoint) :
    (s.sendPacket packet recipient).reliabilityManager = s.reliabilityManager := by
  simp only [sendPacket]
  split <;> split <;> rfl

theorem sendAck_tracked (s : LumenProtocol) (seq : UInt8) (recipient : Endpoint) :
    (s.sendAck seq recipient).tracked = s.tracked := by
  simp only [sendAck]
  split
  · rfl
  · simp only [tracked,sendPacket_manager]
    exact recordAckedSequence_sentPackets _ _ _

theorem sendNak_tracked (s : LumenProtocol) (seq : UInt8) (recipient : Endpoint) :
    (s.sendNak seq recipient).tracked = s.tracked := by
  simp only [sendNak]
  split
  · rfl
  · split
    · rfl
    · simp only [tracked,sendPacket_manager]

theorem nakLoop_tracked (endpoint : Endpoint) (missing : List UInt8) (budget : Nat)
    (s : LumenProtocol) : (nakLoop endpoint budget missing s).tracked = s.tracked := by
  induction missing generalizing budget s with
  | nil => unfold nakLoop; rfl
  | cons seq rest ih =>
    cases budget with
    | zero => rfl
    | succ budget =>
      rw [nakLoop]
      split
      · exact ih _ s
      · exact (ih _ _).trans (sendNak_tracked s seq endpoint)

theorem acknowledge_tracked (s : LumenProtocol) (seq : UInt8) (endpoint : Endpoint) :
    (s.acknowledge seq endpoint).1.tracked = s.tracked := by
  simp only [acknowledge]
  split
  · split
    · exact (sendAck_tracked _ _ _).trans (recordAckedSequence_sentPackets _ _ _)
    · exact sendAck_tracked _ _ _
  · rfl

theorem accept_tracked (s : LumenProtocol) (seq : UInt8) (endpoint : Endpoint) :
    (s.accept seq endpoint).1.tracked = s.tracked := by
  simp only [accept]
  split
  · exact acknowledge_tracked s seq endpoint
  · dsimp only
    split
    · exact nakLoop_tracked _ _ _ _
    · rfl

theorem handleUdpData_unframed_manager (codec : Codec) (s : LumenProtocol) (data : List UInt8)
    (endpoint : Endpoint) (unframed : data.head? ≠ some lumenStx) :
    (handleUdpData codec s data endpoint).reliabilityManager = s.reliabilityManager := by
  rcases handleUdpData_unframed_cases codec s data endpoint unframed with same | ⟨payload,same⟩
  · rw [same]
  · rw [same,passUp]
    split <;> rfl

theorem handleUdpData_unframed_tracked (codec : Codec) (s : LumenProtocol) (data : List UInt8)
    (endpoint : Endpoint) (unframed : data.head? ≠ some lumenStx) :
    (handleUdpData codec s data endpoint).tracked = s.tracked :=
  congrArg ReliabilityManager.sentPackets
    (handleUdpData_unframed_manager codec s data endpoint unframed)

/-- An acknowledgement at the rover is the only packet that takes an entry away. -/
theorem processAck_ages (s : LumenProtocol) (seq : UInt8) (rover : s.mode = .rover) :
    Ages s { s with reliabilityManager := s.reliabilityManager.processAck seq } where
  mode := rfl
  running := rfl
  managerRunning := (s.reliabilityManager.processAck_setup seq).1
  managerRole := (s.reliabilityManager.processAck_setup seq).2
  fades := fun key later present => by
    exact ⟨later,processAck_sentPackets_some present,rfl,rfl⟩
  kept := fun base => by rw [rover] at base; cases base

theorem emit_ages (s : LumenProtocol) (effect : Effect) : Ages s (s.emit effect) where
  mode := rfl
  running := rfl
  managerRunning := rfl
  managerRole := rfl
  fades := fun _ later present => ⟨later,present,rfl,rfl⟩
  kept := fun _ => rfl

theorem sendPacket_ages (s : LumenProtocol) (packet : LumenPacket) (recipient : Endpoint) :
    Ages s (s.sendPacket packet recipient) :=
  .ofUndisturbed (sendPacket_undisturbed s packet recipient)
    (congrArg sentPackets (sendPacket_manager s packet recipient))

theorem processCompletePacket_ages (s : LumenProtocol) (packet : LumenPacket)
    (endpoint : Endpoint) : Ages s (s.processCompletePacket packet endpoint) := by
  have record : Ages (s.emit (.processing packet endpoint)) _ :=
    .ofUndisturbed (recordReceived_undisturbed (s.emit (.processing packet endpoint))
      packet.header.sequence endpoint) (recordReceivedSequence_sentPackets _ _ _ _)
  refine (emit_ages s (.processing packet endpoint)).trans ?_
  simp only [processCompletePacket]
  split
  · split
    · next rover _ => exact record.trans (processAck_ages _ _ rover)
    · exact record
  · split
    · split
      · split
        · exact record.trans (sendPacket_ages _ _ _)
        · exact record
      · exact record
    · refine record.trans (.trans (.ofUndisturbed (accept_undisturbed _ _ endpoint)
        (accept_tracked _ packet.header.sequence endpoint)) ?_)
      split
      · exact emit_ages _ _
      · exact .refl _

theorem setFrameBuffer_ages (s : LumenProtocol) (key : String) (buffer : List UInt8) :
    Ages s (s.setFrameBuffer key buffer) where
  mode := rfl
  running := rfl
  managerRunning := rfl
  managerRole := rfl
  fades := fun _ later present => ⟨later,present,rfl,rfl⟩
  kept := fun _ => rfl

theorem passUp_ages (s : LumenProtocol) (payload : List UInt8) (endpoint : Endpoint) :
    Ages s (s.passUp payload endpoint) := by
  simp only [passUp]
  split
  · exact emit_ages s _
  · exact .refl s

theorem handleUdpData_ages (codec : Codec) (s : LumenProtocol) (data : List UInt8)
    (endpoint : Endpoint) : Ages s (handleUdpData codec s data endpoint) := by
  refine handleUdpData_keeps codec (Ages s) endpoint ?_ ?_ ?_ s data (.refl s)
  · exact fun t key bytes aging => aging.trans (setFrameBuffer_ages t key bytes)
  · exact fun t packet aging => aging.trans (processCompletePacket_ages t packet endpoint)
  · exact fun t payload aging => aging.trans (passUp_ages t payload endpoint)

theorem handleRetransmissionTimer_ages (s : LumenProtocol) (valid : Tracking s) :
    Ages s s.handleRetransmissionTimer := by
  simp only [handleRetransmissionTimer]
  refine .trans (.trans ?_ (.foldl _ (fun s recipient => emit_ages s _) _ _))
    (.foldl _ (fun s (entry : LumenPacket × Endpoint) => sendPacket_ages s entry.1 entry.2) _ _)
  have setup := s.reliabilityManager.handleRetransmissionTimer_setup s.clock.steady
  have base : s.mode = .baseStation → (s.reliabilityManager.handleRetransmissionTimer
      s.clock.steady).1.sentPackets = s.tracked := by
    intro base
    rw [handleRetransmissionTimer_baseStation _ _ (by rw [valid.managerRole,base]; rfl)]
    rfl
  refine ⟨rfl,rfl,setup.1,setup.2,fun seq later present => ?_,base⟩
  cases mode : s.mode with
  | baseStation =>
    exact ⟨later,by rw [← base mode]; exact present,rfl,rfl⟩
  | rover =>
    simp only [tracked] at present
    rw [handleRetransmissionTimer_table _ _ _ valid.managerRunning
      (by rw [valid.managerRole,mode]; rfl)] at present
    obtain ⟨info,before,aging⟩ := Option.bind_eq_some_iff.mp present
    exact ⟨info,before,(aged_some aging).1,(aged_some aging).2⟩

theorem handleCleanupTimer_ages (s : LumenProtocol) : Ages s s.handleCleanupTimer :=
  .ofUndisturbed (handleCleanupTimer_undisturbed s) (handleCleanupTimer_sentPackets _ _)

/-- A message that gets as far as `sendPacket`. -/
theorem sendMessage_tracked (s : LumenProtocol) (payload : List UInt8) (type : MessageType)
    (priority : Priority) (recipient target : Endpoint) (valid : Tracking s)
    (data : type ≠ .ack ∧ type ≠ .nak) (reaches : s.targetEndpoint recipient = some target) :
    (s.sendMessage payload type priority recipient).tracked =
      Function.update s.tracked s.currentSequence (some ((s.tracked s.currentSequence).getD
        ⟨s.nextPacket payload type priority,s.clock.steady,0,target⟩)) := by
  rw [sendMessage_running _ _ _ _ _ valid.running,reaches]
  simp only [if_pos data,tracked,sendPacket_manager]
  exact addSendPacket_sentPackets _ _ _ _ _ valid.managerRunning

/-- What any message can do to the table: fill the slot of the current number, if free. -/
theorem sendMessage_tracked_cases (s : LumenProtocol) (payload : List UInt8) (type : MessageType)
    (priority : Priority) (recipient : Endpoint) (valid : Tracking s) :
    (s.sendMessage payload type priority recipient).tracked = s.tracked ∨
    (type ≠ .ack ∧ type ≠ .nak) ∧ ∃ target,
      (s.sendMessage payload type priority recipient).tracked =
        Function.update s.tracked s.currentSequence (some ((s.tracked s.currentSequence).getD
          ⟨s.nextPacket payload type priority,s.clock.steady,0,target⟩)) := by
  by_cases data : type ≠ .ack ∧ type ≠ .nak
  · cases reaches : s.targetEndpoint recipient with
    | none => exact Or.inl (by rw [sendMessage_running _ _ _ _ _ valid.running,reaches]; rfl)
    | some target =>
      exact Or.inr ⟨data,target,sendMessage_tracked s payload type priority recipient target valid
        data reaches⟩
  · left
    rw [sendMessage_running _ _ _ _ _ valid.running]
    simp only [if_neg data]
    split
    · rfl
    · exact congrArg sentPackets (sendPacket_manager _ _ _)

theorem sendMessage_tracking (s : LumenProtocol) (payload : List UInt8) (type : MessageType)
    (priority : Priority) (recipient : Endpoint) (valid : Tracking s) :
    Tracking (s.sendMessage payload type priority recipient) := by
  have same := sendMessage_undisturbed s payload type priority recipient
  refine ⟨same.running.trans valid.running,same.managerRunning.trans valid.managerRunning,
    by rw [same.managerRole,same.mode]; exact valid.managerRole,fun seq info present => ?_⟩
  rcases sendMessage_tracked_cases s payload type priority recipient valid with
    unchanged | ⟨data,target,filled⟩
  · exact valid.keyed seq info (by rw [← unchanged]; exact present)
  · rw [filled] at present
    by_cases current : seq = s.currentSequence
    · rw [current,Function.update_self,Option.some.injEq] at present
      cases old : s.tracked s.currentSequence with
      | none =>
        rw [old,Option.getD_none] at present
        rw [← present,current]
        exact ⟨rfl,data⟩
      | some entry =>
        rw [old,Option.getD_some] at present
        rw [← present,current]
        exact valid.keyed _ entry old
    · rw [Function.update_of_ne current] at present
      exact valid.keyed seq info present

/-- Everything a step can do to the table. -/
theorem step_tracked (codec : Codec) (s : LumenProtocol) (input : Input) (valid : Tracking s) :
    Ages s (step codec s input) ∨
    (input = .resetSequenceNumber ∧ (step codec s input).tracked = fun _ => none) ∨
    ∃ payload type priority recipient, input = .sendMessage payload type priority recipient := by
  cases input with
  | datagram data endpoint => exact Or.inl (handleUdpData_ages codec s data endpoint)
  | sendMessage payload type priority recipient =>
    exact Or.inr (Or.inr ⟨payload,type,priority,recipient,rfl⟩)
  | resetSequenceNumber => exact Or.inr (Or.inl ⟨rfl,rfl⟩)
  | retransmissionTimer => exact Or.inl (handleRetransmissionTimer_ages s valid)
  | cleanupTimer => exact Or.inl (handleCleanupTimer_ages s)
  | setSessionActive | tick =>
    exact Or.inl ⟨rfl,rfl,rfl,rfl,fun _ later present => ⟨later,present,rfl,rfl⟩,fun _ => rfl⟩

theorem step_tracking (codec : Codec) (s : LumenProtocol) (input : Input) (valid : Tracking s) :
    Tracking (step codec s input) := by
  rcases step_tracked codec s input valid with aging | ⟨rfl,_⟩ | ⟨_,_,_,_,rfl⟩
  · exact aging.tracking valid
  · exact ⟨valid.running,valid.managerRunning,valid.managerRole,fun _ _ present => by cases present⟩
  · exact sendMessage_tracking s _ _ _ _ valid

theorem step_mode (codec : Codec) (s : LumenProtocol) (input : Input) (valid : Tracking s) :
    (step codec s input).mode = s.mode := by
  rcases step_tracked codec s input valid with aging | ⟨rfl,_⟩ | ⟨_,_,_,_,rfl⟩
  · exact aging.mode
  · rfl
  · exact (sendMessage_undisturbed s _ _ _ _).mode

theorem run_mode (codec : Codec) (s : LumenProtocol) (inputs : List Input) (valid : Tracking s) :
    (Machine.run (step codec) s inputs).mode = s.mode :=
  (@Machine.run_invariant _ _ (step codec) (fun t => Tracking t ∧ t.mode = s.mode)
    (fun t input ⟨valid,mode⟩ => ⟨step_tracking codec t input valid,
      (step_mode codec t input valid).trans mode⟩) s inputs ⟨valid,rfl⟩).2

theorem started_tracking (mode : ProtocolMode) (baseEndpoint : Endpoint) (clock : Clock) :
    Tracking (started mode baseEndpoint clock) := by
  have setup := (ReliabilityManager.new mode.role).start_setup clock.steady
  refine ⟨rfl,setup.1,setup.2,fun seq info present => ?_⟩
  have empty : (started mode baseEndpoint clock).tracked seq = none :=
    start_sentPackets _ clock.steady rfl seq
  rw [empty] at present
  cases present

/-- States of a node that has been started, after any inputs. -/
def Reachable (codec : Codec) (s : LumenProtocol) : Prop :=
  ∃ mode baseEndpoint clock inputs,
    s = Machine.run (step codec) (started mode baseEndpoint clock) inputs

theorem Reachable.tracking (reachable : Reachable codec s) : Tracking s := by
  obtain ⟨mode,baseEndpoint,clock,inputs,rfl⟩ := reachable
  exact Machine.run_invariant (step codec) (step_tracking codec) _ inputs
    (started_tracking mode baseEndpoint clock)

/-- The table maps the number to this packet, sent once. -/
def HoldsLatest (s : LumenProtocol) (seq : UInt8) (packet : LumenPacket) (target : Endpoint) :
    Prop :=
  ∃ info, s.tracked seq = some info ∧
    info.packet = packet ∧ info.recipient = target ∧ info.retryCount = 0

/-- No entry under the current number, or one for the very same packet. -/
def SlotAvailable (s : LumenProtocol) (packet : LumenPacket) (target : Endpoint) : Prop :=
  ∀ info, s.tracked s.currentSequence = some info →
    info.packet = packet ∧ info.recipient = target ∧ info.retryCount = 0

/-- A step that does not send another message under the number. -/
def NotReused (seq : UInt8) (s : LumenProtocol) : Input → Prop
  | .sendMessage _ _ _ _ => s.currentSequence ≠ seq
  | _ => True

/-- What the manager retransmits for a number, by a NAK or by the check, is this packet. -/
structure RetransmitsOnly (s : LumenProtocol) (seq : UInt8) (packet : LumenPacket)
    (target : Endpoint) : Prop where
  onNak : ∀ entry, s.reliabilityManager.processNak seq = some entry → entry = (packet,target)
  onCheck : ∀ entry ∈ (s.reliabilityManager.handleRetransmissionTimer s.clock.steady).2.1,
    entry.1.header.sequence = seq → entry = (packet,target)
  overdue : s.mode = .rover → ∀ info, s.tracked seq = some info →
    SentPacketInfo.verdict s.clock.steady info = .retransmit →
    (packet,target) ∈ (s.reliabilityManager.handleRetransmissionTimer s.clock.steady).2.1

theorem holdsLatest_iff (s : LumenProtocol) (payload : List UInt8) (type : MessageType)
    (priority : Priority) (recipient target : Endpoint) (valid : Tracking s)
    (data : type ≠ .ack ∧ type ≠ .nak) (reaches : s.targetEndpoint recipient = some target) :
    HoldsLatest (s.sendMessage payload type priority recipient) s.currentSequence
        (s.nextPacket payload type priority) target ↔
      SlotAvailable s (s.nextPacket payload type priority) target := by
  simp only [HoldsLatest,SlotAvailable]
  rw [sendMessage_tracked s payload type priority recipient target valid data reaches,
    Function.update_self]
  cases s.tracked s.currentSequence <;> simp

/-- Whatever the table still holds under the number is this packet. -/
def Holds (s : LumenProtocol) (seq : UInt8) (packet : LumenPacket) (target : Endpoint) : Prop :=
  ∀ info, s.tracked seq = some info → info.packet = packet ∧ info.recipient = target

theorem step_holds (codec : Codec) (s : LumenProtocol) (input : Input) (seq : UInt8)
    (packet : LumenPacket) (target : Endpoint) (valid : Tracking s)
    (holds : Holds s seq packet target) (apart : NotReused seq s input) :
    Holds (step codec s input) seq packet target := by
  intro later present
  rcases step_tracked codec s input valid with aging | ⟨rfl,cleared⟩ | ⟨_,_,_,_,rfl⟩
  · obtain ⟨info,before,samePacket,sameRecipient⟩ := aging.fades seq later present
    rw [samePacket,sameRecipient]
    exact holds info before
  · rw [cleared] at present; cases present
  · rcases sendMessage_tracked_cases s _ _ _ _ valid with unchanged | ⟨_,_,filled⟩
    · exact holds later (by rw [← unchanged]; exact present)
    · rw [step,filled,Function.update_of_ne (Ne.symm apart)] at present
      exact holds later present

/-- At the base station an entry stays until the table is reset. -/
theorem step_kept (codec : Codec) (s : LumenProtocol) (input : Input) (seq : UInt8)
    (info : SentPacketInfo) (valid : Tracking s) (base : s.mode = .baseStation)
    (notReset : input ≠ .resetSequenceNumber) (present : s.tracked seq = some info) :
    (step codec s input).tracked seq = some info := by
  rcases step_tracked codec s input valid with aging | ⟨reset,_⟩ | ⟨_,_,_,_,rfl⟩
  · rw [aging.kept base]; exact present
  · exact absurd reset notReset
  · rcases sendMessage_tracked_cases s _ _ _ _ valid with unchanged | ⟨_,_,filled⟩
    · rw [step,unchanged]; exact present
    · rw [step,filled]
      by_cases current : seq = s.currentSequence
      · subst current; rw [Function.update_self,present,Option.getD_some]
      · rw [Function.update_of_ne current]; exact present

theorem run_kept (codec : Codec) (s : LumenProtocol) (inputs : List Input) (seq : UInt8)
    (info : SentPacketInfo) (valid : Tracking s) (base : s.mode = .baseStation)
    (notReset : ∀ input ∈ inputs, input ≠ .resetSequenceNumber)
    (present : s.tracked seq = some info) :
    (Machine.run (step codec) s inputs).tracked seq = some info := by
  induction inputs generalizing s with
  | nil => exact present
  | cons input rest ih =>
    have here := notReset input List.mem_cons_self
    exact ih _ (step_tracking codec s input valid) ((step_mode codec s input valid).trans base)
      (fun later member => notReset later (List.mem_cons_of_mem _ member))
      (step_kept codec s input seq info valid base here present)

theorem run_holds (codec : Codec) (s : LumenProtocol) (inputs : List Input) (seq : UInt8)
    (packet : LumenPacket) (target : Endpoint) (valid : Tracking s)
    (holds : Holds s seq packet target)
    (apart : Machine.Guarded (step codec) (NotReused seq) s inputs) :
    Tracking (Machine.run (step codec) s inputs) ∧
      Holds (Machine.run (step codec) s inputs) seq packet target :=
  @Machine.always_of_guarded _ _ (step codec) (fun s => Tracking s ∧ Holds s seq packet target)
    (NotReused seq) (fun s input ⟨valid,holds⟩ apart => ⟨step_tracking codec s input valid,
      step_holds codec s input seq packet target valid holds apart⟩) s inputs ⟨valid,holds⟩ apart
    inputs (List.prefix_refl _)

theorem mem_due (member : entry ∈ due now slot) :
    ∃ info, slot = some info ∧ SentPacketInfo.verdict now info = .retransmit ∧
      entry = (info.packet,info.recipient) := by
  cases slot with
  | none => cases member
  | some info =>
    by_cases late : SentPacketInfo.verdict now info = .retransmit
    · rw [due,if_pos late] at member
      exact ⟨info,rfl,late,List.mem_singleton.mp member⟩
    · rw [due,if_neg late] at member
      cases member

theorem retransmitsOnly_of_holds (s : LumenProtocol) (seq : UInt8) (packet : LumenPacket)
    (target : Endpoint) (valid : Tracking s) (holds : Holds s seq packet target) :
    RetransmitsOnly s seq packet target where
  onNak := fun entry found => by
    simp only [processNak] at found
    split at found
    · cases found
    · obtain ⟨info,present,rfl⟩ := Option.map_eq_some_iff.mp found
      obtain ⟨rfl,rfl⟩ := holds info present
      rfl
  onCheck := fun entry member numbered => by
    cases mode : s.mode with
    | baseStation =>
      rw [handleRetransmissionTimer_baseStation _ _ (by rw [valid.managerRole,mode]; rfl)] at member
      cases member
    | rover =>
      obtain ⟨key,queued⟩ := (mem_handleRetransmissionTimer _ _ valid.managerRunning
        (by rw [valid.managerRole,mode]; rfl) entry).mp member
      obtain ⟨info,present,_,rfl⟩ := mem_due queued
      have own : key = seq := (valid.keyed key info present).1.symm.trans numbered
      obtain ⟨rfl,rfl⟩ := holds info (own ▸ present)
      rfl
  overdue := fun rover info present late => by
    refine (mem_handleRetransmissionTimer _ _ valid.managerRunning
      (by rw [valid.managerRole,rover]; rfl) _).mpr ⟨seq,?_⟩
    obtain ⟨rfl,rfl⟩ := holds info present
    change s.reliabilityManager.sentPackets seq = some info at present
    rw [present,due,if_pos late]
    exact List.mem_singleton_self _

/-- The table holds the packet just sent, and until the number is used again nothing else is
retransmitted under it (at the base station a NAK is answered with it until a reset), exactly
when the slot was available. -/
theorem sent_table_holds_latest_iff (codec : Codec) (s : LumenProtocol) (payload : List UInt8)
    (type : MessageType) (priority : Priority) (recipient target : Endpoint)
    (reachable : Reachable codec s) (data : type ≠ .ack ∧ type ≠ .nak)
    (reaches : s.targetEndpoint recipient = some target) :
    let seq := s.currentSequence
    let packet := s.nextPacket payload type priority
    let t := s.sendMessage payload type priority recipient
    (HoldsLatest t seq packet target ∧
      ∀ inputs, Machine.Guarded (step codec) (NotReused seq) t inputs →
        RetransmitsOnly (Machine.run (step codec) t inputs) seq packet target ∧
        (t.mode = .baseStation → (∀ input ∈ inputs, input ≠ .resetSequenceNumber) →
          (Machine.run (step codec) t inputs).reliabilityManager.processNak seq =
            some (packet,target))) ↔
      SlotAvailable s packet target := by
  intro seq packet t
  have valid := reachable.tracking
  have after : Tracking t := sendMessage_tracking s payload type priority recipient valid
  have now := holdsLatest_iff s payload type priority recipient target valid data reaches
  refine ⟨fun ⟨latest,_⟩ => now.mp latest,fun available => ⟨now.mpr available,?_⟩⟩
  obtain ⟨info,present,rightPacket,rightRecipient,_⟩ := now.mpr available
  have holds : Holds t seq packet target := by
    intro other found
    have same : info = other := Option.some.inj (present.symm.trans found)
    rw [← same]
    exact ⟨rightPacket,rightRecipient⟩
  intro inputs apart
  obtain ⟨later,stillHolds⟩ := run_holds codec t inputs seq packet target after holds apart
  refine ⟨retransmitsOnly_of_holds _ seq packet target later stillHolds,fun base notReset => ?_⟩
  have kept := run_kept codec t inputs seq info after base notReset present
  have mode := (run_mode codec t inputs after).trans base
  simp only [processNak]
  rw [if_neg (by rw [later.managerRole,mode,later.managerRunning]; decide)]
  change (tracked _ seq).map _ = _
  rw [kept,Option.map_some,rightPacket,rightRecipient]

def freshBase : LumenProtocol := started .baseStation .unspecified ⟨0,0⟩

/-- The first message of a base station finds its slot free. -/
theorem freshBase_holds_first :
    HoldsLatest (freshBase.sendMessage [7] .data .low sampleRover) 0
      (freshBase.nextPacket [7] .data .low) sampleRover :=
  ((sent_table_holds_latest_iff .silent freshBase [7] .data .low sampleRover sampleRover
    ⟨.baseStation,.unspecified,⟨0,0⟩,[],rfl⟩ (by decide) rfl).mpr
      (fun _ present => by cases present)).1

theorem sendMessage_currentSequence (s : LumenProtocol) (payload : List UInt8)
    (type : MessageType) (priority : Priority) (recipient : Endpoint) (running : s.running = true) :
    (s.sendMessage payload type priority recipient).currentSequence = s.currentSequence + 1 := by
  have sent (s : LumenProtocol) (packet : LumenPacket) (target : Endpoint) :
      (s.sendPacket packet target).currentSequence = s.currentSequence := by
    simp only [sendPacket]
    split <;> split <;> rfl
  rw [sendMessage_running _ _ _ _ _ running]
  split
  · rfl
  · rw [sent]; split <;> rfl

theorem run_sends_currentSequence (codec : Codec) (s : LumenProtocol) (payload : List UInt8)
    (type : MessageType) (priority : Priority) (recipient : Endpoint) (count : Nat)
    (running : s.running = true) :
    (Machine.run (step codec) s (List.replicate count
      (.sendMessage payload type priority recipient))).currentSequence =
        s.currentSequence + UInt8.ofNat count := by
  induction count generalizing s with
  | zero => simp
  | succ count ih =>
    rw [List.replicate_succ,Machine.run_cons,ih]
    · rw [step,sendMessage_currentSequence s _ _ _ _ running]
      simp [UInt8.ofNat_add,UInt8.add_assoc,UInt8.add_comm]
    · exact (sendMessage_undisturbed s payload type priority recipient).running.trans running

/-- A base station that has sent one full round of empty messages. -/
def wrappedBase : LumenProtocol :=
  Machine.run (step .silent) freshBase (.sendMessage [] .data .low sampleRover ::
    List.replicate 255 (.sendMessage [] .data .low sampleRover))

theorem wrappedBase_slot :
    wrappedBase.currentSequence = 0 ∧
      wrappedBase.tracked 0 = some ⟨freshBase.nextPacket [] .data .low,0,0,sampleRover⟩ := by
  have fresh : Tracking freshBase := started_tracking _ _ _
  constructor
  · rw [wrappedBase,Machine.run_cons,run_sends_currentSequence _ _ _ _ _ _ _ rfl]
    rfl
  · rw [wrappedBase,Machine.run_cons]
    refine run_kept _ _ _ _ _ (step_tracking _ _ _ fresh) rfl ?_ rfl
    intro input member
    rw [List.eq_of_mem_replicate member]
    exact nofun

/-- The 257th message of the base station does not enter the table: a NAK for its number
brings back the first one. -/
theorem wrappedBase_keeps_first :
    Reachable .silent wrappedBase ∧
    wrappedBase.targetEndpoint sampleRover = some sampleRover ∧
    ¬ HoldsLatest (wrappedBase.sendMessage [7] .data .low sampleRover) wrappedBase.currentSequence
      (wrappedBase.nextPacket [7] .data .low) sampleRover ∧
    (wrappedBase.sendMessage [7] .data .low sampleRover).tracked wrappedBase.currentSequence =
      some ⟨freshBase.nextPacket [] .data .low,0,0,sampleRover⟩ := by
  have reachable : Reachable .silent wrappedBase :=
    ⟨.baseStation,.unspecified,⟨0,0⟩,.sendMessage [] .data .low sampleRover ::
      List.replicate 255 (.sendMessage [] .data .low sampleRover),rfl⟩
  obtain ⟨number,slot⟩ := wrappedBase_slot
  have mode : wrappedBase.mode = .baseStation :=
    run_mode .silent freshBase _ (started_tracking _ _ _)
  have reaches : wrappedBase.targetEndpoint sampleRover = some sampleRover := by
    simp only [targetEndpoint]
    rw [mode]
    rfl
  refine ⟨reachable,reaches,fun latest => ?_,?_⟩
  · have available := (holdsLatest_iff wrappedBase [7] .data .low sampleRover sampleRover
      reachable.tracking (by decide) reaches).mp latest
    have same := (available _ (by rw [number]; exact slot)).1
    have payloads : ([] : List UInt8) = [7] := congrArg LumenPacket.payload same
    cases payloads
  · rw [sendMessage_tracked wrappedBase [7] .data .low sampleRover sampleRover reachable.tracking
      (by decide) reaches,Function.update_self,number,slot]
    rfl

end Lumen.LumenProtocol
