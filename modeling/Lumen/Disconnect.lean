import Lumen.NakRate
import Lumen.StoreForward

/-! How the rover notices that its base station is gone. The retransmission check of the manager
reports the packets it gives up for recipients that it takes for the base station, and the rover
compares a reported recipient with the endpoint it registered. The two tests are made in two
layers, with a posted handler between them. -/
namespace Lumen.ReliabilityManager

open Endpoint

/-- What no operation on the tables changes. -/
structure SameDuty (rm rm' : ReliabilityManager) : Prop where
  role : rm'.role = rm.role
  timeoutCallback : rm'.timeoutCallback = rm.timeoutCallback

namespace SameDuty

theorem refl (rm : ReliabilityManager) : SameDuty rm rm := ⟨rfl,rfl⟩

theorem trans (first : SameDuty rm rm') (second : SameDuty rm' rm'') : SameDuty rm rm'' :=
  ⟨second.role.trans first.role,second.timeoutCallback.trans first.timeoutCallback⟩

end SameDuty

theorem recordReceivedSequence_duty (rm : ReliabilityManager) (now : Nat) (seq : UInt8)
    (sender : Endpoint) : SameDuty rm (rm.recordReceivedSequence now seq sender) := by
  simp only [recordReceivedSequence]
  split <;> exact ⟨rfl,rfl⟩

theorem processAck_duty (rm : ReliabilityManager) (seq : UInt8) :
    SameDuty rm (rm.processAck seq) := by
  simp only [processAck]
  split <;> exact ⟨rfl,rfl⟩

theorem handleRetransmissionTimer_duty (rm : ReliabilityManager) (now : Nat) :
    SameDuty rm (rm.handleRetransmissionTimer now).1 := by
  simp only [handleRetransmissionTimer]
  split
  · exact .refl rm
  · split <;> exact ⟨rfl,rfl⟩

theorem handleCleanupTimer_duty (rm : ReliabilityManager) (now : Nat) :
    SameDuty rm (rm.handleCleanupTimer now) := by
  simp only [handleCleanupTimer]
  split
  · exact .refl rm
  · cases rm; exact ⟨rfl,rfl⟩

/-! ### Reports -/

/-- A check of a running rover reports a recipient exactly when it gives up a packet for it and
takes it for the base station by its port. -/
theorem mem_reported (rm : ReliabilityManager) (now : Nat) (running : rm.running = true)
    (rover : rm.role = .rover) (watched : rm.timeoutCallback = true) (recipient : Endpoint) :
    recipient ∈ (rm.handleRetransmissionTimer now).2.2 ↔
      recipient.port = 9000 ∧ ∃ seq info, rm.sentPackets seq = some info ∧
        info.recipient = recipient ∧ SentPacketInfo.verdict now info = .abandon := by
  have loop := (foldl_checkEntry now rm.timeoutCallback sequences nodup_sequences
    ⟨rm.sentPackets,[],[]⟩).2.2
  rw [watched] at loop
  simp only [handleRetransmissionTimer,getPacketsToRetransmit,running,rover,Bool.not_true,
    Bool.false_eq_true,if_false,watched,loop,List.nil_append,List.mem_flatMap]
  constructor
  · rintro ⟨seq,_,member⟩
    cases present : rm.sentPackets seq with
    | none =>
      rw [present] at member
      cases member
    | some info =>
      simp only [present,reports] at member
      split at member
      · next given =>
        obtain rfl := List.mem_singleton.mp member
        exact ⟨given.2.1,seq,info,present,rfl,given.1⟩
      · cases member
  · rintro ⟨port,seq,info,present,rfl,given⟩
    refine ⟨seq,mem_sequences seq,?_⟩
    rw [present,reports,if_pos ⟨given,port,rfl⟩]
    exact List.mem_singleton_self _

end Lumen.ReliabilityManager

namespace Lumen.LumenProtocol

open ReliabilityManager Endpoint

/-- A rover's node whose manager reports to it. -/
structure Watching (s : LumenProtocol) : Prop where
  mode : s.mode = .rover
  role : s.reliabilityManager.role = .rover
  timeoutCallback : s.reliabilityManager.timeoutCallback = true

theorem Watching.next (watching : Watching s) (mode : t.mode = s.mode)
    (duty : SameDuty s.reliabilityManager t.reliabilityManager) : Watching t :=
  ⟨mode.trans watching.mode,duty.role.trans watching.role,
    duty.timeoutCallback.trans watching.timeoutCallback⟩

theorem sendMessage_watching (s : LumenProtocol) (payload : List UInt8) (type : MessageType)
    (priority : Priority) (recipient : Endpoint) (watching : Watching s) :
    Watching (s.sendMessage payload type priority recipient) := by
  obtain ⟨table,same⟩ := sendMessage_manager s payload type priority recipient
  refine watching.next (sendMessage_undisturbed s payload type priority recipient).mode ?_
  rw [same]
  exact ⟨rfl,rfl⟩

theorem giveAll_watching (s : LumenProtocol) (calls : List Call) (watching : Watching s) :
    Watching (s.giveAll calls) := by
  induction calls generalizing s with
  | nil => exact watching
  | cons call rest ih => exact ih _ (sendMessage_watching s _ _ _ _ watching)

theorem nakLoop_duty (endpoint : Endpoint) (missing : List UInt8) (budget : Nat)
    (s : LumenProtocol) :
    SameDuty s.reliabilityManager (nakLoop endpoint budget missing s).reliabilityManager := by
  induction missing generalizing budget s with
  | nil => unfold nakLoop; exact .refl _
  | cons number rest ih =>
    cases budget with
    | zero => exact .refl _
    | succ budget =>
      rw [nakLoop]
      split
      · exact ih _ s
      · refine .trans ?_ (ih _ _)
        simp only [recordNakSent,sendNak_manager]
        exact ⟨rfl,rfl⟩

theorem processCompletePacket_watching (s : LumenProtocol) (packet : LumenPacket)
    (endpoint : Endpoint) (watching : Watching s) :
    Watching (s.processCompletePacket packet endpoint) := by
  refine watching.next (processCompletePacket_undisturbed s packet endpoint).mode ?_
  have mode : (s.emit (.processing packet endpoint)).mode = .rover := watching.mode
  have arrival := s.reliabilityManager.recordReceivedSequence_duty s.clock.steady
    packet.header.sequence endpoint
  by_cases payload : CarriesPayload packet
  · have looked := nakLoop_duty endpoint (s.gaps packet endpoint) maxNaksPerCheck
      (s.counted packet endpoint)
    rw [processCompletePacket_looks s packet endpoint watching.mode payload]
    split <;> exact arrival.trans looked
  · simp only [processCompletePacket]
    split
    · simp only [mode]
      cases packet.payload with
      | nil => exact arrival
      | cons seq rest => exact arrival.trans (processAck_duty ..)
    · next other =>
      split
      · simp only [mode]
        exact arrival
      · next carries => exact absurd ⟨other,carries⟩ payload

theorem handleUdpData_watching (codec : Codec) (s : LumenProtocol) (data : List UInt8)
    (endpoint : Endpoint) (watching : Watching s) :
    Watching (handleUdpData codec s data endpoint) := by
  refine handleUdpData_keeps codec Watching endpoint ?_ ?_ ?_ s data watching
  · exact fun t key bytes before => before.next rfl (.refl _)
  · exact fun t packet before => processCompletePacket_watching t packet endpoint before
  · intro t payload before
    simp only [passUp]
    split <;> exact before.next rfl (.refl _)

theorem step_watching (codec : Codec) (s : LumenProtocol) (input : Input)
    (external : input.isExternal = true) (watching : Watching s) : Watching (s.step codec input) := by
  cases input with
  | datagram data endpoint => exact handleUdpData_watching codec s data endpoint watching
  | retransmissionTimer =>
    refine watching.next (handleRetransmissionTimer_undisturbed s).mode ?_
    simp only [step]
    rw [handleRetransmissionTimer_manager]
    exact handleRetransmissionTimer_duty ..
  | cleanupTimer => exact watching.next rfl (handleCleanupTimer_duty ..)
  | tick nanos => exact watching.next rfl (.refl _)
  | sendMessage | resetSequenceNumber | setSessionActive => cases external

/-- A packet for the recipient that a check made now gives up. -/
def Overdue (s : LumenProtocol) (recipient : Endpoint) : Prop :=
  s.reliabilityManager.running = true ∧ ∃ seq info, s.tracked seq = some info ∧
    info.recipient = recipient ∧ SentPacketInfo.verdict s.clock.steady info = .abandon

end Lumen.LumenProtocol

namespace Lumen.Rover

open Endpoint LumenProtocol ReliabilityManager

variable (codec : Codec)

/-- The reports of a check are posted in their order, and nothing else is. -/
theorem retransmissionCheck_posted (s : Rover) :
    (s.step codec retransmissionCheck).posted = s.posted ++
      (s.manager.protocol.reliabilityManager.handleRetransmissionTimer
        s.manager.protocol.clock.steady).2.2.map .packetTimeout := by
  simp only [step,retransmissionCheck,onProtocol,LumenProtocol.step]
  rw [handleRetransmissionTimer_log,List.drop_left,List.filterMap_append,List.filterMap_map]
  have silent (packets : List (LumenPacket × Endpoint)) (report : Effect → Option Posted)
      (none_ : ∀ packet recipient, report (.transmit packet recipient) = none) :
      (packets.flatMap fun entry => s.manager.protocol.sent entry.1 entry.2).filterMap report =
        [] := by
    refine List.filterMap_eq_nil_iff.mpr fun effect member => ?_
    obtain ⟨entry,_,sends⟩ := List.mem_flatMap.mp member
    rw [(mem_sent.mp sends).2]
    exact none_ _ _
  rw [silent _ _ (fun _ _ => rfl),List.append_nil]
  exact congrArg (s.posted ++ ·) (congrFun (@List.filterMap_eq_map _ _ Posted.packetTimeout) _)

/-- The check gives up a packet for the recipient. -/
def GivesUp (s : Rover) (input : Input) (recipient : Endpoint) : Prop :=
  input = retransmissionCheck ∧ ∃ seq info, s.manager.protocol.tracked seq = some info ∧
    info.recipient = recipient ∧ (s.step codec input).manager.protocol.tracked seq = none

theorem givesUp_iff (s : Rover) (recipient : Endpoint) (watching : Watching s.manager.protocol) :
    GivesUp codec s retransmissionCheck recipient ↔ s.manager.protocol.Overdue recipient := by
  have after (seq : UInt8) : (s.step codec retransmissionCheck).manager.protocol.tracked seq =
      (s.manager.protocol.reliabilityManager.handleRetransmissionTimer
        s.manager.protocol.clock.steady).1.sentPackets seq := by
    change s.manager.protocol.handleRetransmissionTimer.tracked seq = _
    rw [tracked,handleRetransmissionTimer_manager]
  constructor
  · rintro ⟨_,seq,info,present,same,gone⟩
    rw [after] at gone
    by_cases running : s.manager.protocol.reliabilityManager.running = true
    · refine ⟨running,seq,info,present,same,?_⟩
      rw [handleRetransmissionTimer_table _ _ _ running watching.role] at gone
      change (s.manager.protocol.tracked seq).bind _ = none at gone
      rw [present,Option.bind_some,aged] at gone
      cases verdict : SentPacketInfo.verdict s.manager.protocol.clock.steady info with
      | abandon => rfl
      | keep | retransmit => simp [verdict] at gone
    · simp only [ReliabilityManager.handleRetransmissionTimer,running,Bool.not_false,if_true] at gone
      cases gone.symm.trans present
  · rintro ⟨running,seq,info,present,same,verdict⟩
    refine ⟨rfl,seq,info,present,same,?_⟩
    rw [after,handleRetransmissionTimer_table _ _ _ running watching.role]
    change (s.manager.protocol.tracked seq).bind _ = none
    rw [present,Option.bind_some,aged,verdict]

/-- A notification ends an active session with its recipient, and nothing else. -/
theorem handlePacketTimeout_sessionState (s : Rover) (recipient : Endpoint) :
    (s.handlePacketTimeout recipient).sessionState =
      if s.sessionState = .active ∧ s.getBaseEndpoint = some recipient then .disconnected
      else s.sessionState := by
  simp only [handlePacketTimeout]
  split
  · next ends =>
    rw [handleBaseDisconnect,if_neg (not_not.mpr ends.1)]
    rfl
  · rfl

/-- Disconnect detection in one step: a check that gives up a packet for the registered base
station posts a notification and leaves the session alone; a notification that is handled ends
an active session with the base station and nothing else. -/
structure FollowsBase (s : Rover) (input : Input) : Prop where
  notified : ∀ base, s.getBaseEndpoint = some base → GivesUp codec s input base →
    .packetTimeout base ∈ (s.step codec input).posted.drop s.posted.length
  checked : input = retransmissionCheck → (s.step codec input).sessionState = s.sessionState
  handled : ∀ position recipient, input = .runPosted position →
    s.posted[position]? = some (.packetTimeout recipient) →
    (s.step codec input).sessionState =
      if s.sessionState = .active ∧ s.getBaseEndpoint = some recipient then .disconnected
      else s.sessionState

/-- A check that finds an overdue packet for the base station knows it by its port. -/
def Recognised (s : Rover) (input : Input) : Prop :=
  input = retransmissionCheck → ∀ base, s.getBaseEndpoint = some base →
    s.manager.protocol.Overdue base → base.port = 9000

theorem followsBase_iff (s : Rover) (input : Input) (watching : Watching s.manager.protocol) :
    FollowsBase codec s input ↔ Recognised s input := by
  have posted : (s.step codec retransmissionCheck).posted.drop s.posted.length =
      (s.manager.protocol.reliabilityManager.handleRetransmissionTimer
        s.manager.protocol.clock.steady).2.2.map .packetTimeout := by
    rw [retransmissionCheck_posted,List.drop_left]
  constructor
  · rintro follows rfl base registered overdue
    have report := follows.notified base registered ((givesUp_iff codec s base watching).mpr overdue)
    rw [posted,List.mem_map] at report
    obtain ⟨recipient,member,same⟩ := report
    cases same
    exact ((mem_reported _ _ overdue.1 watching.role watching.timeoutCallback base).mp member).1
  · intro recognised
    refine ⟨?_,?_,?_⟩
    · intro base registered given
      obtain rfl := given.1
      have overdue := (givesUp_iff codec s base watching).mp given
      rw [posted]
      refine List.mem_map_of_mem ((mem_reported _ _ overdue.1 watching.role
        watching.timeoutCallback base).mpr ⟨recognised rfl base registered overdue,overdue.2⟩)
    · rintro rfl
      rfl
    · rintro position recipient rfl queued
      simp only [step,runPosted,queued,runHandler]
      exact handlePacketTimeout_sessionState { s with posted := s.posted.eraseIdx position } recipient

/-! ### Runs -/

theorem step_watchingBase (s : Rover) (input : Input) (watching : Watching s.manager.protocol) :
    Watching (s.step codec input).manager.protocol := by
  cases step_moves codec s input with
  | hands calls few hands =>
    rw [hands.protocol]
    exact giveAll_watching _ calls watching
  | stores message base offers registered lost same =>
    rw [same.manager]
    exact watching
  | forwards base registered announced apart active emptied given =>
    rw [given]
    exact giveAll_watching _ _ watching
  | below event external same stored sessionState protocol =>
    rw [protocol]
    exact step_watching codec _ event external watching
  | resets position same queued stored sessionState protocol =>
    rw [protocol]
    exact watching.next rfl ⟨rfl,rfl⟩
  | stops same after =>
    rw [after]
    simp only [stop,LumenProtocol.stop]
    split
    · exact watching
    · exact watching.next rfl ⟨rfl,rfl⟩

theorem started_watching (roverId : String) (base : Endpoint) (clock : Clock) :
    Watching (started codec roverId base clock).manager.protocol := by
  have launch : Watching (new roverId base clock).launched.manager.protocol :=
    ⟨rfl,((ReliabilityManager.new .rover).start_setup clock.steady).2,rfl⟩
  obtain ⟨calls,_,_,hands⟩ := sendCommand_hands codec
    (((new roverId base clock).launched.enter .handshakeInit).setHandshakeRetryCount 0)
    "SESSION_INIT" roverId
  have given : (started codec roverId base clock).manager.protocol = _ := hands.protocol
  rw [given]
  exact giveAll_watching _ calls launch

/-- Over every run, disconnects are noticed as they should be exactly when every check that finds
an overdue packet for the registered base station finds it at port 9000. -/
theorem disconnects_noticed_iff (roverId : String) (base : Endpoint) (clock : Clock)
    (inputs : List Input) :
    Machine.Guarded (step codec) (FollowsBase codec) (started codec roverId base clock) inputs ↔
      Machine.Guarded (step codec) Recognised (started codec roverId base clock) inputs :=
  Machine.guarded_congr (step codec) (step_watchingBase codec) (followsBase_iff codec) _ inputs
    (started_watching codec roverId base clock)

/-- The base station of another port. -/
def otherPort : Endpoint := ⟨0x0aed0001,9001⟩

def fromOtherPort (command : String) : Input :=
  .route ⟨"base",0,.command command "base"⟩ otherPort

/-- A session is established; then no ACK arrives until the retries are used up. -/
def silentOtherPort : List Input :=
  [fromOtherPort "SESSION_ACCEPT",fromOtherPort "SESSION_ESTABLISHED",seconds 6,retransmissionCheck,
    seconds 11,retransmissionCheck,seconds 21]

/-- The check gives up a packet for the registered base station, in a session, and does not
notify anyone. -/
theorem otherPort_unnoticed :
    let s := Machine.run (step .silent) (started .silent "rover-a" otherPort ⟨0,0⟩) silentOtherPort
    s.sessionState = .active ∧ s.getBaseEndpoint = some otherPort ∧
      ¬ FollowsBase .silent s retransmissionCheck := by
  intro s
  refine ⟨by decide +kernel,by decide +kernel,fun follows => ?_⟩
  have given : GivesUp .silent s retransmissionCheck otherPort := by
    have present : ((s.manager.protocol.tracked 0).map (·.recipient)) = some otherPort := by
      decide +kernel
    obtain ⟨info,tracked,recipient⟩ := Option.map_eq_some_iff.mp present
    exact ⟨rfl,0,info,tracked,recipient,by decide +kernel⟩
  have notified := follows.notified otherPort (by decide +kernel) given
  have nothing : (s.step .silent retransmissionCheck).posted.length = s.posted.length := by
    decide +kernel
  rw [List.drop_eq_nil_of_le (Nat.le_of_eq nothing)] at notified
  cases notified

end Lumen.Rover
