import Lumen.SentTable

/-! The life of a tracked packet, over every order of insertions, acknowledgements, resets and
checks of a rover's manager. A log of what happens to the entries is read back into lives: what
was inserted, for whom, and when it was transmitted. Every happening has to be allowed by the
lives before it, which is where the waiting times and the number of attempts are stated. -/
namespace Lumen.ReliabilityManager

open Endpoint

/-- The manager and the steady clock, in nanoseconds. -/
structure Timed where
  manager : ReliabilityManager
  now : Nat

inductive Request where
  | wait (nanos : Nat)
  | addSendPacket (seq : UInt8) (packet : LumenPacket) (recipient : Endpoint)
  | processAck (seq : UInt8)
  | resetState
  | retransmissionTimer

def serve (s : Timed) : Request → Timed
  | .wait nanos => { s with now := s.now + nanos }
  | .addSendPacket seq packet recipient =>
    { s with manager := s.manager.addSendPacket s.now seq packet recipient }
  | .processAck seq => { s with manager := s.manager.processAck seq }
  | .resetState => { s with manager := s.manager.resetState }
  | .retransmissionTimer =>
    { s with manager := (s.manager.handleRetransmissionTimer s.now).1 }

/-- What the retransmit callback gets. -/
def emitted (s : Timed) : Request → List (LumenPacket × Endpoint)
  | .retransmissionTimer => (s.manager.handleRetransmissionTimer s.now).2.1
  | _ => []

/-- A rover's manager once it is started. -/
def startedRover (now : Nat) (timeoutCallback : Bool) : Timed :=
  ⟨{ (new .rover).start now with timeoutCallback },now⟩

/-! ### The log -/

inductive Happening where
  | inserted (seq : UInt8) (packet : LumenPacket) (recipient : Endpoint) (time : Nat)
  | retransmitted (seq : UInt8) (packet : LumenPacket) (recipient : Endpoint) (time : Nat)
  | acknowledged (seq : UInt8)
  | abandoned (seq : UInt8) (time : Nat)
  | reset
  deriving DecidableEq, Repr

/-- What the check does to the entry under a number. -/
def checked (now : Nat) (table : UInt8 → Option SentPacketInfo) (seq : UInt8) : List Happening :=
  (table seq).elim [] fun info =>
    match SentPacketInfo.verdict now info with
    | .keep => []
    | .retransmit => [.retransmitted seq info.packet info.recipient now]
    | .abandon => [.abandoned seq now]

def happenings (s : Timed) : Request → List Happening
  | .wait _ => []
  | .addSendPacket seq packet recipient =>
    if (s.manager.sentPackets seq).isNone then [.inserted seq packet recipient s.now] else []
  | .processAck seq => [.acknowledged seq]
  | .resetState => [.reset]
  | .retransmissionTimer => sequences.flatMap (checked s.now s.manager.sentPackets)

def Happening.retransmission : Happening → Option (LumenPacket × Endpoint)
  | .retransmitted _ packet recipient _ => some (packet,recipient)
  | _ => none

/-! ### Lives -/

/-- A packet between its insertion and its removal; the times of its transmissions, the latest
first. -/
structure Life where
  packet : LumenPacket
  recipient : Endpoint
  latest : Nat
  earlier : List Nat
  deriving DecidableEq, Repr

/-- How often it was retransmitted. -/
def Life.retransmissions (life : Life) : Nat := life.earlier.length

def Life.again (life : Life) (time : Nat) : Life :=
  { life with latest := time, earlier := life.latest :: life.earlier }

def record (lives : UInt8 → Option Life) : Happening → UInt8 → Option Life
  | .inserted seq packet recipient time =>
    Function.update lives seq (some ⟨packet,recipient,time,[]⟩)
  | .retransmitted seq _ _ time => Function.update lives seq ((lives seq).map (·.again time))
  | .acknowledged seq => Function.update lives seq none
  | .abandoned seq _ => Function.update lives seq none
  | .reset => fun _ => none

/-- More than the backoff of the attempt has passed since the last transmission. -/
def Life.Waited (life : Life) (time : Nat) : Prop :=
  life.latest + reliabilityBaseTimeout * 2 ^ life.retransmissions * nanosPerMilli < time

/-- Only a live packet is retransmitted, unchanged, to its recipient, while attempts are left and
after the backoff; it is abandoned after the last attempt and one more backoff. -/
def Allowed (lives : UInt8 → Option Life) : Happening → Prop
  | .retransmitted seq packet recipient time => ∃ life, lives seq = some life ∧
      packet = life.packet ∧ recipient = life.recipient ∧
      life.retransmissions < reliabilityMaxRetries ∧ life.Waited time
  | .abandoned seq time => ∃ life, lives seq = some life ∧
      life.retransmissions = reliabilityMaxRetries ∧ life.Waited time
  | .inserted _ _ _ _ | .acknowledged _ | .reset => True

/-- Every happening of the log is allowed by the lives before it. -/
def Lawful (lives : UInt8 → Option Life) : List Happening → Prop
  | [] => True
  | happening :: rest => Allowed lives happening ∧ Lawful (record lives happening) rest

/-- The lives after a log. -/
def livesAfter (log : List Happening) : UInt8 → Option Life := log.foldl record fun _ => none

theorem lawful_append (lives : UInt8 → Option Life) (first second : List Happening) :
    Lawful lives (first ++ second) ↔
      Lawful lives first ∧ Lawful (first.foldl record lives) second := by
  induction first generalizing lives with
  | nil => simp [Lawful]
  | cons happening rest ih => simp only [List.cons_append,Lawful,ih,List.foldl_cons,and_assoc]

/-- The entry of the table that belongs to a life. -/
structure Life.Holds (life : Life) (info : SentPacketInfo) : Prop where
  packet : info.packet = life.packet
  recipient : info.recipient = life.recipient
  sentTime : info.sentTime = life.latest
  retryCount : info.retryCount = life.retransmissions
  bounded : life.retransmissions ≤ reliabilityMaxRetries

/-- The same number is alive in the log and tracked in the table. -/
def Accounts : Option Life → Option SentPacketInfo → Prop
  | none,none => True
  | some life,some info => life.Holds info
  | _,_ => False

theorem Accounts.alive (accounts : Accounts entry (some info)) :
    ∃ life, entry = some life ∧ life.Holds info := by
  cases entry with
  | none => exact accounts.elim
  | some life => exact ⟨life,rfl,accounts⟩

theorem Accounts.dead (accounts : Accounts entry none) : entry = none := by
  cases entry with
  | none => rfl
  | some life => exact accounts.elim

/-! ### One check -/

/-- Whole milliseconds in excess are nanoseconds in excess. -/
theorem elapsed_gt {now since millis : Nat} (late : elapsed now since > millis) :
    since + millis * nanosPerMilli < now := by
  have whole : (millis + 1) * nanosPerMilli ≤ now - since :=
    (Nat.le_div_iff_mul_le (by decide)).mp late
  simp only [nanosPerMilli] at whole ⊢
  omega

/-- Whatever the verdict is, a check that acts on an entry is late enough. -/
theorem verdict_waited {life : Life} {info : SentPacketInfo} {now : Nat} (holds : life.Holds info)
    (acts : SentPacketInfo.verdict now info ≠ .keep) : life.Waited now := by
  simp only [SentPacketInfo.verdict] at acts
  split at acts
  · next late =>
    have enough := elapsed_gt late
    rwa [Nat.one_shiftLeft,holds.sentTime,holds.retryCount] at enough
  · exact absurd rfl acts

theorem verdict_retransmit {info : SentPacketInfo} {now : Nat}
    (verdict : SentPacketInfo.verdict now info = .retransmit) :
    info.retryCount < reliabilityMaxRetries := by
  simp only [SentPacketInfo.verdict] at verdict
  split at verdict
  · split at verdict
    · cases verdict
    · next few => exact Nat.lt_of_not_le few
  · cases verdict

theorem verdict_abandon {info : SentPacketInfo} {now : Nat}
    (verdict : SentPacketInfo.verdict now info = .abandon) :
    reliabilityMaxRetries ≤ info.retryCount := by
  simp only [SentPacketInfo.verdict] at verdict
  split at verdict
  · split at verdict
    · next many => exact many
    · cases verdict
  · cases verdict

theorem checked_lawful (now : Nat) (lives : UInt8 → Option Life)
    (table : UInt8 → Option SentPacketInfo) (seq : UInt8)
    (accounts : Accounts (lives seq) (table seq)) :
    Lawful lives (checked now table seq) ∧
    Accounts ((checked now table seq).foldl record lives seq) ((table seq).bind (aged now)) := by
  cases present : table seq with
  | none =>
    rw [present] at accounts
    simp [checked,present,Lawful,accounts.dead,Accounts]
  | some info =>
    rw [present] at accounts
    obtain ⟨life,alive,holds⟩ := accounts.alive
    have waited (acts : SentPacketInfo.verdict now info ≠ .keep) : life.Waited now :=
      verdict_waited holds acts
    simp only [checked,present,Option.elim_some,Option.bind_some,aged]
    cases verdict : SentPacketInfo.verdict now info with
    | keep => simp [Lawful,alive,Accounts,holds]
    | retransmit =>
      have few := verdict_retransmit verdict
      rw [verdict] at waited
      rw [holds.retryCount] at few
      refine ⟨⟨⟨life,alive,holds.packet,holds.recipient,few,waited (by decide)⟩,trivial⟩,?_⟩
      simp only [List.foldl_cons,List.foldl_nil,record,Function.update_self,alive,Option.map_some]
      exact ⟨holds.packet,holds.recipient,rfl,congrArg (· + 1) holds.retryCount,few⟩
    | abandon =>
      have many := verdict_abandon verdict
      rw [verdict] at waited
      rw [holds.retryCount] at many
      refine ⟨⟨⟨life,alive,le_antisymm holds.bounded many,waited (by decide)⟩,trivial⟩,?_⟩
      simp [record,Accounts]

theorem checked_elsewhere (now : Nat) (lives : UInt8 → Option Life)
    (table : UInt8 → Option SentPacketInfo) (seq : UInt8) :
    ∀ other ≠ seq, (checked now table seq).foldl record lives other = lives other := by
  intro other apart
  simp only [checked]
  cases table seq with
  | none => rfl
  | some info =>
    cases verdict : SentPacketInfo.verdict now info <;> simp [record,verdict,apart]

/-- The whole loop: entries are visited once each and do not touch one another. -/
theorem foldl_checked (now : Nat) (table : UInt8 → Option SentPacketInfo) (seqs : List UInt8)
    (once : seqs.Nodup) (lives : UInt8 → Option Life)
    (accounts : ∀ seq ∈ seqs, Accounts (lives seq) (table seq)) :
    Lawful lives (seqs.flatMap (checked now table)) ∧
    ∀ seq, if seq ∈ seqs
      then Accounts ((seqs.flatMap (checked now table)).foldl record lives seq)
        ((table seq).bind (aged now))
      else (seqs.flatMap (checked now table)).foldl record lives seq = lives seq := by
  induction seqs generalizing lives with
  | nil => simp [Lawful]
  | cons first rest ih =>
    obtain ⟨apart,once⟩ := List.nodup_cons.mp once
    obtain ⟨lawful,aging⟩ := checked_lawful now lives table first
      (accounts first List.mem_cons_self)
    have elsewhere := checked_elsewhere now lives table first
    have later : ∀ seq ∈ rest,
        Accounts ((checked now table first).foldl record lives seq) (table seq) := by
      intro seq member
      rw [elsewhere seq (fun same => apart (same ▸ member))]
      exact accounts seq (List.mem_cons_of_mem _ member)
    obtain ⟨lawfully,after⟩ := ih once _ later
    rw [List.flatMap_cons,lawful_append,List.foldl_append]
    refine ⟨⟨lawful,lawfully⟩,fun seq => ?_⟩
    have then_ := after seq
    by_cases member : seq ∈ rest
    · rw [if_pos member] at then_
      rwa [if_pos (List.mem_cons_of_mem _ member)]
    · rw [if_neg member] at then_
      by_cases same : seq = first
      · subst same
        rw [if_pos List.mem_cons_self,then_]
        exact aging
      · rw [if_neg (by simp [same,member]),then_,elsewhere seq same]

theorem checked_retransmissions (now : Nat) (table : UInt8 → Option SentPacketInfo)
    (seq : UInt8) :
    (checked now table seq).filterMap Happening.retransmission = due now (table seq) := by
  simp only [checked]
  cases table seq with
  | none => rfl
  | some info =>
    simp only [Option.elim_some,due]
    cases verdict : SentPacketInfo.verdict now info <;> simp [Happening.retransmission]

/-- The packets queued by the check are the retransmissions in its log. -/
theorem handleRetransmissionTimer_packets (rm : ReliabilityManager) (now : Nat)
    (running : rm.running = true) (rover : rm.role = .rover) :
    (rm.handleRetransmissionTimer now).2.1 =
      (sequences.flatMap (checked now rm.sentPackets)).filterMap Happening.retransmission := by
  have loop := (foldl_checkEntry now rm.timeoutCallback sequences nodup_sequences
    ⟨rm.sentPackets,[],[]⟩).2
  simp only [handleRetransmissionTimer,getPacketsToRetransmit,running,rover,Bool.not_true,
    Bool.false_eq_true,if_false,loop,List.nil_append,List.filterMap_flatMap,
    checked_retransmissions]

/-! ### Runs -/

/-- A running manager of a rover whose table is what the log says. -/
structure Chronicled (log : List Happening) (s : Timed) : Prop where
  running : s.manager.running = true
  rover : s.manager.role = .rover
  lawful : Lawful (fun _ => none) log
  accounts : ∀ seq, Accounts (livesAfter log seq) (s.manager.sentPackets seq)

theorem livesAfter_append (log more : List Happening) :
    livesAfter (log ++ more) = more.foldl record (livesAfter log) := List.foldl_append

theorem insert_chronicled (log : List Happening) (s : Timed) (seq : UInt8) (packet : LumenPacket)
    (recipient : Endpoint) (chronicled : Chronicled log s) :
    Chronicled (log ++ happenings s (.addSendPacket seq packet recipient))
      (serve s (.addSendPacket seq packet recipient)) := by
  have setup := s.manager.addSendPacket_setup s.now seq packet recipient
  refine ⟨setup.1.trans chronicled.running,setup.2.trans chronicled.rover,?_,fun other => ?_⟩
  · rw [lawful_append]
    refine ⟨chronicled.lawful,?_⟩
    simp only [happenings]
    split <;> simp [Lawful,Allowed]
  · have before := chronicled.accounts other
    simp only [livesAfter_append,happenings,serve,addSendPacket,chronicled.running,Bool.not_true,
      Bool.false_eq_true,if_false]
    cases present : s.manager.sentPackets seq with
    | some info => simpa using before
    | none =>
      by_cases same : other = seq
      · subst same
        simp only [Option.isNone_none,if_true,List.foldl_cons,List.foldl_nil,record,
          Function.update_self]
        exact ⟨rfl,rfl,rfl,rfl,Nat.zero_le _⟩
      · simpa [record,same] using before

theorem serve_chronicled (log : List Happening) (s : Timed) (request : Request)
    (chronicled : Chronicled log s) :
    Chronicled (log ++ happenings s request) (serve s request) := by
  cases request with
  | wait nanos =>
    rw [happenings,List.append_nil]
    exact ⟨chronicled.running,chronicled.rover,chronicled.lawful,chronicled.accounts⟩
  | addSendPacket seq packet recipient =>
    exact insert_chronicled log s seq packet recipient chronicled
  | processAck seq =>
    have setup := s.manager.processAck_setup seq
    refine ⟨setup.1.trans chronicled.running,setup.2.trans chronicled.rover,?_,fun other => ?_⟩
    · exact (lawful_append ..).mpr ⟨chronicled.lawful,trivial,trivial⟩
    · have before := chronicled.accounts other
      simp only [livesAfter_append,happenings,serve,processAck,chronicled.running,chronicled.rover,
        List.foldl_cons,List.foldl_nil,record]
      by_cases same : other = seq
      · subst same
        simp [Accounts]
      · simpa [same] using before
  | resetState =>
    refine ⟨chronicled.running,chronicled.rover,?_,fun other => ?_⟩
    · exact (lawful_append ..).mpr ⟨chronicled.lawful,trivial,trivial⟩
    · rw [livesAfter_append]
      exact trivial
  | retransmissionTimer =>
    have setup := s.manager.handleRetransmissionTimer_setup s.now
    obtain ⟨lawful,after⟩ := foldl_checked s.now s.manager.sentPackets sequences nodup_sequences
      (livesAfter log) (fun seq _ => chronicled.accounts seq)
    refine ⟨setup.1.trans chronicled.running,setup.2.trans chronicled.rover,?_,fun seq => ?_⟩
    · exact (lawful_append ..).mpr ⟨chronicled.lawful,lawful⟩
    · have here := after seq
      rw [if_pos (mem_sequences seq)] at here
      rw [livesAfter_append]
      simp only [serve]
      rw [handleRetransmissionTimer_table _ _ _ chronicled.running chronicled.rover]
      exact here

theorem startedRover_chronicled (now : Nat) (timeoutCallback : Bool) :
    Chronicled [] (startedRover now timeoutCallback) := by
  have setup := (new .rover).start_setup now
  refine ⟨setup.1,setup.2,trivial,fun seq => ?_⟩
  have empty : (startedRover now timeoutCallback).manager.sentPackets seq = none := by
    simp only [startedRover]
    exact start_sentPackets (new .rover) now rfl seq
  rw [empty]
  trivial

theorem run_chronicled (now : Nat) (timeoutCallback : Bool) (requests : List Request) :
    Chronicled (Machine.trace serve happenings (startedRover now timeoutCallback) requests)
      (Machine.run serve (startedRover now timeoutCallback) requests) :=
  Machine.run_trace serve happenings _ (startedRover_chronicled now timeoutCallback)
    (fun log s request chronicled _ => serve_chronicled log s request chronicled) requests
    (Machine.guarded_of_forall serve _ requests fun _ _ => trivial)

theorem Chronicled.emitted (chronicled : Chronicled log s) (request : Request) :
    ReliabilityManager.emitted s request =
      (happenings s request).filterMap Happening.retransmission := by
  cases request with
  | retransmissionTimer =>
    exact handleRetransmissionTimer_packets _ _ chronicled.running chronicled.rover
  | addSendPacket seq packet recipient =>
    simp only [ReliabilityManager.emitted,happenings]
    split <;> rfl
  | wait | processAck | resetState => rfl

theorem Chronicled.retryCount (chronicled : Chronicled log s) (seq : UInt8)
    (info : SentPacketInfo) (present : s.manager.sentPackets seq = some info) :
    info.retryCount ≤ reliabilityMaxRetries := by
  have accounts := chronicled.accounts seq
  rw [present] at accounts
  obtain ⟨life,_,holds⟩ := accounts.alive
  rw [holds.retryCount]
  exact holds.bounded

theorem Chronicled.tracked (chronicled : Chronicled log s) (seq : UInt8) :
    (livesAfter log seq).map (fun life => (life.packet,life.recipient)) =
      (s.manager.sentPackets seq).map fun info => (info.packet,info.recipient) := by
  have accounts := chronicled.accounts seq
  cases present : s.manager.sentPackets seq with
  | none =>
    rw [present] at accounts
    rw [accounts.dead]
    rfl
  | some info =>
    rw [present] at accounts
    obtain ⟨life,alive,holds⟩ := accounts.alive
    rw [alive,Option.map_some,Option.map_some,holds.packet,holds.recipient]

/-- Bounded exponential backoff over every run of a rover's manager: whatever happens to an entry
is allowed by its life so far, the packets given to the transport are the logged
retransmissions, the table holds what is alive, and no entry was ever retried too often. -/
theorem retransmissions_back_off (now : Nat) (timeoutCallback : Bool) (requests : List Request) :
    let s := startedRover now timeoutCallback
    let log := Machine.trace serve happenings s requests
    Lawful (fun _ => none) log ∧
    Machine.trace serve emitted s requests = log.filterMap Happening.retransmission ∧
    (∀ seq, (livesAfter log seq).map (fun life => (life.packet,life.recipient)) =
      ((Machine.run serve s requests).manager.sentPackets seq).map
        fun info => (info.packet,info.recipient)) ∧
    Machine.Always serve (fun t => ∀ seq info, t.manager.sentPackets seq = some info →
      info.retryCount ≤ reliabilityMaxRetries) s requests := by
  intro s log
  have chronicled := run_chronicled now timeoutCallback
  refine ⟨(chronicled requests).lawful,?_,(chronicled requests).tracked,
    fun done _ => (chronicled done).retryCount⟩
  simp only [log]
  induction requests using List.reverseRecOn with
  | nil => rfl
  | append_singleton done request ih =>
    rw [Machine.trace_concat,Machine.trace_concat,List.filterMap_append,ih,
      (chronicled done).emitted request]

end Lumen.ReliabilityManager
