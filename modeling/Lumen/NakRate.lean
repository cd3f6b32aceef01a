import Lumen.AckDiscipline

/-! How often a rover asks for a packet. A gap check asks for at most three numbers it has not
asked for recently; the record of the requests outlives the time between two of them, so a number
that is not on record any more may be asked for again. -/
namespace Lumen.LumenProtocol

open ReliabilityManager Endpoint

/-- The number a NAK asks for. -/
def requestIn : Effect → Option UInt8
  | .transmit packet _ => if packet.header.type = .nak then packet.payload.head? else none
  | _ => none

/-- The numbers asked for among some effects. -/
def requestsIn (effects : List Effect) : List UInt8 := effects.filterMap requestIn

theorem requestsIn_append (first second : List Effect) :
    requestsIn (first ++ second) = requestsIn first ++ requestsIn second := List.filterMap_append ..

/-! ### The numbers found missing -/

theorem nodup_getMissingSequences (rm : ReliabilityManager) (sender : Endpoint) :
    (rm.getMissingSequences sender).Nodup := by
  simp only [getMissingSequences]
  split
  · exact List.nodup_nil
  · split
    · exact List.nodup_nil
    · next highest _ =>
      refine List.Nodup.filter _ (List.Nodup.map_on (fun a small b small' same => ?_) List.nodup_range)
      have numbers := congrArg UInt8.toNat same
      simp only [List.mem_range,windowSize] at small small'
      simp only [UInt8.toNat_sub,UInt8.toNat_ofNat'] at numbers
      have bound := highest.toNat_lt
      omega

/-! ### One check -/

/-- What is on record about a number after something else was recorded at `now`. -/
def Refreshed (now : Nat) (before after : UInt8 → Option Nat) : Prop :=
  ∀ number, after number = before number ∨ after number = some now

/-- Of the numbers found missing, those that a check asks for: the first few it has not asked for
recently. -/
def dueRequests (s : LumenProtocol) (budget : Nat) (missing : List UInt8) : List UInt8 :=
  (missing.filter fun number =>
    !s.reliabilityManager.isRecentlyNaked s.clock.steady number).take budget

theorem dueRequests_sublist (s : LumenProtocol) (budget : Nat) (missing : List UInt8) :
    (s.dueRequests budget missing).Sublist missing :=
  (List.take_sublist _ _).trans List.filter_sublist

theorem dueRequests_old {s : LumenProtocol} {budget : Nat} {missing : List UInt8} {number : UInt8}
    (member : number ∈ s.dueRequests budget missing) :
    s.reliabilityManager.isRecentlyNaked s.clock.steady number = false := by
  simpa using (List.mem_filter.mp (List.mem_of_mem_take member)).2

theorem dueRequests_congr {s t : LumenProtocol} {budget : Nat} {missing : List UInt8}
    (clock : t.clock = s.clock) (record : ∀ number ∈ missing,
      t.reliabilityManager.recentNaks number = s.reliabilityManager.recentNaks number) :
    t.dueRequests budget missing = s.dueRequests budget missing := by
  have same : missing.filter (fun number =>
        !t.reliabilityManager.isRecentlyNaked t.clock.steady number) =
      missing.filter fun number =>
        !s.reliabilityManager.isRecentlyNaked s.clock.steady number := by
    refine List.filter_congr fun number member => ?_
    simp only [isRecentlyNaked,clock,record number member]
  rw [dueRequests,same,dueRequests]

/-- The rover after one turn of the loop that asks for a number. -/
def requested (s : LumenProtocol) (number : UInt8) (endpoint : Endpoint) : LumenProtocol :=
  { s.sendNak number endpoint with
    reliabilityManager := (s.sendNak number endpoint).reliabilityManager.recordNakSent
      (s.sendNak number endpoint).clock.steady number }

theorem nakLoop_cons (endpoint : Endpoint) (budget : Nat) (first : UInt8) (rest : List UInt8)
    (s : LumenProtocol) :
    nakLoop endpoint (budget + 1) (first :: rest) s =
      if s.reliabilityManager.isRecentlyNaked s.clock.steady first then
        nakLoop endpoint (budget + 1) rest s
      else nakLoop endpoint budget rest (s.requested first endpoint) := by
  rw [nakLoop]
  rfl

theorem requested_clock (s : LumenProtocol) (number : UInt8) (endpoint : Endpoint) :
    (s.requested number endpoint).clock = s.clock := (sendNak_undisturbed s number endpoint).clock

theorem requested_recentNaks (s : LumenProtocol) (number : UInt8) (endpoint : Endpoint) :
    (s.requested number endpoint).reliabilityManager.recentNaks =
      Function.update s.reliabilityManager.recentNaks number (some s.clock.steady) := by
  simp only [requested,recordNakSent,sendNak_manager,(sendNak_undisturbed s number endpoint).clock]

/-- A turn of the loop leaves the other numbers alone. -/
theorem dueRequests_requested (s : LumenProtocol) (endpoint : Endpoint) (budget : Nat)
    {first : UInt8} {rest : List UInt8} (apart : first ∉ rest) :
    (s.requested first endpoint).dueRequests budget rest = s.dueRequests budget rest := by
  refine dueRequests_congr (requested_clock s first endpoint) fun number member => ?_
  have other : number ≠ first := fun same => apart (same ▸ member)
  rw [requested_recentNaks,Function.update_of_ne other]

theorem dueRequests_cons (s : LumenProtocol) (budget : Nat) (first : UInt8) (rest : List UInt8) :
    s.dueRequests (budget + 1) (first :: rest) =
      if s.reliabilityManager.isRecentlyNaked s.clock.steady first then
        s.dueRequests (budget + 1) rest
      else first :: s.dueRequests budget rest := by
  cases recent : s.reliabilityManager.isRecentlyNaked s.clock.steady first <;>
    simp [dueRequests,recent]

/-- Only a rover that knows its base station sends the NAK. -/
theorem requested_requests (s : LumenProtocol) (number : UInt8) (endpoint : Endpoint)
    (rover : s.mode = .rover) :
    ∃ naks, (s.requested number endpoint).effects = s.effects ++ naks ∧
      requestsIn naks = if s.getBaseEndpoint.isSome then [number] else [] := by
  have known : ¬ s.mode ≠ .rover := not_not.mpr rover
  have same : (s.requested number endpoint).effects = (s.sendNak number endpoint).effects := rfl
  rw [same,sendNak,if_neg known]
  cases registered : s.getBaseEndpoint with
  | none => exact ⟨[],(List.append_nil _).symm,rfl⟩
  | some base =>
    have able : { s with currentSequence := s.currentSequence + 1 }.canSend base = true := by
      simp only [canSend,rover]
      exact decide_eq_true (Or.inl registered)
    exact ⟨_,sendPacket_effects _ _ base,by rw [sent,if_pos able]; rfl⟩

/-- The loop asks for these numbers, in order. -/
theorem nakLoop_requests (endpoint : Endpoint) (missing : List UInt8) (once : missing.Nodup)
    (budget : Nat) (s : LumenProtocol) (rover : s.mode = .rover) :
    ∃ naks, (nakLoop endpoint budget missing s).effects = s.effects ++ naks ∧
      requestsIn naks = if s.getBaseEndpoint.isSome then s.dueRequests budget missing else [] := by
  induction missing generalizing budget s with
  | nil => exact ⟨[],by unfold nakLoop; simp,by simp [dueRequests,requestsIn]⟩
  | cons first rest ih =>
    obtain ⟨apart,once⟩ := List.nodup_cons.mp once
    cases budget with
    | zero => exact ⟨[],by simp [nakLoop],by simp [dueRequests,requestsIn]⟩
    | succ budget =>
      rw [nakLoop_cons,dueRequests_cons]
      split
      · exact ih once (budget + 1) s rover
      · have same := sendNak_undisturbed s first endpoint
        have base : (s.requested first endpoint).getBaseEndpoint = s.getBaseEndpoint := by
          simp only [getBaseEndpoint,requested,same.baseEndpoint]
        obtain ⟨one,added,asks⟩ := requested_requests s first endpoint rover
        obtain ⟨others,grown,later⟩ := ih once budget (s.requested first endpoint)
          (same.mode.trans rover)
        refine ⟨one ++ others,by rw [grown,added,List.append_assoc],?_⟩
        rw [requestsIn_append,asks,later,base,dueRequests_requested s endpoint budget apart]
        split <;> rfl

/-- The loop records what it asks for. -/
theorem nakLoop_recentNaks (endpoint : Endpoint) (missing : List UInt8) (once : missing.Nodup)
    (budget : Nat) (s : LumenProtocol) (number : UInt8) :
    (nakLoop endpoint budget missing s).reliabilityManager.recentNaks number =
      if number ∈ s.dueRequests budget missing then some s.clock.steady
      else s.reliabilityManager.recentNaks number := by
  induction missing generalizing budget s with
  | nil => unfold nakLoop; simp [dueRequests]
  | cons first rest ih =>
    obtain ⟨apart,once⟩ := List.nodup_cons.mp once
    cases budget with
    | zero => simp [nakLoop,dueRequests]
    | succ budget =>
      rw [nakLoop_cons,dueRequests_cons]
      split
      · exact ih once (budget + 1) s
      · rw [ih once budget,dueRequests_requested s endpoint budget apart,requested_clock,
          requested_recentNaks]
        by_cases same : number = first
        · subst same
          simp
        · simp [same]

/-! ### One packet -/

/-- What one arrival makes the rover ask for, and what it leaves on record. -/
structure Asks (s t : LumenProtocol) : Prop where
  few : (requestsIn (newEffects s t)).length ≤ maxNaksPerCheck
  distinct : (requestsIn (newEffects s t)).Nodup
  spaced : ∀ number ∈ requestsIn (newEffects s t),
    s.reliabilityManager.isRecentlyNaked s.clock.steady number = false ∧
    t.reliabilityManager.recentNaks number = some s.clock.steady
  record : Refreshed s.clock.steady s.reliabilityManager.recentNaks t.reliabilityManager.recentNaks
  clock : t.clock = s.clock

/-- Without a NAK. -/
theorem Asks.quiet (more : List Effect) (added : t.effects = s.effects ++ more)
    (silent : requestsIn more = [])
    (record : t.reliabilityManager.recentNaks = s.reliabilityManager.recentNaks)
    (clock : t.clock = s.clock) : Asks s t := by
  have nothing : requestsIn (newEffects s t) = [] := by rw [newEffects_of_append added,silent]
  exact ⟨by rw [nothing]; exact Nat.zero_le _,by rw [nothing]; exact List.nodup_nil,
    by rw [nothing]; simp,fun number => Or.inl (by rw [record]),clock⟩

theorem recordReceivedSequence_recentNaks (rm : ReliabilityManager) (now : Nat) (seq : UInt8)
    (sender : Endpoint) : (rm.recordReceivedSequence now seq sender).recentNaks = rm.recentNaks := by
  simp only [recordReceivedSequence]
  split <;> rfl

theorem processAck_recentNaks (rm : ReliabilityManager) (seq : UInt8) :
    (rm.processAck seq).recentNaks = rm.recentNaks := by
  simp only [processAck]
  split <;> rfl

theorem nodup_gaps (s : LumenProtocol) (packet : LumenPacket) (endpoint : Endpoint) :
    (s.gaps packet endpoint).Nodup := by
  simp only [gaps]
  split
  · exact nodup_getMissingSequences ..
  · exact List.nodup_nil

theorem counted_recentNaks (s : LumenProtocol) (packet : LumenPacket) (endpoint : Endpoint) :
    (s.counted packet endpoint).reliabilityManager.recentNaks = s.reliabilityManager.recentNaks :=
  recordReceivedSequence_recentNaks ..

/-- Only the gap check asks for anything. -/
theorem payload_requests (s : LumenProtocol) (packet : LumenPacket) (endpoint : Endpoint)
    (rover : s.mode = .rover) (payload : CarriesPayload packet) {naks : List Effect}
    (added : (nakLoop endpoint maxNaksPerCheck (s.gaps packet endpoint)
      (s.counted packet endpoint)).effects = (s.counted packet endpoint).effects ++ naks) :
    requestsIn (newEffects s (s.processCompletePacket packet endpoint)) = requestsIn naks := by
  have marked : (s.counted packet endpoint).effects = s.effects ++ [.processing packet endpoint] := rfl
  obtain ⟨last,silent,grown⟩ : ∃ last, requestsIn last = [] ∧
      (s.processCompletePacket packet endpoint).effects =
        s.effects ++ .processing packet endpoint :: (naks ++ last) := by
    rw [processCompletePacket_looks s packet endpoint rover payload]
    split
    · exact ⟨[passedUp packet endpoint],rfl,by simp [emit,added,marked]⟩
    · exact ⟨[],rfl,by simp [added,marked]⟩
  rw [newEffects_of_append grown]
  change requestsIn (naks ++ last) = _
  rw [requestsIn_append,silent,List.append_nil]

/-- The numbers that a payload makes the rover ask for. -/
def asked (s : LumenProtocol) (packet : LumenPacket) (endpoint : Endpoint) : List UInt8 :=
  s.dueRequests maxNaksPerCheck (s.gaps packet endpoint)

/-- The loop starts from the same record. -/
theorem counted_asked (s : LumenProtocol) (packet : LumenPacket) (endpoint : Endpoint) :
    (s.counted packet endpoint).dueRequests maxNaksPerCheck (s.gaps packet endpoint) =
      s.asked packet endpoint :=
  dueRequests_congr rfl fun number _ => congrFun (counted_recentNaks s packet endpoint) number

theorem payload_asked (s : LumenProtocol) (packet : LumenPacket) (endpoint : Endpoint)
    (rover : s.mode = .rover) (payload : CarriesPayload packet) :
    requestsIn (newEffects s (s.processCompletePacket packet endpoint)) =
      if s.getBaseEndpoint.isSome then s.asked packet endpoint else [] := by
  obtain ⟨naks,added,asks⟩ := nakLoop_requests endpoint (s.gaps packet endpoint)
    (nodup_gaps s packet endpoint) maxNaksPerCheck (s.counted packet endpoint) rover
  rw [payload_requests s packet endpoint rover payload added,asks,counted_asked]
  rfl

theorem payload_recentNaks (s : LumenProtocol) (packet : LumenPacket) (endpoint : Endpoint)
    (rover : s.mode = .rover) (payload : CarriesPayload packet) (number : UInt8) :
    (s.processCompletePacket packet endpoint).reliabilityManager.recentNaks number =
      if number ∈ s.asked packet endpoint then some s.clock.steady
      else s.reliabilityManager.recentNaks number := by
  have manager : (s.processCompletePacket packet endpoint).reliabilityManager =
      (nakLoop endpoint maxNaksPerCheck (s.gaps packet endpoint)
        (s.counted packet endpoint)).reliabilityManager := by
    rw [processCompletePacket_looks s packet endpoint rover payload]
    split <;> rfl
  rw [manager,nakLoop_recentNaks endpoint _ (nodup_gaps s packet endpoint),counted_asked,
    counted_recentNaks]
  rfl

theorem payload_asks (s : LumenProtocol) (packet : LumenPacket) (endpoint : Endpoint)
    (rover : s.mode = .rover) (payload : CarriesPayload packet) :
    Asks s (s.processCompletePacket packet endpoint) := by
  have requests := payload_asked s packet endpoint rover payload
  have among : (requestsIn (newEffects s (s.processCompletePacket packet endpoint))).Sublist
      (s.asked packet endpoint) := by
    rw [requests]
    split
    · exact List.Sublist.refl _
    · exact List.nil_sublist _
  have record := payload_recentNaks s packet endpoint rover payload
  refine ⟨among.length_le.trans (List.length_take_le _ _),
    (among.trans (dueRequests_sublist s _ _)).nodup (nodup_gaps s packet endpoint),?_,?_,
    (processCompletePacket_undisturbed s packet endpoint).clock⟩
  · intro number member
    have due := among.subset member
    exact ⟨dueRequests_old due,(record number).trans (if_pos due)⟩
  · intro number
    rw [record number]
    split
    · exact Or.inr rfl
    · exact Or.inl rfl

theorem control_asks (s : LumenProtocol) (packet : LumenPacket) (endpoint : Endpoint)
    (rover : s.mode = .rover) (control : ¬ CarriesPayload packet) :
    Asks s (s.processCompletePacket packet endpoint) := by
  have mode : (s.emit (.processing packet endpoint)).mode = .rover := rover
  refine .quiet _ (processCompletePacket_rover_control s packet endpoint rover control) rfl ?_
    (processCompletePacket_undisturbed s packet endpoint).clock
  simp only [processCompletePacket]
  split
  · simp only [mode]
    cases packet.payload with
    | nil => exact recordReceivedSequence_recentNaks ..
    | cons seq rest =>
      exact (processAck_recentNaks ..).trans (recordReceivedSequence_recentNaks ..)
  · next other =>
    split
    · simp only [mode]
      exact recordReceivedSequence_recentNaks ..
    · next payload => exact absurd ⟨other,payload⟩ control

/-! ### Runs -/

/-- The debounce time in nanoseconds. -/
def nakInterval : Nat := nakDebounceTime * nanosPerMilli

/-- The numbers an arrival makes the rover ask for, with the time. -/
def requests (codec : Codec) (s : LumenProtocol) (input : Arrival) : List (UInt8 × Nat) :=
  (requestsIn (newEffects s (arrive codec s input))).map (·,s.clock.steady)

/-- Requests for one number keep their distance. -/
def Spaced (log : List (UInt8 × Nat)) : Prop :=
  log.Pairwise fun earlier later => earlier.1 = later.1 → earlier.2 + nakInterval ≤ later.2

/-- A rover, the requests it has made, and what is on record of them: a request that is not on
record, or not the latest for its number, is old. -/
structure Remembers (log : List (UInt8 × Nat)) (s : LumenProtocol) : Prop where
  tracking : Tracking s
  rover : s.mode = .rover
  past : ∀ entry ∈ log, entry.2 ≤ s.clock.steady
  spaced : Spaced log
  recorded : ∀ entry ∈ log, entry.2 + nakInterval ≤ s.clock.steady ∨
    ∃ time, s.reliabilityManager.recentNaks entry.1 = some time ∧ entry.2 ≤ time

theorem isRecentlyNaked_old {rm : ReliabilityManager} {now time : Nat} {number : UInt8}
    (recorded : rm.recentNaks number = some time)
    (old : rm.isRecentlyNaked now number = false) : time + nakInterval ≤ now := by
  simp only [isRecentlyNaked,recorded,decide_eq_false_iff_not,not_lt] at old
  have enough := (Nat.le_div_iff_mul_le (by decide)).mp old
  simp only [nakInterval,nakDebounceTime,nanosPerMilli] at enough ⊢
  omega

theorem Asks.remembers {log : List (UInt8 × Nat)} (asks : Asks s t) (remembers : Remembers log s)
    (tracking : Tracking t) (rover : t.mode = .rover) :
    Remembers (log ++ (requestsIn (newEffects s t)).map (·,s.clock.steady)) t := by
  have old : ∀ entry ∈ log, entry.1 ∈ requestsIn (newEffects s t) →
      entry.2 + nakInterval ≤ s.clock.steady := by
    intro entry member asked
    rcases remembers.recorded entry member with long | ⟨time,recorded,later⟩
    · exact long
    · have apart := isRecentlyNaked_old recorded (asks.spaced entry.1 asked).1
      omega
  refine ⟨tracking,rover,?_,?_,?_⟩
  · intro entry member
    rw [asks.clock]
    rcases List.mem_append.mp member with before | new
    · exact remembers.past entry before
    · obtain ⟨number,_,rfl⟩ := List.mem_map.mp new
      exact Nat.le_refl _
  · refine List.pairwise_append.mpr ⟨remembers.spaced,?_,?_⟩
    · refine List.pairwise_map.mpr (asks.distinct.imp fun apart same => absurd same apart)
    · intro entry before later new same
      obtain ⟨number,asked,rfl⟩ := List.mem_map.mp new
      exact old entry before (same ▸ asked)
  · intro entry member
    rw [asks.clock]
    rcases List.mem_append.mp member with before | new
    · rcases remembers.recorded entry before with long | ⟨time,recorded,later⟩
      · exact Or.inl long
      · rcases asks.record entry.1 with same | fresh
        · exact Or.inr ⟨time,same.trans recorded,later⟩
        · exact Or.inr ⟨_,fresh,remembers.past entry before⟩
    · obtain ⟨number,asked,rfl⟩ := List.mem_map.mp new
      exact Or.inr ⟨_,(asks.spaced number asked).2,Nat.le_refl _⟩

/-- Steps that ask for nothing may let time pass and forget what is old. -/
theorem Remembers.quiet {log : List (UInt8 × Nat)} (remembers : Remembers log s)
    (tracking : Tracking t) (rover : t.mode = .rover) (clock : s.clock.steady ≤ t.clock.steady)
    (record : ∀ number time, s.reliabilityManager.recentNaks number = some time →
      t.reliabilityManager.recentNaks number = some time ∨ time + nakInterval ≤ t.clock.steady) :
    Remembers log t := by
  refine ⟨tracking,rover,fun entry member => (remembers.past entry member).trans clock,
    remembers.spaced,fun entry member => ?_⟩
  rcases remembers.recorded entry member with long | ⟨time,recorded,later⟩
  · exact Or.inl (long.trans clock)
  · rcases record entry.1 time recorded with kept | old
    · exact Or.inr ⟨time,kept,later⟩
    · exact Or.inl (by omega)

/-- The clean-up forgets a request only when twice the debounce time has passed. -/
theorem handleCleanupTimer_recentNaks (rm : ReliabilityManager) (now : Nat) (number : UInt8)
    (time : Nat) (recorded : rm.recentNaks number = some time) :
    (ReliabilityManager.handleCleanupTimer rm now).recentNaks number = some time ∨
      time + nakInterval ≤ now := by
  simp only [ReliabilityManager.handleCleanupTimer]
  split
  · exact Or.inl recorded
  · by_cases late : elapsed now time > nakDebounceTime * 2
    · have enough := (Nat.le_div_iff_mul_le (by decide)).mp late.le
      simp only [nakInterval,nakDebounceTime,nanosPerMilli] at enough ⊢
      omega
    · simp [cleanupOldEntries,recorded,Option.filter,late]

theorem handleRetransmissionTimer_recentNaks (rm : ReliabilityManager) (now : Nat) :
    (rm.handleRetransmissionTimer now).1.recentNaks = rm.recentNaks := by
  simp only [ReliabilityManager.handleRetransmissionTimer]
  split
  · rfl
  · split <;> rfl

theorem own_requests (codec : Codec) (s : LumenProtocol) (input : Input) (valid : Tracking s)
    (own : input.isOwn = true) : requestsIn (newEffects s (s.step codec input)) = [] := by
  obtain ⟨more,added,fine⟩ := own_effects codec s input valid own
  rw [newEffects_of_append added]
  refine List.filterMap_eq_nil_iff.mpr fun effect member => ?_
  have kind := fine effect member
  cases effect with
  | transmit packet recipient => exact if_neg kind.2
  | processing | callback | timeout => rfl

theorem own_remembers (codec : Codec) (log : List (UInt8 × Nat)) (s : LumenProtocol)
    (input : Input) (own : input.isOwn = true) (other : input ≠ .resetSequenceNumber)
    (remembers : Remembers log s) : Remembers log (s.step codec input) := by
  have tracking := step_tracking codec s input remembers.tracking
  have rover := (step_mode codec s input remembers.tracking).trans remembers.rover
  have same (clock : (s.step codec input).clock = s.clock)
      (record : (s.step codec input).reliabilityManager.recentNaks =
        s.reliabilityManager.recentNaks) : Remembers log (s.step codec input) :=
    remembers.quiet tracking rover (by rw [clock]) fun number time recorded =>
      Or.inl (by rw [record]; exact recorded)
  cases input with
  | datagram => cases own
  | resetSequenceNumber => exact absurd rfl other
  | setSessionActive active => exact same rfl rfl
  | sendMessage payload type priority recipient =>
    obtain ⟨table,manager⟩ := sendMessage_manager s payload type priority recipient
    refine same (sendMessage_undisturbed s payload type priority recipient).clock ?_
    simp only [step]
    rw [manager]
  | retransmissionTimer =>
    refine same (handleRetransmissionTimer_undisturbed s).clock ?_
    simp only [step]
    rw [handleRetransmissionTimer_manager,handleRetransmissionTimer_recentNaks]
  | cleanupTimer =>
    exact remembers.quiet tracking rover (Nat.le_refl _)
      fun number time recorded => handleCleanupTimer_recentNaks _ _ number time recorded
  | tick nanos =>
    exact remembers.quiet tracking rover (Nat.le_add_right _ _) fun _ _ recorded => Or.inl recorded

def Arrival.isReset : Arrival → Bool
  | .own .resetSequenceNumber _ => true
  | _ => false

theorem arrive_remembers (codec : Codec) (log : List (UInt8 × Nat)) (s : LumenProtocol)
    (input : Arrival) (other : input.isReset = false) (remembers : Remembers log s) :
    Remembers (log ++ requests codec s input) (arrive codec s input) ∧
    (requestsIn (newEffects s (arrive codec s input))).length ≤ maxNaksPerCheck ∧
    (requestsIn (newEffects s (arrive codec s input))).Nodup := by
  have tracking := arrive_tracking codec s input remembers.tracking
  have silent (nothing : requestsIn (newEffects s (arrive codec s input)) = [])
      (still : Remembers log (arrive codec s input)) :
      Remembers (log ++ requests codec s input) (arrive codec s input) ∧
      (requestsIn (newEffects s (arrive codec s input))).length ≤ maxNaksPerCheck ∧
      (requestsIn (newEffects s (arrive codec s input))).Nodup := by
    rw [requests,nothing]
    exact ⟨by simpa using still,Nat.zero_le _,List.nodup_nil⟩
  cases input with
  | packet packet endpoint =>
    have asks : Asks s (s.processCompletePacket packet endpoint) := by
      by_cases payload : CarriesPayload packet
      · exact payload_asks s packet endpoint remembers.rover payload
      · exact control_asks s packet endpoint remembers.rover payload
    have rover := (processCompletePacket_undisturbed s packet endpoint).mode.trans remembers.rover
    exact ⟨asks.remembers remembers tracking rover,asks.few,asks.distinct⟩
  | buffer key bytes =>
    refine silent ?_ (remembers.quiet tracking remembers.rover (Nat.le_refl _)
      fun _ _ recorded => Or.inl recorded)
    change requestsIn (newEffects s s) = []
    simp [newEffects,requestsIn]
  | unframed data endpoint plain =>
    have same := handleUdpData_unframed codec s data endpoint plain
    refine silent ?_ (remembers.quiet tracking (same.mode.trans remembers.rover)
      (by simp only [arrive,same.clock]; exact Nat.le_refl _) fun number time recorded => Or.inl ?_)
    · rcases unframed_effects codec s data endpoint plain with unchanged | ⟨payload,header,added⟩
      · simp [arrive,newEffects,unchanged,requestsIn]
      · simp only [arrive]
        rw [newEffects_of_append added]
        rfl
    · simp only [arrive]
      rw [handleUdpData_unframed_manager codec s data endpoint plain]
      exact recorded
  | own input own =>
    have continues : input ≠ .resetSequenceNumber := by
      rintro rfl
      cases other
    exact silent (own_requests codec s input remembers.tracking own)
      (own_remembers codec log s input own continues remembers)

theorem started_remembers (base : Endpoint) (clock : Clock) :
    Remembers [] (started .rover base clock) :=
  ⟨started_tracking .rover base clock,rfl,by simp,List.Pairwise.nil,by simp⟩

/-- Two requests of a rover for the same number are at least the debounce time apart, and no check
makes more than three, all for different numbers. -/
theorem naks_rate_limited (codec : Codec) (base : Endpoint) (clock : Clock) (inputs : List Arrival)
    (kept : ∀ input ∈ inputs, input.isReset = false) :
    let s := started .rover base clock
    Spaced (Machine.trace (arrive codec) (requests codec) s inputs) ∧
    Machine.Guarded (arrive codec) (fun s input =>
      (requestsIn (newEffects s (arrive codec s input))).length ≤ 3 ∧
      (requestsIn (newEffects s (arrive codec s input))).Nodup) s inputs := by
  intro s
  have run (done : List Arrival) (within : ∀ input ∈ done, input.isReset = false) :=
    Machine.run_trace (arrive codec) (requests codec) s (started_remembers base clock)
      (fun log s input remembers other => (arrive_remembers codec log s input other remembers).1)
      done (Machine.guarded_of_forall (arrive codec) s done within)
  refine ⟨(run inputs kept).spaced,fun done input reached => ?_⟩
  have sooner := run done fun next member => kept next
    (reached.subset (List.mem_append_left _ member))
  have here := kept input (reached.subset (List.mem_append_right _ (List.mem_singleton_self _)))
  exact (arrive_remembers codec _ _ input here sooner).2

/-- Five heartbeats with the same number: the check asks for three of the sixteen numbers before
it, and five more right after it ask for the next three. -/
theorem naks_rate_limited_heartbeats :
    let base : Endpoint := ⟨0x0aed0001,9000⟩
    let inputs := List.replicate 10 (Arrival.packet heartbeat base)
    let s := started .rover base ⟨0,0⟩
    let log := Machine.trace (arrive .silent) (requests .silent) s inputs
    log = [(0,0),(255,0),(254,0),(253,0),(252,0),(251,0)] ∧ Spaced log :=
  ⟨by decide +kernel,(naks_rate_limited .silent ⟨0x0aed0001,9000⟩ ⟨0,0⟩
    (List.replicate 10 (Arrival.packet heartbeat ⟨0x0aed0001,9000⟩))
    (by simp [Arrival.isReset])).1⟩

end Lumen.LumenProtocol
