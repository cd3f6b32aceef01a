import Lumen.Packet
import Mathlib.Logic.Function.Basic

/-! The reliability manager: the retransmission table, the duplicate filter of the base
station, the reception record and the NAK record of the rover. Maps keyed by a sequence
number are functions on bytes, visited in numeric order where the source iterates; times
are steady-clock nanoseconds. -/
namespace Lumen

structure Endpoint where
  address : UInt32
  port : UInt16
  deriving DecidableEq, Repr

namespace Endpoint

/-- The default endpoint, `0.0.0.0:0`. -/
def unspecified : Endpoint := ⟨0,0⟩

def isUnspecified (endpoint : Endpoint) : Bool := endpoint.address = 0

/-- A recipient the transport accepts. -/
def Sendable (endpoint : Endpoint) : Prop := endpoint.isUnspecified = false ∧ endpoint.port ≠ 0

instance (endpoint : Endpoint) : Decidable endpoint.Sendable :=
  inferInstanceAs (Decidable (_ ∧ _))

/-- Dotted decimal notation. -/
def addressToString (address : UInt32) : String :=
  toString (address >>> 24).toNat ++ "." ++ toString ((address >>> 16) &&& 0xFF).toNat ++ "." ++
    toString ((address >>> 8) &&& 0xFF).toNat ++ "." ++ toString (address &&& 0xFF).toNat

def getEndpointKey (endpoint : Endpoint) : String :=
  addressToString endpoint.address ++ ":" ++ toString endpoint.port.toNat

/-- A mark that does not occur before it splits a text in one way. -/
theorem append_mark_inj {mark : Char} {first second : List Char} {rest rest' : List Char}
    (clear : mark ∉ first) (clear' : mark ∉ second)
    (same : first ++ mark :: rest = second ++ mark :: rest') : first = second ∧ rest = rest' := by
  induction first generalizing second with
  | nil =>
    cases second with
    | nil => exact ⟨rfl,(List.cons.inj same).2⟩
    | cons char tail =>
      obtain ⟨rfl,_⟩ := List.cons.inj same
      exact absurd List.mem_cons_self clear'
  | cons char tail ih =>
    cases second with
    | nil =>
      obtain ⟨rfl,_⟩ := List.cons.inj same
      exact absurd List.mem_cons_self clear
    | cons char' tail' =>
      obtain ⟨rfl,rest⟩ := List.cons.inj same
      obtain ⟨rfl,rfl⟩ := ih (fun member => clear (List.mem_cons_of_mem _ member))
        (fun member => clear' (List.mem_cons_of_mem _ member)) rest
      exact ⟨rfl,rfl⟩

theorem toDigits_injective {n m : Nat} (same : Nat.toDigits 10 n = Nat.toDigits 10 m) : n = m := by
  rw [← @Nat.ofDigitChars_ten_toDigits n,same,Nat.ofDigitChars_ten_toDigits]

theorem not_mem_toDigits {mark : Char} (noDigit : mark.isDigit = false) (n : Nat) :
    mark ∉ Nat.toDigits 10 n := by
  intro member
  rw [Nat.isDigit_of_mem_toDigits (by decide) (by decide) member] at noDigit
  cases noDigit

/-- The four numbers of the dotted notation. -/
def octet (address : UInt32) (place : Nat) : Nat := address.toNat / 256 ^ place % 256

theorem octets_injective {a b : UInt32} (first : octet a 3 = octet b 3)
    (second : octet a 2 = octet b 2) (third : octet a 1 = octet b 1)
    (fourth : octet a 0 = octet b 0) : a = b := by
  have bound := a.toNat_lt
  have bound' := b.toNat_lt
  apply UInt32.toNat_inj.mp
  simp only [octet] at first second third fourth
  omega

theorem getEndpointKey_toList (endpoint : Endpoint) :
    (getEndpointKey endpoint).toList =
      Nat.toDigits 10 (octet endpoint.address 3) ++ '.' ::
        (Nat.toDigits 10 (octet endpoint.address 2) ++ '.' ::
          (Nat.toDigits 10 (octet endpoint.address 1) ++ '.' ::
            (Nat.toDigits 10 (octet endpoint.address 0) ++ ':' ::
              Nat.toDigits 10 endpoint.port.toNat))) := by
  have bound := endpoint.address.toNat_lt
  have top : (endpoint.address >>> 24).toNat = octet endpoint.address 3 := by
    simp [octet,Nat.shiftRight_eq_div_pow]
    omega
  have low (n : Nat) : n &&& 255 = n % 256 := Nat.and_two_pow_sub_one_eq_mod n 8
  simp [getEndpointKey,addressToString,top,octet,Nat.shiftRight_eq_div_pow,low,
    Nat.toString_eq_repr]

/-- Different endpoints have different keys. -/
theorem getEndpointKey_injective : Function.Injective getEndpointKey := by
  intro a b same
  have texts := congrArg String.toList same
  rw [getEndpointKey_toList,getEndpointKey_toList] at texts
  have dot (n : Nat) : '.' ∉ Nat.toDigits 10 n := not_mem_toDigits (by decide) n
  have colon (n : Nat) : ':' ∉ Nat.toDigits 10 n := not_mem_toDigits (by decide) n
  obtain ⟨first,texts⟩ := append_mark_inj (dot _) (dot _) texts
  obtain ⟨second,texts⟩ := append_mark_inj (dot _) (dot _) texts
  obtain ⟨third,texts⟩ := append_mark_inj (dot _) (dot _) texts
  obtain ⟨fourth,port⟩ := append_mark_inj (colon _) (colon _) texts
  have address := octets_injective (toDigits_injective first) (toDigits_injective second)
    (toDigits_injective third) (toDigits_injective fourth)
  have sameport := UInt16.toNat_inj.mp (toDigits_injective port)
  cases a
  cases b
  simp_all

end Endpoint

open Endpoint

inductive Role where
  | baseStation
  | rover
  deriving DecidableEq, Repr

def reliabilityMaxRetries : Nat := 2
def reliabilityBaseTimeout : Nat := 5000
def nakDebounceTime : Nat := 1000
def cleanupInterval : Nat := 5000
def sequenceRetainTime : Nat := 30000
def windowSize : Nat := 16

def nanosPerMilli : Nat := 1000000

/-- `duration_cast<milliseconds>(now - since)`. -/
def elapsed (now since : Nat) : Nat := (now - since) / nanosPerMilli

structure SentPacketInfo where
  packet : LumenPacket
  sentTime : Nat
  retryCount : Nat
  recipient : Endpoint
  deriving DecidableEq, Repr

structure ReliabilityManager where
  running : Bool
  role : Role
  sentPackets : UInt8 → Option SentPacketInfo
  ackedSequences : String → UInt8 → Bool
  receivedSequences : String → UInt8 → Option Nat
  recentNaks : UInt8 → Option Nat
  lastAckCleanupTime : Nat
  timeoutCallback : Bool

namespace ReliabilityManager

def new (role : Role) : ReliabilityManager :=
  ⟨false,role,fun _ => none,fun _ _ => false,fun _ _ => none,fun _ => none,0,false⟩

/-- Sequence numbers in the order of the source's maps. -/
def sequences : List UInt8 := (List.range 256).map UInt8.ofNat

/-- `emplace` keeps an entry that is already there. -/
def addSendPacket (rm : ReliabilityManager) (now : Nat) (seq : UInt8) (packet : LumenPacket)
    (recipient : Endpoint) : ReliabilityManager :=
  if !rm.running then rm else
    match rm.sentPackets seq with
    | some _ => rm
    | none =>
      { rm with
        sentPackets := Function.update rm.sentPackets seq (some ⟨packet,now,0,recipient⟩) }

def processAck (rm : ReliabilityManager) (seq : UInt8) : ReliabilityManager :=
  if !rm.running || rm.role ≠ .rover then rm else
    { rm with sentPackets := Function.update rm.sentPackets seq none }

/-- The packet handed to the retransmit callback, if any. -/
def processNak (rm : ReliabilityManager) (seq : UInt8) : Option (LumenPacket × Endpoint) :=
  if !rm.running || rm.role ≠ .baseStation then none else
    (rm.sentPackets seq).map fun info => (info.packet,info.recipient)

def recordReceivedSequence (rm : ReliabilityManager) (now : Nat) (seq : UInt8)
    (sender : Endpoint) : ReliabilityManager :=
  if !rm.running then rm else
    let key := getEndpointKey sender
    let sequenceMap := Function.update (rm.receivedSequences key) seq (some now)
    { rm with receivedSequences := Function.update rm.receivedSequences key sequenceMap }

/-- Counts back from the numerically largest key of the sender's map. -/
def getMissingSequences (rm : ReliabilityManager) (sender : Endpoint) : List UInt8 :=
  if rm.role ≠ .rover then [] else
    let sequenceMap := rm.receivedSequences (getEndpointKey sender)
    match (sequences.filter fun seq => (sequenceMap seq).isSome).getLast? with
    | none => []
    | some highestSeq =>
      ((List.range windowSize).map fun i => highestSeq - UInt8.ofNat (i + 1)).filter
        fun seqToCheck => (sequenceMap seqToCheck).isNone

def isRecentlyNaked (rm : ReliabilityManager) (now : Nat) (seq : UInt8) : Bool :=
  match rm.recentNaks seq with
  | none => false
  | some sent => elapsed now sent < nakDebounceTime

def recordNakSent (rm : ReliabilityManager) (now : Nat) (seq : UInt8) : ReliabilityManager :=
  { rm with recentNaks := Function.update rm.recentNaks seq (some now) }

/-- What a check does with one tracked packet of the rover. -/
inductive Verdict where
  | keep
  | retransmit
  | abandon
  deriving DecidableEq, Repr

def SentPacketInfo.verdict (now : Nat) (info : SentPacketInfo) : Verdict :=
  if elapsed now info.sentTime > reliabilityBaseTimeout * (1 <<< info.retryCount) then
    if info.retryCount ≥ reliabilityMaxRetries then .abandon else .retransmit
  else .keep

/-- Running result of the loop over the table: the table, the packets queued for
retransmission and the recipients the timeout callback was invoked with. -/
structure Check where
  table : UInt8 → Option SentPacketInfo
  packets : List (LumenPacket × Endpoint)
  timeouts : List Endpoint

def checkEntry (now : Nat) (timeoutCallback : Bool) (check : Check) (seq : UInt8) : Check :=
  match check.table seq with
  | none => check
  | some info =>
    match SentPacketInfo.verdict now info with
    | .keep => check
    | .retransmit =>
      { check with
        table := Function.update check.table seq
          (some { info with sentTime := now, retryCount := info.retryCount + 1 })
        packets := check.packets ++ [(info.packet,info.recipient)] }
    | .abandon =>
      { check with
        table := Function.update check.table seq none
        timeouts := if info.recipient.port = 9000 ∧ timeoutCallback then
          check.timeouts ++ [info.recipient] else check.timeouts }

def getPacketsToRetransmit (rm : ReliabilityManager) (now : Nat) : Check :=
  match rm.role with
  | .baseStation => ⟨rm.sentPackets,[],[]⟩
  | .rover => sequences.foldl (checkEntry now rm.timeoutCallback) ⟨rm.sentPackets,[],[]⟩

/-- The periodic check: the manager afterwards, the packets for the retransmit callback and
the recipients reported to the timeout callback. -/
def handleRetransmissionTimer (rm : ReliabilityManager) (now : Nat) :
    ReliabilityManager × List (LumenPacket × Endpoint) × List Endpoint :=
  if !rm.running then (rm,[],[]) else
    match rm.role with
    | .baseStation => (rm,[],[])
    | .rover =>
      let check := rm.getPacketsToRetransmit now
      ({ rm with sentPackets := check.table },check.packets,check.timeouts)

def cleanupOldEntries (rm : ReliabilityManager) (now : Nat) : ReliabilityManager :=
  let received := fun key seq => (rm.receivedSequences key seq).filter
    fun time => ¬ elapsed now time > sequenceRetainTime
  let naks := fun seq => (rm.recentNaks seq).filter
    fun time => ¬ elapsed now time > nakDebounceTime * 2
  let expired := now > rm.lastAckCleanupTime + cleanupInterval * 2 * nanosPerMilli
  { rm with
    receivedSequences := received
    recentNaks := naks
    ackedSequences := if expired then fun _ _ => false else rm.ackedSequences
    lastAckCleanupTime := if expired then now else rm.lastAckCleanupTime }

def handleCleanupTimer (rm : ReliabilityManager) (now : Nat) : ReliabilityManager :=
  if !rm.running then rm else rm.cleanupOldEntries now

/-- Clears the four maps, then runs both timer handlers once; on empty maps the
retransmission check does nothing. -/
def start (rm : ReliabilityManager) (now : Nat) : ReliabilityManager :=
  if rm.running then rm else
    let cleared := { rm with
      running := true
      sentPackets := fun _ => none
      receivedSequences := fun _ _ => none
      recentNaks := fun _ => none
      ackedSequences := fun _ _ => false }
    (cleared.handleRetransmissionTimer now).1.handleCleanupTimer now

def stop (rm : ReliabilityManager) : ReliabilityManager := { rm with running := false }

def recordAckedSequence (rm : ReliabilityManager) (seq : UInt8) (endpoint : Endpoint) :
    ReliabilityManager :=
  if rm.role ≠ .baseStation then rm else
    let key := getEndpointKey endpoint
    let acked := Function.update (rm.ackedSequences key) seq true
    { rm with ackedSequences := Function.update rm.ackedSequences key acked }

def hasAckedSequence (rm : ReliabilityManager) (seq : UInt8) (endpoint : Endpoint) : Bool :=
  if rm.role ≠ .baseStation then false else rm.ackedSequences (getEndpointKey endpoint) seq

def resetState (rm : ReliabilityManager) : ReliabilityManager :=
  { rm with
    sentPackets := fun _ => none
    receivedSequences := fun _ _ => none
    recentNaks := fun _ => none
    ackedSequences := fun _ _ => false }

/-- Bookkeeping never changes whether the manager runs, nor its role. -/
def SameSetup (rm rm' : ReliabilityManager) : Prop :=
  rm'.running = rm.running ∧ rm'.role = rm.role

theorem addSendPacket_setup (rm : ReliabilityManager) (now : Nat) (seq : UInt8)
    (packet : LumenPacket) (recipient : Endpoint) :
    SameSetup rm (rm.addSendPacket now seq packet recipient) := by
  simp only [addSendPacket]
  split
  · exact ⟨rfl,rfl⟩
  · split <;> exact ⟨rfl,rfl⟩

theorem processAck_setup (rm : ReliabilityManager) (seq : UInt8) :
    SameSetup rm (rm.processAck seq) := by
  simp only [processAck]
  split <;> exact ⟨rfl,rfl⟩

theorem recordReceivedSequence_setup (rm : ReliabilityManager) (now : Nat) (seq : UInt8)
    (sender : Endpoint) : SameSetup rm (rm.recordReceivedSequence now seq sender) := by
  simp only [recordReceivedSequence]
  split <;> exact ⟨rfl,rfl⟩

theorem recordAckedSequence_setup (rm : ReliabilityManager) (seq : UInt8) (endpoint : Endpoint) :
    SameSetup rm (rm.recordAckedSequence seq endpoint) := by
  simp only [recordAckedSequence]
  split <;> exact ⟨rfl,rfl⟩

theorem handleRetransmissionTimer_setup (rm : ReliabilityManager) (now : Nat) :
    SameSetup rm (rm.handleRetransmissionTimer now).1 := by
  simp only [handleRetransmissionTimer]
  split
  · exact ⟨rfl,rfl⟩
  · split <;> exact ⟨rfl,rfl⟩

theorem cleanupOldEntries_setup (rm : ReliabilityManager) (now : Nat) :
    SameSetup rm (rm.cleanupOldEntries now) := by
  cases rm; exact ⟨rfl,rfl⟩

theorem handleCleanupTimer_setup (rm : ReliabilityManager) (now : Nat) :
    SameSetup rm (rm.handleCleanupTimer now) := by
  simp only [handleCleanupTimer]
  split
  · exact ⟨rfl,rfl⟩
  · exact rm.cleanupOldEntries_setup now

end ReliabilityManager

end Lumen
