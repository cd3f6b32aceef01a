import Lumen.Bytes

/-! The ten-byte Lumen header: layout constants, the reader and the writer, and the
CRC-8 loop shared by both ends. The reader is written over checked reads; it accepts
exactly the encodings of headers whose enumeration values are in range. -/
namespace Lumen

open Bytes

def lumenStx : UInt8 := 0x02
def lumenEtx : UInt8 := 0x03

def lumenStxPos : Nat := 0
def lumenTypePos : Nat := 1
def lumenPrioPos : Nat := 2
def lumenSeqPos : Nat := 3
def lumenTimestampPos : Nat := 4
def lumenLenPos : Nat := 8
def lumenPayloadPos : Nat := 10
def lumenHeaderSize : Nat := 10

/-- A scoped enumeration over `uint8_t`. The cast in the reader can produce any
byte, so the value is kept as it is and the named enumerators are constants. -/
structure MessageType where
  value : UInt8
  deriving DecidableEq, Repr

namespace MessageType

def ack : MessageType := ⟨0⟩
def cmd : MessageType := ⟨1⟩
def data : MessageType := ⟨2⟩
def video : MessageType := ⟨3⟩
def status : MessageType := ⟨4⟩
def nak : MessageType := ⟨5⟩

end MessageType

structure Priority where
  value : UInt8
  deriving DecidableEq, Repr

namespace Priority

def low : Priority := ⟨0⟩
def medium : Priority := ⟨1⟩
def high : Priority := ⟨2⟩

end Priority

structure LumenHeader where
  type : MessageType
  priority : Priority
  sequence : UInt8
  timestamp : UInt32
  payloadLength : UInt16
  deriving DecidableEq, Repr

namespace LumenHeader

def setPayloadLength (header : LumenHeader) (length : UInt16) : LumenHeader :=
  { header with payloadLength := length }

def fromBytes (bytes : List UInt8) : Except Fault (Option LumenHeader) := do
  if bytes.length < lumenHeaderSize then
    return none
  if (← byteAt bytes lumenStxPos) ≠ lumenStx then
    return none
  let type : MessageType := ⟨← byteAt bytes lumenTypePos⟩
  let priority : Priority := ⟨← byteAt bytes lumenPrioPos⟩
  let sequence ← byteAt bytes lumenSeqPos
  let timestamp := word32 (← byteAt bytes lumenTimestampPos)
    (← byteAt bytes (lumenTimestampPos + 1)) (← byteAt bytes (lumenTimestampPos + 2))
    (← byteAt bytes (lumenTimestampPos + 3))
  let payloadLength := word16 (← byteAt bytes lumenLenPos) (← byteAt bytes (lumenLenPos + 1))
  if type.value > 5 then
    return none
  if priority.value > 2 then
    return none
  return some ⟨type,priority,sequence,timestamp,payloadLength⟩

def toBytes (header : LumenHeader) : List UInt8 :=
  [lumenStx,header.type.value,header.priority.value,header.sequence] ++
    bytes32 header.timestamp ++ bytes16 header.payloadLength

/-- One turn of the inner loop; the shift drops the bit leaving the byte. -/
def crcBit (crc : UInt8) : UInt8 :=
  if crc &&& 0x80 ≠ 0 then (crc <<< 1) ^^^ 0x07 else crc <<< 1

def crcByte (crc byte : UInt8) : UInt8 :=
  Nat.iterate crcBit 8 (crc ^^^ byte)

def calculateCrc8 (data : List UInt8) : UInt8 :=
  data.foldl crcByte 0x00

/-- The enumeration ranges that the reader checks. -/
def InRange (header : LumenHeader) : Prop :=
  header.type.value ≤ 5 ∧ header.priority.value ≤ 2

instance (header : LumenHeader) : Decidable header.InRange :=
  inferInstanceAs (Decidable (_ ∧ _))

@[simp] theorem toBytes_length (header : LumenHeader) : header.toBytes.length = 10 := rfl

theorem fromBytes_short (bytes : List UInt8) (short : bytes.length < 10) :
    fromBytes bytes = .ok none := by
  simp [fromBytes,lumenHeaderSize,short]; rfl

/-- On ten or more bytes the reader only depends on the first ten. -/
theorem fromBytes_cons (stx type priority sequence t₀ t₁ t₂ t₃ l₀ l₁ : UInt8)
    (rest : List UInt8) :
    fromBytes (stx :: type :: priority :: sequence :: t₀ :: t₁ :: t₂ :: t₃ :: l₀ :: l₁ :: rest) =
      .ok (if stx = lumenStx ∧ type ≤ 5 ∧ priority ≤ 2 then
        some ⟨⟨type⟩,⟨priority⟩,sequence,word32 t₀ t₁ t₂ t₃,word16 l₀ l₁⟩ else none) := by
  have long : ¬ ((stx :: type :: priority :: sequence :: t₀ :: t₁ :: t₂ :: t₃ :: l₀ :: l₁ ::
      rest).length < lumenHeaderSize) := by simp [lumenHeaderSize]
  rw [fromBytes,if_neg long]
  change (if stx ≠ lumenStx then pure none else if type > 5 then pure none
    else if priority > 2 then pure none else pure (some _)) = _
  by_cases start : stx = lumenStx
  · rw [if_neg (not_not.mpr start)]
    by_cases known : type ≤ 5
    · rw [if_neg (UInt8.not_lt.mpr known)]
      by_cases ranked : priority ≤ 2
      · rw [if_neg (UInt8.not_lt.mpr ranked),if_pos ⟨start,known,ranked⟩]; rfl
      · rw [if_pos (UInt8.not_le.mp ranked),if_neg (fun h => ranked h.2.2)]; rfl
    · rw [if_pos (UInt8.not_le.mp known),if_neg (fun h => known h.2.1)]; rfl
  · rw [if_pos start,if_neg (fun h => start h.1)]; rfl

theorem exists_header_bytes (bytes : List UInt8) (long : 10 ≤ bytes.length) :
    ∃ b₀ b₁ b₂ b₃ b₄ b₅ b₆ b₇ b₈ b₉ rest,
      bytes = b₀ :: b₁ :: b₂ :: b₃ :: b₄ :: b₅ :: b₆ :: b₇ :: b₈ :: b₉ :: rest := by
  rcases bytes with _ | ⟨b₀,_ | ⟨b₁,_ | ⟨b₂,_ | ⟨b₃,_ | ⟨b₄,_ | ⟨b₅,_ | ⟨b₆,_ | ⟨b₇,_ | ⟨b₈,
    _ | ⟨b₉,rest⟩⟩⟩⟩⟩⟩⟩⟩⟩⟩
  case cons.cons.cons.cons.cons.cons.cons.cons.cons.cons => exact ⟨_,_,_,_,_,_,_,_,_,_,_,rfl⟩
  all_goals simp at long

/-- Reading back what was written, whatever follows it. -/
theorem fromBytes_toBytes (header : LumenHeader) (rest : List UInt8) (valid : header.InRange) :
    fromBytes (header.toBytes ++ rest) = .ok (some header) := by
  simp only [toBytes,bytes32,bytes16,List.cons_append,List.nil_append]
  rw [fromBytes_cons,if_pos ⟨rfl,valid⟩,bytes32_word,bytes16_word]

theorem fromBytes_some_iff (bytes : List UInt8) (header : LumenHeader) :
    fromBytes bytes = .ok (some header) ↔
      header.InRange ∧ ∃ rest, bytes = header.toBytes ++ rest := by
  constructor
  · intro parsed
    by_cases short : bytes.length < 10
    · rw [fromBytes_short bytes short] at parsed
      cases parsed
    obtain ⟨stx,type,priority,sequence,t₀,t₁,t₂,t₃,l₀,l₁,rest,rfl⟩ :=
      exists_header_bytes bytes (by omega)
    rw [fromBytes_cons] at parsed
    split at parsed
    next accepted =>
      cases parsed
      obtain ⟨rfl,known,ranked⟩ := accepted
      refine ⟨⟨known,ranked⟩,rest,?_⟩
      simp [toBytes,word32_bytes,word16_bytes]
    next => cases parsed
  · rintro ⟨valid,rest,rfl⟩
    exact fromBytes_toBytes header rest valid

/-- Every read of the header reader is inside the vector. -/
theorem fromBytes_total (bytes : List UInt8) : ∃ result, fromBytes bytes = .ok result := by
  by_cases short : bytes.length < 10
  · exact ⟨none,fromBytes_short bytes short⟩
  obtain ⟨stx,type,priority,sequence,t₀,t₁,t₂,t₃,l₀,l₁,rest,rfl⟩ :=
    exists_header_bytes bytes (by omega)
  exact ⟨_,fromBytes_cons ..⟩

/-- Once ten bytes are there, later bytes cannot change the outcome. -/
theorem fromBytes_append (bytes rest : List UInt8) (long : 10 ≤ bytes.length) :
    fromBytes (bytes ++ rest) = fromBytes bytes := by
  obtain ⟨stx,type,priority,sequence,t₀,t₁,t₂,t₃,l₀,l₁,tail,rfl⟩ := exists_header_bytes bytes long
  simp only [List.cons_append,fromBytes_cons]

end LumenHeader

end Lumen
