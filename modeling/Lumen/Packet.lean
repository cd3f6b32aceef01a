import Lumen.Header

/-! The framed packet: header, payload, CRC-8 and end marker. The reader computes every
position from the declared length; the results below say which byte vectors it accepts
and that none of those positions leaves the vector. -/
namespace Lumen

open Bytes

/-- The header is private and the constructor overwrites its length field, so a packet
always declares its payload size modulo `2^16`. -/
structure LumenPacket where
  header : LumenHeader
  payload : List UInt8
  declared : header.payloadLength = UInt16.ofNat payload.length
  deriving DecidableEq, Repr

namespace LumenPacket

def new (header : LumenHeader) (payload : List UInt8) : LumenPacket :=
  ⟨header.setPayloadLength (UInt16.ofNat payload.length),payload,rfl⟩

def fromBytes (bytes : List UInt8) : Except Fault (Option LumenPacket) := do
  match ← LumenHeader.fromBytes bytes with
  | none => return none
  | some header =>
    let expectedSize := lumenHeaderSize + header.payloadLength.toNat + 2
    if bytes.length < expectedSize then
      return none
    if (← byteAt bytes (expectedSize - 1)) ≠ lumenEtx then
      return none
    let payload ← range bytes lumenPayloadPos (lumenPayloadPos + header.payloadLength.toNat)
    let storedCrc ← byteAt bytes (expectedSize - 2)
    let dataForCrc ← range bytes 0 (expectedSize - 2)
    let calculatedCrc := LumenHeader.calculateCrc8 dataForCrc
    if calculatedCrc ≠ storedCrc then
      return none
    return some (new header payload)

def calculatePacketCrc (packet : LumenPacket) : UInt8 :=
  LumenHeader.calculateCrc8 (packet.header.toBytes ++ packet.payload)

def toBytes (packet : LumenPacket) : List UInt8 :=
  packet.header.toBytes ++ packet.payload ++ [packet.calculatePacketCrc] ++ [lumenEtx]

def totalSize (packet : LumenPacket) : Nat :=
  lumenHeaderSize + packet.payload.length + 2

/-- A packet whose encoding describes it: known enumerators and an exact length field. -/
structure WellFormed (packet : LumenPacket) : Prop where
  type : packet.header.type.value ≤ 5
  priority : packet.header.priority.value ≤ 2
  size : packet.payload.length ≤ 65535
  length : packet.header.payloadLength.toNat = packet.payload.length

theorem WellFormed.inRange {packet : LumenPacket} (valid : packet.WellFormed) :
    packet.header.InRange := ⟨valid.type,valid.priority⟩

/-- The length field is exact precisely when the payload size fits sixteen bits. -/
theorem wellFormed_iff (packet : LumenPacket) :
    packet.WellFormed ↔ packet.header.InRange ∧ packet.payload.length ≤ 65535 := by
  constructor
  · exact fun valid => ⟨valid.inRange,valid.size⟩
  · rintro ⟨range,size⟩
    refine ⟨range.1,range.2,size,?_⟩
    rw [packet.declared,UInt16.toNat_ofNat_of_lt' (by simp [UInt16.size]; omega)]

instance (packet : LumenPacket) : Decidable packet.WellFormed :=
  decidable_of_iff _ packet.wellFormed_iff.symm

@[simp] theorem toBytes_length (packet : LumenPacket) :
    packet.toBytes.length = packet.totalSize := by
  simp [toBytes,totalSize,lumenHeaderSize]; omega

theorem toBytes_cons (packet : LumenPacket) : ∃ tail, packet.toBytes = lumenStx :: tail :=
  ⟨_,rfl⟩

theorem toBytes_frame (packet : LumenPacket) (rest : List UInt8) :
    packet.toBytes ++ rest =
      packet.header.toBytes ++ packet.payload ++ packet.calculatePacketCrc :: lumenEtx :: rest := by
  simp [toBytes]

theorem new_self (packet : LumenPacket) (payload : List UInt8)
    (same : payload = packet.payload) : new packet.header payload = packet := by
  subst same
  cases packet with
  | mk header payload declared => simp [new,LumenHeader.setPayloadLength,← declared]

/-- Without a readable header there is no packet. -/
theorem fromBytes_noHeader (bytes : List UInt8)
    (unreadable : LumenHeader.fromBytes bytes = .ok none) : fromBytes bytes = .ok none := by
  simp only [fromBytes,unreadable]; rfl

theorem fromBytes_incomplete (bytes : List UInt8) (header : LumenHeader)
    (readable : LumenHeader.fromBytes bytes = .ok (some header))
    (short : bytes.length < 10 + header.payloadLength.toNat + 2) : fromBytes bytes = .ok none := by
  simp only [fromBytes,readable]
  change (if bytes.length < 10 + header.payloadLength.toNat + 2 then _ else _) = _
  rw [if_pos short]; rfl

/-- With the whole declared frame at hand, only the end marker and the checksum are
left to decide, and both sit at positions inside the frame. -/
theorem fromBytes_complete (header : LumenHeader) (payload rest : List UInt8) (crc etx : UInt8)
    (valid : header.InRange) (length : header.payloadLength.toNat = payload.length) :
    fromBytes (header.toBytes ++ payload ++ crc :: etx :: rest) =
      .ok (if etx = lumenEtx ∧ LumenHeader.calculateCrc8 (header.toBytes ++ payload) = crc
        then some (new header payload) else none) := by
  have readable := LumenHeader.fromBytes_toBytes header (payload ++ crc :: etx :: rest) valid
  rw [← List.append_assoc] at readable
  have front : (header.toBytes ++ payload).length = 10 + payload.length := by simp
  have enough : ¬ (header.toBytes ++ payload ++ crc :: etx :: rest).length <
      10 + header.payloadLength.toNat + 2 := by simp; omega
  have marker : byteAt (header.toBytes ++ payload ++ crc :: etx :: rest)
      (10 + header.payloadLength.toNat + 2 - 1) = .ok etx := by
    rw [List.append_cons]
    exact byteAt_middle _ _ _ _ (by simp; omega)
  have stored : byteAt (header.toBytes ++ payload ++ crc :: etx :: rest)
      (10 + header.payloadLength.toNat + 2 - 2) = .ok crc :=
    byteAt_middle _ _ _ _ (by omega)
  have content : range (header.toBytes ++ payload ++ crc :: etx :: rest) 10
      (10 + header.payloadLength.toNat) = .ok payload :=
    range_middle header.toBytes payload _ _ _ rfl (by rw [length]; rfl)
  have covered : range (header.toBytes ++ payload ++ crc :: etx :: rest) 0
      (10 + header.payloadLength.toNat + 2 - 2) = .ok (header.toBytes ++ payload) :=
    range_middle [] (header.toBytes ++ payload) _ _ _ rfl (by simp; omega)
  simp only [fromBytes,readable,lumenHeaderSize,lumenPayloadPos,Bind.bind,Except.bind,marker,
    stored,content,covered,if_neg enough]
  by_cases ended : etx = lumenEtx
  · by_cases agrees : LumenHeader.calculateCrc8 (header.toBytes ++ payload) = crc
    · rw [if_neg (not_not.mpr ended),if_neg (not_not.mpr agrees),if_pos ⟨ended,agrees⟩]; rfl
    · rw [if_neg (not_not.mpr ended),if_pos agrees,if_neg (fun h => agrees h.2)]; rfl
  · rw [if_pos ended,if_neg (fun h => ended h.1)]; rfl

theorem exists_trailer (bytes : List UInt8) (enough : 2 ≤ bytes.length) :
    ∃ crc etx rest, bytes = crc :: etx :: rest := by
  rcases bytes with _ | ⟨crc,_ | ⟨etx,rest⟩⟩
  · simp at enough
  · simp at enough
  · exact ⟨crc,etx,rest,rfl⟩

/-- A byte vector has no readable header, or stops inside the frame its header declares,
or starts with a whole frame. The three cases of the reader. -/
theorem shape (bytes : List UInt8) :
    LumenHeader.fromBytes bytes = .ok none ∨
    (∃ header, LumenHeader.fromBytes bytes = .ok (some header) ∧
      bytes.length < 10 + header.payloadLength.toNat + 2) ∨
    (∃ (header : LumenHeader) (payload : List UInt8) (crc etx : UInt8) (rest : List UInt8),
      header.InRange ∧ header.payloadLength.toNat = payload.length ∧
      bytes = header.toBytes ++ payload ++ crc :: etx :: rest) := by
  obtain ⟨result,parsed⟩ := LumenHeader.fromBytes_total bytes
  cases result with
  | none => exact Or.inl parsed
  | some header =>
    obtain ⟨valid,tail,rfl⟩ := (LumenHeader.fromBytes_some_iff bytes header).mp parsed
    by_cases short : (header.toBytes ++ tail).length < 10 + header.payloadLength.toNat + 2
    · exact Or.inr (Or.inl ⟨header,parsed,short⟩)
    have enough : header.payloadLength.toNat + 2 ≤ tail.length := by
      simp only [List.length_append,LumenHeader.toBytes_length] at short; omega
    obtain ⟨crc,etx,rest,split⟩ := exists_trailer (tail.drop header.payloadLength.toNat)
      (by simp; omega)
    refine Or.inr (Or.inr ⟨header,tail.take header.payloadLength.toNat,crc,etx,rest,valid,?_,?_⟩)
    · simp only [List.length_take]; omega
    · rw [List.append_assoc,← split,List.take_append_drop]

/-- Every position computed by the reader is inside the vector. -/
theorem fromBytes_total (bytes : List UInt8) : ∃ result, fromBytes bytes = .ok result := by
  rcases shape bytes with unreadable | ⟨header,readable,short⟩ |
    ⟨header,payload,crc,etx,rest,valid,length,rfl⟩
  · exact ⟨none,fromBytes_noHeader bytes unreadable⟩
  · exact ⟨none,fromBytes_incomplete bytes header readable short⟩
  · exact ⟨_,fromBytes_complete header payload rest crc etx valid length⟩

/-- The reader returns the packet at the front of any vector that starts with its encoding. -/
theorem fromBytes_toBytes (packet : LumenPacket) (rest : List UInt8) (valid : packet.WellFormed) :
    fromBytes (packet.toBytes ++ rest) = .ok (some packet) := by
  rw [toBytes_frame,fromBytes_complete _ _ _ _ _ valid.inRange valid.length,if_pos ⟨rfl,rfl⟩,
    new_self packet packet.payload rfl]

theorem fromBytes_some_iff (bytes : List UInt8) (packet : LumenPacket) :
    fromBytes bytes = .ok (some packet) ↔
      packet.WellFormed ∧ ∃ rest, bytes = packet.toBytes ++ rest := by
  constructor
  · intro parsed
    rcases shape bytes with unreadable | ⟨header,readable,short⟩ |
      ⟨header,payload,crc,etx,rest,valid,length,rfl⟩
    · rw [fromBytes_noHeader bytes unreadable] at parsed
      cases parsed
    · rw [fromBytes_incomplete bytes header readable short] at parsed
      cases parsed
    · rw [fromBytes_complete header payload rest crc etx valid length] at parsed
      split at parsed
      next accepted =>
        cases parsed
        obtain ⟨rfl,rfl⟩ := accepted
        have exact : (new header payload).header = header := by
          simp only [new,LumenHeader.setPayloadLength,← length,UInt16.ofNat_toNat]
        refine ⟨⟨?_,?_,?_,?_⟩,rest,?_⟩
        · rw [exact]; exact valid.1
        · rw [exact]; exact valid.2
        · have bound := header.payloadLength.toNat_lt
          change payload.length ≤ 65535
          omega
        · rw [exact]; exact length
        · rw [toBytes_frame,calculatePacketCrc,exact]; rfl
      next => cases parsed
  · rintro ⟨valid,rest,rfl⟩
    exact fromBytes_toBytes packet rest valid

/-- The reader accepts exactly the encodings of well-formed packets, with any bytes after
them. It stays inside the vector, reports a size that the vector has, and no vector starts
with the encodings of two packets. -/
theorem accepts_exactly_encodings (bytes : List UInt8) :
    (∃ result, fromBytes bytes = .ok result) ∧
    (∀ packet, fromBytes bytes = .ok (some packet) ↔
      packet.WellFormed ∧ ∃ rest, bytes = packet.toBytes ++ rest) ∧
    (∀ packet, fromBytes bytes = .ok (some packet) →
      packet.totalSize = packet.toBytes.length ∧ packet.totalSize ≤ bytes.length) ∧
    (∀ (packet other : LumenPacket) (rest tail : List UInt8), packet.WellFormed → other.WellFormed →
      bytes = packet.toBytes ++ rest → bytes = other.toBytes ++ tail → packet = other) := by
  refine ⟨fromBytes_total bytes,fromBytes_some_iff bytes,?_,?_⟩
  · intro packet parsed
    obtain ⟨_,rest,rfl⟩ := (fromBytes_some_iff bytes packet).mp parsed
    simp
  · rintro packet other rest tail first second rfl same
    have left := fromBytes_toBytes packet rest first
    have right := fromBytes_toBytes other tail second
    rw [same,right] at left
    cases left
    rfl

end LumenPacket

end Lumen
