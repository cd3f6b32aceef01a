import Lumen.Packet

/-! The parse/discard loop over one endpoint's receive buffer. A pass of the loop body
either hands a packet on, drops bytes and goes round again, or leaves the loop; `frameLoop`
threads an arbitrary state through the packets handed on, and its fuel is the buffer
length, which every pass that goes round again shortens. -/
namespace Lumen

open Bytes

def maxFrameBufferSize : Nat := 4096

/-- The readers never fault, so their fault case carries no behaviour of the loop. -/
def outcome : Except Fault (Option α) → Option α
  | .ok result => result
  | .error _ => none

inductive FrameStep where
  | deliver (packet : LumenPacket) (rest : List UInt8)
  | discard (rest : List UInt8)
  | stop (rest : List UInt8)
  deriving DecidableEq, Repr

/-- First start marker at position one or later. -/
def nextStxPos (buffer : List UInt8) : Option Nat :=
  ((buffer.drop 1).findIdx? (· = lumenStx)).map (· + 1)

def frameStep (buffer : List UInt8) : FrameStep :=
  match outcome (LumenPacket.fromBytes buffer) with
  | none =>
    match outcome (LumenHeader.fromBytes buffer) with
    | some header =>
      let expectedTotalSize := lumenHeaderSize + header.payloadLength.toNat + 2
      if buffer.length ≥ expectedTotalSize then .discard (buffer.drop expectedTotalSize)
      else .stop buffer
    | none =>
      match nextStxPos buffer with
      | some position => .discard (buffer.drop position)
      | none => .stop (if buffer.length > maxFrameBufferSize / 2 then [] else buffer)
  | some packet =>
    if packet.totalSize ≤ buffer.length then .deliver packet (buffer.drop packet.totalSize)
    else .stop []

def frameLoop (process : σ → LumenPacket → σ) : Nat → List UInt8 → σ → List UInt8 × σ
  | 0, buffer, s => (buffer,s)
  | fuel + 1, buffer, s =>
    if buffer.isEmpty then (buffer,s) else
      match frameStep buffer with
      | .deliver packet rest => frameLoop process fuel rest (process s packet)
      | .discard rest => frameLoop process fuel rest s
      | .stop rest => (rest,s)

/-- The whole function: the loop, then the bound on what may be kept. -/
def frames (process : σ → LumenPacket → σ) (buffer : List UInt8) (s : σ) : List UInt8 × σ :=
  let (rest,s) := frameLoop process buffer.length buffer s
  (if rest.length > maxFrameBufferSize then [] else rest,s)

/-- The packets handed on by the loop, in order, and the bytes kept. -/
def extract (buffer : List UInt8) : List UInt8 × List LumenPacket :=
  frames (fun packets packet => packets ++ [packet]) buffer []

/-! ### What one pass can do -/

/-- An intact packet at the front is handed on and exactly its bytes are removed. -/
theorem frameStep_packet (packet : LumenPacket) (rest : List UInt8) (valid : packet.WellFormed) :
    frameStep (packet.toBytes ++ rest) = .deliver packet rest := by
  have fits : packet.totalSize ≤ (packet.toBytes ++ rest).length := by simp
  simp only [frameStep,LumenPacket.fromBytes_toBytes packet rest valid,outcome,if_pos fits]
  rw [← LumenPacket.toBytes_length,List.drop_left]

/-- A whole frame that is not a packet is dropped as one piece. -/
theorem frameStep_broken (header : LumenHeader) (payload rest : List UInt8) (crc etx : UInt8)
    (valid : header.InRange) (length : header.payloadLength.toNat = payload.length)
    (broken : ¬ (etx = lumenEtx ∧ LumenHeader.calculateCrc8 (header.toBytes ++ payload) = crc)) :
    frameStep (header.toBytes ++ payload ++ crc :: etx :: rest) = .discard rest := by
  have readable := LumenHeader.fromBytes_toBytes header (payload ++ crc :: etx :: rest) valid
  rw [← List.append_assoc] at readable
  have size : (header.toBytes ++ payload ++ [crc,etx]).length =
      lumenHeaderSize + header.payloadLength.toNat + 2 := by
    simp [lumenHeaderSize]; omega
  have split : header.toBytes ++ payload ++ crc :: etx :: rest =
      header.toBytes ++ payload ++ [crc,etx] ++ rest := by simp
  have enough : (header.toBytes ++ payload ++ crc :: etx :: rest).length ≥
      lumenHeaderSize + header.payloadLength.toNat + 2 := by
    rw [split,List.length_append]; omega
  simp only [frameStep,LumenPacket.fromBytes_complete header payload rest crc etx valid length,
    if_neg broken,readable,outcome,if_pos enough]
  rw [split,← size,List.drop_left]

/-- A readable header whose frame is not complete makes the loop wait. -/
theorem frameStep_waiting (buffer : List UInt8) (header : LumenHeader)
    (readable : LumenHeader.fromBytes buffer = .ok (some header))
    (short : buffer.length < 10 + header.payloadLength.toNat + 2) :
    frameStep buffer = .stop buffer := by
  have partly : ¬ buffer.length ≥ lumenHeaderSize + header.payloadLength.toNat + 2 := by
    simp only [lumenHeaderSize]; omega
  simp only [frameStep,LumenPacket.fromBytes_incomplete buffer header readable short,readable,
    outcome,if_neg partly]

theorem nextStxPos_some (skipped rest : List UInt8) (first : UInt8)
    (clean : lumenStx ∉ skipped) :
    nextStxPos (first :: skipped ++ lumenStx :: rest) = some (skipped.length + 1) := by
  have hit : (skipped ++ lumenStx :: rest).findIdx? (· = lumenStx) = some skipped.length := by
    rw [List.findIdx?_eq_some_iff_getElem]
    refine ⟨by simp,by simp,fun index before => ?_⟩
    rw [List.getElem_append_left before]
    simp only [decide_eq_true_eq]
    intro same
    exact clean (same ▸ List.getElem_mem before)
  simp [nextStxPos,hit]

theorem nextStxPos_none (buffer : List UInt8) (clean : lumenStx ∉ buffer.drop 1) :
    nextStxPos buffer = none := by
  simp only [nextStxPos,Option.map_eq_none_iff,List.findIdx?_eq_none_iff,decide_eq_false_iff_not]
  intro byte member same
  exact clean (same ▸ member)

/-- Without a readable header the bytes before the next start marker are dropped. -/
theorem frameStep_resync (first : UInt8) (skipped rest : List UInt8) (clean : lumenStx ∉ skipped)
    (unreadable : LumenHeader.fromBytes (first :: skipped ++ lumenStx :: rest) = .ok none) :
    frameStep (first :: skipped ++ lumenStx :: rest) = .discard (lumenStx :: rest) := by
  simp only [frameStep,LumenPacket.fromBytes_noHeader _ unreadable,unreadable,outcome,
    nextStxPos_some skipped rest first clean]
  rw [show skipped.length + 1 = (first :: skipped).length from rfl,List.drop_left]

theorem frameStep_lost (buffer : List UInt8) (clean : lumenStx ∉ buffer.drop 1)
    (unreadable : LumenHeader.fromBytes buffer = .ok none) :
    frameStep buffer = .stop (if buffer.length > maxFrameBufferSize / 2 then [] else buffer) := by
  simp only [frameStep,LumenPacket.fromBytes_noHeader _ unreadable,unreadable,outcome,
    nextStxPos_none buffer clean]

/-- A list without the marker, or split at its first occurrence. -/
theorem split_at_stx (bytes : List UInt8) :
    lumenStx ∉ bytes ∨ ∃ skipped rest, lumenStx ∉ skipped ∧ bytes = skipped ++ lumenStx :: rest := by
  by_cases member : lumenStx ∈ bytes
  · obtain ⟨skipped,rest,split,clean⟩ := List.eq_append_cons_of_mem member
    exact Or.inr ⟨skipped,rest,clean,split⟩
  · exact Or.inl member

/-- Everything one pass over a non-empty buffer can do. -/
inductive FrameCase (buffer : List UInt8) : FrameStep → Prop where
  | packet (packet : LumenPacket) (rest : List UInt8) (valid : packet.WellFormed)
      (split : buffer = packet.toBytes ++ rest) : FrameCase buffer (.deliver packet rest)
  | broken (header : LumenHeader) (frame rest : List UInt8)
      (readable : LumenHeader.fromBytes buffer = .ok (some header))
      (size : frame.length = 10 + header.payloadLength.toNat + 2)
      (split : buffer = frame ++ rest) : FrameCase buffer (.discard rest)
  | waiting (header : LumenHeader)
      (readable : LumenHeader.fromBytes buffer = .ok (some header))
      (short : buffer.length < 10 + header.payloadLength.toNat + 2) :
      FrameCase buffer (.stop buffer)
  | resync (first : UInt8) (skipped rest : List UInt8)
      (unreadable : LumenHeader.fromBytes buffer = .ok none) (clean : lumenStx ∉ skipped)
      (split : buffer = first :: skipped ++ lumenStx :: rest) :
      FrameCase buffer (.discard (lumenStx :: rest))
  | lost (unreadable : LumenHeader.fromBytes buffer = .ok none)
      (clean : lumenStx ∉ buffer.drop 1) :
      FrameCase buffer (.stop (if buffer.length > maxFrameBufferSize / 2 then [] else buffer))

theorem frameStep_cases (buffer : List UInt8) (nonempty : buffer ≠ []) :
    FrameCase buffer (frameStep buffer) := by
  rcases LumenPacket.shape buffer with unreadable | ⟨header,readable,short⟩ |
    ⟨header,payload,crc,etx,rest,valid,length,split⟩
  · obtain ⟨first,tail,rfl⟩ := List.exists_cons_of_ne_nil nonempty
    rcases split_at_stx tail with clean | ⟨skipped,rest,clean,rfl⟩
    · rw [frameStep_lost (first :: tail) clean unreadable]
      exact .lost unreadable clean
    · have passed := frameStep_resync first skipped rest clean unreadable
      rw [List.cons_append] at passed
      rw [passed]
      exact .resync first skipped rest unreadable clean rfl
  · rw [frameStep_waiting buffer header readable short]
    exact .waiting header readable short
  · have readable := LumenHeader.fromBytes_toBytes header (payload ++ crc :: etx :: rest) valid
    rw [← List.append_assoc,← split] at readable
    by_cases intact : etx = lumenEtx ∧ LumenHeader.calculateCrc8 (header.toBytes ++ payload) = crc
    · have parsed := LumenPacket.fromBytes_complete header payload rest crc etx valid length
      rw [if_pos intact,← split] at parsed
      obtain ⟨wellFormed,tail,same⟩ := (LumenPacket.fromBytes_some_iff _ _).mp parsed
      rw [same,frameStep_packet _ _ wellFormed]
      exact .packet _ _ wellFormed rfl
    · have passed := frameStep_broken header payload rest crc etx valid length intact
      rw [← split] at passed
      rw [passed]
      refine .broken header (header.toBytes ++ payload ++ [crc,etx]) rest readable ?_ (by simp [split])
      simp; omega

/-- Going round again always leaves strictly fewer bytes. -/
theorem frameStep_shrinks (buffer rest : List UInt8) (nonempty : buffer ≠ [])
    (again : (∃ packet, frameStep buffer = .deliver packet rest) ∨
      frameStep buffer = .discard rest) : rest.length < buffer.length := by
  have cases := frameStep_cases buffer nonempty
  rcases again with ⟨packet,passed⟩ | passed
  · rw [passed] at cases
    cases cases with
    | packet _ _ _ split => subst split; simp [LumenPacket.totalSize]
  · rw [passed] at cases
    cases cases with
    | broken header frame _ _ size split => subst split; simp; omega
    | resync first skipped rest _ _ split =>
      subst split
      simp only [List.length_cons,List.length_append]
      omega

/-! ### Runs of the loop -/

/-- Collecting packets one by one. -/
theorem foldl_collect (collected more : List LumenPacket) :
    more.foldl (fun packets packet => packets ++ [packet]) collected = collected ++ more := by
  induction more generalizing collected with
  | nil => simp
  | cons packet more ih => simp [ih]

/-- The passes of the loop over a buffer until it is left, the packets handed on and the bytes
that are then still there. No number of passes is given beforehand. -/
inductive FrameRun : List UInt8 → List LumenPacket → List UInt8 → Prop where
  | empty : FrameRun [] [] []
  | deliver {buffer rest kept : List UInt8} {packet : LumenPacket} {packets : List LumenPacket}
      (nonempty : buffer ≠ []) (passed : frameStep buffer = .deliver packet rest)
      (later : FrameRun rest packets kept) : FrameRun buffer (packet :: packets) kept
  | discard {buffer rest kept : List UInt8} {packets : List LumenPacket}
      (nonempty : buffer ≠ []) (passed : frameStep buffer = .discard rest)
      (later : FrameRun rest packets kept) : FrameRun buffer packets kept
  | stop {buffer kept : List UInt8} (nonempty : buffer ≠ [])
      (passed : frameStep buffer = .stop kept) : FrameRun buffer [] kept

/-- The loop terminates on every buffer. -/
theorem exists_frameRun (buffer : List UInt8) : ∃ packets kept, FrameRun buffer packets kept := by
  induction size : buffer.length using Nat.strong_induction_on generalizing buffer with
  | _ n ih =>
    subst size
    by_cases nonempty : buffer = []
    · exact ⟨[],[],nonempty ▸ .empty⟩
    cases passed : frameStep buffer with
    | deliver packet rest =>
      have shorter := frameStep_shrinks buffer rest nonempty (Or.inl ⟨packet,passed⟩)
      obtain ⟨packets,kept,later⟩ := ih _ shorter rest rfl
      exact ⟨packet :: packets,kept,.deliver nonempty passed later⟩
    | discard rest =>
      have shorter := frameStep_shrinks buffer rest nonempty (Or.inr passed)
      obtain ⟨packets,kept,later⟩ := ih _ shorter rest rfl
      exact ⟨packets,kept,.discard nonempty passed later⟩
    | stop kept => exact ⟨[],kept,.stop nonempty passed⟩

namespace FrameRun

/-- With as much fuel as there are bytes, or more, the loop stops on its own and not for want of
fuel. -/
theorem frameLoop_eq (run : FrameRun buffer packets kept) (process : σ → LumenPacket → σ)
    (fuel : Nat) (s : σ) (enough : buffer.length ≤ fuel) :
    frameLoop process fuel buffer s = (kept,packets.foldl process s) := by
  induction run generalizing fuel s with
  | empty => cases fuel <;> rfl
  | @deliver buffer _ _ packet _ nonempty passed later ih =>
    have shorter := frameStep_shrinks _ _ nonempty (Or.inl ⟨packet,passed⟩)
    obtain ⟨fuel,rfl⟩ : ∃ k, fuel = k + 1 := ⟨fuel - 1,by omega⟩
    rw [frameLoop,if_neg (by simpa using nonempty),passed]
    exact ih fuel _ (by omega)
  | @discard buffer _ _ _ nonempty passed later ih =>
    have shorter := frameStep_shrinks _ _ nonempty (Or.inr passed)
    obtain ⟨fuel,rfl⟩ : ∃ k, fuel = k + 1 := ⟨fuel - 1,by omega⟩
    rw [frameLoop,if_neg (by simpa using nonempty),passed]
    exact ih fuel s (by omega)
  | @stop buffer _ nonempty passed =>
    have some : 0 < buffer.length := List.length_pos_iff.mpr nonempty
    obtain ⟨fuel,rfl⟩ : ∃ k, fuel = k + 1 := ⟨fuel - 1,by omega⟩
    rw [frameLoop,if_neg (by simpa using nonempty),passed]
    rfl

theorem extract_eq (run : FrameRun buffer packets kept) :
    extract buffer = (if kept.length > maxFrameBufferSize then [] else kept,packets) := by
  simp only [extract,frames,run.frameLoop_eq _ _ _ (Nat.le_refl _),foldl_collect,List.nil_append]

end FrameRun

/-- The function hands its packets on in order and never looks at what became of them. -/
theorem frames_extract (process : σ → LumenPacket → σ) (buffer : List UInt8) (s : σ) :
    frames process buffer s = ((extract buffer).1,(extract buffer).2.foldl process s) := by
  obtain ⟨packets,kept,run⟩ := exists_frameRun buffer
  rw [run.extract_eq]
  simp only [frames,run.frameLoop_eq _ _ _ (Nat.le_refl _)]

/-- What is extracted is what a run hands on and keeps, up to the bound on the latter. -/
theorem extract_run (buffer : List UInt8) :
    ∃ kept, FrameRun buffer (extract buffer).2 kept ∧
      (extract buffer).1 = if kept.length > maxFrameBufferSize then [] else kept := by
  obtain ⟨packets,kept,run⟩ := exists_frameRun buffer
  refine ⟨kept,?_,?_⟩
  · rw [run.extract_eq]
    exact run
  · rw [run.extract_eq]

theorem discard_suffix {buffer rest : List UInt8} (nonempty : buffer ≠ [])
    (passed : frameStep buffer = .discard rest) : ∃ skipped, buffer = skipped ++ rest := by
  have cases := frameStep_cases buffer nonempty
  rw [passed] at cases
  cases cases with
  | broken header frame _ _ _ split => exact ⟨frame,split⟩
  | resync first skipped rest _ _ split => exact ⟨first :: skipped,split⟩

theorem deliver_split {buffer rest : List UInt8} {packet : LumenPacket} (nonempty : buffer ≠ [])
    (passed : frameStep buffer = .deliver packet rest) : buffer = packet.toBytes ++ rest := by
  have cases := frameStep_cases buffer nonempty
  rw [passed] at cases
  cases cases with
  | packet _ _ _ split => exact split

theorem stop_suffix {buffer kept : List UInt8} (nonempty : buffer ≠ [])
    (passed : frameStep buffer = .stop kept) : ∃ skipped, buffer = skipped ++ kept := by
  have cases := frameStep_cases buffer nonempty
  rw [passed] at cases
  cases cases with
  | waiting => exact ⟨[],rfl⟩
  | lost =>
    split
    · exact ⟨buffer,(List.append_nil buffer).symm⟩
    · exact ⟨[],rfl⟩

/-- Nothing is used twice: the packets handed on and the bytes kept fit into the buffer. -/
theorem FrameRun.size (run : FrameRun buffer packets kept) :
    (packets.flatMap LumenPacket.toBytes).length + kept.length ≤ buffer.length := by
  induction run with
  | empty => simp
  | deliver nonempty passed later ih =>
    rw [deliver_split nonempty passed,List.flatMap_cons,List.length_append,List.length_append]
    omega
  | discard nonempty passed later ih =>
    have shorter := frameStep_shrinks _ _ nonempty (Or.inr passed)
    omega
  | stop nonempty passed =>
    obtain ⟨skipped,before⟩ := stop_suffix nonempty passed
    rw [before]
    simp

/-- No packet handed on is larger than the buffer it came from. -/
theorem totalSize_le_of_mem_extract {buffer : List UInt8} {packet : LumenPacket}
    (member : packet ∈ (extract buffer).2) : packet.totalSize ≤ buffer.length := by
  obtain ⟨kept,run,_⟩ := extract_run buffer
  have fits := run.size
  obtain ⟨before,after,split⟩ := List.append_of_mem member
  rw [split,List.flatMap_append,List.flatMap_cons] at fits
  simp only [List.length_append,LumenPacket.toBytes_length] at fits
  omega

/-! The function itself, pass by pass. -/

theorem extract_deliver {buffer rest : List UInt8} {packet : LumenPacket} (nonempty : buffer ≠ [])
    (passed : frameStep buffer = .deliver packet rest) :
    extract buffer = ((extract rest).1,packet :: (extract rest).2) := by
  obtain ⟨packets,kept,run⟩ := exists_frameRun rest
  rw [(run.deliver nonempty passed).extract_eq,run.extract_eq]

theorem extract_discard {buffer rest : List UInt8} (nonempty : buffer ≠ [])
    (passed : frameStep buffer = .discard rest) : extract buffer = extract rest := by
  obtain ⟨packets,kept,run⟩ := exists_frameRun rest
  rw [(run.discard nonempty passed).extract_eq,run.extract_eq]

theorem extract_stop {buffer kept : List UInt8} (nonempty : buffer ≠ [])
    (passed : frameStep buffer = .stop kept) : (extract buffer).2 = [] := by
  rw [(FrameRun.stop nonempty passed).extract_eq]

/-- An intact packet at the front comes out first. -/
theorem extract_packet (packet : LumenPacket) (rest : List UInt8) (valid : packet.WellFormed) :
    extract (packet.toBytes ++ rest) = ((extract rest).1,packet :: (extract rest).2) := by
  obtain ⟨tail,encoded⟩ := packet.toBytes_cons
  exact extract_deliver (by simp [encoded]) (frameStep_packet packet rest valid)

/-! ### Whole frames, and what is kept between datagrams -/

/-- A frame on the wire: an encoding, or a complete frame with a readable header whose end
marker or checksum is wrong. -/
inductive Frame where
  | intact (packet : LumenPacket) (valid : packet.WellFormed)
  | damaged (header : LumenHeader) (payload : List UInt8) (crc etx : UInt8)
      (valid : header.InRange) (length : header.payloadLength.toNat = payload.length)
      (broken : etx ≠ lumenEtx ∨ crc ≠ LumenHeader.calculateCrc8 (header.toBytes ++ payload))

namespace Frame

def bytes : Frame → List UInt8
  | intact packet _ => packet.toBytes
  | damaged header payload crc etx _ _ _ => header.toBytes ++ payload ++ [crc,etx]

def packet? : Frame → Option LumenPacket
  | intact packet _ => some packet
  | damaged .. => none

/-- The damaged frames are the byte strings the length field still describes. -/
theorem exists_damaged_iff (bytes : List UInt8) :
    (∃ frame : Frame, frame.packet? = none ∧ frame.bytes = bytes) ↔
      ∃ header, LumenHeader.fromBytes bytes = .ok (some header) ∧
        bytes.length = 12 + header.payloadLength.toNat ∧
        LumenPacket.fromBytes bytes = .ok none := by
  constructor
  · rintro ⟨frame,none,rfl⟩
    cases frame with
    | intact packet valid => cases none
    | damaged header payload crc etx valid length broken =>
      refine ⟨header,?_,by simp [Frame.bytes]; omega,?_⟩
      · simp only [Frame.bytes,List.append_assoc]
        exact LumenHeader.fromBytes_toBytes header _ valid
      · simp only [Frame.bytes]
        rw [LumenPacket.fromBytes_complete header payload [] crc etx valid length,if_neg]
        rintro ⟨marker,agrees⟩
        exact broken.elim (fun h => h marker) (fun h => h agrees.symm)
  · rintro ⟨header,readable,size,rejected⟩
    rcases LumenPacket.shape bytes with unreadable | ⟨other,parsed,short⟩ |
      ⟨other,payload,crc,etx,rest,valid,length,rfl⟩
    · rw [readable] at unreadable; cases unreadable
    · rw [readable] at parsed; cases parsed; omega
    · have parsed := LumenHeader.fromBytes_toBytes other (payload ++ crc :: etx :: rest) valid
      rw [← List.append_assoc,readable] at parsed
      cases parsed
      obtain rfl : rest = [] := by
        apply List.eq_nil_of_length_eq_zero
        simp at size; omega
      rw [LumenPacket.fromBytes_complete header payload [] crc etx valid length] at rejected
      refine ⟨.damaged header payload crc etx valid length ?_,rfl,rfl⟩
      by_contra sound
      push Not at sound
      rw [if_pos ⟨sound.1,sound.2.symm⟩] at rejected
      cases rejected

end Frame

/-- Any concatenation of frames is consumed whole, and exactly its packets come out. -/
theorem extract_frames (frames : List Frame) :
    extract (frames.flatMap Frame.bytes) = ([],frames.filterMap Frame.packet?) := by
  induction frames with
  | nil => rfl
  | cons frame rest ih =>
    cases frame with
    | intact packet valid =>
      simp only [List.flatMap_cons,Frame.bytes,extract_packet packet _ valid]
      rw [ih]
      rfl
    | damaged header payload crc etx valid length broken =>
      have dropped := frameStep_broken header payload (rest.flatMap Frame.bytes) crc etx valid length
        (fun sound => broken.elim (fun h => h sound.1) (fun h => h sound.2.symm))
      simp only [List.flatMap_cons,Frame.bytes,List.append_assoc,List.cons_append,List.nil_append] at dropped ⊢
      rw [extract_discard (by simp [LumenHeader.toBytes]) dropped]
      exact ih

/-- What the loop keeps: nothing, or the start of a declared frame, or bytes without a
readable header and without a later start marker. -/
def Settled (buffer : List UInt8) : Prop :=
  buffer = [] ∨
  (∃ header, LumenHeader.fromBytes buffer = .ok (some header) ∧
    buffer.length < 10 + header.payloadLength.toNat + 2) ∨
  (LumenHeader.fromBytes buffer = .ok none ∧ lumenStx ∉ buffer.drop 1)

/-- The form in which the loop leaves a buffer: empty, or the beginning of a declared frame within
the bound, or few bytes without a readable header and without a later start marker. -/
def Residual (buffer : List UInt8) : Prop :=
  buffer = [] ∨
  (∃ header, LumenHeader.fromBytes buffer = .ok (some header) ∧
    buffer.length < lumenHeaderSize + header.payloadLength.toNat + 2 ∧
    buffer.length ≤ maxFrameBufferSize) ∨
  (LumenHeader.fromBytes buffer = .ok none ∧ lumenStx ∉ buffer.drop 1 ∧
    buffer.length ≤ maxFrameBufferSize / 2)

/-- A run that keeps no more than the bound leaves the normal form. -/
theorem FrameRun.residual (run : FrameRun buffer packets kept)
    (bounded : kept.length ≤ maxFrameBufferSize) : Residual kept := by
  induction run with
  | empty => exact Or.inl rfl
  | deliver nonempty passed later ih => exact ih bounded
  | discard nonempty passed later ih => exact ih bounded
  | stop nonempty passed =>
    have cases := frameStep_cases _ nonempty
    rw [passed] at cases
    cases cases with
    | waiting header readable short => exact Or.inr (Or.inl ⟨header,readable,short,bounded⟩)
    | lost unreadable clean =>
      split
      · exact Or.inl rfl
      next small => exact Or.inr (Or.inr ⟨unreadable,clean,Nat.not_lt.mp small⟩)

theorem extract_residual (buffer : List UInt8) : Residual (extract buffer).1 := by
  obtain ⟨kept,run,left⟩ := extract_run buffer
  rw [left]
  split
  · exact Or.inl rfl
  next bounded => exact run.residual (Nat.not_lt.mp bounded)

/-- The normal form is left alone. -/
theorem Residual.extract_eq (residual : Residual buffer) : extract buffer = (buffer,[]) := by
  by_cases empty : buffer = []
  · subst empty
    rfl
  have stopped : FrameRun buffer [] buffer ∧ buffer.length ≤ maxFrameBufferSize := by
    rcases residual with nothing | ⟨header,readable,short,bounded⟩ | ⟨unreadable,clean,small⟩
    · exact absurd nothing empty
    · exact ⟨.stop empty (frameStep_waiting buffer header readable short),bounded⟩
    · have kept := frameStep_lost buffer clean unreadable
      rw [if_neg (Nat.not_lt.mpr small)] at kept
      exact ⟨.stop empty kept,small.trans (Nat.div_le_self _ _)⟩
  rw [stopped.1.extract_eq,if_neg (Nat.not_lt.mpr stopped.2)]

theorem extract_settled (buffer : List UInt8) : Settled (extract buffer).1 := by
  rcases extract_residual buffer with empty | ⟨header,readable,short,_⟩ | ⟨unreadable,clean,_⟩
  · exact Or.inl empty
  · exact Or.inr (Or.inl ⟨header,readable,short⟩)
  · exact Or.inr (Or.inr ⟨unreadable,clean⟩)

/-- The datagram is read at its own boundary: nothing is kept from before, or what is kept
does not turn into a header once the datagram follows it. -/
def InSync (kept datagram : List UInt8) : Prop :=
  kept = [] ∨ LumenHeader.fromBytes (kept ++ datagram) = .ok none

/-- Kept bytes that stay unreadable are skipped up to the datagram, which is then read. -/
theorem extract_inSync (kept : List UInt8) (packet : LumenPacket) (valid : packet.WellFormed)
    (settled : Settled kept) (sync : InSync kept packet.toBytes) :
    extract (kept ++ packet.toBytes) = ([],[packet]) := by
  have alone : extract packet.toBytes = ([],[packet]) := by
    have single := extract_frames [.intact packet valid]
    simp only [List.flatMap_cons,List.flatMap_nil,Frame.bytes,List.append_nil] at single
    exact single
  rcases sync with rfl | unreadable
  · exact alone
  rcases settled with rfl | ⟨header,readable,short⟩ | ⟨_,clean⟩
  · exact alone
  · obtain ⟨_,rest,rfl⟩ := (LumenHeader.fromBytes_some_iff kept header).mp readable
    rw [LumenHeader.fromBytes_append _ _ (by simp),readable] at unreadable
    cases unreadable
  · cases kept with
    | nil => exact alone
    | cons first skipped =>
      obtain ⟨tail,encoded⟩ := packet.toBytes_cons
      have dropped := frameStep_resync first skipped tail clean (by rw [← encoded]; exact unreadable)
      rw [← encoded] at dropped
      rw [extract_discard (by simp) dropped]
      exact alone

/-- Out of sync, a header read across the boundary claims at least the first byte of the
datagram. -/
theorem readable_claims_boundary (kept datagram : List UInt8) (header : LumenHeader)
    (settled : Settled kept) (nonempty : kept ≠ [])
    (readable : LumenHeader.fromBytes (kept ++ datagram) = .ok (some header)) :
    kept.length < 10 + header.payloadLength.toNat + 2 := by
  by_cases long : 10 ≤ kept.length
  · rw [LumenHeader.fromBytes_append _ _ long] at readable
    rcases settled with rfl | ⟨other,parsed,short⟩ | ⟨unreadable,_⟩
    · exact absurd rfl nonempty
    · rw [readable] at parsed; cases parsed; exact short
    · rw [readable] at unreadable; cases unreadable
  · omega

/-- Out of sync a datagram is handed on only by a coincidence: the kept bytes followed by the
datagram start with the datagram. -/
theorem packet_starts (kept : List UInt8) (packet : LumenPacket) (header : LumenHeader)
    (settled : Settled kept) (nonempty : kept ≠ [])
    (parsed : LumenHeader.fromBytes (kept ++ packet.toBytes) = .ok (some header))
    (member : packet ∈ (extract (kept ++ packet.toBytes)).2) :
    packet.toBytes <+: kept ++ packet.toBytes := by
  have claimed := readable_claims_boundary kept packet.toBytes header settled nonempty parsed
  have total : (kept ++ packet.toBytes).length = kept.length + packet.totalSize := by simp
  have there : kept ++ packet.toBytes ≠ [] := by simp [nonempty]
  have cases := frameStep_cases _ there
  cases passed : frameStep (kept ++ packet.toBytes) with
  | deliver front rest =>
    rw [extract_deliver there passed] at member
    rw [passed] at cases
    cases cases with
    | packet _ _ frontValid split =>
      have size : front.totalSize = 10 + header.payloadLength.toNat + 2 := by
        have same := LumenHeader.fromBytes_toBytes front.header
          (front.payload ++ front.calculatePacketCrc :: lumenEtx :: rest) frontValid.inRange
        rw [← List.append_assoc,← LumenPacket.toBytes_frame,← split,parsed] at same
        cases same
        rw [frontValid.length]; rfl
      rcases List.mem_cons.mp member with rfl | later
      · exact ⟨rest,split.symm⟩
      · have small := totalSize_le_of_mem_extract later
        rw [split,List.length_append,LumenPacket.toBytes_length,size] at total
        omega
  | discard rest =>
    rw [extract_discard there passed] at member
    rw [passed] at cases
    have small := totalSize_le_of_mem_extract member
    cases cases with
    | broken other frame _ readable size split =>
      rw [parsed] at readable
      cases readable
      rw [split,List.length_append,size] at total
      omega
    | resync _ _ _ unreadable => rw [parsed] at unreadable; cases unreadable
  | stop rest => rw [extract_stop there passed] at member; cases member

/-- Exactly when a datagram that is one encoding is handed on in its own step. -/
theorem packet_mem_extract_iff (kept : List UInt8) (packet : LumenPacket)
    (valid : packet.WellFormed) (settled : Settled kept) :
    packet ∈ (extract (kept ++ packet.toBytes)).2 ↔
      InSync kept packet.toBytes ∨ packet.toBytes <+: kept ++ packet.toBytes := by
  constructor
  · intro member
    by_cases sync : InSync kept packet.toBytes
    · exact Or.inl sync
    · right
      have nonempty : kept ≠ [] := fun empty => sync (Or.inl empty)
      obtain ⟨result,parsed⟩ := LumenHeader.fromBytes_total (kept ++ packet.toBytes)
      cases result with
      | none => exact absurd (Or.inr parsed) sync
      | some header => exact packet_starts kept packet header settled nonempty parsed member
  · rintro (sync | ⟨rest,split⟩)
    · rw [extract_inSync kept packet valid settled sync]; simp
    · rw [← split,extract_packet packet rest valid]
      exact List.mem_cons_self

end Lumen
