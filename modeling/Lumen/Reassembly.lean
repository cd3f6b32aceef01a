import Lumen.Reception

/-! What the framing loop does to a stream of bytes. A run of the loop is finite and cuts the
buffer into skipped bytes and packets; what it keeps is in a normal form that a second run leaves
alone. Fed with the encodings of packets in pieces, it hands on exactly these packets unless a
cut leaves the beginning of a header that holds a start marker of its own. -/
namespace Lumen

/-! ### The buffer is cut, and nothing else -/

/-- Encodings in order, each followed by the bytes that were skipped after it. -/
def laidOut (packets : List LumenPacket) (gaps : List (List UInt8)) : List UInt8 :=
  (List.zipWith (fun packet gap => packet.toBytes ++ gap) packets gaps).flatten

/-- Whatever is then dropped from what the loop keeps, the buffer is the packets handed on, bytes
that were skipped, and the rest. -/
theorem FrameRun.slices (run : FrameRun buffer packets kept) {dropped rest : List UInt8}
    (split : kept = dropped ++ rest) :
    ∃ first gaps, gaps.length = packets.length ∧
      buffer = first ++ laidOut packets gaps ++ rest := by
  induction run with
  | empty => exact ⟨dropped,[],rfl,by simpa [laidOut] using split⟩
  | deliver nonempty passed later ih =>
    obtain ⟨first,gaps,count,cut⟩ := ih split
    refine ⟨[],first :: gaps,by simp [count],?_⟩
    rw [deliver_split nonempty passed,cut]
    simp [laidOut]
  | discard nonempty passed later ih =>
    obtain ⟨first,gaps,count,cut⟩ := ih split
    obtain ⟨skipped,before⟩ := discard_suffix nonempty passed
    refine ⟨skipped ++ first,gaps,count,?_⟩
    rw [before,cut]
    simp
  | stop nonempty passed =>
    obtain ⟨skipped,before⟩ := stop_suffix nonempty passed
    refine ⟨skipped ++ dropped,[],rfl,?_⟩
    rw [before,split]
    simp [laidOut]

/-- A packet that was read is never larger than the bytes it was read from. -/
theorem totalSize_le_of_read {bytes : List UInt8} {packet : LumenPacket}
    (read : LumenPacket.fromBytes bytes = .ok (some packet)) : packet.totalSize ≤ bytes.length := by
  obtain ⟨_,rest,rfl⟩ := (LumenPacket.fromBytes_some_iff bytes packet).mp read
  simp

/-- The framing function terminates and invents nothing: its buffer is the packets it processes,
in order and apart from each other, bytes it skips, and what it leaves. The branch for a packet
larger than its buffer is never entered. -/
theorem LumenProtocol.processFrameBuffer_slices (s : LumenProtocol) (key : String)
    (endpoint : Endpoint) :
    let t := s.processFrameBuffer key endpoint
    (∃ packets kept first gaps,
      FrameRun (s.frameBuffers key) packets kept ∧
      t.processed = s.processed ++ packets.map (·,endpoint) ∧
      t.frameBuffers key = (if kept.length > maxFrameBufferSize then [] else kept) ∧
      gaps.length = packets.length ∧
      s.frameBuffers key = first ++ laidOut packets gaps ++ t.frameBuffers key) ∧
    ∀ bytes packet, ¬ (LumenPacket.fromBytes bytes = .ok (some packet) ∧
      bytes.length < packet.totalSize) := by
  obtain ⟨kept,run,left⟩ := extract_run (s.frameBuffers key)
  obtain ⟨_,buffers,marks⟩ := s.processFrameBuffer_effect key endpoint
  have dropped : ∃ dropped, kept = dropped ++ (extract (s.frameBuffers key)).1 := by
    rw [left]
    split
    · exact ⟨kept,(List.append_nil kept).symm⟩
    · exact ⟨[],rfl⟩
  obtain ⟨dropped,split⟩ := dropped
  obtain ⟨first,gaps,count,cut⟩ := run.slices split
  constructor
  · refine ⟨_,kept,first,gaps,run,marks,?_,count,?_⟩
    · rw [buffers,Function.update_self,left]
    · rw [buffers,Function.update_self]
      exact cut
  · rintro bytes packet ⟨read,larger⟩
    exact absurd (totalSize_le_of_read read) (Nat.not_le.mpr larger)

/-! ### What is left between datagrams -/

namespace LumenProtocol

open Endpoint

/-- Whatever arrives from wherever, between two inputs every buffer of a node that was started is
in normal form, and running the framing function again on one changes nothing at all. -/
theorem buffers_residual (codec : Codec) (node : LumenProtocol) (idle : node.running = false)
    (inputs : List Input) :
    let s := Machine.run (step codec) node.start inputs
    ∀ key endpoint, Residual (s.frameBuffers key) ∧ s.processFrameBuffer key endpoint = s := by
  have started : node.start.running = true ∧ ∀ key, Residual (node.start.frameBuffers key) := by
    simp only [start,idle,Bool.false_eq_true,if_false,true_and]
    exact fun _ => Or.inl rfl
  have resting := Machine.run_invariant (step codec)
    (step_buffers codec (Or.inl rfl) extract_residual) node.start inputs started
  intro s key endpoint
  have residual : Residual (s.frameBuffers key) := resting.2 key
  refine ⟨residual,?_⟩
  rw [processFrameBuffer_eq,residual.extract_eq,List.foldl_nil,setFrameBuffer,
    Function.update_eq_self]

/-- A header whose frame is still to come waits as it is. -/
theorem buffers_residual_waiting :
    let s := Machine.run (step .silent) (new .baseStation .unspecified ⟨0,0⟩).start
      [.datagram corruptedLength sampleRover]
    s.frameBuffers (getEndpointKey sampleRover) = corruptedLength ∧
      Residual corruptedLength ∧ s.processFrameBuffer (getEndpointKey sampleRover) sampleRover = s := by
  intro s
  have waiting : s.frameBuffers (getEndpointKey sampleRover) = corruptedLength := by decide +kernel
  have rests := buffers_residual .silent (new .baseStation .unspecified ⟨0,0⟩) rfl
    [.datagram corruptedLength sampleRover] (getEndpointKey sampleRover) sampleRover
  exact ⟨waiting,waiting ▸ rests.1,rests.2⟩

end LumenProtocol

/-! ### Encodings that arrive in pieces -/

/-- What is left of a stream of encodings once the whole ones at its front are taken off. -/
def openPart : List LumenPacket → List UInt8 → List UInt8
  | [], bytes => bytes
  | packet :: packets, bytes =>
    if packet.totalSize ≤ bytes.length then openPart packets (bytes.drop packet.totalSize) else bytes

/-- An open part that the loop keeps: it holds the whole header, or no start marker but its own. -/
def Waits (part : List UInt8) : Prop := part.length < lumenHeaderSize → lumenStx ∉ part.drop 1

instance (part : List UInt8) : Decidable (Waits part) := inferInstanceAs (Decidable (_ → _))

/-- Every cut leaves a part open that the loop keeps. -/
def CutsWait (packets : List LumenPacket) (pieces : List (List UInt8)) : Prop :=
  ∀ done ∈ pieces.inits, Waits (openPart packets done.flatten)

instance (packets : List LumenPacket) (pieces : List (List UInt8)) :
    Decidable (CutsWait packets pieces) :=
  inferInstanceAs (Decidable (∀ done ∈ pieces.inits, _))

/-- The stream so far stops before the end of the next packet, or everything has arrived. -/
def Opens (packets : List LumenPacket) (part : List UInt8) : Prop :=
  (packets = [] ∧ part = []) ∨
  ∃ next later, packets = next :: later ∧ part <+: next.toBytes ∧ part.length < next.totalSize

theorem openPart_append (whole packets : List LumenPacket) (bytes : List UInt8) :
    openPart (whole ++ packets) (whole.flatMap LumenPacket.toBytes ++ bytes) =
      openPart packets bytes := by
  induction whole with
  | nil => rfl
  | cons packet whole ih =>
    simp only [List.cons_append,List.flatMap_cons,List.append_assoc,openPart]
    rw [if_pos (by simp),← packet.toBytes_length,List.drop_left,ih]

theorem Opens.openPart_eq (opens : Opens packets part) : openPart packets part = part := by
  rcases opens with ⟨rfl,rfl⟩ | ⟨next,later,rfl,_,short⟩
  · rfl
  · rw [openPart,if_neg (Nat.not_le.mpr short)]

/-- Any beginning of a stream of encodings is whole ones and a part of the next. -/
theorem exists_opens (packets : List LumenPacket) (bytes : List UInt8)
    (beginning : bytes <+: packets.flatMap LumenPacket.toBytes) :
    ∃ whole later part, packets = whole ++ later ∧
      bytes = whole.flatMap LumenPacket.toBytes ++ part ∧ Opens later part := by
  induction packets generalizing bytes with
  | nil =>
    obtain rfl := List.prefix_nil.mp beginning
    exact ⟨[],[],[],rfl,rfl,Or.inl ⟨rfl,rfl⟩⟩
  | cons packet packets ih =>
    rw [List.flatMap_cons] at beginning
    by_cases short : bytes.length < packet.totalSize
    · have within : bytes <+: packet.toBytes :=
        List.prefix_of_prefix_length_le beginning (List.prefix_append _ _) (by simp; omega)
      exact ⟨[],packet :: packets,bytes,rfl,rfl,Or.inr ⟨packet,packets,rfl,within,short⟩⟩
    · have front : packet.toBytes <+: bytes :=
        List.prefix_of_prefix_length_le (List.prefix_append _ _) beginning (by simp; omega)
      obtain ⟨rest,rfl⟩ := front
      obtain ⟨whole,later,part,rfl,rfl,opens⟩ :=
        ih rest ((List.prefix_append_right_inj _).mp beginning)
      exact ⟨packet :: whole,later,part,rfl,by simp,opens⟩

/-- Whole encodings at the front of a buffer are handed on first. -/
theorem FrameRun.packets_append (run : FrameRun buffer packets kept) (whole : List LumenPacket)
    (valid : ∀ packet ∈ whole, packet.WellFormed) :
    FrameRun (whole.flatMap LumenPacket.toBytes ++ buffer) (whole ++ packets) kept := by
  induction whole with
  | nil => exact run
  | cons packet whole ih =>
    have later := ih fun packet member => valid packet (List.mem_cons_of_mem _ member)
    rw [List.flatMap_cons,List.append_assoc]
    refine .deliver ?_ (frameStep_packet packet _ (valid packet List.mem_cons_self)) later
    obtain ⟨tail,encoded⟩ := packet.toBytes_cons
    simp [encoded]

/-- The part of a packet that has a whole header is waited for. -/
theorem frameStep_part (next : LumenPacket) (part : List UInt8) (valid : next.WellFormed)
    (within : part <+: next.toBytes) (short : part.length < next.totalSize)
    (header : lumenHeaderSize ≤ part.length) : frameStep part = .stop part := by
  have front : next.header.toBytes <+: part := by
    refine List.prefix_of_prefix_length_le ?_ within header
    exact ⟨next.payload ++ [next.calculatePacketCrc] ++ [lumenEtx],by simp [LumenPacket.toBytes]⟩
  obtain ⟨rest,rfl⟩ := front
  refine frameStep_waiting _ next.header (LumenHeader.fromBytes_toBytes _ rest valid.inRange) ?_
  rw [valid.length]
  exact short

/-- An open part that waits is kept as it is. -/
theorem FrameRun.of_waits (packets : List LumenPacket) (part : List UInt8)
    (valid : ∀ packet ∈ packets, packet.WellFormed) (opens : Opens packets part)
    (waits : Waits part) : FrameRun part [] part := by
  by_cases empty : part = []
  · subst empty
    exact .empty
  obtain ⟨next,later,rfl,within,short⟩ := opens.resolve_left fun nothing => empty nothing.2
  by_cases header : lumenHeaderSize ≤ part.length
  · exact .stop empty
      (frameStep_part next part (valid next List.mem_cons_self) within short header)
  · have few : part.length < lumenHeaderSize := Nat.not_le.mp header
    have kept := frameStep_lost part (waits few) (LumenHeader.fromBytes_short part few)
    have small : ¬ part.length > maxFrameBufferSize / 2 := by
      simp only [lumenHeaderSize] at few
      simp only [maxFrameBufferSize]
      omega
    rw [if_neg small] at kept
    exact .stop empty kept

/-- Of one that does not wait, the bytes before its second start marker are lost. -/
theorem exists_run_of_lost (part : List UInt8) (lost : ¬ Waits part) :
    ∃ packets kept, FrameRun part packets kept ∧
      (packets.flatMap LumenPacket.toBytes).length + kept.length < part.length := by
  simp only [Waits,Classical.not_imp,not_not] at lost
  obtain ⟨few,marker⟩ := lost
  cases part with
  | nil => cases marker
  | cons first tail =>
    have unreadable := LumenHeader.fromBytes_short (first :: tail) few
    rcases split_at_stx tail with clean | ⟨skipped,rest,clean,rfl⟩
    · exact absurd marker clean
    · have nonempty : first :: (skipped ++ lumenStx :: rest) ≠ [] := List.cons_ne_nil _ _
      have passed := frameStep_resync first skipped rest clean unreadable
      have shorter := frameStep_shrinks _ _ nonempty (Or.inr passed)
      obtain ⟨packets,kept,run⟩ := exists_frameRun (lumenStx :: rest)
      refine ⟨packets,kept,.discard nonempty passed run,?_⟩
      have size := run.size
      omega

/-- Pieces appended one after the other to what is kept, with a run of the loop after each. -/
def reassemble : List UInt8 → List (List UInt8) → List UInt8 × List LumenPacket
  | kept, [] => (kept,[])
  | kept, piece :: pieces =>
    let (kept,packets) := extract (kept ++ piece)
    let (kept,later) := reassemble kept pieces
    (kept,packets ++ later)

theorem extract_size (buffer : List UInt8) :
    ((extract buffer).2.flatMap LumenPacket.toBytes).length + (extract buffer).1.length ≤
      buffer.length := by
  obtain ⟨kept,run,left⟩ := extract_run buffer
  have size := run.size
  rw [left]
  split
  · simp only [List.length_nil]; omega
  · exact size

theorem reassemble_size (kept : List UInt8) (pieces : List (List UInt8)) :
    ((reassemble kept pieces).2.flatMap LumenPacket.toBytes).length +
      (reassemble kept pieces).1.length ≤ kept.length + pieces.flatten.length := by
  induction pieces generalizing kept with
  | nil => simp [reassemble]
  | cons piece pieces ih =>
    have first := extract_size (kept ++ piece)
    have later := ih (extract (kept ++ piece)).1
    simp only [reassemble,List.flatMap_append,List.flatten_cons,List.length_append] at first later ⊢
    omega

/-- A piece that leaves a part open which waits: the packets it completes come out. -/
theorem extract_part (whole later : List LumenPacket) (part : List UInt8)
    (valid : ∀ packet ∈ whole ++ later, packet.WellFormed)
    (sizes : ∀ packet ∈ whole ++ later, packet.totalSize ≤ maxFrameBufferSize)
    (opens : Opens later part) (waits : Waits part) :
    extract (whole.flatMap LumenPacket.toBytes ++ part) = (part,whole) := by
  have kept := FrameRun.of_waits later part
    (fun packet member => valid packet (List.mem_append_right _ member)) opens waits
  have run := kept.packets_append whole fun packet member =>
    valid packet (List.mem_append_left _ member)
  have bounded : ¬ part.length > maxFrameBufferSize := by
    rcases opens with ⟨_,rfl⟩ | ⟨next,rest,rfl,_,short⟩
    · simp
    · have size := sizes next (by simp)
      omega
  rw [run.extract_eq,if_neg bounded,List.append_nil]

/-- A piece that leaves a part open which does not wait: bytes are lost. -/
theorem extract_part_lost (whole : List LumenPacket) (part : List UInt8)
    (valid : ∀ packet ∈ whole, packet.WellFormed) (lost : ¬ Waits part) :
    let buffer := whole.flatMap LumenPacket.toBytes ++ part
    ((extract buffer).2.flatMap LumenPacket.toBytes).length + (extract buffer).1.length <
      buffer.length := by
  obtain ⟨packets,kept,run,fewer⟩ := exists_run_of_lost part lost
  intro buffer
  rw [(run.packets_append whole valid).extract_eq]
  simp only [buffer,List.flatMap_append,List.length_append]
  split
  · simp only [List.length_nil]
    omega
  · omega

/-- They are lost for good: the later pieces cannot make up for them. -/
theorem reassemble_ne_of_lost (whole later : List LumenPacket) (kept part piece : List UInt8)
    (pieces : List (List UInt8)) (valid : ∀ packet ∈ whole, packet.WellFormed)
    (front : kept ++ piece = whole.flatMap LumenPacket.toBytes ++ part) (lost : ¬ Waits part)
    (rest : part ++ pieces.flatten = later.flatMap LumenPacket.toBytes) :
    reassemble kept (piece :: pieces) ≠ ([],whole ++ later) := by
  intro all
  have fewer := extract_part_lost whole part valid lost
  have after := reassemble_size (extract (kept ++ piece)).1 pieces
  have total := congrArg List.length rest
  simp only [reassemble,Prod.mk.injEq] at all
  have delivered := congrArg (fun packets => (packets.flatMap LumenPacket.toBytes).length) all.2
  rw [front] at after delivered
  simp only [List.flatMap_append,List.length_append] at fewer after total delivered
  omega

theorem forall_mem_inits_cons {property : List α → Prop} (first : α) (rest : List α) :
    (∀ done ∈ (first :: rest).inits, property done) ↔
      property [] ∧ ∀ done ∈ rest.inits, property (first :: done) := by
  simp

/-- Pieces of a stream of encodings, from a part of it that is already there: the packets of the
stream come out and nothing is left exactly when every cut leaves a part that waits. -/
theorem reassemble_eq_iff (packets : List LumenPacket) (part : List UInt8)
    (pieces : List (List UInt8)) (valid : ∀ packet ∈ packets, packet.WellFormed)
    (sizes : ∀ packet ∈ packets, packet.totalSize ≤ maxFrameBufferSize)
    (opens : Opens packets part) (waits : Waits part)
    (stream : part ++ pieces.flatten = packets.flatMap LumenPacket.toBytes) :
    reassemble part pieces = ([],packets) ↔
      ∀ done ∈ pieces.inits, Waits (openPart packets (part ++ done.flatten)) := by
  induction pieces generalizing part packets with
  | nil =>
    have finished : packets = [] ∧ part = [] := by
      refine opens.resolve_right ?_
      rintro ⟨next,later,rfl,_,short⟩
      have size := congrArg List.length stream
      simp at size
      omega
    obtain ⟨rfl,rfl⟩ := finished
    simp [reassemble,openPart,Waits]
  | cons piece pieces ih =>
    rw [List.flatten_cons,← List.append_assoc] at stream
    obtain ⟨whole,later,leftover,rfl,front,opened⟩ := exists_opens packets (part ++ piece)
      ⟨pieces.flatten,stream⟩
    rw [front,List.flatMap_append,List.append_assoc] at stream
    have rest := List.append_cancel_left stream
    have atCut (done : List (List UInt8)) :
        openPart (whole ++ later) (part ++ (piece :: done).flatten) =
          openPart later (leftover ++ done.flatten) := by
      rw [List.flatten_cons,← List.append_assoc,front,List.append_assoc,openPart_append]
    rw [forall_mem_inits_cons]
    simp only [atCut,List.flatten_nil,List.append_nil,opens.openPart_eq]
    by_cases kept : Waits leftover
    · have here := extract_part whole later leftover valid sizes opened kept
      have cut := ih later leftover (fun packet member => valid packet (List.mem_append_right _ member))
        (fun packet member => sizes packet (List.mem_append_right _ member)) opened kept rest
      rw [← cut]
      simp only [reassemble,front,here,Prod.mk.injEq,List.append_cancel_left_eq]
      constructor
      · rintro ⟨nothing,same⟩
        exact ⟨waits,Prod.ext nothing same⟩
      · rintro ⟨_,same⟩
        simp [same]
    · constructor
      · intro all
        exact absurd all (reassemble_ne_of_lost whole later part leftover piece pieces
          (fun packet member => valid packet (List.mem_append_left _ member)) front kept rest)
      · rintro ⟨_,each⟩
        have first := each [] (by simp)
        rw [List.flatten_nil,List.append_nil,opened.openPart_eq] at first
        exact absurd first kept

namespace LumenProtocol

open Endpoint

theorem run_appendPiece (key : String) (endpoint : Endpoint) (s : LumenProtocol)
    (pieces : List (List UInt8)) :
    let t := Machine.run (appendPiece key endpoint) s pieces
    t.processed = s.processed ++ (reassemble (s.frameBuffers key) pieces).2.map (·,endpoint) ∧
      t.frameBuffers key = (reassemble (s.frameBuffers key) pieces).1 := by
  induction pieces generalizing s with
  | nil => simp [reassemble]
  | cons piece pieces ih =>
    obtain ⟨_,buffers,marks⟩ := appendPiece_effect key endpoint s piece
    obtain ⟨laterMarks,left⟩ := ih (appendPiece key endpoint s piece)
    rw [buffers,Function.update_self] at laterMarks left
    constructor
    · rw [Machine.run_cons,laterMarks,marks]
      simp only [reassemble,List.map_append,List.append_assoc]
    · rw [Machine.run_cons,left]
      simp only [reassemble]

/-- Exactly when a stream of encodings survives being cut: at every cut the part of a packet that
has arrived holds the whole header, or no start marker after the first byte. -/
theorem pieces_reassembled_iff (key : String) (endpoint : Endpoint) (s : LumenProtocol)
    (packets : List LumenPacket) (pieces : List (List UInt8))
    (valid : ∀ packet ∈ packets, packet.WellFormed)
    (sizes : ∀ packet ∈ packets, packet.totalSize ≤ maxFrameBufferSize)
    (cut : pieces.flatten = packets.flatMap LumenPacket.toBytes)
    (empty : s.frameBuffers key = []) :
    let t := Machine.run (appendPiece key endpoint) s pieces
    (t.processed = s.processed ++ packets.map (·,endpoint) ∧ t.frameBuffers key = []) ↔
      CutsWait packets pieces := by
  intro t
  obtain ⟨marks,left⟩ := run_appendPiece key endpoint s pieces
  have opens : Opens packets [] := by
    cases packets with
    | nil => exact Or.inl ⟨rfl,rfl⟩
    | cons next later =>
      exact Or.inr ⟨next,later,rfl,List.nil_prefix,by simp [LumenPacket.totalSize]⟩
  have whole := reassemble_eq_iff packets [] pieces valid sizes opens (by simp [Waits]) cut
  have pairs : Function.Injective fun packet : LumenPacket => (packet,endpoint) :=
    fun _ _ same => congrArg Prod.fst same
  rw [CutsWait]
  rw [empty] at marks left
  rw [marks,left,List.append_cancel_left_eq,(List.map_injective_iff.mpr pairs).eq_iff]
  simp only [List.nil_append] at whole
  rw [← whole]
  constructor
  · rintro ⟨same,nothing⟩
    exact Prod.ext nothing same
  · intro same
    rw [same]
    exact ⟨rfl,rfl⟩

/-- A status packet: after the first byte its header holds no start marker. -/
def plainPacket : LumenPacket := .new ⟨.status,.low,1,0,0⟩ []

/-- Cut inside the header of each packet, a stream of two of them is reassembled. -/
theorem pieces_reassembled_plain :
    let stream := plainPacket.toBytes ++ plainPacket.toBytes
    let t := Machine.run (appendPiece (getEndpointKey sampleRover) sampleRover)
      (started .baseStation .unspecified ⟨0,0⟩)
      [stream.take 4,(stream.drop 4).take 13,stream.drop 17]
    t.processed = [(plainPacket,sampleRover),(plainPacket,sampleRover)] ∧
      t.frameBuffers (getEndpointKey sampleRover) = [] :=
  (pieces_reassembled_iff (getEndpointKey sampleRover) sampleRover
    (started .baseStation .unspecified ⟨0,0⟩) [plainPacket,plainPacket] _ (by decide) (by decide)
    (by decide +kernel) rfl).mpr (by decide +kernel)

/-- A data packet of the highest priority: its first three bytes are all the start marker. -/
def markedPacket : LumenPacket := .new ⟨.data,.high,1,0,0⟩ []

/-- Cut after its second byte, that packet is lost: the first byte is thrown away as if the second
began a packet. Both pieces start with the marker, as the datagrams that are appended do. -/
theorem markedPacket_lost :
    let pieces := [markedPacket.toBytes.take 2,markedPacket.toBytes.drop 2]
    let t := Machine.run (appendPiece (getEndpointKey sampleRover) sampleRover)
      (started .baseStation .unspecified ⟨0,0⟩) pieces
    markedPacket.WellFormed ∧ markedPacket.totalSize ≤ maxFrameBufferSize ∧
      pieces.flatten = [markedPacket].flatMap LumenPacket.toBytes ∧
      (∀ piece ∈ pieces, piece.head? = some lumenStx) ∧
      ¬ (t.processed = [(markedPacket,sampleRover)] ∧
        t.frameBuffers (getEndpointKey sampleRover) = []) := by
  intro pieces t
  have nothing : t.processed = [] := by decide +kernel
  refine ⟨by decide,by decide,by decide +kernel,by decide +kernel,?_⟩
  rintro ⟨same,_⟩
  rw [nothing] at same
  cases same

end LumenProtocol

end Lumen
