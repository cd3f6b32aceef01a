import Mathlib.Algebra.Field.ZMod
import Lumen.Division
import Lumen.Feedback
import Lumen.Packet

/-! Which damage the CRC-8 of a packet detects. The loop over bytes is a register that takes the
bits in, the highest of each byte first, and divides by the generator of the code; a packet
followed by its checksum leaves it empty. So a vector that is accepted in place of an encoding
differs from it by bits that leave the register empty as well, and neither an odd number of them,
nor a short burst, nor two bits that are not far apart do. -/
namespace Lumen

open LumenHeader Feedback Division Polynomial

/-- The bits of a byte, the most significant first. -/
def bitsOf (byte : UInt8) : List Bool := (List.range 8).map fun i => byte.toNat.testBit (7 - i)

def bits (bytes : List UInt8) : List Bool := bytes.flatMap bitsOf

/-- The bit positions in which two vectors of one length differ. -/
def flipped (first second : List UInt8) : List Nat :=
  positionsFrom 0 (List.zipWith xor (bits first) (bits second))

theorem forall_byte {property : UInt8 → Prop} (all : ∀ n < 256, property (UInt8.ofNat n))
    (byte : UInt8) : property byte := by
  have here := all byte.toNat byte.toNat_lt
  rwa [UInt8.ofNat_toNat] at here

/-! ### The register -/

theorem high_bit : ∀ crc : UInt8, crc &&& 0x80 = 0 ∨ crc &&& 0x80 = 0x80 :=
  forall_byte (by decide +kernel)

theorem shiftLeft_xor (a b : UInt8) : (a ^^^ b) <<< 1 = a <<< 1 ^^^ b <<< 1 := by
  apply UInt8.toBitVec_inj.mp
  simp [BitVec.shiftLeft_xor_distrib]

theorem crcBit_xor (a b : UInt8) : crcBit (a ^^^ b) = crcBit a ^^^ crcBit b := by
  have high : (a ^^^ b) &&& 0x80 = (a &&& 0x80) ^^^ (b &&& 0x80) := by
    apply UInt8.toBitVec_inj.mp
    ext i
    simp [Bool.and_xor_distrib_right]
  have cancel (x y p : UInt8) : (x ^^^ p) ^^^ (y ^^^ p) = x ^^^ y := by
    calc (x ^^^ p) ^^^ (y ^^^ p)
      _ = (x ^^^ y) ^^^ (p ^^^ p) := by ac_rfl
      _ = x ^^^ y := by simp
  simp only [crcBit,high,shiftLeft_xor]
  rcases high_bit a with left | left <;> rcases high_bit b with right | right <;>
    simp [left,right]
  · ac_rfl
  · ac_rfl
  · exact (cancel _ _ _).symm

/-- The CRC register, one bit at a time. -/
def crcFeed : UInt8 → Bool → UInt8 := feed crcBit (· ^^^ ·) 0x80

theorem run_crc_xor (s t : UInt8) (first second : List Bool) (same : first.length = second.length) :
    (List.zipWith xor first second).foldl crcFeed (s ^^^ t) =
      first.foldl crcFeed s ^^^ second.foldl crcFeed t :=
  run_xor crcBit (· ^^^ ·) 0x80 crcBit_xor (fun _ => UInt8.xor_zero) (by decide) s t first second same

theorem bitsOf_length (byte : UInt8) : (bitsOf byte).length = 8 := by simp [bitsOf]

theorem bits_length (bytes : List UInt8) : (bits bytes).length = 8 * bytes.length := by
  induction bytes with
  | nil => rfl
  | cons byte rest ih =>
    simp only [bits,List.flatMap_cons,List.length_append,bitsOf_length,List.length_cons] at ih ⊢
    omega

theorem iterate_crcBit_xor (count : Nat) (a b : UInt8) :
    crcBit^[count] (a ^^^ b) = crcBit^[count] a ^^^ crcBit^[count] b := by
  induction count generalizing a b with
  | zero => rfl
  | succ count ih => rw [Function.iterate_succ_apply,crcBit_xor,ih]; rfl

/-- The loop over one byte takes its bits in. -/
theorem crcByte_bits (crc byte : UInt8) : crcByte crc byte = (bitsOf byte).foldl crcFeed crc := by
  have fresh : (bitsOf byte).foldl crcFeed 0 = crcBit^[8] byte := by
    revert byte
    exact forall_byte (by decide +kernel)
  have split := run_crc_xor crc 0 (List.replicate 8 false) (bitsOf byte) (by simp [bitsOf])
  have quiet : (List.replicate 8 false).foldl crcFeed crc = crcBit^[8] crc :=
    run_quiet crcBit (· ^^^ ·) 0x80 crc (List.replicate 8 false) (by simp)
  have same : List.zipWith xor (List.replicate 8 false) (bitsOf byte) = bitsOf byte := by
    simp [bitsOf,List.replicate,List.range,List.range.loop]
  rw [crcByte,iterate_crcBit_xor,← fresh,← quiet,← split,same,UInt8.xor_zero]

theorem calculateCrc8_bits (data : List UInt8) :
    calculateCrc8 data = (bits data).foldl crcFeed 0 := by
  have loop (crc : UInt8) : data.foldl crcByte crc = (bits data).foldl crcFeed crc := by
    induction data generalizing crc with
    | nil => rfl
    | cons byte rest ih =>
      have front : bits (byte :: rest) = bitsOf byte ++ bits rest := List.flatMap_cons
      rw [List.foldl_cons,ih,crcByte_bits,front,List.foldl_append]
  exact loop 0

/-! ### The remainder -/

theorem bitsOf_injective {first second : UInt8} (same : bitsOf first = bitsOf second) :
    first = second := by
  apply UInt8.toNat_inj.mp
  refine Nat.eq_of_testBit_eq fun place => ?_
  by_cases low : place < 8
  · have here := congrArg (fun word => word[7 - place]?) same
    have index : 7 - (7 - place) = place := by omega
    have inside : 7 - place < 8 := by omega
    simpa [bitsOf,inside,index] using here
  · have above (byte : UInt8) : byte.toNat.testBit place = false :=
      Nat.testBit_lt_two_pow (lt_of_lt_of_le byte.toNat_lt (Nat.pow_le_pow_right (by decide) (by omega)))
    rw [above first,above second]

/-- The register of the loop is the one that divides by `x⁸ + x² + x + 1`. -/
theorem bitsOf_crcFeed : ∀ (crc : UInt8) (bit : Bool),
    bitsOf (crcFeed crc bit) = divideBit (bitsOf 0x07) (bitsOf crc) bit :=
  forall_byte (by decide +kernel)

theorem bitsOf_run (crc : UInt8) (word : List Bool) :
    bitsOf (word.foldl crcFeed crc) = word.foldl (divideBit (bitsOf 0x07)) (bitsOf crc) := by
  induction word generalizing crc with
  | nil => rfl
  | cons bit rest ih => rw [List.foldl_cons,List.foldl_cons,ih,bitsOf_crcFeed]

theorem divisor_crc : divisor (ZMod 2) (bitsOf 0x07) = X ^ 8 + X ^ 2 + X + 1 := by
  have low : bitsOf 0x07 = List.replicate 5 false ++ [true,true,true] := by decide
  simp [divisor,low,polynomial]
  ring

/-- The checksum is the byte whose bits are the remainder of the data over GF(2), moved up by
eight powers. -/
theorem calculateCrc8_eq_iff_remainder (data : List UInt8) (crc : UInt8) :
    calculateCrc8 data = crc ↔
      polynomial (ZMod 2) (bitsOf crc) =
        (polynomial (ZMod 2) (bits data) * X ^ 8) %ₘ (X ^ 8 + X ^ 2 + X + 1) := by
  have divided := run_divideBit (ZMod 2) (bitsOf 0x07) (by decide) (bitsOf 0) (bits data) (by decide)
  have empty : polynomial (ZMod 2) (bitsOf 0) = 0 := polynomial_replicate (ZMod 2) 8
  rw [← bitsOf_run,← calculateCrc8_bits,divisor_crc,empty,zero_mul,zero_add,bitsOf_length] at divided
  rw [← divided]
  constructor
  · rintro rfl
    rfl
  · intro same
    have bits := polynomial_injective (ZMod 2) (by rw [bitsOf_length,bitsOf_length]) same
    exact (bitsOf_injective bits).symm

/-! ### Bits that leave the register empty -/

/-- Whether the number of set bits is odd. -/
def parity (byte : UInt8) : Bool := (bitsOf byte).count true % 2 = 1

theorem parity_crcFeed : ∀ (crc : UInt8) (bit : Bool),
    parity (crcFeed crc bit) = xor (parity crc) bit :=
  forall_byte (by decide +kernel)

theorem crcBit_zero : crcBit 0 = 0 := by decide

theorem crcBit_eq_zero : ∀ crc : UInt8, crcBit crc = 0 → crc = 0 := forall_byte (by decide +kernel)

theorem iterate_crcBit_eq_zero {count : Nat} {crc : UInt8} (empty : crcBit^[count] crc = 0) :
    crc = 0 := by
  induction count with
  | zero => exact empty
  | succ count ih =>
    rw [Function.iterate_succ_apply'] at empty
    exact ih (crcBit_eq_zero _ empty)

/-- The factor `x + 1` of the polynomial: an even number of bits. -/
theorem even_of_empty {errors : List Bool} (empty : errors.foldl crcFeed 0 = 0) :
    (positionsFrom 0 errors).length % 2 = 0 := by
  have parities := run_parity crcBit (· ^^^ ·) 0x80 parity parity_crcFeed 0 errors
  have nothing : parity (errors.foldl crcFeed 0) = false := by rw [empty]; decide
  rw [positionsFrom_length]
  change parity (errors.foldl crcFeed 0) = _ at parities
  rw [nothing] at parities
  have initial : parity 0 = false := by decide
  simpa [initial] using parities.symm

/-- The degree of the polynomial: not a burst of up to eight bits. -/
theorem no_burst_of_empty {errors : List Bool} (empty : errors.foldl crcFeed 0 = 0) (start : Nat)
    (some_ : positionsFrom 0 errors ≠ []) :
    ∃ position ∈ positionsFrom 0 errors, ¬ (start ≤ position ∧ position < start + 8) := by
  by_contra confined
  push Not at confined
  obtain ⟨first,later,positions⟩ := List.exists_cons_of_ne_nil some_
  have begins := (confined first (by rw [positions]; exact List.mem_cons_self)).1
  have short : ∀ position ∈ later, position < first + 1 + 7 := by
    intro position member
    have ends := (confined position (by rw [positions]; exact List.mem_cons_of_mem _ member)).2
    omega
  obtain ⟨window,count,width,run⟩ := run_burst crcBit (· ^^^ ·) 0x80 crcBit_zero
    UInt8.zero_xor 0 first 7 errors later positions short
  have window_empty := iterate_crcBit_eq_zero (run.symm.trans empty)
  have nonzero := run_avoids crcBit (· ^^^ ·) 0x80 (· = 0) 7 (crcBit 0x80) window
    (by decide +kernel) width
  rw [window_empty] at nonzero
  cases nonzero

/-- The order of `x`: not two bits fewer than 127 positions apart. -/
theorem no_pair_of_empty {errors : List Bool} (empty : errors.foldl crcFeed 0 = 0)
    (first second : Nat) (positions : positionsFrom 0 errors = [first,second]) :
    127 ≤ second - first := by
  by_contra near
  obtain ⟨count,run⟩ := run_pair crcBit (· ^^^ ·) 0x80 crcBit_zero UInt8.zero_xor 0
    first second errors positions
  have sum := crcBit_eq_zero _ (iterate_crcBit_eq_zero (run.symm.trans empty))
  have apart : first < second := by
    obtain ⟨_,rest,_,_,_,after⟩ := positionsFrom_cons 0 first errors _ positions
    exact le_of_mem_positionsFrom (first + 1) rest second (by rw [after]; simp)
  have order : ∀ distance < 127, 0 < distance → crcBit^[distance] 0x80 ≠ 0x80 := by
    decide +kernel
  exact order (second - first) (by omega) (by omega) (UInt8.xor_eq_zero_iff.mp sum)

/-! ### Packets -/

namespace LumenPacket

/-- A packet followed by its checksum leaves nothing but the end marker in the register. -/
theorem calculateCrc8_toBytes (packet : LumenPacket) :
    calculateCrc8 packet.toBytes = crcByte 0 lumenEtx := by
  have empties : ∀ crc : UInt8, crcByte crc crc = 0 := by
    intro crc
    rw [crcByte,UInt8.xor_self]
    decide
  have through : calculateCrc8 packet.toBytes =
      crcByte (crcByte packet.calculatePacketCrc packet.calculatePacketCrc) lumenEtx := by
    simp only [toBytes,calculatePacketCrc,calculateCrc8,List.foldl_append,List.foldl_cons,
      List.foldl_nil]
  rw [through,empties]

/-- The two bytes of the length field. -/
theorem toBytes_lengthField (packet : LumenPacket) (rest : List UInt8) :
    [(packet.toBytes ++ rest)[8]?,(packet.toBytes ++ rest)[9]?] =
      (Bytes.bytes16 packet.header.payloadLength).map some := by
  simp [toBytes,LumenHeader.toBytes,Bytes.bytes32,Bytes.bytes16]

/-- What is accepted in place of an encoding, with the same length field, is an encoding of the
same size. -/
theorem encoding_of_accepted (packet other : LumenPacket) (bytes : List UInt8)
    (valid : packet.WellFormed) (length : bytes.length = packet.toBytes.length)
    (high : bytes[8]? = packet.toBytes[8]?) (low : bytes[9]? = packet.toBytes[9]?)
    (accepted : fromBytes bytes = .ok (some other)) : bytes = other.toBytes := by
  obtain ⟨formed,rest,rfl⟩ := (fromBytes_some_iff bytes other).mp accepted
  have ours := toBytes_lengthField packet []
  have theirs := toBytes_lengthField other rest
  rw [List.append_nil] at ours
  rw [high,low,ours] at theirs
  have words : packet.header.payloadLength = other.header.payloadLength := by
    have pair := List.map_injective_iff.mpr (Option.some_injective UInt8) theirs
    simp only [Bytes.bytes16,List.cons.injEq,and_true] at pair
    rw [← Bytes.bytes16_word packet.header.payloadLength,
      ← Bytes.bytes16_word other.header.payloadLength,pair.1,pair.2]
  have sizes : packet.payload.length = other.payload.length := by
    rw [← valid.length,← formed.length,words]
  have nothing : rest = [] := by
    simp only [List.length_append,toBytes_length,totalSize,sizes] at length
    exact List.length_eq_zero_iff.mp (by omega)
  rw [nothing,List.append_nil]

/-- The bits in which two packets of the same size differ leave the register empty. -/
theorem flipped_empty (packet other : LumenPacket)
    (length : packet.toBytes.length = other.toBytes.length) :
    (List.zipWith xor (bits packet.toBytes) (bits other.toBytes)).foldl crcFeed 0 = 0 := by
  have sum := run_crc_xor 0 0 (bits packet.toBytes) (bits other.toBytes)
    (by rw [bits_length,bits_length,length])
  rw [← calculateCrc8_bits,← calculateCrc8_bits,calculateCrc8_toBytes,calculateCrc8_toBytes,
    UInt8.xor_self,UInt8.xor_self] at sum
  exact sum

/-- Damage outside the length field that flips an odd number of bits, bits within eight
consecutive positions, or two bits fewer than 127 positions apart is detected. -/
theorem damage_detected (packet : LumenPacket) (bytes : List UInt8) (valid : packet.WellFormed)
    (length : bytes.length = packet.toBytes.length) (high : bytes[8]? = packet.toBytes[8]?)
    (low : bytes[9]? = packet.toBytes[9]?)
    (damage : (flipped packet.toBytes bytes).length % 2 = 1 ∨
      (flipped packet.toBytes bytes ≠ [] ∧ ∃ start, ∀ position ∈ flipped packet.toBytes bytes,
        start ≤ position ∧ position < start + 8) ∨
      ∃ first second, flipped packet.toBytes bytes = [first,second] ∧ second - first < 127) :
    fromBytes bytes = .ok none := by
  obtain ⟨result,parsed⟩ := fromBytes_total bytes
  cases result with
  | none => exact parsed
  | some other =>
    obtain rfl := encoding_of_accepted packet other bytes valid length high low parsed
    have empty := flipped_empty packet other length.symm
    rcases damage with odd | ⟨some_,start,confined⟩ | ⟨first,second,pair,near⟩
    · have even := even_of_empty empty
      rw [flipped] at odd
      omega
    · obtain ⟨position,member,outside⟩ := no_burst_of_empty empty start some_
      exact absurd (confined position member) outside
    · have far := no_pair_of_empty empty first second pair
      omega

/-- Two flipped bits 73 positions apart: the last of the type and the first of the checksum. -/
def twoBitsOff : List UInt8 :=
  [0x02,0x03,0x00,0x01,0x00,0x00,0x00,0x00,0x00,0x01,0x41,0xA8,0x03]

theorem damage_detected_pair :
    flipped (LumenPacket.new ⟨.data,.low,1,0,1⟩ [0x41]).toBytes twoBitsOff = [15,88] ∧
    fromBytes twoBitsOff = .ok none := by
  have pair : flipped (LumenPacket.new ⟨.data,.low,1,0,1⟩ [0x41]).toBytes twoBitsOff = [15,88] := by
    decide +kernel
  exact ⟨pair,damage_detected (.new ⟨.data,.low,1,0,1⟩ [0x41]) twoBitsOff (by decide)
    (by decide +kernel) (by decide +kernel) (by decide +kernel)
    (Or.inr (Or.inr ⟨15,88,pair,by decide⟩))⟩

end LumenPacket

end Lumen
