import Mathlib.Data.Nat.Bitwise

/-! Byte vectors with checked reads, and big-endian words assembled with shifts.
A read outside the vector is a fault of its own, so that a reader built from these
operations is memory safe exactly when it never returns one. -/
namespace Lumen.Bytes

inductive Fault where
  | outOfRange (index size : Nat)
  deriving DecidableEq, Repr

def byteAt (bytes : List UInt8) (index : Nat) : Except Fault UInt8 :=
  match bytes[index]? with
  | some byte => .ok byte
  | none => .error (.outOfRange index bytes.length)

/-- The half-open iterator range `[first, last)`. -/
def range (bytes : List UInt8) (first last : Nat) : Except Fault (List UInt8) :=
  if first ≤ last ∧ last ≤ bytes.length then .ok ((bytes.drop first).take (last - first))
  else .error (.outOfRange last bytes.length)

theorem range_ok (bytes : List UInt8) (first last : Nat) (ordered : first ≤ last)
    (bound : last ≤ bytes.length) :
    range bytes first last = .ok ((bytes.drop first).take (last - first)) := by
  simp [range,ordered,bound]

/-- The byte right after a prefix of known length. -/
theorem byteAt_middle (front rest : List UInt8) (byte : UInt8) (index : Nat)
    (position : index = front.length) : byteAt (front ++ byte :: rest) index = .ok byte := by
  subst position
  simp [byteAt]

theorem range_middle (front middle rest : List UInt8) (first last : Nat)
    (start : first = front.length) (stop : last = front.length + middle.length) :
    range (front ++ middle ++ rest) first last = .ok middle := by
  subst start stop
  have within : front.length + middle.length ≤ (front ++ middle ++ rest).length := by simp
  rw [range_ok _ _ _ (by omega) within,List.append_assoc,List.drop_left,Nat.add_sub_cancel_left,
    List.take_left]

def word16 (high low : UInt8) : UInt16 :=
  (0 : UInt16) ||| (high.toUInt16 <<< 8) ||| low.toUInt16

def word32 (a b c d : UInt8) : UInt32 :=
  (0 : UInt32) ||| (a.toUInt32 <<< 24) ||| (b.toUInt32 <<< 16) ||| (c.toUInt32 <<< 8) |||
    d.toUInt32

def bytes16 (word : UInt16) : List UInt8 :=
  [((word >>> 8) &&& 0xFF).toUInt8,(word &&& 0xFF).toUInt8]

def bytes32 (word : UInt32) : List UInt8 :=
  [((word >>> 24) &&& 0xFF).toUInt8,((word >>> 16) &&& 0xFF).toUInt8,
    ((word >>> 8) &&& 0xFF).toUInt8,(word &&& 0xFF).toUInt8]

/-- Disjoint bit fields: or-ing the next byte in is adding it at its place value. -/
theorem or_shift (high low : Nat) (place : Nat) (fits : low < 2 ^ 8) :
    high <<< (8 + place) ||| low <<< place = (high * 256 + low) <<< place := by
  rw [Nat.shiftLeft_add,← Nat.shiftLeft_or_distrib,← Nat.shiftLeft_add_eq_or_of_lt fits,
    Nat.shiftLeft_eq high]

theorem shift_fits (byte : UInt8) (place width : Nat) (fits : place + 8 ≤ width) :
    byte.toNat <<< place % 2 ^ width = byte.toNat <<< place := by
  apply Nat.mod_eq_of_lt
  rw [Nat.shiftLeft_eq]
  calc byte.toNat * 2 ^ place < 2 ^ 8 * 2 ^ place :=
        (Nat.mul_lt_mul_right (Nat.two_pow_pos place)).mpr byte.toNat_lt
    _ = 2 ^ (place + 8) := by rw [← Nat.pow_add,Nat.add_comm]
    _ ≤ 2 ^ width := Nat.pow_le_pow_right (by decide) fits

theorem toNat_word16 (high low : UInt8) :
    (word16 high low).toNat = high.toNat * 256 + low.toNat := by
  have field := or_shift high.toNat low.toNat 0 low.toNat_lt
  have fits := shift_fits high 8 16 (by decide)
  simp only [Nat.shiftLeft_zero,Nat.add_zero] at field
  have zero : (0 : UInt16).toNat = 0 := rfl
  have shift : (8 : UInt16).toNat % 16 = 8 := rfl
  simp only [word16,UInt16.toNat_or,UInt16.toNat_shiftLeft,UInt8.toNat_toUInt16,zero,shift,
    Nat.zero_or]
  rw [fits,field]

theorem toNat_word32 (a b c d : UInt8) : (word32 a b c d).toNat =
    ((a.toNat * 256 + b.toNat) * 256 + c.toNat) * 256 + d.toNat := by
  have first := or_shift a.toNat b.toNat 16 b.toNat_lt
  have second := or_shift (a.toNat * 256 + b.toNat) c.toNat 8 c.toNat_lt
  have third := or_shift ((a.toNat * 256 + b.toNat) * 256 + c.toNat) d.toNat 0 d.toNat_lt
  have fitsA := shift_fits a 24 32 (by decide)
  have fitsB := shift_fits b 16 32 (by decide)
  have fitsC := shift_fits c 8 32 (by decide)
  simp only [Nat.shiftLeft_zero,Nat.add_zero,Nat.reduceAdd] at first second third
  have zero : (0 : UInt32).toNat = 0 := rfl
  have shiftA : (24 : UInt32).toNat % 32 = 24 := rfl
  have shiftB : (16 : UInt32).toNat % 32 = 16 := rfl
  have shiftC : (8 : UInt32).toNat % 32 = 8 := rfl
  simp only [word32,UInt32.toNat_or,UInt32.toNat_shiftLeft,UInt8.toNat_toUInt32,zero,shiftA,
    shiftB,shiftC,Nat.zero_or]
  rw [fitsA,fitsB,fitsC,first,second,third]

/-- Masking a shifted word keeps one base-256 digit. -/
theorem low_byte (value : Nat) : value &&& 255 = value % 256 :=
  Nat.and_two_pow_sub_one_eq_mod value 8

theorem word16_bytes (high low : UInt8) : bytes16 (word16 high low) = [high,low] := by
  have hh := high.toNat_lt
  have hl := low.toNat_lt
  simp only [bytes16,List.cons.injEq,and_true]
  constructor
  · apply UInt8.toNat_inj.mp
    simp [Nat.shiftRight_eq_div_pow,toNat_word16,low_byte]; omega
  · apply UInt8.toNat_inj.mp
    simp [toNat_word16,low_byte]

theorem bytes16_word (word : UInt16) :
    word16 ((word >>> 8) &&& 0xFF).toUInt8 (word &&& 0xFF).toUInt8 = word := by
  have bound := word.toNat_lt
  apply UInt16.toNat_inj.mp
  simp [toNat_word16,Nat.shiftRight_eq_div_pow,low_byte]
  omega

theorem word32_bytes (a b c d : UInt8) : bytes32 (word32 a b c d) = [a,b,c,d] := by
  have ha := a.toNat_lt
  have hb := b.toNat_lt
  have hc := c.toNat_lt
  have hd := d.toNat_lt
  simp only [bytes32,List.cons.injEq,and_true]
  refine ⟨?_,?_,?_,?_⟩ <;> apply UInt8.toNat_inj.mp <;>
    simp [Nat.shiftRight_eq_div_pow,toNat_word32,low_byte] <;> omega

theorem bytes32_word (word : UInt32) :
    word32 ((word >>> 24) &&& 0xFF).toUInt8 ((word >>> 16) &&& 0xFF).toUInt8
      ((word >>> 8) &&& 0xFF).toUInt8 (word &&& 0xFF).toUInt8 = word := by
  have bound := word.toNat_lt
  apply UInt32.toNat_inj.mp
  simp [toNat_word32,Nat.shiftRight_eq_div_pow,low_byte]
  omega

end Lumen.Bytes
