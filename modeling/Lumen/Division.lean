import Mathlib.Algebra.CharP.Two
import Mathlib.Algebra.Polynomial.Div
import Mathlib.Tactic.LinearCombination
import Mathlib.Tactic.Ring

/-! Words of bits as polynomials over a ring of characteristic two, and the shift register that
divides by one. The register holds as many bits as the divisor has degree and knows the divisor
below its leading term. Taking a bit in multiplies what it holds by the variable, adds the bit at
the top and subtracts the divisor when the top bit is set; so it always holds the remainder of
what it has taken in, multiplied by the power that the register is wide. -/
namespace Lumen.Division

open Polynomial

variable (R : Type*) [CommRing R]

def coefficient (bit : Bool) : R := if bit then 1 else 0

@[simp] theorem coefficient_false : coefficient R false = 0 := rfl

@[simp] theorem coefficient_true : coefficient R true = 1 := rfl

theorem coefficient_xor [CharP R 2] (first second : Bool) :
    coefficient R (xor first second) = coefficient R first + coefficient R second := by
  cases first <;> cases second <;> simp [CharTwo.add_self_eq_zero]

theorem coefficient_injective [Nontrivial R] : Function.Injective (coefficient R) := by
  intro first second same
  cases first <;> cases second <;> simp_all

/-- The polynomial with these coefficients, that of the highest power first. -/
noncomputable def polynomial (bits : List Bool) : R[X] :=
  bits.foldl (fun sum bit => sum * X + C (coefficient R bit)) 0

@[simp] theorem polynomial_nil : polynomial R [] = 0 := rfl

theorem polynomial_snoc (bits : List Bool) (bit : Bool) :
    polynomial R (bits ++ [bit]) = polynomial R bits * X + C (coefficient R bit) := by
  simp [polynomial]

theorem polynomial_cons (bit : Bool) (bits : List Bool) :
    polynomial R (bit :: bits) = C (coefficient R bit) * X ^ bits.length + polynomial R bits := by
  induction bits using List.reverseRecOn with
  | nil => simp [polynomial]
  | append_singleton bits last ih =>
    rw [← List.cons_append,polynomial_snoc,polynomial_snoc,ih,List.length_append,
      List.length_singleton]
    ring

@[simp] theorem polynomial_replicate (count : Nat) :
    polynomial R (List.replicate count false) = 0 := by
  induction count with
  | zero => rfl
  | succ count ih => rw [List.replicate_succ,polynomial_cons,ih]; simp

theorem polynomial_xor [CharP R 2] (first second : List Bool) (same : first.length = second.length) :
    polynomial R (List.zipWith xor first second) = polynomial R first + polynomial R second := by
  induction first generalizing second with
  | nil =>
    obtain rfl := List.length_eq_zero_iff.mp same.symm
    simp
  | cons bit rest ih =>
    cases second with
    | nil => cases same
    | cons other tail =>
      have equal : rest.length = tail.length := Nat.succ.inj same
      rw [List.zipWith_cons_cons,polynomial_cons,polynomial_cons,polynomial_cons,ih tail equal,
        List.length_zipWith,← equal,Nat.min_self,coefficient_xor,C_add]
      ring

theorem degree_polynomial_lt (bits : List Bool) : (polynomial R bits).degree < bits.length := by
  induction bits with
  | nil => simp
  | cons bit rest ih =>
    rw [polynomial_cons,List.length_cons]
    have power : (C (coefficient R bit) * X ^ rest.length : R[X]).degree < rest.length + 1 :=
      lt_of_le_of_lt (degree_C_mul_X_pow_le _ _) (by exact_mod_cast Nat.lt_succ_self _)
    have lower : (polynomial R rest).degree < rest.length + 1 :=
      lt_trans ih (by exact_mod_cast Nat.lt_succ_self _)
    push_cast
    exact lt_of_le_of_lt (degree_add_le _ _) (max_lt power lower)

/-- The coefficients are the bits, counted from the last. -/
theorem coeff_polynomial (bits : List Bool) (power : Nat) :
    (polynomial R bits).coeff power = coefficient R (bits.reverse.getD power false) := by
  induction bits using List.reverseRecOn generalizing power with
  | nil => simp
  | append_singleton bits last ih =>
    rw [polynomial_snoc,List.reverse_append]
    cases power with
    | zero => simp
    | succ power =>
      rw [coeff_add,coeff_mul_X,ih,coeff_C_succ,add_zero]
      rfl

theorem polynomial_injective [Nontrivial R] {first second : List Bool}
    (same : first.length = second.length)
    (equal : polynomial R first = polynomial R second) : first = second := by
  rw [← List.reverse_inj]
  refine List.ext_getElem (by simpa using same) fun power left right => ?_
  have here := congrArg (fun p => p.coeff power) equal
  simp only [coeff_polynomial] at here
  have bit := coefficient_injective R here
  rwa [List.getD_eq_getElem?_getD,List.getD_eq_getElem?_getD,List.getElem?_eq_getElem left,
    List.getElem?_eq_getElem right] at bit

section Register

variable (tail : List Bool)

/-- The divisor: its leading term and the bits below it. -/
noncomputable def divisor : R[X] := X ^ tail.length + polynomial R tail

theorem divisor_monic : (divisor R tail).Monic :=
  monic_X_pow_add (degree_polynomial_lt R tail)

theorem degree_divisor [Nontrivial R] : (divisor R tail).degree = tail.length := by
  rw [divisor,degree_add_eq_left_of_degree_lt,degree_X_pow]
  rw [degree_X_pow]
  exact degree_polynomial_lt R tail

/-- A bit meets the one that leaves at the top; when they differ the divisor is subtracted. -/
def divideBit : List Bool → Bool → List Bool
  | [], _ => []
  | top :: low, bit => List.zipWith xor (low ++ [false])
      (if xor top bit then tail else List.replicate tail.length false)

theorem divideBit_length (top : Bool) (low : List Bool) (bit : Bool)
    (width : (top :: low).length = tail.length) :
    (divideBit tail (top :: low) bit).length = tail.length := by
  have long : low.length + 1 = tail.length := width
  simp only [divideBit]
  split <;> simp [long]

theorem polynomial_divideBit [CharP R 2] (top : Bool) (low : List Bool) (bit : Bool)
    (width : (top :: low).length = tail.length) :
    polynomial R (divideBit tail (top :: low) bit) =
      polynomial R (top :: low) * X + C (coefficient R bit) * X ^ tail.length -
        C (coefficient R (xor top bit)) * divisor R tail := by
  have long : tail.length = low.length + 1 := width.symm
  have subtracted : polynomial R (if xor top bit then tail else List.replicate tail.length false) =
      C (coefficient R (xor top bit)) * polynomial R tail := by
    cases xor top bit <;> simp
  have equal : (low ++ [false]).length =
      (if xor top bit then tail else List.replicate tail.length false).length := by
    split <;> simp [long]
  have twice (p : R[X]) : p + p = 0 := CharTwo.add_self_eq_zero p
  rw [divideBit,polynomial_xor R _ _ equal,subtracted,polynomial_snoc,polynomial_cons,divisor,
    coefficient_xor,C_add,long,coefficient_false,C_0]
  linear_combination twice ((C (coefficient R top) + C (coefficient R bit)) * polynomial R tail)

/-- The register holds a remainder: of what it held, moved up, and of the bits it took in. -/
theorem run_divideBit [CharP R 2] [Nontrivial R] (wide : 0 < tail.length) (register bits : List Bool)
    (width : register.length = tail.length) :
    polynomial R (bits.foldl (divideBit tail) register) =
      (polynomial R register * X ^ bits.length + polynomial R bits * X ^ tail.length) %ₘ
        divisor R tail := by
  induction bits generalizing register with
  | nil =>
    have small : (polynomial R register).degree < (divisor R tail).degree := by
      rw [degree_divisor,← width]
      exact degree_polynomial_lt R register
    simpa using ((modByMonic_eq_self_iff (divisor_monic R tail)).mpr small).symm
  | cons bit rest ih =>
    cases register with
    | nil => simp only [List.length_nil] at width; omega
    | cons top low =>
      rw [List.foldl_cons,ih _ (divideBit_length tail top low bit width),
        polynomial_divideBit R tail top low bit width,polynomial_cons R bit rest,List.length_cons]
      -- Both sides differ by the divisor that the step subtracted, moved up with the rest.
      refine modByMonic_eq_of_dvd_sub (divisor_monic R tail)
        ⟨-(C (coefficient R (xor top bit)) * X ^ rest.length),?_⟩
      ring

end Register

end Lumen.Division
