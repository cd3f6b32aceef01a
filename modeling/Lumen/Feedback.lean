import Mathlib.Data.Bool.Basic
import Mathlib.Data.List.Basic
import Mathlib.Logic.Function.Iterate

/-! Registers that take a word in bit by bit and are linear over exclusive or. What such a
register holds after a sum of two words is the sum of what it holds after each, so the errors of
a transmission can be looked at on their own: zeros before the first set bit do nothing, and
zeros after the last one only shift. -/
namespace Lumen.Feedback

/-- The positions of the set bits, counted from a place. -/
def positionsFrom : Nat → List Bool → List Nat
  | _, [] => []
  | place, bit :: rest =>
    if bit then place :: positionsFrom (place + 1) rest else positionsFrom (place + 1) rest

theorem positionsFrom_length (place : Nat) (bits : List Bool) :
    (positionsFrom place bits).length = bits.count true := by
  induction bits generalizing place with
  | nil => rfl
  | cons bit rest ih => cases bit <;> simp [positionsFrom,ih]

theorem le_of_mem_positionsFrom (place : Nat) (bits : List Bool) :
    ∀ position ∈ positionsFrom place bits, place ≤ position := by
  induction bits generalizing place with
  | nil => simp [positionsFrom]
  | cons bit rest ih =>
    intro position member
    cases bit with
    | false => exact Nat.le_of_succ_le (ih (place + 1) position (by simpa [positionsFrom] using member))
    | true =>
      simp only [positionsFrom,if_true,List.mem_cons] at member
      rcases member with rfl | later
      · exact Nat.le_refl _
      · exact Nat.le_of_succ_le (ih (place + 1) position later)

/-- Without a set bit before some width, everything after it is clear. -/
theorem clear_of_positionsFrom (width place : Nat) (bits : List Bool)
    (confined : ∀ position ∈ positionsFrom place bits, position < place + width) :
    ∀ bit ∈ bits.drop width, bit = false := by
  induction bits generalizing place width with
  | nil => simp
  | cons bit rest ih =>
    cases width with
    | zero =>
      have nothing : positionsFrom place (bit :: rest) = [] := by
        refine List.eq_nil_iff_forall_not_mem.mpr fun position member => ?_
        have above := le_of_mem_positionsFrom place _ position member
        have below := confined position member
        omega
      cases bit with
      | true => simp [positionsFrom] at nothing
      | false =>
        simp only [positionsFrom,Bool.false_eq_true,if_false] at nothing
        have later := ih 0 (place + 1) (by simp [nothing])
        simpa using later
    | succ width =>
      refine ih width (place + 1) fun position member => ?_
      have within : position ∈ positionsFrom place (bit :: rest) := by
        cases bit with
        | true => exact List.mem_cons_of_mem _ member
        | false => exact member
      have bound := confined position within
      omega

/-- Up to its first set bit a word is clear. -/
theorem positionsFrom_cons (place first : Nat) (bits : List Bool) (later : List Nat)
    (positions : positionsFrom place bits = first :: later) :
    ∃ quiet rest, bits = quiet ++ true :: rest ∧ (∀ bit ∈ quiet, bit = false) ∧
      first = place + quiet.length ∧ positionsFrom (first + 1) rest = later := by
  induction bits generalizing place with
  | nil => cases positions
  | cons bit rest ih =>
    cases bit with
    | true =>
      obtain ⟨rfl,rfl⟩ := List.cons.inj positions
      exact ⟨[],rest,rfl,by simp,rfl,rfl⟩
    | false =>
      obtain ⟨quiet,tail,rfl,clear,at_,after⟩ := ih (place + 1) positions
      exact ⟨false :: quiet,tail,rfl,by simpa using clear,by simp; omega,after⟩

section Register

variable {σ : Type*} (shift : σ → σ) (add : σ → σ → σ) (top : σ)

/-- A bit enters at the top, then the register shifts. -/
def feed (state : σ) (bit : Bool) : σ := shift (if bit then add state top else state)

theorem run_quiet (state : σ) (bits : List Bool) (quiet : ∀ bit ∈ bits, bit = false) :
    bits.foldl (feed shift add top) state = shift^[bits.length] state := by
  induction bits generalizing state with
  | nil => rfl
  | cons bit rest ih =>
    obtain rfl := quiet bit List.mem_cons_self
    exact ih _ fun bit member => quiet bit (List.mem_cons_of_mem _ member)

/-- A register whose parity changes with every set bit ends with the parity of the word. -/
theorem run_parity (parity : σ → Bool)
    (changes : ∀ state bit, parity (feed shift add top state bit) = xor (parity state) bit)
    (state : σ) (bits : List Bool) :
    parity (bits.foldl (feed shift add top) state) =
      xor (parity state) (decide (bits.count true % 2 = 1)) := by
  induction bits generalizing state with
  | nil => simp
  | cons bit rest ih =>
    rw [List.foldl_cons,ih,changes]
    cases bit with
    | false => simp
    | true =>
      rcases Nat.mod_two_eq_zero_or_one (rest.count true) with even | odd
      · simp [even,Nat.add_mod]
      · simp [odd,Nat.add_mod]

/-- No word of up to so many bits brings the register into a state to avoid. -/
def avoids (avoided : σ → Bool) : Nat → σ → Bool
  | 0, state => !avoided state
  | width + 1, state => !avoided state &&
    (avoids avoided width (feed shift add top state false) &&
      avoids avoided width (feed shift add top state true))

theorem run_avoids (avoided : σ → Bool) (width : Nat) (state : σ) (bits : List Bool)
    (clear : avoids shift add top avoided width state = true) (short : bits.length ≤ width) :
    avoided (bits.foldl (feed shift add top) state) = false := by
  induction bits generalizing state width with
  | nil =>
    cases width with
    | zero => simpa [avoids] using clear
    | succ width =>
      simp only [avoids,Bool.and_eq_true,Bool.not_eq_true'] at clear
      exact clear.1
  | cons bit rest ih =>
    cases width with
    | zero => simp at short
    | succ width =>
      simp only [avoids,Bool.and_eq_true] at clear
      refine ih width _ ?_ (Nat.le_of_succ_le_succ short)
      cases bit with
      | false => exact clear.2.1
      | true => exact clear.2.2

section Errors

variable {zero : σ} (still : shift zero = zero) (enters : add zero top = top)

include still enters in
theorem run_first (quiet rest : List Bool) (clear : ∀ bit ∈ quiet, bit = false) :
    (quiet ++ true :: rest).foldl (feed shift add top) zero =
      rest.foldl (feed shift add top) (shift top) := by
  rw [List.foldl_append,run_quiet shift add top zero quiet clear,
    Function.iterate_fixed still quiet.length,List.foldl_cons,feed,if_pos rfl,enters]

include still enters in
/-- Set bits within a width of the first: a word of that width decides, up to shifts. -/
theorem run_burst (place first width : Nat) (bits : List Bool) (later : List Nat)
    (positions : positionsFrom place bits = first :: later)
    (confined : ∀ position ∈ later, position < first + 1 + width) :
    ∃ (window : List Bool) (count : Nat), window.length ≤ width ∧
      bits.foldl (feed shift add top) zero =
        shift^[count] (window.foldl (feed shift add top) (shift top)) := by
  obtain ⟨quiet,rest,rfl,clear,_,after⟩ := positionsFrom_cons place first bits later positions
  have beyond := clear_of_positionsFrom width (first + 1) rest (after ▸ confined)
  refine ⟨rest.take width,(rest.drop width).length,List.length_take_le ..,?_⟩
  rw [run_first shift add top still enters quiet rest clear,
    ← run_quiet shift add top _ _ beyond,← List.foldl_append,List.take_append_drop]

include still enters in
/-- Two set bits: the first has been shifted by their distance when the second enters. -/
theorem run_pair (place first second : Nat) (bits : List Bool)
    (positions : positionsFrom place bits = [first,second]) :
    ∃ count, bits.foldl (feed shift add top) zero =
      shift^[count] (shift (add (shift^[second - first] top) top)) := by
  obtain ⟨quiet,rest,rfl,clear,_,after⟩ := positionsFrom_cons place first bits _ positions
  obtain ⟨between,tail,rfl,clearly,at_,nothing⟩ := positionsFrom_cons (first + 1) second rest _ after
  have beyond : ∀ bit ∈ tail, bit = false :=
    clear_of_positionsFrom 0 (second + 1) tail (by simp [nothing])
  have distance : second - first = between.length + 1 := by omega
  refine ⟨tail.length,?_⟩
  rw [run_first shift add top still enters quiet _ clear,List.foldl_append,
    run_quiet shift add top _ between clearly,List.foldl_cons,feed,if_pos rfl,
    run_quiet shift add top _ tail beyond,distance,Function.iterate_succ_apply]

end Errors

variable {zero : σ} [Std.Commutative add] [Std.Associative add]
  (linear : ∀ a b, shift (add a b) = add (shift a) (shift b))
  (neutral : ∀ a, add a zero = a) (cancel : add top top = zero)

include linear neutral cancel in
theorem feed_xor (s t : σ) (a b : Bool) :
    feed shift add top (add s t) (xor a b) =
      add (feed shift add top s a) (feed shift add top t b) := by
  have both : add (add s top) (add t top) = add s t := by
    calc add (add s top) (add t top)
      _ = add (add s t) (add top top) := by ac_rfl
      _ = add s t := by rw [cancel,neutral]
  have left : add (add s top) t = add (add s t) top := by ac_rfl
  have right : add s (add t top) = add (add s t) top := by ac_rfl
  cases a <;> cases b <;> simp [feed,← linear,both,left,right]

include linear neutral cancel in
/-- The register is linear in the word. -/
theorem run_xor (s t : σ) (first second : List Bool) (same : first.length = second.length) :
    (List.zipWith xor first second).foldl (feed shift add top) (add s t) =
      add (first.foldl (feed shift add top) s) (second.foldl (feed shift add top) t) := by
  induction first generalizing s t second with
  | nil =>
    obtain rfl := List.length_eq_zero_iff.mp same.symm
    rfl
  | cons a rest ih =>
    cases second with
    | nil => cases same
    | cons b tail =>
      rw [List.zipWith_cons_cons,List.foldl_cons,
        feed_xor shift add top linear neutral cancel,ih _ _ _ (Nat.succ.inj same)]
      rfl

end Register

end Lumen.Feedback
