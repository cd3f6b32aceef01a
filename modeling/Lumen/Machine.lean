import Mathlib.Data.List.Infix

/-! Runs of a deterministic machine driven by a list of inputs, and the rules by which
results about whole runs follow from results about one step. The guarded rules speak of
runs in which every step satisfies a condition on the state it starts from. -/
namespace Lumen.Machine

variable {σ ι : Type*} (step : σ → ι → σ)

def run (s : σ) (inputs : List ι) : σ := inputs.foldl step s

@[simp] theorem run_nil (s : σ) : run step s [] = s := rfl

@[simp] theorem run_cons (s : σ) (input : ι) (rest : List ι) :
    run step s (input :: rest) = run step (step s input) rest := rfl

theorem run_append (s : σ) (first second : List ι) :
    run step s (first ++ second) = run step (run step s first) second :=
  List.foldl_append

@[simp] theorem run_concat (s : σ) (inputs : List ι) (input : ι) :
    run step s (inputs ++ [input]) = step (run step s inputs) input := by
  rw [run_append]; rfl

/-- The property holds after every completed step of the run, and before the first. -/
def Always (property : σ → Prop) (s : σ) (inputs : List ι) : Prop :=
  ∀ done, done <+: inputs → property (run step s done)

/-- Every step of the run satisfies the guard in the state it starts from. -/
def Guarded (guard : σ → ι → Prop) (s : σ) (inputs : List ι) : Prop :=
  ∀ done input, done ++ [input] <+: inputs → guard (run step s done) input

theorem always_nil (property : σ → Prop) (s : σ) :
    Always step property s [] ↔ property s := by
  simp [Always]

theorem always_cons (property : σ → Prop) (s : σ) (input : ι) (rest : List ι) :
    Always step property s (input :: rest) ↔
      property s ∧ Always step property (step s input) rest := by
  constructor
  · intro always
    refine ⟨always [] (List.nil_prefix),fun done within => ?_⟩
    exact always (input :: done) (List.cons_prefix_cons.mpr ⟨rfl,within⟩)
  · rintro ⟨here,later⟩ done within
    cases done with
    | nil => exact here
    | cons first done =>
      obtain ⟨rfl,tail⟩ := List.cons_prefix_cons.mp within
      exact later done tail

theorem guarded_nil (guard : σ → ι → Prop) (s : σ) : Guarded step guard s [] := by
  intro done input within
  simp at within

theorem guarded_cons (guard : σ → ι → Prop) (s : σ) (input : ι) (rest : List ι) :
    Guarded step guard s (input :: rest) ↔
      guard s input ∧ Guarded step guard (step s input) rest := by
  constructor
  · intro guarded
    refine ⟨guarded [] input (by simp),fun done next within => ?_⟩
    exact guarded (input :: done) next (List.cons_prefix_cons.mpr ⟨rfl,within⟩)
  · rintro ⟨here,later⟩ done next within
    cases done with
    | nil =>
      obtain ⟨rfl,_⟩ := List.cons_prefix_cons.mp within
      exact here
    | cons first done =>
      obtain ⟨rfl,tail⟩ := List.cons_prefix_cons.mp within
      exact later done next tail

instance decidableGuarded (guard : σ → ι → Prop) [∀ s input, Decidable (guard s input)] (s : σ) :
    (inputs : List ι) → Decidable (Guarded step guard s inputs)
  | [] => isTrue (guarded_nil step guard s)
  | input :: rest =>
    have := decidableGuarded guard (step s input) rest
    decidable_of_iff _ (guarded_cons step guard s input rest).symm

theorem guarded_append (guard : σ → ι → Prop) (s : σ) (first second : List ι) :
    Guarded step guard s (first ++ second) ↔
      Guarded step guard s first ∧ Guarded step guard (run step s first) second := by
  induction first generalizing s with
  | nil => simp [guarded_nil]
  | cons input rest ih =>
    rw [List.cons_append,guarded_cons,guarded_cons,ih,run_cons,and_assoc]

/-- A property kept by every guarded step holds along every guarded run. -/
theorem always_of_guarded {property : σ → Prop} {guard : σ → ι → Prop}
    (preserved : ∀ s input, property s → guard s input → property (step s input))
    (s : σ) (inputs : List ι) (initial : property s) (guarded : Guarded step guard s inputs) :
    Always step property s inputs := by
  induction inputs generalizing s with
  | nil => exact (always_nil step property s).mpr initial
  | cons input rest ih =>
    obtain ⟨here,later⟩ := (guarded_cons step guard s input rest).mp guarded
    exact (always_cons step property s input rest).mpr
      ⟨initial,ih _ (preserved s input initial here) later⟩

/-- An invariant of every step is an invariant of every run. -/
theorem run_invariant {property : σ → Prop}
    (preserved : ∀ s input, property s → property (step s input))
    (s : σ) (inputs : List ι) (initial : property s) : property (run step s inputs) := by
  induction inputs generalizing s with
  | nil => exact initial
  | cons input rest ih => exact ih _ (preserved s input initial)

/-- Unwinding: when an input that is not visible leaves the state related to whatever it was
related to, and a visible one keeps two related states related, taking the invisible inputs out
of a run changes nothing. -/
theorem run_filter {related : σ → σ → Prop} {allowed : ι → Prop} (visible : ι → Bool)
    (both : ∀ s t input, allowed input → visible input = true → related s t →
      related (step s input) (step t input))
    (left : ∀ s t input, allowed input → visible input = false → related s t →
      related (step s input) t)
    (s t : σ) (inputs : List ι) (within : ∀ input ∈ inputs, allowed input)
    (initial : related s t) :
    related (run step s inputs) (run step t (inputs.filter visible)) := by
  induction inputs generalizing s t with
  | nil => exact initial
  | cons input rest ih =>
    have here := within input List.mem_cons_self
    have later := fun next member => within next (List.mem_cons_of_mem input member)
    cases seen : visible input with
    | true =>
      rw [List.filter_cons_of_pos seen]
      exact ih _ _ later (both s t input here seen initial)
    | false =>
      rw [List.filter_cons_of_neg (by simp [seen])]
      exact ih _ _ later (left s t input here seen initial)

/-- Two guards that agree wherever an invariant holds. -/
theorem guarded_congr {invariant : σ → Prop} {first second : σ → ι → Prop}
    (kept : ∀ s input, invariant s → invariant (step s input))
    (same : ∀ s input, invariant s → (first s input ↔ second s input))
    (s : σ) (inputs : List ι) (initial : invariant s) :
    Guarded step first s inputs ↔ Guarded step second s inputs := by
  induction inputs generalizing s with
  | nil => exact iff_of_true (guarded_nil step first s) (guarded_nil step second s)
  | cons input rest ih =>
    rw [guarded_cons,guarded_cons,same s input initial,ih (step s input) (kept s input initial)]

/-- When in addition every unguarded step breaks the property, the guard is exact. Both may
use an invariant, and all of it may be restricted to runs within a domain. -/
theorem always_iff_guarded_within {invariant property : σ → Prop} {domain guard : σ → ι → Prop}
    (kept : ∀ s input, invariant s → domain s input → invariant (step s input))
    (preserved : ∀ s input, invariant s → domain s input → property s → guard s input →
      property (step s input))
    (broken : ∀ s input, invariant s → domain s input → property s → ¬ guard s input →
      ¬ property (step s input))
    (s : σ) (inputs : List ι) (valid : invariant s) (initial : property s)
    (within : Guarded step domain s inputs) :
    Always step property s inputs ↔ Guarded step guard s inputs := by
  have invariants := always_of_guarded step kept s inputs valid within
  constructor
  · intro always done input reached
    by_contra unguarded
    have sooner : done <+: inputs := (List.prefix_append done [input]).trans reached
    have after := always (done ++ [input]) reached
    rw [run_concat] at after
    exact broken _ input (invariants done sooner) (within done input reached) (always done sooner)
      unguarded after
  · intro guarded done reached
    have both := @always_of_guarded _ _ step (fun s => invariant s ∧ property s)
      (fun s input => domain s input ∧ guard s input)
      (fun s input ⟨valid,holds⟩ ⟨inside,here⟩ =>
        ⟨kept s input valid inside,preserved s input valid inside holds here⟩)
      s inputs ⟨valid,initial⟩ (fun done input reached =>
        ⟨within done input reached,guarded done input reached⟩)
    exact (both done reached).2

theorem always_iff_guarded {invariant property : σ → Prop} {guard : σ → ι → Prop}
    (kept : ∀ s input, invariant s → invariant (step s input))
    (preserved : ∀ s input, invariant s → property s → guard s input → property (step s input))
    (broken : ∀ s input, invariant s → property s → ¬ guard s input → ¬ property (step s input))
    (s : σ) (inputs : List ι) (valid : invariant s) (initial : property s) :
    Always step property s inputs ↔ Guarded step guard s inputs := by
  have everywhere : Guarded step (fun _ _ => True) s inputs := fun _ _ _ => trivial
  exact always_iff_guarded_within step (fun s input valid _ => kept s input valid)
    (fun s input valid _ => preserved s input valid) (fun s input valid _ => broken s input valid)
    s inputs valid initial everywhere

/-- An input that is guarded as long as something is left, and leaves less, can be repeated
until nothing is left. -/
theorem exhaust {property : σ → Prop} {guard : σ → ι → Prop} (input : ι) (left : σ → Nat)
    (one : ∀ s, property s → 0 < left s →
      guard s input ∧ property (step s input) ∧ left (step s input) < left s)
    (s : σ) (initial : property s) :
    ∃ inputs, Guarded step guard s inputs ∧ property (run step s inputs) ∧
      left (run step s inputs) = 0 := by
  induction bound : left s using Nat.strong_induction_on generalizing s with
  | _ amount ih =>
    by_cases more : 0 < left s
    · obtain ⟨here,next,less⟩ := one s initial more
      obtain ⟨inputs,guarded,last,nothing⟩ := ih _ (bound ▸ less) (step s input) next rfl
      exact ⟨input :: inputs,(guarded_cons step guard s input inputs).mpr ⟨here,guarded⟩,last,nothing⟩
    · exact ⟨[],guarded_nil step guard s,initial,Nat.eq_zero_of_not_pos more⟩

/-! ### What a run shows to an observer -/

variable {ε : Type*} (observe : σ → ι → List ε)

/-- The observations made at each step, in order. -/
def trace (s : σ) : List ι → List ε
  | [] => []
  | input :: rest => observe s input ++ trace (step s input) rest

theorem trace_concat (s : σ) (inputs : List ι) (input : ι) :
    trace step observe s (inputs ++ [input]) =
      trace step observe s inputs ++ observe (run step s inputs) input := by
  induction inputs generalizing s with
  | nil => simp [trace]
  | cons first rest ih => simp [trace,ih]

/-- An invariant of guarded runs that relates the state to what has been observed so far. -/
theorem run_trace {property : List ε → σ → Prop} {guard : σ → ι → Prop} (s : σ)
    (initial : property [] s)
    (preserved : ∀ seen s input, property seen s → guard s input →
      property (seen ++ observe s input) (step s input))
    (inputs : List ι) (guarded : Guarded step guard s inputs) :
    property (trace step observe s inputs) (run step s inputs) := by
  induction inputs using List.reverseRecOn with
  | nil => exact initial
  | append_singleton done input ih =>
    rw [run_concat,trace_concat]
    have sooner : Guarded step guard s done := fun earlier next within =>
      guarded earlier next (within.trans (List.prefix_append done [input]))
    exact preserved _ _ input (ih sooner) (guarded done input (List.prefix_refl _))

/-- Unwinding for what is shown: when invisible inputs show nothing and visible ones show the same
in related states, taking the invisible inputs out of a run changes nothing of what it shows. -/
theorem trace_filter {related : σ → σ → Prop} (visible : ι → Bool)
    (both : ∀ s t input, visible input = true → related s t →
      related (step s input) (step t input))
    (left : ∀ s t input, visible input = false → related s t → related (step s input) t)
    (same : ∀ s t input, visible input = true → related s t → observe s input = observe t input)
    (silent : ∀ s input, visible input = false → observe s input = [])
    (s t : σ) (inputs : List ι) (initial : related s t) :
    trace step observe s inputs = trace step observe t (inputs.filter visible) := by
  induction inputs generalizing s t with
  | nil => rfl
  | cons input rest ih =>
    cases seen : visible input with
    | true =>
      rw [List.filter_cons_of_pos seen,trace,trace,same s t input seen initial,
        ih _ _ (both s t input seen initial)]
    | false =>
      rw [List.filter_cons_of_neg (by simp [seen]),trace,silent s input seen,List.nil_append,
        ih _ _ (left s t input seen initial)]

/-- First in, first out: when every step of a guarded run conserves the order of what waits,
what it takes in and what it puts out, so does the run. -/
theorem run_conserves {α : Type*} {valid : σ → Prop} {guard : σ → ι → Prop}
    (waiting : σ → List α) (taken put : σ → ι → List α)
    (kept : ∀ s input, valid s → guard s input → valid (step s input))
    (one : ∀ s input, valid s → guard s input →
      waiting s ++ taken s input = put s input ++ waiting (step s input))
    (s : σ) (inputs : List ι) (initial : valid s) (guarded : Guarded step guard s inputs) :
    waiting s ++ trace step taken s inputs =
      trace step put s inputs ++ waiting (run step s inputs) := by
  induction inputs generalizing s with
  | nil => simp [trace]
  | cons input rest ih =>
    obtain ⟨here,later⟩ := (guarded_cons step guard s input rest).mp guarded
    have tail := ih (step s input) (kept s input initial here) later
    calc waiting s ++ (taken s input ++ trace step taken (step s input) rest)
      _ = (put s input ++ waiting (step s input)) ++ trace step taken (step s input) rest := by
        rw [← List.append_assoc,one s input initial here]
      _ = put s input ++ (trace step put (step s input) rest ++
          waiting (run step (step s input) rest)) := by rw [List.append_assoc,tail]
      _ = _ := by rw [← List.append_assoc]; rfl

/-- What waits now was put there by a step since when every step has kept it, or was there from the
beginning and has been kept by all. -/
theorem waits_iff {α : Type*} {waits : σ → α → Prop} {put : σ → ι → α → Prop} {keeps : σ → ι → Prop}
    (one : ∀ s input a, waits (step s input) a ↔ put s input a ∨ waits s a ∧ keeps s input)
    (s : σ) (inputs : List ι) (a : α) :
    waits (run step s inputs) a ↔
      (∃ before input after, inputs = before ++ input :: after ∧ put (run step s before) input a ∧
        Guarded step keeps (run step s (before ++ [input])) after) ∨
      waits s a ∧ Guarded step keeps s inputs := by
  induction inputs generalizing s with
  | nil => simp [guarded_nil]
  | cons input rest ih =>
    rw [run_cons,ih,one,guarded_cons]
    constructor
    · rintro (⟨before,later,after,rfl,puts,kept⟩ | ⟨puts | ⟨waiting,here⟩,kept⟩)
      · exact Or.inl ⟨input :: before,later,after,rfl,puts,kept⟩
      · exact Or.inl ⟨[],input,rest,rfl,puts,kept⟩
      · exact Or.inr ⟨waiting,here,kept⟩
    · rintro (⟨before,later,after,split,puts,kept⟩ | ⟨waiting,here,kept⟩)
      · cases before with
        | nil =>
          cases split
          exact Or.inr ⟨Or.inl puts,kept⟩
        | cons first before =>
          cases split
          exact Or.inl ⟨before,later,after,rfl,puts,kept⟩
      · exact Or.inr ⟨Or.inr ⟨waiting,here⟩,kept⟩

/-! ### A machine that drives another one -/

section Layers

variable {τ κ : Type*} (upper : τ → κ → τ) (emit : σ → ι → List κ)

/-- Each step of the lower machine feeds what it emits to the upper one. -/
def layered (s : σ × τ) (input : ι) : σ × τ := (step s.1 input,run upper s.2 (emit s.1 input))

/-- Neither machine notices that they run together. -/
theorem run_layered (s : σ) (t : τ) (inputs : List ι) :
    run (layered step upper emit) (s,t) inputs =
      (run step s inputs,run upper t (trace step emit s inputs)) := by
  induction inputs generalizing s t with
  | nil => rfl
  | cons input rest ih => simp only [run_cons,layered,ih,trace,run_append]

end Layers

theorem guarded_of_forall {guard : ι → Prop} (s : σ) (inputs : List ι)
    (all : ∀ input ∈ inputs, guard input) : Guarded step (fun _ => guard) s inputs := by
  intro done input within
  exact all input (within.subset (List.mem_append_right _ (List.mem_singleton_self _)))

end Lumen.Machine
