import Mathlib.Data.List.Basic

/-! What an observer of part of a state can tell. The observer sees the state through a view that
is a retraction: looking twice shows nothing new. An operation is blind when what it does to the
view depends on the view alone, and blind operations compose. The second part is about picking the
n-th element of a kind from a queue, which an observer of that kind can do. -/
namespace Lumen.Unwinding

section Blind

variable {σ : Type*} (view : σ → σ)

def Blind (f : σ → σ) : Prop := ∀ s, view (f s) = view (f (view s))

namespace Blind

variable {view} {f g : σ → σ}

theorem agree (blind : Blind view f) {s t : σ} (same : view s = view t) :
    view (f s) = view (f t) := by
  rw [blind s,same,← blind t]

theorem comp (after : Blind view g) (before : Blind view f) : Blind view fun s => g (f s) :=
  fun s => after.agree (before s)

theorem ite {c : σ → Prop} [∀ s, Decidable (c s)] (same : ∀ s, c (view s) ↔ c s)
    (yes : Blind view f) (no : Blind view g) : Blind view fun s => if c s then f s else g s := by
  intro s
  dsimp only
  by_cases holds : c s
  · rw [if_pos holds,if_pos ((same s).mpr holds)]
    exact yes s
  · rw [if_neg holds,if_neg fun seen => holds ((same s).mp seen)]
    exact no s

variable (retracts : ∀ s, view (view s) = view s)
include retracts

theorem of_commutes (commutes : ∀ s, f (view s) = view (f s)) : Blind view f := fun s => by
  rw [commutes,retracts]

theorem of_unseen (unseen : ∀ s, view (f s) = view s) : Blind view f := fun s => by
  rw [unseen,unseen,retracts]

theorem id : Blind view fun s => s := of_unseen retracts fun _ => rfl

end Blind

end Blind

section Ranks

variable {α : Type*} (p : α → Bool)

theorem getElem?_findIdxNth (l : List α) (n : Nat) :
    l[l.findIdxNth p n]? = (l.filter p)[n]? := by
  induction l generalizing n with
  | nil => simp
  | cons first rest ih =>
    cases holds : p first with
    | true => cases n <;> simp [holds,ih]
    | false => cases n <;> simp [holds,ih]

theorem filter_eraseIdx_findIdxNth (l : List α) (n : Nat) :
    (l.eraseIdx (l.findIdxNth p n)).filter p = (l.filter p).eraseIdx n := by
  induction l generalizing n with
  | nil => simp
  | cons first rest ih =>
    cases holds : p first with
    | true => cases n <;> simp [holds,ih]
    | false => cases n <;> simp [holds,ih]

theorem filter_eraseIdx_of_not (l : List α) (position : Nat) (a : α)
    (there : l[position]? = some a) (other : p a = false) :
    (l.eraseIdx position).filter p = l.filter p := by
  induction l generalizing position with
  | nil => simp
  | cons first rest ih =>
    cases position with
    | zero =>
      cases there
      simp [other]
    | succ position => simp [List.filter_cons,ih position there]

/-- Every element of a kind has a rank among its kind. -/
theorem exists_rank (l : List α) (position : Nat) (a : α) (there : l[position]? = some a)
    (holds : p a = true) : ∃ n, l.findIdxNth p n = position := by
  induction l generalizing position with
  | nil => simp at there
  | cons first rest ih =>
    cases position with
    | zero =>
      cases there
      exact ⟨0,by simp [holds]⟩
    | succ position =>
      obtain ⟨n,found⟩ := ih position there
      cases counted : p first with
      | true => exact ⟨n + 1,by simp [counted,found]⟩
      | false => exact ⟨n,by rw [List.findIdxNth_cons_of_neg counted,found]⟩

end Ranks

end Lumen.Unwinding
