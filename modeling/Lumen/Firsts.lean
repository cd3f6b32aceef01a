import Mathlib.Data.List.Induction
import Mathlib.Data.List.Sort

/-! First occurrences. A list follows an order when the things in it appear for the first time
in the order in which they stand there; repetitions do not count. -/
namespace Lumen.Firsts

variable {α β : Type*} [BEq α] [LawfulBEq α] [BEq β] [LawfulBEq β]

theorem eraseDups_concat (l : List α) (a : α) :
    (l ++ [a]).eraseDups = l.eraseDups ++ if a ∈ l then [] else [a] := by
  rw [List.eraseDups_append]
  by_cases known : a ∈ l
  · simp [List.removeAll,known]
  · simp [List.removeAll,known,List.eraseDups_cons]

theorem nodup_eraseDups (l : List α) : l.eraseDups.Nodup := by
  induction l using List.reverseRecOn with
  | nil => simp
  | append_singleton l a ih =>
    rw [eraseDups_concat]
    split
    · rwa [List.append_nil]
    · next new => exact ih.append (List.nodup_singleton a) (by simpa using new)

/-- Under a function more may be repeated. -/
theorem eraseDups_map_sublist (f : α → β) (l : List α) :
    (l.map f).eraseDups.Sublist (l.eraseDups.map f) := by
  induction l using List.reverseRecOn with
  | nil => simp
  | append_singleton l a ih =>
    rw [List.map_append,List.map_singleton,eraseDups_concat,eraseDups_concat,List.map_append]
    refine ih.append ?_
    by_cases known : a ∈ l
    · rw [if_pos known,if_pos (List.mem_map_of_mem known)]
      exact List.Sublist.refl _
    · rw [if_neg known]
      split
      · exact List.nil_sublist _
      · exact List.Sublist.refl _

/-- Everything in the list is known to the order and first appears in that order. -/
structure Follows (order l : List α) : Prop where
  known : ∀ a ∈ l, a ∈ order
  ordered : l.eraseDups.Pairwise fun a b => order.idxOf a < order.idxOf b

namespace Follows

omit [LawfulBEq α] in
theorem nil (order : List α) : Follows order [] := ⟨by simp,by simp⟩

/-- The order may grow at its end. -/
theorem append_order {order l : List α} (follows : Follows order l) (more : List α) :
    Follows (order ++ more) l := by
  refine ⟨fun a member => List.mem_append_left _ (follows.known a member),?_⟩
  refine follows.ordered.imp_of_mem fun first second before => ?_
  rw [List.idxOf_append_of_mem (follows.known _ (List.mem_eraseDups.mp first)),
    List.idxOf_append_of_mem (follows.known _ (List.mem_eraseDups.mp second))]
  exact before

/-- What is new in the list comes after everything in it. -/
theorem concat {order l : List α} {a : α} (follows : Follows order l) (listed : a ∈ order)
    (last : a ∉ l → ∀ b ∈ l, order.idxOf b < order.idxOf a) : Follows order (l ++ [a]) := by
  constructor
  · intro b member
    rcases List.mem_append.mp member with earlier | now
    · exact follows.known b earlier
    · rw [List.mem_singleton.mp now]
      exact listed
  · rw [eraseDups_concat]
    split
    · rw [List.append_nil]
      exact follows.ordered
    · next new =>
      refine List.pairwise_append.mpr ⟨follows.ordered,List.pairwise_singleton _ a,?_⟩
      intro b earlier c now
      rw [List.mem_singleton.mp now]
      exact last new b (List.mem_eraseDups.mp earlier)

theorem pairwise_idxOf {order : List α} (distinct : order.Nodup) :
    order.Pairwise fun a b => order.idxOf a < order.idxOf b := by
  refine List.pairwise_iff_getElem.mpr fun i j first second before => ?_
  rw [distinct.idxOf_getElem i first,distinct.idxOf_getElem j second]
  exact before

/-- A list that follows an order is a sublist of it, repetitions removed. -/
theorem sublist {order l : List α} (follows : Follows order l) (distinct : order.Nodup) :
    l.eraseDups.Sublist order := by
  let before : α → α → Prop := fun a b => order.idxOf a < order.idxOf b
  have antisymmetric : Std.Antisymm before :=
    ⟨fun _ _ forward backward => absurd forward (Nat.lt_asymm backward)⟩
  have within : l.eraseDups.Subperm order :=
    List.subperm_of_subset (nodup_eraseDups l) fun a member =>
      follows.known a (List.mem_eraseDups.mp member)
  exact List.sublist_of_subperm_of_pairwise (r := before) within follows.ordered
    (pairwise_idxOf distinct)

theorem of_sublist {order l : List α} (among : l.eraseDups.Sublist order) (distinct : order.Nodup) :
    Follows order l :=
  ⟨fun _ member => among.subset (List.mem_eraseDups.mpr member),
    (pairwise_idxOf distinct).sublist among⟩

/-- Conversely, what is new at the end stands last. -/
theorem last {order l : List α} {a : α} (follows : Follows order (l ++ [a])) (new : a ∉ l) :
    ∀ b ∈ l, order.idxOf b < order.idxOf a := by
  intro b earlier
  have ordered := follows.ordered
  rw [eraseDups_concat,if_neg new] at ordered
  exact (List.pairwise_append.mp ordered).2.2 b (List.mem_eraseDups.mpr earlier) a
    (List.mem_singleton_self a)

end Follows

theorem idxOf_map {f : α → β} {l : List α} (distinct : (l.map f).Nodup) {a : α} (member : a ∈ l) :
    (l.map f).idxOf (f a) = l.idxOf a := by
  have here : l.idxOf a < (l.map f).length := by simpa using List.idxOf_lt_length_of_mem member
  have place := distinct.idxOf_getElem (l.idxOf a) here
  rwa [List.getElem_map,List.getElem_idxOf] at place

/-! ### Keyed entries -/

section Keyed

variable {κ ν : Type*} [DecidableEq κ]

/-- What was last recorded under a key. -/
def latest (log : List (κ × ν)) (key : κ) : Option ν :=
  (log.reverse.find? fun entry => entry.1 = key).map (·.2)

/-- The entries whose key was not recorded before. -/
def firsts (log : List (κ × ν)) : List (κ × ν) :=
  log.foldl (fun known entry => if entry.1 ∈ known.map (·.1) then known else known ++ [entry]) []

theorem latest_concat (log : List (κ × ν)) (entry : κ × ν) :
    latest (log ++ [entry]) = Function.update (latest log) entry.1 (some entry.2) := by
  funext key
  by_cases same : entry.1 = key
  · subst same
    simp [latest]
  · rw [Function.update_of_ne fun other => same other.symm]
    simp [latest,same]

theorem firsts_concat (log : List (κ × ν)) (entry : κ × ν) :
    firsts (log ++ [entry]) =
      if entry.1 ∈ (firsts log).map (·.1) then firsts log else firsts log ++ [entry] := by
  rw [firsts,List.foldl_append]
  rfl

/-- The first entries name every key, and only what was recorded last is missing from them. -/
theorem latest_eq_none_iff (log : List (κ × ν)) (key : κ) :
    latest log key = none ↔ key ∉ (firsts log).map (·.1) := by
  induction log using List.reverseRecOn with
  | nil => simp [latest,firsts]
  | append_singleton log entry ih =>
    rw [latest_concat,firsts_concat]
    by_cases same : key = entry.1
    · subst same
      rw [Function.update_self]
      split
      · next known => exact iff_of_false nofun (fun new => new known)
      · exact iff_of_false nofun (by simp)
    · rw [Function.update_of_ne same,ih]
      split
      · rfl
      · simp [same]

theorem latest_of_unrecorded (log : List (κ × ν)) (key : κ) (unrecorded : ∀ entry ∈ log, entry.1 ≠ key) :
    latest log key = none := by
  simpa [latest] using unrecorded

end Keyed

end Lumen.Firsts
