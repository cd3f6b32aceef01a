import Lumen.Backoff
import Mathlib.Data.Finset.Max

/-! Gap detection at the rover. The base numbers its packets modulo 256, and the rover keeps the
time of the last arrival under each number. Packets are known here by their place in what the
base sent, so that the ledger of those still on record says which cycle a number comes from; the
table of the source only has the numbers. -/
namespace Lumen.ReliabilityManager

open Endpoint

/-- What happens to the record of the base: its packets arrive, in any order, old entries are
cleaned up and time passes. -/
inductive Hearing where
  | arrive (index : Nat)
  | cleanup
  | wait (nanos : Nat)
  deriving DecidableEq, Repr

def hear (base : Endpoint) (s : Timed) : Hearing → Timed
  | .arrive index =>
    { s with manager := s.manager.recordReceivedSequence s.now (UInt8.ofNat index) base }
  | .cleanup => { s with manager := s.manager.cleanupOldEntries s.now }
  | .wait nanos => { s with now := s.now + nanos }

def arrivals (inputs : List Hearing) : List Nat :=
  inputs.filterMap fun
    | .arrive index => some index
    | _ => none

/-- The packets on record with the time of their arrival. -/
structure Ledger where
  entries : List (Nat × Nat)
  now : Nat

namespace Ledger

/-- A packet takes the place of the one recorded under its number. -/
def hear (s : Ledger) : Hearing → Ledger
  | .arrive index =>
    { s with entries := (index,s.now) :: s.entries.filter fun entry => entry.1 % 256 ≠ index % 256 }
  | .cleanup =>
    { s with entries := s.entries.filter fun entry => ¬ elapsed s.now entry.2 > sequenceRetainTime }
  | .wait nanos => { s with now := s.now + nanos }

/-- The packets on record. -/
def kept (s : Ledger) : List Nat := s.entries.map Prod.fst

end Ledger

def ledgerAfter (now : Nat) (inputs : List Hearing) : Ledger :=
  Machine.run Ledger.hear ⟨[],now⟩ inputs

theorem ofNat_eq_iff (index : Nat) (seq : UInt8) :
    UInt8.ofNat index = seq ↔ index % 256 = seq.toNat := by
  rw [← UInt8.toNat_inj,UInt8.toNat_ofNat']

theorem cleanupOldEntries_receivedSequences (rm : ReliabilityManager) (now : Nat) (key : String)
    (seq : UInt8) :
    (rm.cleanupOldEntries now).receivedSequences key seq =
      (rm.receivedSequences key seq).filter fun time => ¬ elapsed now time > sequenceRetainTime := by
  simp only [cleanupOldEntries]

/-- The table is cleared at the start. -/
theorem start_receivedSequences (rm : ReliabilityManager) (now : Nat) (key : String) (seq : UInt8)
    (stopped : rm.running = false) (rover : rm.role = .rover) :
    (rm.start now).receivedSequences key seq = none := by
  simp [start,stopped,rover,handleRetransmissionTimer,handleCleanupTimer,cleanupOldEntries]

/-- The table of a running rover and the ledger say the same. -/
structure Books (base : Endpoint) (s : Timed) (ledger : Ledger) : Prop where
  running : s.manager.running = true
  rover : s.manager.role = .rover
  now : s.now = ledger.now
  recorded : ∀ seq time, s.manager.receivedSequences (getEndpointKey base) seq = some time ↔
    ∃ index, index % 256 = seq.toNat ∧ (index,time) ∈ ledger.entries

theorem arrive_books (base : Endpoint) (s : Timed) (ledger : Ledger) (index : Nat)
    (books : Books base s ledger) :
    Books base (hear base s (.arrive index)) (ledger.hear (.arrive index)) := by
  have setup := s.manager.recordReceivedSequence_setup s.now (UInt8.ofNat index) base
  refine ⟨setup.1.trans books.running,setup.2.trans books.rover,books.now,fun seq time => ?_⟩
  have before := books.recorded seq time
  simp only [hear,recordReceivedSequence,books.running,Bool.not_true,Bool.false_eq_true,if_false,
    Function.update_self,Ledger.hear,List.mem_cons,List.mem_filter,decide_eq_true_eq,books.now]
  by_cases same : seq = UInt8.ofNat index
  · have number := (ofNat_eq_iff index seq).mp same.symm
    rw [same,Function.update_self,← same]
    constructor
    · rintro ⟨⟩
      exact ⟨index,number,Or.inl rfl⟩
    · rintro ⟨other,congruent,here | ⟨_,apart⟩⟩
      · cases here
        rfl
      · exact absurd (congruent.trans number.symm) apart
  · have apart : index % 256 ≠ seq.toNat := fun number => same ((ofNat_eq_iff index seq).mpr number).symm
    rw [Function.update_of_ne same,before]
    constructor
    · rintro ⟨other,congruent,member⟩
      exact ⟨other,congruent,Or.inr ⟨member,fun number => apart (number.symm.trans congruent)⟩⟩
    · rintro ⟨other,congruent,here | ⟨member,_⟩⟩
      · cases here
        exact absurd congruent apart
      · exact ⟨other,congruent,member⟩

theorem hear_books (base : Endpoint) (s : Timed) (ledger : Ledger) (input : Hearing)
    (books : Books base s ledger) : Books base (hear base s input) (ledger.hear input) := by
  cases input with
  | arrive index => exact arrive_books base s ledger index books
  | wait nanos =>
    exact ⟨books.running,books.rover,congrArg (· + nanos) books.now,books.recorded⟩
  | cleanup =>
    have setup := s.manager.cleanupOldEntries_setup s.now
    simp only [hear,Ledger.hear]
    refine ⟨setup.1.trans books.running,setup.2.trans books.rover,books.now,fun seq time => ?_⟩
    simp only [List.mem_filter]
    rw [cleanupOldEntries_receivedSequences,Option.filter_eq_some_iff,books.recorded,books.now]
    constructor
    · rintro ⟨⟨index,congruent,member⟩,fresh⟩
      exact ⟨index,congruent,member,fresh⟩
    · rintro ⟨index,congruent,member,fresh⟩
      exact ⟨⟨index,congruent,member⟩,fresh⟩

theorem run_books (base : Endpoint) (now : Nat) (callback : Bool) (inputs : List Hearing) :
    Books base (Machine.run (hear base) (startedRover now callback) inputs)
      (ledgerAfter now inputs) := by
  have initial : Books base (startedRover now callback) ⟨[],now⟩ := by
    have setup := (new .rover).start_setup now
    refine ⟨setup.1,setup.2,rfl,fun seq time => ?_⟩
    have empty : (startedRover now callback).manager.receivedSequences (getEndpointKey base) seq =
        none := by
      simp only [startedRover]
      exact start_receivedSequences (new .rover) now _ seq rfl rfl
    simp [empty]
  induction inputs using List.reverseRecOn with
  | nil => exact initial
  | append_singleton done input ih =>
    rw [ledgerAfter,Machine.run_concat,Machine.run_concat]
    exact hear_books base _ _ input ih

/-! ### What the check reports -/

theorem sequences_sorted : sequences.Pairwise (· < ·) := by
  refine List.pairwise_map.mpr (List.pairwise_lt_range.imp_of_mem fun {a b} small small' less => ?_)
  rw [UInt8.lt_iff_toNat_lt,UInt8.toNat_ofNat_of_lt' (List.mem_range.mp small),
    UInt8.toNat_ofNat_of_lt' (List.mem_range.mp small')]
  exact less

/-- `rbegin` of a map is its largest key. -/
theorem getLast?_sequences (present : UInt8 → Bool) (highest : UInt8)
    (last : (sequences.filter present).getLast? = some highest) :
    present highest = true ∧ ∀ seq, present seq = true → seq.toNat ≤ highest.toNat := by
  obtain ⟨front,split⟩ := List.getLast?_eq_some_iff.mp last
  have member : highest ∈ sequences.filter present := by rw [split]; simp
  refine ⟨(List.mem_filter.mp member).2,fun seq here => ?_⟩
  have among : seq ∈ front ++ [highest] := by
    rw [← split]
    exact List.mem_filter.mpr ⟨mem_sequences seq,here⟩
  have sorted := sequences_sorted.filter present
  rw [split,List.pairwise_append] at sorted
  rcases List.mem_append.mp among with before | same
  · exact Nat.le_of_lt (UInt8.lt_iff_toNat_lt.mp (sorted.2.2 seq before highest (by simp)))
  · rw [List.mem_singleton.mp same]

/-- How far one number is behind another, modulo 256. -/
def behind (seq top : Nat) : Nat := (top + 256 - seq) % 256

theorem mem_window (highest seq : UInt8) :
    seq ∈ (List.range windowSize).map (fun i => highest - UInt8.ofNat (i + 1)) ↔
      1 ≤ behind seq.toNat highest.toNat ∧ behind seq.toNat highest.toNat ≤ windowSize := by
  have bound := seq.toNat_lt
  have bound' := highest.toNat_lt
  simp only [List.mem_map,List.mem_range,windowSize,behind]
  constructor
  · rintro ⟨i,small,rfl⟩
    simp only [UInt8.toNat_sub,UInt8.toNat_ofNat']
    omega
  · rintro ⟨least,most⟩
    refine ⟨(highest.toNat + 256 - seq.toNat) % 256 - 1,by omega,?_⟩
    apply UInt8.toNat_inj.mp
    simp only [UInt8.toNat_sub,UInt8.toNat_ofNat']
    omega

/-- The numbers reported: not on record, and at most a window behind the largest on record. -/
theorem mem_getMissingSequences (base : Endpoint) (s : Timed) (ledger : Ledger) (seq : UInt8)
    (books : Books base s ledger) :
    seq ∈ s.manager.getMissingSequences base ↔
      (∀ index ∈ ledger.kept, index % 256 ≠ seq.toNat) ∧
      ∃ top ∈ ledger.kept, (∀ index ∈ ledger.kept, index % 256 ≤ top % 256) ∧
        1 ≤ behind seq.toNat (top % 256) ∧ behind seq.toNat (top % 256) ≤ windowSize := by
  have present (seq : UInt8) :
      (s.manager.receivedSequences (getEndpointKey base) seq).isSome = true ↔
        ∃ index ∈ ledger.kept, index % 256 = seq.toNat := by
    simp only [Option.isSome_iff_exists,books.recorded,Ledger.kept,List.mem_map,Prod.exists]
    constructor
    · rintro ⟨time,index,congruent,member⟩
      exact ⟨index,⟨index,time,member,rfl⟩,congruent⟩
    · rintro ⟨_,⟨index,time,member,rfl⟩,congruent⟩
      exact ⟨time,index,congruent,member⟩
  have absent (seq : UInt8) :
      (s.manager.receivedSequences (getEndpointKey base) seq).isNone = true ↔
        ∀ index ∈ ledger.kept, index % 256 ≠ seq.toNat := by
    rw [Option.isNone_iff_eq_none,← Option.not_isSome_iff_eq_none,present]
    push Not
    rfl
  simp only [getMissingSequences,books.rover,ne_eq,not_true_eq_false,if_false]
  split
  · next nothing =>
    have empty (seq : UInt8) : ¬ ∃ index ∈ ledger.kept, index % 256 = seq.toNat := by
      rw [← present]
      have none_ := List.getLast?_eq_none_iff.mp nothing
      exact fun here => List.filter_eq_nil_iff.mp none_ seq (mem_sequences seq) here
    constructor
    · intro member
      cases member
    · rintro ⟨_,top,member,_⟩
      exact absurd ⟨top,member,(ofNat_eq_iff top _).mp rfl⟩ (empty (UInt8.ofNat top))
  · next highest last =>
    obtain ⟨here,largest⟩ := getLast?_sequences _ highest last
    obtain ⟨top,member,congruent⟩ := (present highest).mp here
    have above (index : Nat) (known : index ∈ ledger.kept) : index % 256 ≤ top % 256 := by
      have number : (UInt8.ofNat index).toNat = index % 256 := UInt8.toNat_ofNat'
      have ranked := largest (UInt8.ofNat index) ((present _).mpr ⟨index,known,number.symm⟩)
      omega
    rw [List.mem_filter,mem_window,absent,← congruent]
    constructor
    · rintro ⟨⟨least,most⟩,missing⟩
      exact ⟨missing,top,member,above,least,most⟩
    · rintro ⟨missing,other,known,maximal,least,most⟩
      have same : other % 256 = top % 256 := le_antisymm (above other known) (maximal top member)
      rw [same] at least most
      exact ⟨⟨least,most⟩,missing⟩

/-! ### The ledger over runs -/

/-- A condition that passes from older to newer entries keeps the newest ones. -/
theorem filter_isPrefix {α : Type*} {keep : α → Bool} {l : List α}
    (closed : l.Pairwise fun newer older => keep older = true → keep newer = true) :
    l.filter keep <+: l := by
  induction l with
  | nil => exact List.nil_prefix
  | cons newest rest ih =>
    obtain ⟨head,tail⟩ := List.pairwise_cons.mp closed
    cases decided : keep newest with
    | true =>
      rw [List.filter_cons_of_pos decided]
      exact List.cons_prefix_cons.mpr ⟨rfl,ih tail⟩
    | false =>
      have nothing : (newest :: rest).filter keep = [] := by
        refine List.filter_eq_nil_iff.mpr fun entry member holds => ?_
        rcases List.mem_cons.mp member with rfl | later
        · rw [decided] at holds
          cases holds
        · have newestToo := head entry later holds
          rw [decided] at newestToo
          cases newestToo
      rw [nothing]
      exact List.nil_prefix

namespace Ledger

/-- The newest arrival comes first, and none is in the future. -/
structure Ordered (s : Ledger) : Prop where
  past : ∀ entry ∈ s.entries, entry.2 ≤ s.now
  sorted : s.entries.Pairwise fun newer older => older.2 ≤ newer.2

theorem hear_ordered (s : Ledger) (input : Hearing) (ordered : s.Ordered) :
    (s.hear input).Ordered := by
  cases input with
  | arrive index =>
    constructor
    · intro entry member
      rcases List.mem_cons.mp member with rfl | old
      · exact Nat.le_refl _
      · exact ordered.past entry (List.mem_of_mem_filter old)
    · refine List.pairwise_cons.mpr ⟨fun entry member => ?_,ordered.sorted.filter _⟩
      exact ordered.past entry (List.mem_of_mem_filter member)
  | cleanup =>
    exact ⟨fun entry member => ordered.past entry (List.mem_of_mem_filter member),
      ordered.sorted.filter _⟩
  | wait nanos =>
    exact ⟨fun entry member => Nat.le_add_right_of_le (ordered.past entry member),ordered.sorted⟩

/-- Cleaning up drops the oldest entries. -/
theorem cleanup_isPrefix (s : Ledger) (ordered : s.Ordered) : (s.hear .cleanup).kept <+: s.kept := by
  refine List.IsPrefix.map _ (filter_isPrefix (ordered.sorted.imp fun {newer older} later fresh => ?_))
  have longer : elapsed s.now newer.2 ≤ elapsed s.now older.2 :=
    Nat.div_le_div_right (Nat.sub_le_sub_left later _)
  simp only [decide_eq_true_eq] at fresh ⊢
  omega

theorem kept_arrive (s : Ledger) (index : Nat) :
    (s.hear (.arrive index)).kept =
      index :: s.kept.filter fun other => other % 256 ≠ index % 256 := by
  simp [kept,hear,List.filter_map,Function.comp_def]

end Ledger

theorem arrivals_append (done : List Hearing) (input : Hearing) :
    arrivals (done ++ [input]) = arrivals done ++ arrivals [input] := List.filterMap_append ..

section Runs

variable (now : Nat) (inputs : List Hearing)

theorem ledgerAfter_concat (input : Hearing) :
    ledgerAfter now (inputs ++ [input]) = (ledgerAfter now inputs).hear input :=
  Machine.run_concat ..

theorem ledgerAfter_ordered : (ledgerAfter now inputs).Ordered :=
  Machine.run_invariant Ledger.hear Ledger.hear_ordered _ inputs ⟨by simp,by simp⟩

/-- Only packets that arrived are on record. -/
theorem kept_arrived : ∀ index ∈ (ledgerAfter now inputs).kept, index ∈ arrivals inputs := by
  induction inputs using List.reverseRecOn with
  | nil => simp [ledgerAfter,Ledger.kept]
  | append_singleton done input ih =>
    intro index member
    rw [ledgerAfter_concat] at member
    rw [arrivals_append,List.mem_append]
    cases input with
    | arrive other =>
      rw [Ledger.kept_arrive,List.mem_cons] at member
      rcases member with rfl | old
      · exact Or.inr (by simp [arrivals])
      · exact Or.inl (ih index (List.mem_of_mem_filter old))
    | cleanup =>
      exact Or.inl (ih index
        (((ledgerAfter now done).cleanup_isPrefix (ledgerAfter_ordered now done)).subset member))
    | wait nanos => exact Or.inl (ih index member)

/-- As long as anything is on record, the latest arrival is, and it comes first. -/
theorem kept_latest :
    (ledgerAfter now inputs).kept = [] ∨
      (ledgerAfter now inputs).kept.head? = (arrivals inputs).getLast? := by
  induction inputs using List.reverseRecOn with
  | nil => exact Or.inl rfl
  | append_singleton done input ih =>
    rw [ledgerAfter_concat,arrivals_append]
    cases input with
    | arrive index =>
      rw [Ledger.kept_arrive]
      exact Or.inr (by simp [arrivals])
    | wait nanos => simpa [arrivals,Ledger.hear,Ledger.kept] using ih
    | cleanup =>
      have shorter := (ledgerAfter now done).cleanup_isPrefix (ledgerAfter_ordered now done)
      cases left : ((ledgerAfter now done).hear .cleanup).kept with
      | nil => exact Or.inl rfl
      | cons first rest =>
        rw [left] at shorter
        obtain ⟨tail,split⟩ := shorter
        rw [← split] at ih
        simpa [arrivals] using ih

end Runs

/-! ### Packets that never arrived -/

/-- When the loss of the packet `k` before the latest one `m` is noticed: the latest is still on
record, no packet of another cycle is on record under the lost one's number, and the largest
number on record is at most a window after it. For a number that wrapped, that is also the case
when a number above it is on record. -/
structure Noticeable (kept : List Nat) (m k : Nat) : Prop where
  latest : m ∈ kept
  cycle : ∀ index ∈ kept, index % 256 = (m - k) % 256 → index = m - k
  near : (∀ index ∈ kept, index % 256 ≤ m % 256 + (windowSize - k)) ∨
    (m % 256 < k ∧ ∃ index ∈ kept, (m - k) % 256 < index % 256)

/-- The largest number on record, and what being near it comes to. -/
theorem near_iff {kept : List Nat} {m k top : Nat} (least : 1 ≤ k) (most : k ≤ windowSize)
    (sent : k ≤ m) (latest : m ∈ kept) (known : top ∈ kept)
    (largest : ∀ index ∈ kept, index % 256 ≤ top % 256) (_apart : top % 256 ≠ (m - k) % 256) :
    (1 ≤ behind ((m - k) % 256) (top % 256) ∧ behind ((m - k) % 256) (top % 256) ≤ windowSize) ↔
      (∀ index ∈ kept, index % 256 ≤ m % 256 + (windowSize - k)) ∨
      (m % 256 < k ∧ ∃ index ∈ kept, (m - k) % 256 < index % 256) := by
  have above := largest m latest
  simp only [behind,windowSize] at most ⊢
  constructor
  · rintro ⟨_,close⟩
    by_cases beyond : m % 256 < k ∧ (m - k) % 256 < top % 256
    · exact Or.inr ⟨beyond.1,top,known,beyond.2⟩
    · refine Or.inl fun index member => ?_
      have ranked := largest index member
      omega
  · rintro (bounded | ⟨wrapped,index,member,higher⟩)
    · have bound := bounded top known
      omega
    · have ranked := largest index member
      omega

/-- A packet that never arrived, at most a window before the latest one, is reported exactly when
its loss is noticeable. -/
theorem lost_packet_reported_iff (base : Endpoint) (now : Nat) (callback : Bool)
    (inputs : List Hearing) (m k : Nat) (latest : (arrivals inputs).getLast? = some m)
    (least : 1 ≤ k) (most : k ≤ windowSize) (sent : k ≤ m) (lost : m - k ∉ arrivals inputs) :
    let s := Machine.run (hear base) (startedRover now callback) inputs
    UInt8.ofNat (m - k) ∈ s.manager.getMissingSequences base ↔
      Noticeable (ledgerAfter now inputs).kept m k := by
  intro s
  rw [mem_getMissingSequences base _ _ _ (run_books base now callback inputs),UInt8.toNat_ofNat']
  have arrived := kept_arrived now inputs
  constructor
  · rintro ⟨missing,top,known,largest,close⟩
    have here : m ∈ (ledgerAfter now inputs).kept := by
      rcases kept_latest now inputs with empty | first
      · rw [empty] at known
        cases known
      · exact List.mem_of_mem_head? (first.trans latest)
    exact ⟨here,fun index member same => absurd same (missing index member),
      (near_iff least most sent here known largest (missing top known)).mp close⟩
  · rintro ⟨here,cycle,near⟩
    have missing : ∀ index ∈ (ledgerAfter now inputs).kept, index % 256 ≠ (m - k) % 256 := by
      intro index member same
      exact lost (cycle index member same ▸ arrived index member)
    obtain ⟨top,known,largest⟩ := Finset.exists_max_image (ledgerAfter now inputs).kept.toFinset
      (fun index => index % 256) ⟨m,List.mem_toFinset.mpr here⟩
    simp only [List.mem_toFinset] at known largest
    exact ⟨missing,top,known,largest,
      (near_iff least most sent here known largest (missing top known)).mpr near⟩

/-- A loss right before the latest packet. -/
theorem lost_packet_reported_once :
    let s := Machine.run (hear ⟨0x0aed0001,9000⟩) (startedRover 0 true) [.arrive 1,.arrive 3]
    (2 : UInt8) ∈ s.manager.getMissingSequences ⟨0x0aed0001,9000⟩ := by
  refine (lost_packet_reported_iff ⟨0x0aed0001,9000⟩ 0 true [.arrive 1,.arrive 3] 3 1 (by decide)
    (by decide) (by decide) (by decide) (by decide)).mpr ⟨by decide,by decide,Or.inl (by decide)⟩

/-- The last number before the wrap is lost. The packet after it starts the next cycle, so the
largest number on record is that of the packet before it, and the check looks further back. -/
theorem lost_at_wrap_unnoticed :
    let inputs := [Hearing.arrive 254,.arrive 256]
    let s := Machine.run (hear ⟨0x0aed0001,9000⟩) (startedRover 0 true) inputs
    (arrivals inputs).getLast? = some 256 ∧ 256 - 1 ∉ arrivals inputs ∧
      UInt8.ofNat (256 - 1) ∉ s.manager.getMissingSequences ⟨0x0aed0001,9000⟩ := by
  decide +kernel

/-! ### Nothing lost -/

/-- The next packet displaces the one a whole cycle before it. -/
theorem arrive_consecutive (low n : Nat) (below : low ≤ n) (narrow : n - low ≤ 256) :
    ∃ low' ≤ n + 1, n + 1 - low' ≤ 256 ∧
      n :: (List.range' low (n - low)).reverse.filter (fun other => other % 256 ≠ n % 256) =
        (List.range' low' (n + 1 - low')).reverse := by
  have others (low' : Nat) (near : n - low' < 256) (under : low' ≤ n) :
      n :: (List.range' low' (n - low')).reverse.filter (fun other => other % 256 ≠ n % 256) =
        (List.range' low' (n + 1 - low')).reverse := by
    have all : (List.range' low' (n - low')).reverse.filter (fun other => other % 256 ≠ n % 256) =
        (List.range' low' (n - low')).reverse := by
      refine List.filter_eq_self.mpr fun other member => ?_
      simp only [List.mem_reverse,List.mem_range'_1] at member
      simp only [decide_eq_true_eq]
      omega
    rw [all,show n + 1 - low' = (n - low') + 1 by omega,List.range'_concat,List.reverse_append]
    simp only [List.reverse_singleton,List.singleton_append,List.cons.injEq,and_true]
    omega
  by_cases full : n - low = 256
  · refine ⟨low + 1,by omega,by omega,?_⟩
    rw [full,List.range'_succ,List.reverse_cons,List.filter_append]
    have gone : [low].filter (fun other => other % 256 ≠ n % 256) = [] := by
      simp only [List.filter_cons,List.filter_nil]
      rw [if_neg (by simp only [decide_eq_true_eq]; omega)]
    rw [gone,List.append_nil,← others (low + 1) (by omega) (by omega)]
    congr 4
    omega
  · exact ⟨low,by omega,by omega,others low (by omega) below⟩

/-- Packets that arrive in order leave consecutive ones on record, at most one for each number. -/
theorem kept_consecutive (now : Nat) (inputs : List Hearing) (n : Nat)
    (complete : arrivals inputs = List.range n) :
    ∃ low ≤ n, n - low ≤ 256 ∧ (ledgerAfter now inputs).kept = (List.range' low (n - low)).reverse := by
  induction inputs using List.reverseRecOn generalizing n with
  | nil =>
    obtain rfl : n = 0 := by simpa [arrivals] using complete.symm
    exact ⟨0,le_rfl,by simp,rfl⟩
  | append_singleton done input ih =>
    rw [arrivals_append] at complete
    rw [ledgerAfter_concat]
    cases input with
    | wait nanos => exact ih n (by simpa [arrivals] using complete)
    | cleanup =>
      obtain ⟨low,below,narrow,kept⟩ := ih n (by simpa [arrivals] using complete)
      have shorter := (ledgerAfter now done).cleanup_isPrefix (ledgerAfter_ordered now done)
      have fewer : ((ledgerAfter now done).hear .cleanup).kept.length ≤ n - low := by
        simpa [kept] using shorter.length_le
      rw [kept,List.prefix_iff_eq_take,List.take_reverse,List.length_range',List.drop_range'] at shorter
      generalize ((ledgerAfter now done).hear .cleanup).kept.length = left at shorter fewer
      refine ⟨n - left,by omega,by omega,?_⟩
      rw [shorter]
      congr 2 <;> omega
    | arrive index =>
      obtain ⟨rfl,first⟩ : n = index + 1 ∧ arrivals done = List.range index := by
        cases n with
        | zero => simp [arrivals] at complete
        | succ before =>
          rw [List.range_succ] at complete
          obtain ⟨rest,last⟩ := List.append_inj' complete rfl
          obtain rfl : index = before := by simpa [arrivals] using last
          exact ⟨rfl,rest⟩
      obtain ⟨low,below,narrow,kept⟩ := ih index first
      rw [Ledger.kept_arrive,kept]
      exact arrive_consecutive low index below narrow

/-- When nothing is reported after `n` packets of which the last `r` are on record: nothing or
every number is on record, or the window below the largest number is. That number is the last
one sent as long as the cycle of the oldest packet on record goes on, and 255 afterwards. -/
def Unsuspicious (n r : Nat) : Prop :=
  r = 0 ∨ r = 256 ∨ (windowSize < r ∧ r ≤ (n - 1) % 256 + 1) ∨ (n - 1) % 256 + 1 + windowSize < r

instance (n r : Nat) : Decidable (Unsuspicious n r) := inferInstanceAs (Decidable (_ ∨ _))

/-- The number before the oldest on record is reported. -/
theorem suspicious_reported {low n : Nat} (below : low ≤ n) (narrow : n - low ≤ 256)
    (suspicious : ¬ Unsuspicious n (n - low)) :
    ∃ top, low ≤ top ∧ top < n ∧ (∀ index, low ≤ index → index < n → index % 256 ≤ top % 256) ∧
      (∀ index, low ≤ index → index < n → index % 256 ≠ (low + 255) % 256) ∧
      1 ≤ behind ((low + 255) % 256) (top % 256) ∧
      behind ((low + 255) % 256) (top % 256) ≤ windowSize := by
  simp only [Unsuspicious,windowSize,behind] at suspicious ⊢
  by_cases within : n - low ≤ (n - 1) % 256 + 1
  · exact ⟨n - 1,by omega,by omega,fun index _ _ => by omega,fun index _ _ => by omega,by omega,
      by omega⟩
  · exact ⟨n - 2 - (n - 1) % 256,by omega,by omega,fun index _ _ => by omega,
      fun index _ _ => by omega,by omega,by omega⟩

/-- Whatever is a window behind the largest number is on record. -/
theorem unsuspicious_recorded {low n top seq : Nat} (below : low ≤ n) (_narrow : n - low ≤ 256)
    (known : low ≤ top ∧ top < n)
    (largest : ∀ index, low ≤ index ∧ index < n → index % 256 ≤ top % 256) (small : seq < 256)
    (unsuspicious : Unsuspicious n (n - low)) (least : 1 ≤ behind seq (top % 256))
    (most : behind seq (top % 256) ≤ windowSize) :
    ∃ index, (low ≤ index ∧ index < n) ∧ index % 256 = seq := by
  simp only [Unsuspicious,windowSize,behind] at *
  rcases unsuspicious with nothing | all | ⟨many,within⟩ | many
  · omega
  · exact ⟨low + (seq + 256 - low % 256) % 256,by omega,by omega⟩
  · have last := largest (n - 1) (by omega)
    exact ⟨n - 1 - (top % 256 + 256 - seq) % 256,by omega,by omega⟩
  · have last := largest (n - 2 - (n - 1) % 256) (by omega)
    exact ⟨n - 2 - (n - 1) % 256 - (top % 256 + 256 - seq) % 256,by omega,by omega⟩

/-- On a lossless link nothing is reported missing exactly when the record is unsuspicious. -/
theorem lossless_reports_nothing_iff (base : Endpoint) (now : Nat) (callback : Bool)
    (inputs : List Hearing) (n : Nat) (complete : arrivals inputs = List.range n) :
    (Machine.run (hear base) (startedRover now callback) inputs).manager.getMissingSequences base =
      [] ↔ Unsuspicious n (ledgerAfter now inputs).kept.length := by
  obtain ⟨low,below,narrow,kept⟩ := kept_consecutive now inputs n complete
  have count : (ledgerAfter now inputs).kept.length = n - low := by rw [kept]; simp
  have member (index : Nat) : index ∈ (ledgerAfter now inputs).kept ↔ low ≤ index ∧ index < n := by
    rw [kept,List.mem_reverse,List.mem_range'_1]
    omega
  have reported (seq : UInt8) := mem_getMissingSequences base _ _ seq
    (run_books base now callback inputs)
  simp only [member] at reported
  rw [List.eq_nil_iff_forall_not_mem,count]
  constructor
  · intro nothing
    by_contra suspicious
    obtain ⟨top,from_,to_,largest,missing,least,most⟩ := suspicious_reported below narrow suspicious
    refine nothing (UInt8.ofNat (low + 255)) ((reported _).mpr ?_)
    rw [UInt8.toNat_ofNat']
    exact ⟨fun index known => missing index known.1 known.2,top,⟨from_,to_⟩,
      fun index known => largest index known.1 known.2,least,most⟩
  · intro unsuspicious seq present
    obtain ⟨missing,top,known,largest,least,most⟩ := (reported seq).mp present
    obtain ⟨index,there,same⟩ := unsuspicious_recorded below narrow known largest seq.toNat_lt
      unsuspicious least most
    exact missing index there same

/-- After seventeen packets the window is full. -/
theorem lossless_reports_nothing_full :
    (Machine.run (hear ⟨0x0aed0001,9000⟩) (startedRover 0 true)
      ((List.range 17).map Hearing.arrive)).manager.getMissingSequences ⟨0x0aed0001,9000⟩ = [] :=
  (lossless_reports_nothing_iff ⟨0x0aed0001,9000⟩ 0 true ((List.range 17).map Hearing.arrive) 17
    (by decide)).mpr (by decide +kernel)

/-- The first packet makes the rover miss sixteen that were never sent. -/
theorem lossless_first_packet_suspicious :
    let s := Machine.run (hear ⟨0x0aed0001,9000⟩) (startedRover 0 true) [.arrive 0]
    arrivals [.arrive 0] = List.range 1 ∧
      s.manager.getMissingSequences ⟨0x0aed0001,9000⟩ =
        [255,254,253,252,251,250,249,248,247,246,245,244,243,242,241,240] := by
  decide +kernel

end Lumen.ReliabilityManager
