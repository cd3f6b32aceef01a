import Lumen.Machine

/-! An asynchronous datagram socket and the loop that keeps a receive outstanding on it. A
receive is started, completes later, and the handler of its completion runs later still. The
owner passes the same buffer and the same place for the sender to every receive, so what a
completion announces is read from there when its handler runs; two receives that are outstanding
at once overwrite each other.

What is assumed of the library: closing the socket aborts the receives that wait on it, a receive
on a closed socket completes with an error, a datagram completes one waiting receive and is cut to
the size of the buffer, and handlers run one at a time, in the order of the completions. -/
namespace Lumen.Proactor

inductive Outcome where
  /-- A datagram was put into the buffer; so many elements of it fitted. -/
  | received (length : Nat)
  | aborted
  | failed
  deriving DecidableEq, Repr

/-- `waiting` counts the receives that have not completed, `completed` lists the outcomes whose
handlers have not run. -/
structure Socket (α ε : Type*) where
  isOpen : Bool
  waiting : Nat
  completed : List Outcome
  buffer : List α
  sender : ε

namespace Socket

variable {α ε : Type*}

def bound (buffer : List α) (sender : ε) : Socket α ε := ⟨true,0,[],buffer,sender⟩

/-- On a closed socket the operation completes with an error. -/
def receiveFrom (s : Socket α ε) : Socket α ε :=
  if s.isOpen then { s with waiting := s.waiting + 1 }
  else { s with completed := s.completed ++ [.failed] }

def close (s : Socket α ε) : Socket α ε :=
  { s with
    isOpen := false
    waiting := 0
    completed := s.completed ++ List.replicate s.waiting .aborted }

/-- A datagram completes a waiting receive. What does not fit the buffer is lost. -/
def arrive (size : Nat) (s : Socket α ε) (data : List α) (sender : ε) : Socket α ε :=
  if s.waiting = 0 then s else
    { s with
      waiting := s.waiting - 1
      completed := s.completed ++ [.received (data.take size).length]
      buffer := data.take size ++ s.buffer.drop (data.take size).length
      sender := sender }

/-- A waiting receive completes with an error. -/
def fail (s : Socket α ε) : Socket α ε :=
  if s.waiting = 0 then s else
    { s with waiting := s.waiting - 1, completed := s.completed ++ [.failed] }

/-- The handler of the first completion starts. -/
def taken (s : Socket α ε) : Socket α ε := { s with completed := s.completed.tail }

/-- What the handler of an outcome finds in the buffer. -/
def datum (s : Socket α ε) : Outcome → Option (List α × ε)
  | .received length => some (s.buffer.take length,s.sender)
  | _ => none

/-- What the handlers will find, in order. -/
def arrived (s : Socket α ε) : List (List α × ε) := s.completed.filterMap s.datum

/-- The datagram that an arrival puts into the buffer. -/
def accepted (size : Nat) (s : Socket α ε) (data : List α) (sender : ε) : List (List α × ε) :=
  if s.waiting = 0 then [] else [(data.take size,sender)]

def outstanding (s : Socket α ε) : Nat := s.waiting + s.completed.length

@[simp] theorem bound_outstanding (buffer : List α) (sender : ε) :
    (bound buffer sender).outstanding = 0 := rfl

theorem receiveFrom_open (s : Socket α ε) : s.receiveFrom.isOpen = s.isOpen := by
  unfold receiveFrom
  split <;> rfl

theorem receiveFrom_outstanding (s : Socket α ε) :
    s.receiveFrom.outstanding = s.outstanding + 1 := by
  unfold receiveFrom
  split
  · simp only [outstanding]
    omega
  · simp only [outstanding,List.length_append,List.length_singleton]
    omega

theorem receiveFrom_arrived (s : Socket α ε) : s.receiveFrom.arrived = s.arrived := by
  unfold receiveFrom
  split
  · rfl
  · simp only [arrived,List.filterMap_append]
    exact List.append_nil _

theorem close_arrived (s : Socket α ε) : s.close.arrived = s.arrived := by
  have nothing : (List.replicate s.waiting Outcome.aborted).filterMap s.datum = [] := by
    refine List.filterMap_eq_nil_iff.mpr fun outcome member => ?_
    rw [List.eq_of_mem_replicate member]
    rfl
  calc s.close.arrived
    _ = s.completed.filterMap s.datum ++
        (List.replicate s.waiting Outcome.aborted).filterMap s.datum := List.filterMap_append
    _ = s.arrived := by rw [nothing,List.append_nil]; rfl

theorem arrive_open (size : Nat) (s : Socket α ε) (data : List α) (sender : ε) :
    (s.arrive size data sender).isOpen = s.isOpen := by
  unfold arrive
  split <;> rfl

theorem arrive_outstanding (size : Nat) (s : Socket α ε) (data : List α) (sender : ε) :
    (s.arrive size data sender).outstanding = s.outstanding := by
  unfold arrive
  split
  · rfl
  · simp only [outstanding,List.length_append,List.length_singleton]
    omega

theorem fail_open (s : Socket α ε) : s.fail.isOpen = s.isOpen := by
  unfold fail
  split <;> rfl

theorem fail_outstanding (s : Socket α ε) : s.fail.outstanding = s.outstanding := by
  unfold fail
  split
  · rfl
  · simp only [outstanding,List.length_append,List.length_singleton]
    omega

theorem fail_arrived (s : Socket α ε) : s.fail.arrived = s.arrived := by
  unfold fail
  split
  · rfl
  · simp only [arrived,List.filterMap_append]
    exact List.append_nil _

/-- When it is the only receive, the datagram is in the buffer for its handler. -/
theorem arrive_arrived (size : Nat) (s : Socket α ε) (data : List α) (sender : ε)
    (single : s.outstanding ≤ 1) :
    (s.arrive size data sender).arrived = s.arrived ++ s.accepted size data sender := by
  unfold arrive accepted
  split
  · exact (List.append_nil _).symm
  · next some =>
    have empty : s.completed = [] := by
      apply List.length_eq_zero_iff.mp
      simp only [outstanding] at single
      omega
    simp only [arrived,empty,List.nil_append,List.filterMap_cons,List.filterMap_nil,datum,
      List.take_left]

theorem arrived_cons (s : Socket α ε) {outcome : Outcome} {rest : List Outcome}
    (first : s.completed = outcome :: rest) :
    s.arrived = (s.datum outcome).toList ++ s.taken.arrived := by
  simp only [arrived,taken,first,List.tail_cons,List.filterMap_cons]
  cases outcome <;> rfl

/-- The books of a socket: what it accepted, what was passed on, and what is still in the buffer.
Only a closed socket may have lost something, and then only the last datagram it accepted. -/
structure Ledger (received passed : List (List α × ε)) (s : Socket α ε) : Prop where
  closed : s.isOpen = false → s.waiting = 0
  single : s.isOpen = true → s.outstanding ≤ 1
  unbroken : s.isOpen = true → .aborted ∉ s.completed
  atMostOne : s.arrived.length ≤ 1
  balance : received = passed ++ s.arrived ∨
    s.isOpen = false ∧ s.arrived = [] ∧ ∃ lost, received = passed ++ [lost]

namespace Ledger

variable {received passed : List (List α × ε)} {s : Socket α ε}

theorem bound (buffer : List α) (sender : ε) : Ledger [] [] (bound buffer sender) :=
  ⟨nofun,fun _ => Nat.zero_le _,fun _ => List.not_mem_nil,Nat.zero_le _,Or.inl rfl⟩

theorem passed_received (ledger : Ledger received passed s) :
    passed <+: received ∧ received.length ≤ passed.length + 1 := by
  rcases ledger.balance with kept | ⟨_,_,lost,missing⟩
  · refine ⟨⟨_,kept.symm⟩,?_⟩
    have few := ledger.atMostOne
    rw [kept,List.length_append]
    omega
  · refine ⟨⟨_,missing.symm⟩,?_⟩
    rw [missing,List.length_append,List.length_singleton]

/-- Nothing is lost on an open socket, and nothing is left without a completion. -/
theorem eq_of_open (ledger : Ledger received passed s) (free : s.isOpen = true)
    (empty : s.completed = []) : received = passed := by
  rcases ledger.balance with kept | ⟨shut,_⟩
  · rw [kept,arrived,empty,List.filterMap_nil,List.append_nil]
  · cases free.symm.trans shut

theorem receiveFrom (ledger : Ledger received passed s)
    (idle : s.isOpen = true → s.outstanding = 0) : Ledger received passed s.receiveFrom := by
  refine ⟨?_,?_,?_,?_,?_⟩
  · intro shut
    rw [receiveFrom_open] at shut
    simp only [Socket.receiveFrom,shut]
    exact ledger.closed shut
  · intro free
    rw [receiveFrom_open] at free
    rw [receiveFrom_outstanding,idle free]
  · intro free
    rw [receiveFrom_open] at free
    simp only [Socket.receiveFrom,free,if_true]
    exact ledger.unbroken free
  · rw [receiveFrom_arrived]
    exact ledger.atMostOne
  · rw [receiveFrom_arrived,receiveFrom_open]
    exact ledger.balance

theorem close (ledger : Ledger received passed s) : Ledger received passed s.close := by
  refine ⟨fun _ => rfl,nofun,nofun,?_,?_⟩
  · rw [close_arrived]
    exact ledger.atMostOne
  · rw [close_arrived]
    rcases ledger.balance with kept | ⟨_,missing⟩
    · exact Or.inl kept
    · exact Or.inr ⟨rfl,missing⟩

theorem arrive (ledger : Ledger received passed s) (size : Nat) (data : List α) (sender : ε) :
    Ledger (received ++ s.accepted size data sender) passed (s.arrive size data sender) := by
  cases state : s.isOpen with
  | false =>
    have still := ledger.closed state
    simp only [Socket.arrive,accepted,still,if_true,List.append_nil]
    exact ledger
  | true =>
    have single := ledger.single state
    have all := arrive_arrived size s data sender single
    refine ⟨?_,?_,?_,?_,Or.inl ?_⟩
    · intro shut
      rw [arrive_open,state] at shut
      cases shut
    · rw [arrive_outstanding]
      exact fun _ => single
    · intro _
      unfold Socket.arrive
      split
      · exact ledger.unbroken state
      · simpa using ledger.unbroken state
    · calc (s.arrive size data sender).arrived.length
        _ ≤ (s.arrive size data sender).completed.length := List.length_filterMap_le _ _
        _ ≤ (s.arrive size data sender).outstanding := Nat.le_add_left _ _
        _ ≤ 1 := by rw [arrive_outstanding]; exact single
    · rcases ledger.balance with kept | ⟨shut,_⟩
      · rw [kept,all,List.append_assoc]
      · cases state.symm.trans shut

theorem fail (ledger : Ledger received passed s) : Ledger received passed s.fail := by
  refine ⟨?_,?_,?_,?_,?_⟩
  · intro shut
    rw [fail_open] at shut
    simp only [Socket.fail,ledger.closed shut,if_true]
  · rw [fail_open,fail_outstanding]
    exact ledger.single
  · intro free
    rw [fail_open] at free
    unfold Socket.fail
    split
    · exact ledger.unbroken free
    · simpa using ledger.unbroken free
  · rw [fail_arrived]
    exact ledger.atMostOne
  · rw [fail_arrived,fail_open]
    exact ledger.balance

/-- The handler of the first completion passes on what it finds, or drops it on a closed
socket. -/
theorem taken (ledger : Ledger received passed s) {outcome : Outcome} {rest : List Outcome}
    (first : s.completed = outcome :: rest) {given : List (List α × ε)}
    (handled : given = (s.datum outcome).toList ∨ s.isOpen = false ∧ given = []) :
    Ledger received (passed ++ given) s.taken := by
  have all := arrived_cons s first
  have fewer : s.taken.arrived.length ≤ s.arrived.length := by
    rw [all,List.length_append]
    omega
  refine ⟨ledger.closed,?_,?_,fewer.trans ledger.atMostOne,?_⟩
  · intro free
    have single := ledger.single free
    simp only [outstanding,Socket.taken,first,List.tail_cons,List.length_cons] at single ⊢
    omega
  · intro free broken
    exact ledger.unbroken free (List.mem_of_mem_tail broken)
  · rcases handled with passes | ⟨shut,nothing⟩
    · rcases ledger.balance with kept | ⟨shut,empty,missing⟩
      · left
        rw [kept,all,passes,List.append_assoc]
      · rw [all] at empty
        obtain ⟨none,later⟩ := List.append_eq_nil_iff.mp empty
        right
        refine ⟨shut,later,?_⟩
        rw [passes,none,List.append_nil]
        exact missing
    · rw [nothing,List.append_nil]
      rcases ledger.balance with kept | ⟨_,empty,missing⟩
      · cases found : (s.datum outcome).toList with
        | nil =>
          left
          rw [kept,all,found,List.nil_append]
        | cons lost others =>
          right
          have few := ledger.atMostOne
          rw [all,found,List.cons_append,List.length_cons] at few
          obtain ⟨none,later⟩ := List.append_eq_nil_iff.mp
            (List.length_eq_zero_iff.mp (Nat.eq_zero_of_le_zero (Nat.le_of_succ_le_succ few)))
          exact ⟨shut,later,lost,by rw [kept,all,found,none,later,List.append_nil]⟩
      · rw [all] at empty
        exact Or.inr ⟨shut,(List.append_eq_nil_iff.mp empty).2,missing⟩

end Ledger

end Socket

/-! ### The loop -/

/-- How a loop treats errors and being stopped. -/
structure Policy where
  /-- The size of the buffer. -/
  size : Nat
  /-- After an error the loop waits and tries again; otherwise it stops. -/
  patient : Bool
  /-- Stopping a loop that does not run does nothing; otherwise it closes the socket even so. -/
  lazy : Bool

structure Receiver (α ε : Type*) where
  running : Bool
  socket : Socket α ε
  callback : Bool
  /-- Pending waits before another attempt, each on a timer of its own. -/
  retries : Nat

namespace Receiver

open Machine

variable {α ε : Type*}

/-- Constructed on a bound socket; the buffer is not initialised. -/
def new (buffer : List α) (sender : ε) : Receiver α ε := ⟨false,.bound buffer sender,false,0⟩

def setCallback (s : Receiver α ε) : Receiver α ε := { s with callback := true }

def receive (s : Receiver α ε) : Receiver α ε :=
  if s.running then { s with socket := s.socket.receiveFrom } else s

def start (s : Receiver α ε) : Receiver α ε :=
  if s.running then s else { s with running := true }.receive

def closed (s : Receiver α ε) : Receiver α ε := { s with running := false, socket := s.socket.close }

/-- One of the waits is over. -/
def retry (s : Receiver α ε) : Receiver α ε :=
  if s.retries = 0 then s else { s with retries := s.retries - 1 }.receive

variable (policy : Policy)

def stop (s : Receiver α ε) : Receiver α ε :=
  if policy.lazy ∧ !s.running then s else s.closed

/-- The completion handler; `stops` is whether the callback stops the loop that calls it. -/
def handle (s : Receiver α ε) (stops : Bool) : Outcome → Receiver α ε
  | .received _ =>
    if s.running then (if s.callback ∧ stops then s.stop policy else s).receive else s
  | .aborted => s
  | .failed =>
    if s.running then
      if policy.patient then { s with retries := s.retries + 1 } else s.stop policy
    else s

/-- The handler of the first completion runs. -/
def dispatch (s : Receiver α ε) (stops : Bool) : Receiver α ε :=
  match s.socket.completed with
  | [] => s
  | outcome :: _ => { s with socket := s.socket.taken }.handle policy stops outcome

inductive Input (α ε : Type*) where
  | setCallback
  | start
  | stop
  /-- A datagram reaches a waiting receive. -/
  | arrive (data : List α) (sender : ε)
  | fail
  | dispatch (stops : Bool)
  | retry

def step (s : Receiver α ε) : Input α ε → Receiver α ε
  | .setCallback => s.setCallback
  | .start => s.start
  | .stop => s.stop policy
  | .arrive data sender => { s with socket := s.socket.arrive policy.size data sender }
  | .fail => { s with socket := s.socket.fail }
  | .dispatch stops => s.dispatch policy stops
  | .retry => s.retry

/-- What the socket takes in, cut to the size of the buffer. -/
def arrivals (s : Receiver α ε) : Input α ε → List (List α × ε)
  | .arrive data sender => s.socket.accepted policy.size data sender
  | _ => []

/-- What the callback is called with. -/
def calls (s : Receiver α ε) : Input α ε → List (List α × ε)
  | .dispatch _ =>
    if s.running ∧ s.callback then (s.socket.completed.head?.bind s.socket.datum).toList else []
  | _ => []

/-- The receives and waits that lead to another receive. -/
def loops (s : Receiver α ε) : Nat := s.socket.outstanding + s.retries

/-- On an open socket a running loop has exactly one receive or wait outstanding. A loop that was
started again on a closed one finds an error next. -/
structure Tended (received passed : List (List α × ε)) (s : Receiver α ε) : Prop where
  ledger : s.socket.Ledger received passed
  callback : s.callback = true
  loop : s.socket.isOpen = true → s.loops = if s.running then 1 else 0
  trying : s.socket.isOpen = false → s.running = true →
    .failed ∈ s.socket.completed ∨ 0 < s.retries
  waits : policy.patient = false → s.retries = 0

variable {policy} {received passed : List (List α × ε)} {s : Receiver α ε}

theorem Tended.closed (tended : Tended policy received passed s) :
    Tended policy received passed s.closed :=
  ⟨tended.ledger.close,tended.callback,nofun,nofun,tended.waits⟩

theorem Tended.stop (tended : Tended policy received passed s) :
    Tended policy received passed (s.stop policy) := by
  unfold Receiver.stop
  split
  · exact tended
  · exact tended.closed

/-- A receive is started when nothing is outstanding. -/
theorem tended_receive (ledger : s.socket.Ledger received passed) (callback : s.callback = true)
    (idle : s.socket.isOpen = true → s.loops = 0) (waits : policy.patient = false → s.retries = 0) :
    Tended policy received passed s.receive := by
  have quiet (free : s.socket.isOpen = true) : s.socket.outstanding = 0 :=
    (Nat.add_eq_zero_iff.mp (idle free)).1
  unfold receive
  split
  · next running =>
    refine ⟨ledger.receiveFrom quiet,callback,?_,?_,waits⟩
    · intro free
      rw [Socket.receiveFrom_open] at free
      have nothing := idle free
      simp only [loops] at nothing ⊢
      rw [Socket.receiveFrom_outstanding,if_pos running]
      omega
    · intro shut _
      rw [Socket.receiveFrom_open] at shut
      simp [Socket.receiveFrom,shut]
  · next halted =>
    refine ⟨ledger,callback,?_,fun _ running => absurd running halted,waits⟩
    intro free
    rw [idle free,if_neg halted]

theorem Tended.start (tended : Tended policy received passed s) :
    Tended policy received passed s.start := by
  unfold Receiver.start
  split
  · exact tended
  · next halted =>
    refine @tended_receive _ _ policy _ _ { s with running := true } tended.ledger tended.callback
      ?_ tended.waits
    intro free
    exact (tended.loop free).trans (if_neg halted)

theorem Tended.retry (tended : Tended policy received passed s) :
    Tended policy received passed s.retry := by
  unfold Receiver.retry
  split
  · exact tended
  · next some =>
    refine @tended_receive _ _ policy _ _ { s with retries := s.retries - 1 } tended.ledger
      tended.callback ?_ fun hasty => absurd (tended.waits hasty) some
    intro free
    have loop := tended.loop free
    simp only [loops] at loop ⊢
    split at loop <;> omega

theorem Tended.arrive (tended : Tended policy received passed s) (data : List α) (sender : ε) :
    Tended policy (received ++ s.socket.accepted policy.size data sender) passed
      { s with socket := s.socket.arrive policy.size data sender } := by
  refine ⟨tended.ledger.arrive policy.size data sender,tended.callback,?_,?_,tended.waits⟩
  · rw [Socket.arrive_open,loops,Socket.arrive_outstanding]
    exact tended.loop
  · intro shut running
    rw [Socket.arrive_open] at shut
    simp only [Socket.arrive,tended.ledger.closed shut,if_true]
    exact tended.trying shut running

theorem Tended.fail (tended : Tended policy received passed s) :
    Tended policy received passed { s with socket := s.socket.fail } := by
  refine ⟨tended.ledger.fail,tended.callback,?_,?_,tended.waits⟩
  · rw [Socket.fail_open,loops,Socket.fail_outstanding]
    exact tended.loop
  · intro shut running
    rw [Socket.fail_open] at shut
    simp only [Socket.fail,tended.ledger.closed shut,if_true]
    exact tended.trying shut running

/-- A handler runs while nothing else is outstanding. -/
theorem Tended.alone (tended : Tended policy received passed s) {outcome : Outcome}
    {rest : List Outcome} (first : s.socket.completed = outcome :: rest)
    (free : s.socket.isOpen = true) :
    s.running = true ∧ s.socket.taken.outstanding + s.retries = 0 := by
  have loop := tended.loop free
  simp only [loops,Socket.outstanding,Socket.taken,first,List.length_cons,List.tail_cons] at loop ⊢
  cases running : s.running with
  | true =>
    rw [running,if_pos rfl] at loop
    exact ⟨rfl,by omega⟩
  | false =>
    rw [running] at loop
    simp at loop

/-- The handler of a running loop, once what it found has been passed on. -/
theorem tended_handle (tended : Tended policy received passed s) {outcome : Outcome}
    {rest : List Outcome} (first : s.socket.completed = outcome :: rest) (stops : Bool)
    (running : s.running = true) :
    Tended policy received (passed ++ (s.socket.datum outcome).toList)
      ({ s with socket := s.socket.taken }.handle policy stops outcome) := by
  have given := tended.ledger.taken first (Or.inl rfl)
  cases outcome with
  | received length =>
    simp only [handle,running,if_true,tended.callback,true_and]
    cases stops with
    | true =>
      simp only [if_true,Receiver.stop,Bool.not_true,Bool.false_eq_true,and_false,if_false]
      exact tended_receive given.close rfl nofun tended.waits
    | false => exact tended_receive given rfl (fun free => (tended.alone first free).2) tended.waits
  | aborted =>
    simp only [handle]
    refine ⟨given,tended.callback,?_,?_,tended.waits⟩
    · intro free
      have broken : Outcome.aborted ∈ s.socket.completed := by simp [first]
      exact absurd broken (tended.ledger.unbroken free)
    · intro shut _
      have queued := tended.trying shut running
      rw [first] at queued
      simpa [Socket.taken,first] using queued
  | failed =>
    simp only [handle,running,if_true]
    split
    · next patient =>
      refine ⟨given,tended.callback,?_,fun _ _ => Or.inr (Nat.succ_pos _),?_⟩
      · intro free
        have nothing := (tended.alone first free).2
        simp only [loops,if_true]
        omega
      · intro hasty
        cases patient.symm.trans hasty
    · simp only [Receiver.stop,Bool.not_true,Bool.false_eq_true,and_false,if_false]
      exact ⟨given.close,tended.callback,nofun,nofun,tended.waits⟩

theorem Tended.dispatch (tended : Tended policy received passed s) (stops : Bool) :
    Tended policy received (passed ++ s.calls (.dispatch stops)) (s.dispatch policy stops) := by
  cases first : s.socket.completed with
  | nil => simpa [Receiver.dispatch,calls,first] using tended
  | cons outcome rest =>
    have same : s.dispatch policy stops =
        { s with socket := s.socket.taken }.handle policy stops outcome := by
      simp only [Receiver.dispatch,first]
    cases running : s.running with
    | true =>
      have found : s.calls (.dispatch stops) = (s.socket.datum outcome).toList := by
        simp [calls,first,running,tended.callback]
      rw [same,found]
      exact tended_handle tended first stops running
    | false =>
      have shut : s.socket.isOpen = false := by
        by_contra free
        cases running.symm.trans (tended.alone first (by simpa using free)).1
      have nothing : s.calls (.dispatch stops) = [] := by simp [calls,running]
      have idle : { s with socket := s.socket.taken }.handle policy stops outcome =
          { s with socket := s.socket.taken } := by
        cases outcome <;> simp [handle,running]
      rw [same,idle,nothing]
      refine ⟨tended.ledger.taken first (Or.inr ⟨shut,rfl⟩),tended.callback,?_,?_,tended.waits⟩
      · intro free
        cases shut.symm.trans free
      · intro _ up
        cases running.symm.trans up

theorem step_tended (tended : Tended policy received passed s) (input : Input α ε) :
    Tended policy (received ++ s.arrivals policy input) (passed ++ s.calls input)
      (s.step policy input) := by
  cases input with
  | arrive data sender =>
    simp only [arrivals,calls,List.append_nil]
    exact tended.arrive data sender
  | dispatch stops =>
    simp only [arrivals,List.append_nil]
    exact tended.dispatch stops
  | setCallback =>
    simp only [arrivals,calls,List.append_nil]
    exact ⟨tended.ledger,rfl,tended.loop,tended.trying,tended.waits⟩
  | start =>
    simp only [arrivals,calls,List.append_nil]
    exact tended.start
  | stop =>
    simp only [arrivals,calls,List.append_nil]
    exact tended.stop
  | fail =>
    simp only [arrivals,calls,List.append_nil]
    exact tended.fail
  | retry =>
    simp only [arrivals,calls,List.append_nil]
    exact tended.retry

theorem run_tended (tended : Tended policy received passed s) (inputs : List (Input α ε)) :
    Tended policy (received ++ trace (step policy) (arrivals policy) s inputs)
      (passed ++ trace (step policy) calls s inputs) (run (step policy) s inputs) := by
  induction inputs generalizing received passed s with
  | nil => simpa [trace] using tended
  | cons input rest ih =>
    simpa only [trace,run_cons,List.append_assoc] using ih (step_tended tended input)

theorem new_tended (buffer : List α) (sender : ε) :
    Tended policy [] [] (new buffer sender).setCallback :=
  ⟨.bound _ _,rfl,fun _ => rfl,nofun,fun _ => rfl⟩

/-! What closes the socket closes it for good. -/

theorem receive_open (s : Receiver α ε) : s.receive.socket.isOpen = s.socket.isOpen := by
  unfold receive
  split
  · exact Socket.receiveFrom_open s.socket
  · rfl

theorem stop_closed (s : Receiver α ε) (shut : s.socket.isOpen = false) :
    (s.stop policy).socket.isOpen = false := by
  unfold stop
  split
  · exact shut
  · rfl

theorem handle_closed (s : Receiver α ε) (stops : Bool) (outcome : Outcome)
    (shut : s.socket.isOpen = false) : (s.handle policy stops outcome).socket.isOpen = false := by
  cases outcome with
  | received length =>
    simp only [handle]
    split
    · rw [receive_open]
      split
      · exact stop_closed s shut
      · exact shut
    · exact shut
  | aborted => exact shut
  | failed =>
    simp only [handle]
    split
    · split
      · exact shut
      · exact stop_closed s shut
    · exact shut

theorem step_closed (s : Receiver α ε) (input : Input α ε) (shut : s.socket.isOpen = false) :
    (s.step policy input).socket.isOpen = false := by
  cases input with
  | setCallback => exact shut
  | stop => exact stop_closed s shut
  | arrive data sender => exact (Socket.arrive_open _ _ _ _).trans shut
  | fail => exact (Socket.fail_open _).trans shut
  | start =>
    simp only [step,start]
    split
    · exact shut
    · exact (receive_open _).trans shut
  | retry =>
    simp only [step,retry]
    split
    · exact shut
    · exact (receive_open _).trans shut
  | dispatch stops =>
    simp only [step,dispatch]
    split
    · exact shut
    · exact handle_closed _ stops _ shut

theorem run_closed (s : Receiver α ε) (inputs : List (Input α ε)) (shut : s.socket.isOpen = false) :
    (run (step policy) s inputs).socket.isOpen = false :=
  @run_invariant _ _ (step policy) (fun s => s.socket.isOpen = false)
    (fun s input shut => step_closed s input shut) s inputs shut

theorem closed_arrivals (inputs : List (Input α ε)) (tended : Tended policy received passed s)
    (shut : s.socket.isOpen = false) : trace (step policy) (arrivals policy) s inputs = [] := by
  induction inputs generalizing received passed s with
  | nil => rfl
  | cons input rest ih =>
    have nothing : s.arrivals policy input = [] := by
      cases input with
      | arrive data sender => simp only [arrivals,Socket.accepted,tended.ledger.closed shut,if_true]
      | _ => rfl
    rw [trace,nothing,List.nil_append]
    exact ih (step_tended tended input) (step_closed s input shut)

/-- A closed socket has at most one datagram left to pass on, the next of those it received. -/
theorem closed_calls (inputs : List (Input α ε)) (tended : Tended policy received passed s)
    (shut : s.socket.isOpen = false) :
    passed ++ trace (step policy) calls s inputs <+: received ∧
      (trace (step policy) calls s inputs).length ≤ 1 := by
  have first := tended.ledger.passed_received
  have last := (run_tended tended inputs).ledger.passed_received
  rw [closed_arrivals inputs tended shut,List.append_nil] at last
  have bound := last.1.length_le
  rw [List.length_append] at bound
  exact ⟨last.1,by omega⟩

end Receiver

end Lumen.Proactor
