import Lumen.Proactor
import Lumen.Transfer

/-! The receive loops under the protocol: the server of the base station stops at the first error,
the client of the rover waits and tries again. Stopping closes the socket in both, and nothing
opens it again. With the protocol above it, a loop feeds it the datagrams that arrived. -/
namespace Lumen

open Proactor Machine

/-- A receive loop for datagrams of bytes. -/
abbrev DatagramReceiver := Receiver UInt8 Endpoint

/-! ### The server -/

abbrev UdpServer := DatagramReceiver

namespace UdpServer

def policy : Policy := ⟨serverSockBufSize,false,false⟩

def start (s : UdpServer) : UdpServer := Receiver.start s

def stop (s : UdpServer) : UdpServer := Receiver.stop policy s

def receiveData (s : UdpServer) : UdpServer := Receiver.receive s

def setReceiveCallback (s : UdpServer) : UdpServer := Receiver.setCallback s

def step (s : UdpServer) (input : Receiver.Input UInt8 Endpoint) : UdpServer :=
  Receiver.step policy s input

/-- The server as the constructor of the protocol leaves it. -/
def ready (buffer : List UInt8) : UdpServer :=
  setReceiveCallback (Receiver.new buffer .unspecified)

/-- Once the socket is closed, by `stop` or after an error, the server passes on at most one more
datagram, the next of those it had received before, however often it is started again, and when
no handler is left it is not running. -/
theorem closed_server_is_deaf (buffer : List UInt8)
    (before after : List (Receiver.Input UInt8 Endpoint))
    (shut : (run step (ready buffer) before).socket.isOpen = false) :
    let s := run step (ready buffer) before
    let t := run step s after
    let received := trace step (Receiver.arrivals policy) (ready buffer) before
    let passed := trace step Receiver.calls (ready buffer) before
    let late := trace step Receiver.calls s after
    passed ++ late <+: received ∧ late.length ≤ 1 ∧ t.socket.isOpen = false ∧
      (t.socket.completed = [] → t.running = false) := by
  intro s t received passed late
  have tended : Receiver.Tended policy received passed s :=
    Receiver.run_tended (Receiver.new_tended buffer .unspecified) before
  have later := Receiver.run_tended tended after
  have still : t.socket.isOpen = false := Receiver.run_closed s after shut
  obtain ⟨next,single⟩ := Receiver.closed_calls after tended shut
  refine ⟨next,single,still,fun drained => ?_⟩
  cases running : t.running with
  | false => rfl
  | true =>
    rcases later.trying still running with queued | waits
    · change Outcome.failed ∈ t.socket.completed at queued
      rw [drained] at queued
      cases queued
    · rw [later.waits rfl] at waits
      cases waits

/-- The server is stopped while the handler of a datagram waits, and started again: that datagram
is still passed on, a later one is not. -/
theorem restarted_server_is_deaf :
    let s := run step (ready []) [.start,.arrive [1] ⟨1,1⟩,.stop]
    let late := trace step Receiver.calls s
      [.start,.arrive [2] ⟨1,1⟩,.dispatch false,.dispatch false,.dispatch false]
    late = [([1],⟨1,1⟩)] ∧ late <+: [([1],⟨1,1⟩)] :=
  ⟨rfl,(closed_server_is_deaf [] [.start,.arrive [1] ⟨1,1⟩,.stop]
    [.start,.arrive [2] ⟨1,1⟩,.dispatch false,.dispatch false,.dispatch false] rfl).1⟩

end UdpServer

/-! ### The client -/

def clientSockBufSize : Nat := 1024

abbrev UdpClient := DatagramReceiver

namespace UdpClient

def policy : Policy := ⟨clientSockBufSize,true,true⟩

def startReceive (s : UdpClient) : UdpClient := Receiver.start s

def stopReceive (s : UdpClient) : UdpClient := Receiver.stop policy s

def doReceive (s : UdpClient) : UdpClient := Receiver.receive s

def handleReceive (s : UdpClient) (stops : Bool) (outcome : Outcome) : UdpClient :=
  Receiver.handle policy s stops outcome

def setReceiveCallback (s : UdpClient) : UdpClient := Receiver.setCallback s

def step (s : UdpClient) (input : Receiver.Input UInt8 Endpoint) : UdpClient :=
  Receiver.step policy s input

def ready (buffer : List UInt8) : UdpClient :=
  setReceiveCallback (Receiver.new buffer .unspecified)

/-- The steps a loop takes by itself. -/
def isInternal : Receiver.Input UInt8 Endpoint → Bool
  | .dispatch stops => !stops
  | .retry => true
  | _ => false

variable {received passed : List (List UInt8 × Endpoint)} {s : UdpClient}

theorem handled_receives (free : s.socket.isOpen = true) (running : s.running = true)
    (handled : s.socket.completed = [Outcome.received length]) (empty : s.socket.waiting = 0) :
    let t := s.step (.dispatch false)
    t.socket.isOpen = true ∧ t.running = true ∧ t.socket.waiting = 1 := by
  simp [step,Receiver.step,Receiver.dispatch,handled,Receiver.handle,running,Receiver.receive,
    Socket.taken,Socket.receiveFrom,free,empty]

theorem failed_waits (free : s.socket.isOpen = true) (running : s.running = true)
    (handled : s.socket.completed = [Outcome.failed]) (empty : s.socket.waiting = 0) :
    let t := s.step (.dispatch false)
    t.socket.isOpen = true ∧ t.running = true ∧ t.socket.waiting = 0 ∧ t.retries = s.retries + 1 := by
  simp [step,Receiver.step,Receiver.dispatch,handled,Receiver.handle,running,policy,Socket.taken,free,
    empty]

theorem retried_receives (free : s.socket.isOpen = true) (running : s.running = true)
    (waits : 0 < s.retries) (empty : s.socket.waiting = 0) :
    let t := s.step .retry
    t.socket.isOpen = true ∧ t.running = true ∧ t.socket.waiting = 1 := by
  have some : s.retries ≠ 0 := Nat.ne_of_gt waits
  simp [step,Receiver.step,Receiver.retry,some,running,Receiver.receive,Socket.receiveFrom,free,empty]

/-- A running client on an open socket is at most two steps of its own away from receiving. -/
theorem exists_receiving (tended : Receiver.Tended policy received passed s)
    (free : s.socket.isOpen = true) (running : s.running = true) :
    ∃ more, more.length ≤ 2 ∧ (∀ input ∈ more, isInternal input = true) ∧
      (run step s more).socket.isOpen = true ∧ (run step s more).running = true ∧
      (run step s more).socket.waiting = 1 := by
  have loop := tended.loop free
  rw [Receiver.loops,Socket.outstanding,running,if_pos rfl] at loop
  cases completed : s.socket.completed with
  | nil =>
    rw [completed,List.length_nil] at loop
    by_cases waits : 0 < s.retries
    · refine ⟨[.retry],by decide,by simp [isInternal],?_⟩
      exact retried_receives free running waits (by omega)
    · exact ⟨[],by decide,by simp,free,running,by simp only [run_nil]; omega⟩
  | cons outcome rest =>
    rw [completed,List.length_cons] at loop
    have last : rest = [] := List.length_eq_zero_iff.mp (by omega)
    have empty : s.socket.waiting = 0 := by omega
    rw [last] at completed
    cases outcome with
    | received length =>
      refine ⟨[.dispatch false],by decide,by simp [isInternal],?_⟩
      exact handled_receives free running completed empty
    | aborted => exact absurd (by simp [completed]) (tended.ledger.unbroken free)
    | failed =>
      obtain ⟨open_,up,none,more⟩ := failed_waits free running completed empty
      refine ⟨[.dispatch false,.retry],by decide,by simp [isInternal],?_⟩
      exact retried_receives open_ up (by omega) none

/-- Before it is stopped, the client has exactly one receive or wait outstanding, so no datagram
overwrites another, and whatever errors occurred it can receive again after at most two steps
of its own. -/
theorem client_keeps_receiving (buffer : List UInt8) (inputs : List (Receiver.Input UInt8 Endpoint))
    (free : (run step (ready buffer) inputs).socket.isOpen = true)
    (running : (run step (ready buffer) inputs).running = true) :
    let s := run step (ready buffer) inputs
    s.loops = 1 ∧ ∃ more, more.length ≤ 2 ∧ (∀ input ∈ more, isInternal input = true) ∧
      (run step s more).socket.isOpen = true ∧ (run step s more).running = true ∧
      (run step s more).socket.waiting = 1 := by
  intro s
  have tended : Receiver.Tended policy _ _ s :=
    Receiver.run_tended (Receiver.new_tended buffer .unspecified) inputs
  refine ⟨?_,exists_receiving tended free running⟩
  rw [tended.loop free,if_pos running]

theorem failing_client_keeps_receiving :
    (run step (ready []) [.start,.fail,.dispatch false,.retry,.fail]).loops = 1 :=
  (client_keeps_receiving [] [.start,.fail,.dispatch false,.retry,.fail] rfl rfl).1

/-- One mark for every start that is not ignored. -/
def starts (s : UdpClient) : Receiver.Input UInt8 Endpoint → List Unit
  | .start => if s.running then [] else [()]
  | _ => []

theorem receive_loops (s : UdpClient) : s.receive.loops ≤ s.loops + 1 := by
  unfold Receiver.receive
  split
  · simp only [Receiver.loops,Socket.receiveFrom_outstanding]
    omega
  · exact Nat.le_succ _

theorem stop_loops (s : UdpClient) : (Receiver.stop policy s).loops = s.loops := by
  unfold Receiver.stop
  split
  · rfl
  · simp only [Receiver.closed,Receiver.loops,Socket.close,Socket.outstanding,List.length_append,
      List.length_replicate]
    omega

theorem dispatch_loops (s : UdpClient) (stops : Bool) : (s.dispatch policy stops).loops ≤ s.loops := by
  unfold Receiver.dispatch
  split
  · exact Nat.le_refl _
  · next outcome rest first =>
    have fewer : Receiver.loops { s with socket := s.socket.taken } + 1 = s.loops := by
      simp only [Receiver.loops,Socket.outstanding,Socket.taken,first,List.tail_cons,
        List.length_cons]
      omega
    generalize { s with socket := s.socket.taken } = t at fewer
    cases outcome with
    | received length =>
      simp only [Receiver.handle]
      split
      · split
        · have more := receive_loops (Receiver.stop policy t)
          rw [stop_loops] at more
          omega
        · have more := receive_loops t
          omega
      · omega
    | aborted =>
      simp only [Receiver.handle]
      omega
    | failed =>
      simp only [Receiver.handle,policy,if_true]
      split
      · simp only [Receiver.loops] at fewer ⊢
        omega
      · omega

theorem step_loops (s : UdpClient) (input : Receiver.Input UInt8 Endpoint) :
    (s.step input).loops ≤ s.loops + (s.starts input).length := by
  cases input with
  | setCallback => exact Nat.le_refl _
  | arrive data sender =>
    simp only [step,Receiver.step,Receiver.loops,Socket.arrive_outstanding]
    omega
  | fail =>
    simp only [step,Receiver.step,Receiver.loops,Socket.fail_outstanding]
    omega
  | stop =>
    simp only [step,Receiver.step,stop_loops]
    omega
  | dispatch stops => exact dispatch_loops s stops
  | start =>
    simp only [step,Receiver.step,Receiver.start,starts]
    split
    · exact Nat.le_refl _
    · exact receive_loops { s with running := true }
  | retry =>
    simp only [step,Receiver.step,Receiver.retry,starts]
    split
    · exact Nat.le_refl _
    · have more := receive_loops { s with retries := s.retries - 1 }
      simp only [Receiver.loops,List.length_nil] at more ⊢
      omega

theorem run_loops (s : UdpClient) (inputs : List (Receiver.Input UInt8 Endpoint)) :
    (run step s inputs).loops ≤ s.loops + (trace step starts s inputs).length := by
  induction inputs generalizing s with
  | nil => exact Nat.le_add_right _ _
  | cons input rest ih =>
    have here := step_loops s input
    have later := ih (s.step input)
    simp only [run_cons,trace,List.length_append]
    omega

/-- A client that was stopped passes on at most one more datagram, the next of those it had
received before, however often it is started again; while it is running it never gives up trying, on a socket that stays closed, with at most one attempt
going on for every time it was started. -/
theorem stopped_client_retries_in_vain (buffer : List UInt8)
    (before after : List (Receiver.Input UInt8 Endpoint))
    (shut : (run step (ready buffer) before).socket.isOpen = false) :
    let s := run step (ready buffer) before
    let t := run step s after
    let received := trace step (Receiver.arrivals policy) (ready buffer) before
    let passed := trace step Receiver.calls (ready buffer) before
    let late := trace step Receiver.calls s after
    passed ++ late <+: received ∧ late.length ≤ 1 ∧ t.socket.waiting = 0 ∧
      (t.running = true → 0 < t.loops) ∧
      t.loops ≤ (trace step starts (ready buffer) (before ++ after)).length := by
  intro s t received passed late
  have tended : Receiver.Tended policy received passed s :=
    Receiver.run_tended (Receiver.new_tended buffer .unspecified) before
  have later := Receiver.run_tended tended after
  have still : t.socket.isOpen = false := Receiver.run_closed s after shut
  obtain ⟨next,single⟩ := Receiver.closed_calls after tended shut
  refine ⟨next,single,later.ledger.closed still,fun running => ?_,?_⟩
  · rcases later.trying still running with queued | waits
    · have some : 0 < t.socket.completed.length := List.length_pos_of_mem queued
      simp only [Receiver.loops,Socket.outstanding]
      omega
    · simp only [Receiver.loops]
      have more : 0 < t.retries := waits
      omega
  · have bound := run_loops (ready buffer) (before ++ after)
    have none : (ready buffer).loops = 0 := rfl
    have same : run step (ready buffer) (before ++ after) = t := run_append _ _ _ _
    rw [same] at bound
    omega

/-- Two attempts go on after the client was stopped and started twice. -/
theorem restarted_client_retries_in_vain :
    let s := run step (ready []) [.start,.stop]
    (run step s [.dispatch false,.start,.dispatch false,.stop,.start]).loops = 2 ∧
      (trace step Receiver.calls s [.dispatch false,.start,.dispatch false,.stop,.start]).length ≤ 1 :=
  ⟨rfl,(stopped_client_retries_in_vain [] [.start,.stop]
    [.dispatch false,.start,.dispatch false,.stop,.start] rfl).2.1⟩

end UdpClient

/-! ### The protocol on top -/

/-- An event of the loop, or a call of the owner or a timer of the protocol. -/
inductive NodeInput where
  | transport (input : Receiver.Input UInt8 Endpoint)
  | owner (input : LumenProtocol.Input) (own : input.isOwn = true)

namespace NodeInput

def transport? : NodeInput → Option (Receiver.Input UInt8 Endpoint)
  | .transport input => some input
  | .owner _ _ => none

end NodeInput

def LumenProtocol.Input.datagram? : LumenProtocol.Input → Option (List UInt8 × Endpoint)
  | .datagram data endpoint => some (data,endpoint)
  | _ => none

namespace Node

variable (policy : Policy) (codec : Codec)

def transportStep (s : DatagramReceiver) : NodeInput → DatagramReceiver
  | .transport input => s.step policy input
  | .owner _ _ => s

/-- `handle_udp_data` is the callback of the loop. -/
def handedUp (s : DatagramReceiver) : NodeInput → List LumenProtocol.Input
  | .transport input => (s.calls input).map fun datagram => .datagram datagram.1 datagram.2
  | .owner input _ => [input]

/-- The rover's client does not look at its own state when it sends. -/
def roverStep : DatagramReceiver × LumenProtocol → NodeInput → DatagramReceiver × LumenProtocol :=
  layered (transportStep UdpClient.policy) (LumenProtocol.step codec) handedUp

/-- The base station's server sends only while it is running. -/
def baseStep (node : DatagramReceiver × LumenProtocol) (input : NodeInput) :
    DatagramReceiver × LumenProtocol :=
  let node := layered (transportStep UdpServer.policy) (LumenProtocol.step codec) handedUp node input
  (node.1,{ node.2 with serverRunning := node.1.running })

theorem run_transportStep (s : DatagramReceiver) (inputs : List NodeInput) :
    run (transportStep policy) s inputs =
      run (Receiver.step policy) s (inputs.filterMap NodeInput.transport?) := by
  induction inputs generalizing s with
  | nil => rfl
  | cons input rest ih => cases input <;> exact ih _

theorem datagrams_map (given : List (List UInt8 × Endpoint)) :
    (given.map fun datagram => LumenProtocol.Input.datagram datagram.1 datagram.2).filterMap
      LumenProtocol.Input.datagram? = given := by
  induction given with
  | nil => rfl
  | cons first rest ih => simp [LumenProtocol.Input.datagram?,ih]

/-- The datagrams the protocol gets are those the loop calls back with. -/
theorem trace_datagrams (s : DatagramReceiver) (inputs : List NodeInput) :
    (trace (transportStep policy) handedUp s inputs).filterMap LumenProtocol.Input.datagram? =
      trace (Receiver.step policy) Receiver.calls s (inputs.filterMap NodeInput.transport?) := by
  induction inputs generalizing s with
  | nil => rfl
  | cons input rest ih =>
    cases input with
    | transport input =>
      simp only [trace,List.filterMap_append,handedUp,datagrams_map,ih]
      rfl
    | owner input own =>
      have foreign : input.datagram? = none := by cases input <;> first | rfl | cases own
      simp only [trace,List.filterMap_append,handedUp,ih,List.filterMap_cons,foreign,
        List.filterMap_nil,List.nil_append]
      rfl

/-- The datagrams that the protocol has got and those that arrived. -/
theorem datagrams_arrived (s : DatagramReceiver) (inputs : List NodeInput)
    (tended : Receiver.Tended policy [] [] s) :
    let given := (trace (transportStep policy) handedUp s inputs).filterMap
      LumenProtocol.Input.datagram?
    let arrived := trace (Receiver.step policy) (Receiver.arrivals policy) s
      (inputs.filterMap NodeInput.transport?)
    let t := run (transportStep policy) s inputs
    given <+: arrived ∧ arrived.length ≤ given.length + 1 ∧
      (t.socket.isOpen = true → t.socket.completed = [] → given = arrived) := by
  intro given arrived t
  have later := Receiver.run_tended tended (inputs.filterMap NodeInput.transport?)
  rw [← run_transportStep,← trace_datagrams,List.nil_append,List.nil_append] at later
  exact ⟨later.ledger.passed_received.1,later.ledger.passed_received.2,
    fun free drained => (later.ledger.eq_of_open free drained).symm⟩

/-- The rover's protocol runs as if it were given the datagrams directly: those that arrived at
the client, cut to the size of its buffer, in order and once each, but for one that may be
waiting for its handler or was dropped when the client was stopped. -/
theorem rover_node_runs_protocol (buffer : List UInt8) (protocol : LumenProtocol)
    (inputs : List NodeInput) :
    let client := UdpClient.ready buffer
    let node := run (roverStep codec) (client,protocol) inputs
    let upper := trace (transportStep UdpClient.policy) handedUp client inputs
    let given := upper.filterMap LumenProtocol.Input.datagram?
    let arrived := trace UdpClient.step (Receiver.arrivals UdpClient.policy) client
      (inputs.filterMap NodeInput.transport?)
    node.2 = run (LumenProtocol.step codec) protocol upper ∧ given <+: arrived ∧
      arrived.length ≤ given.length + 1 ∧
      (node.1.socket.isOpen = true → node.1.socket.completed = [] → given = arrived) := by
  intro client node upper given arrived
  have both : node = (run (transportStep UdpClient.policy) client inputs,
      run (LumenProtocol.step codec) protocol upper) := run_layered _ _ _ _ _ _
  rw [both]
  exact ⟨rfl,datagrams_arrived UdpClient.policy client inputs
    (Receiver.new_tended buffer Endpoint.unspecified)⟩

/-! The base station, as long as its server has not been stopped. -/

theorem step_serverRunning (s : LumenProtocol) (input : LumenProtocol.Input) :
    (s.step codec input).serverRunning = s.serverRunning := by
  cases reception : input.isDatagram with
  | false => exact (LumenProtocol.step_local codec s input reception).serverRunning
  | true =>
    cases input with
    | datagram data endpoint =>
      exact (LumenProtocol.handleUdpData_sameNode codec s data endpoint).serverRunning
    | _ => cases reception

theorem run_serverRunning (s : LumenProtocol) (inputs : List LumenProtocol.Input) :
    (run (LumenProtocol.step codec) s inputs).serverRunning = s.serverRunning :=
  @run_invariant _ _ (LumenProtocol.step codec) (fun t => t.serverRunning = s.serverRunning)
    (fun t input same => (step_serverRunning codec t input).trans same) s inputs rfl

/-- A server that was started runs until its socket is closed. -/
def Live (s : DatagramReceiver) : Prop := s.socket.isOpen = true → s.running = true

theorem receive_live {s : DatagramReceiver} (live : Live s) : Live s.receive := by
  unfold Receiver.receive
  split
  · next running => exact fun _ => running
  · exact live

theorem step_live {s : DatagramReceiver} (input : Receiver.Input UInt8 Endpoint) (live : Live s) :
    Live (s.step UdpServer.policy input) := by
  have stopped (t : DatagramReceiver) : Live (t.stop UdpServer.policy) := by
    intro free
    cases free
  cases input with
  | setCallback => exact live
  | stop => exact stopped s
  | arrive data sender => exact fun free => live ((Socket.arrive_open _ _ _ _).symm.trans free)
  | fail => exact fun free => live ((Socket.fail_open _).symm.trans free)
  | start =>
    simp only [Receiver.step,Receiver.start]
    split
    · exact live
    · exact receive_live fun _ => rfl
  | retry =>
    simp only [Receiver.step,Receiver.retry]
    split
    · exact live
    · exact receive_live live
  | dispatch stops =>
    simp only [Receiver.step,Receiver.dispatch]
    split
    · exact live
    · next outcome rest first =>
      have still : Live { s with socket := s.socket.taken } := live
      cases outcome with
      | received length =>
        simp only [Receiver.handle]
        split
        · split
          · exact receive_live (stopped _)
          · exact receive_live still
        · exact still
      | aborted => exact still
      | failed =>
        simp only [Receiver.handle,UdpServer.policy,Bool.false_eq_true,if_false]
        split
        · exact stopped _
        · exact still

theorem transportStep_live {s : DatagramReceiver} (input : NodeInput) (live : Live s) :
    Live (transportStep UdpServer.policy s input) := by
  cases input with
  | transport input => exact step_live input live
  | owner input own => exact live

theorem run_baseStep_fst (node : DatagramReceiver × LumenProtocol) (inputs : List NodeInput) :
    (run (baseStep codec) node inputs).1 = run (transportStep UdpServer.policy) node.1 inputs := by
  induction inputs generalizing node with
  | nil => rfl
  | cons input rest ih => exact ih _

/-- The flag that the protocol reads does not change before the socket is closed. -/
theorem run_baseStep (server : DatagramReceiver) (protocol : LumenProtocol)
    (inputs : List NodeInput) (live : Live server) (up : protocol.serverRunning = true)
    (free : (run (transportStep UdpServer.policy) server inputs).socket.isOpen = true) :
    run (baseStep codec) (server,protocol) inputs =
      run (layered (transportStep UdpServer.policy) (LumenProtocol.step codec) handedUp)
        (server,protocol) inputs := by
  induction inputs generalizing server protocol with
  | nil => rfl
  | cons input rest ih =>
    have next := transportStep_live input live
    have still : (transportStep UdpServer.policy server input).socket.isOpen = true := by
      by_contra shut
      have later : (run (transportStep UdpServer.policy)
          (transportStep UdpServer.policy server input) rest).socket.isOpen = false := by
        rw [run_transportStep]
        exact Receiver.run_closed _ _ (by simpa using shut)
      cases later.symm.trans free
    have flag := (run_serverRunning codec protocol (handedUp server input)).trans up
    have same : baseStep codec (server,protocol) input =
        layered (transportStep UdpServer.policy) (LumenProtocol.step codec) handedUp
          (server,protocol) input := by
      simp only [baseStep,layered,next still]
      rw [← flag]
    rw [run_cons,run_cons,same]
    exact ih _ _ next flag free

/-- The base station's protocol runs as if it were given the datagrams directly, as long as the
server has not been stopped: those that arrived, cut to the size of the server's buffer, in
order and once each, but for one that may be waiting for its handler. -/
theorem base_node_runs_protocol (buffer : List UInt8) (protocol : LumenProtocol)
    (up : protocol.serverRunning = true) (inputs : List NodeInput)
    (free : (run (baseStep codec) ((UdpServer.ready buffer).start,protocol) inputs).1.socket.isOpen =
      true) :
    let server := (UdpServer.ready buffer).start
    let node := run (baseStep codec) (server,protocol) inputs
    let upper := trace (transportStep UdpServer.policy) handedUp server inputs
    let given := upper.filterMap LumenProtocol.Input.datagram?
    let arrived := trace UdpServer.step (Receiver.arrivals UdpServer.policy) server
      (inputs.filterMap NodeInput.transport?)
    node.2 = run (LumenProtocol.step codec) protocol upper ∧ given <+: arrived ∧
      arrived.length ≤ given.length + 1 ∧ (node.1.socket.completed = [] → given = arrived) := by
  intro server node upper given arrived
  have tended : Receiver.Tended UdpServer.policy [] [] server :=
    (Receiver.new_tended buffer Endpoint.unspecified).start
  rw [run_baseStep_fst] at free
  have both : node = (run (transportStep UdpServer.policy) server inputs,
      run (LumenProtocol.step codec) protocol upper) :=
    (run_baseStep codec server protocol inputs (fun _ => rfl) up free).trans (run_layered _ _ _ _ _ _)
  obtain ⟨first,most,drained⟩ := datagrams_arrived UdpServer.policy server inputs tended
  rw [both]
  exact ⟨rfl,first,most,drained free⟩

/-- Two datagrams arrive, the second while the callback for the first has not run. -/
theorem base_node_two_datagrams :
    let node := run (baseStep .silent) ((UdpServer.ready []).start,
      .started .baseStation .unspecified ⟨0,0⟩)
      [.transport (.arrive [1] ⟨1,1⟩),.transport (.dispatch false),.transport (.arrive [2] ⟨1,1⟩)]
    node.2 = run (LumenProtocol.step .silent) (.started .baseStation .unspecified ⟨0,0⟩)
      [.datagram [1] ⟨1,1⟩] :=
  (base_node_runs_protocol .silent [] (.started .baseStation .unspecified ⟨0,0⟩) rfl
    [.transport (.arrive [1] ⟨1,1⟩),.transport (.dispatch false),.transport (.arrive [2] ⟨1,1⟩)]
    rfl).1

end Node

end Lumen
