import Lumen.Firsts
import Lumen.RoverReplies
import Lumen.Transport

/-! The program of the rover. Beside the rover run two servers: the first notes and answers whoever
contacts it, the second answers requests for the position. Two timers ask everybody noted for a
position and scan the network, unless the rover is in low power mode. -/
namespace Lumen

open Endpoint Machine Proactor

namespace UdpServer

/-- The hosts 2 to 120 of `10.237.0.0/24`. -/
def scanTargets (discoveryPort : UInt16) : List Endpoint :=
  (List.range 119).map fun i => ⟨0x0aed0000 + UInt32.ofNat (i + 2),discoveryPort⟩

/-- What is given to the socket for a recipient. -/
def sendData (s : UdpServer) (message : Message) (recipient : Endpoint) : List (Message × Endpoint) :=
  if s.running ∧ recipient.Sendable then [(message,recipient)] else []

/-- The probes of a scan that starts at the given time. -/
def scanForRovers (s : UdpServer) (discoveryPort : UInt16) (message senderId : String) (now : Nat) :
    List (Message × Endpoint) :=
  if !s.running then [] else
    let discover : Message := ⟨senderId,now,.command "ROVER_DISCOVER" message⟩
    (scanTargets discoveryPort).flatMap (s.sendData discover)

end UdpServer

/-- What the network and the timers do to a rover, as opposed to calls of its owner. -/
def Rover.Input.isEvent : Rover.Input → Bool
  | .route _ _ => true
  | .expire _ => true
  | .runPosted _ => true
  | .timeoutNotification _ => true
  | .protocol _ _ => true
  | _ => false

structure Application where
  rover : Rover
  extraListener : UdpServer
  coordsListener : UdpServer
  receivedEndpoints : List Endpoint
  requestTimer : Bool
  broadcastTimer : Bool
  /-- What the scans have sent. -/
  scanned : List (Message × Endpoint)
  /-- Whether the event loop has ended. -/
  stopped : Bool

namespace Application

def extraListenerPort : UInt16 := 60060
def coordRequestTargetPort : UInt16 := 50050
def baseEndpoint : Endpoint := ⟨0x0aed00c9,9000⟩
def roverId : String := "grp-18"

/-- A message created now by the program. -/
def message (s : Application) (content : Content) : Message :=
  ⟨roverId,s.rover.manager.protocol.clock.system,content⟩

def sendRawMessage (s : Application) (content : Content) (recipient : Endpoint) : Application :=
  { s with rover := s.rover.sendRawMessage (s.message content) recipient }

/-- Stores an endpoint that is new. -/
def store (s : Application) (sender : Endpoint) : Application :=
  { s with
    receivedEndpoints := s.receivedEndpoints ++ if sender ∈ s.receivedEndpoints then [] else [sender] }

/-- The callback of the first listener. -/
def noteContact (s : Application) (sender : Endpoint) : Application :=
  (s.store sender).sendRawMessage (.basic "Acknowledged. We are group 18.") sender

/-- The callback of the second one. -/
def sendLocation (s : Application) (sender : Endpoint) : Application :=
  s.sendRawMessage (.telemetry [("latitude",53.3498),("longitude",-6.2603)]) sender

def coordTarget (contact : Endpoint) : Endpoint := ⟨contact.address,coordRequestTargetPort⟩

def requestLocation (s : Application) (contact : Endpoint) : Application :=
  s.sendRawMessage (.command "SEND_DATA" "LOCATION") (coordTarget contact)

def handleRequestTimer (s : Application) : Application :=
  let s := if s.rover.lowPowerMode then s else s.receivedEndpoints.foldl requestLocation s
  { s with requestTimer := true }

def handleBroadcastTimer (s : Application) : Application :=
  let sent := if s.rover.lowPowerMode then [] else
    s.extraListener.scanForRovers extraListenerPort "ACK IF ALIVE" roverId
      s.rover.manager.protocol.clock.system
  { s with scanned := s.scanned ++ sent, broadcastTimer := true }

/-- The handler of the signals; the event loop runs nothing after it. -/
def shutDown (s : Application) : Application :=
  { s with
    requestTimer := false
    broadcastTimer := false
    extraListener := s.extraListener.stop
    coordsListener := s.coordsListener.stop
    rover := s.rover.stop
    stopped := true }

/-- What happens at a listener: a datagram, an error, or the handler of one of them. -/
inductive Arrival where
  | datagram (data : List UInt8) (sender : Endpoint)
  | error
  | handler

def Arrival.input : Arrival → Receiver.Input UInt8 Endpoint
  | .datagram data sender => .arrive data sender
  | .error => .fail
  | .handler => .dispatch false

inductive Input where
  | rover (input : Rover.Input) (event : input.isEvent = true)
  | extraListener (arrival : Arrival)
  | coordsListener (arrival : Arrival)
  | requestTimer
  | broadcastTimer
  | signal

/-- The senders a listener calls its callback with. -/
def callers (listener : UdpServer) (arrival : Arrival) : List Endpoint :=
  (Receiver.calls listener arrival.input).map (·.2)

variable (codec : Codec)

def step (s : Application) (input : Input) : Application :=
  if s.stopped then s else
    match input with
    | .rover input _ => { s with rover := s.rover.step codec input }
    | .extraListener arrival =>
      (callers s.extraListener arrival).foldl noteContact
        { s with extraListener := s.extraListener.step arrival.input }
    | .coordsListener arrival =>
      (callers s.coordsListener arrival).foldl sendLocation
        { s with coordsListener := s.coordsListener.step arrival.input }
    | .requestTimer =>
      if s.requestTimer then { s with requestTimer := false }.handleRequestTimer else s
    | .broadcastTimer =>
      if s.broadcastTimer then { s with broadcastTimer := false }.handleBroadcastTimer else s
    | .signal => s.shutDown

/-- The program before its event loop runs. -/
def started (clock : Clock) (extra coords : List UInt8) : Application where
  rover := ((({ Rover.new roverId baseEndpoint clock with
    applicationMessageHandler := true }).start codec).updateCurrentPosition 53.3498 (-6.2603))
  extraListener := (UdpServer.ready extra).start
  coordsListener := (UdpServer.ready coords).start
  receivedEndpoints := []
  requestTimer := true
  broadcastTimer := true
  scanned := []
  stopped := false

/-! ### Low power mode -/

theorem sendRawMessage_suppressed (s : Application) (content : Content) (recipient : Endpoint)
    (low : s.rover.lowPowerMode = true) (mild : (s.message content).getLumenPriority = .medium) :
    s.sendRawMessage content recipient = s := by
  have suppressed : s.rover.suppresses (s.message content) = true := by
    simp only [Rover.suppresses,low,mild]
    decide
  have same : s.rover.sendRawMessage (s.message content) recipient = s.rover := by
    simp only [Rover.sendRawMessage,suppressed]
    split <;> rfl
  rw [sendRawMessage,same]

/-- What a step leaves alone when the rover sends nothing for the program. -/
structure Silent (s t : Application) : Prop where
  rover : t.rover = s.rover
  scanned : t.scanned = s.scanned
  stopped : t.stopped = s.stopped

theorem Silent.trans (first : Silent s t) (second : Silent t u) : Silent s u where
  rover := second.rover.trans first.rover
  scanned := second.scanned.trans first.scanned
  stopped := second.stopped.trans first.stopped

theorem foldl_silent (action : Application → Endpoint → Application)
    (each : ∀ s sender, s.rover.lowPowerMode = true → Silent s (action s sender))
    (senders : List Endpoint) (s : Application) (low : s.rover.lowPowerMode = true) :
    Silent s (senders.foldl action s) := by
  induction senders generalizing s with
  | nil => exact ⟨rfl,rfl,rfl⟩
  | cons sender rest ih =>
    have first := each s sender low
    have still : (action s sender).rover.lowPowerMode = true := by
      rw [first.rover]
      exact low
    exact first.trans (ih _ still)

/-- A contact is still noted, but not answered. -/
theorem noteContact_silent (s : Application) (sender : Endpoint) (low : s.rover.lowPowerMode = true) :
    Silent s (s.noteContact sender) := by
  rw [noteContact,sendRawMessage_suppressed (s.store sender) _ sender low rfl]
  exact ⟨rfl,rfl,rfl⟩

theorem sendLocation_silent (s : Application) (sender : Endpoint) (low : s.rover.lowPowerMode = true) :
    Silent s (s.sendLocation sender) := by
  rw [sendLocation,sendRawMessage_suppressed s _ sender low rfl]
  exact ⟨rfl,rfl,rfl⟩

/-- The input for the rover itself. -/
def Input.rover? : Input → Option Rover.Input
  | .rover input _ => some input
  | _ => none

theorem step_silent (s : Application) (input : Input) (low : s.rover.lowPowerMode = true)
    (other : input.rover? = none) (live : input ≠ .signal) : Silent s (s.step codec input) := by
  unfold step
  split
  · exact ⟨rfl,rfl,rfl⟩
  · cases input with
    | rover input event => cases other
    | signal => exact absurd rfl live
    | extraListener arrival =>
      have moved : Silent s { s with extraListener := s.extraListener.step arrival.input } :=
        ⟨rfl,rfl,rfl⟩
      exact moved.trans (foldl_silent noteContact noteContact_silent _ _ low)
    | coordsListener arrival =>
      have moved : Silent s { s with coordsListener := s.coordsListener.step arrival.input } :=
        ⟨rfl,rfl,rfl⟩
      exact moved.trans (foldl_silent sendLocation sendLocation_silent _ _ low)
    | requestTimer =>
      dsimp only
      split
      · simp only [handleRequestTimer,low,if_true]
        exact ⟨rfl,rfl,rfl⟩
      · exact ⟨rfl,rfl,rfl⟩
    | broadcastTimer =>
      dsimp only
      split
      · simp only [handleBroadcastTimer,low,if_true]
        exact ⟨rfl,List.append_nil _,rfl⟩
      · exact ⟨rfl,rfl,rfl⟩

/-- While the rover is in low power mode the program around it cannot be noticed: the rover is in
the state it would be in without the listeners and the timers, and no scan is sent. -/
theorem low_power_program_is_silent (s : Application) (inputs : List Input)
    (running : s.stopped = false) (live : ∀ input ∈ inputs, input ≠ .signal)
    (low : Guarded (step codec) (fun s _ => s.rover.lowPowerMode = true) s inputs) :
    (run (step codec) s inputs).rover =
        run (Rover.step codec) s.rover (inputs.filterMap Input.rover?) ∧
      (run (step codec) s inputs).scanned = s.scanned := by
  induction inputs generalizing s with
  | nil => exact ⟨rfl,rfl⟩
  | cons input rest ih =>
    obtain ⟨here,later⟩ := (guarded_cons _ _ s input rest).mp low
    have lively := live input List.mem_cons_self
    have others := fun next member => live next (List.mem_cons_of_mem input member)
    cases own : input.rover? with
    | none =>
      have silent := step_silent codec s input here own lively
      obtain ⟨rover,scanned⟩ := ih _ (silent.stopped.trans running) others later
      rw [List.filterMap_cons_none own,← silent.rover]
      exact ⟨rover,scanned.trans silent.scanned⟩
    | some inner =>
      have moved : s.step codec input = { s with rover := s.rover.step codec inner } := by
        cases input with
        | rover input event =>
          cases own
          exact if_neg (by simp [running])
        | _ => cases own
      rw [run_cons,moved,List.filterMap_cons_some own,run_cons]
      rw [moved] at later
      exact ih _ running others later

def visitor : Endpoint := ⟨0x0aed0005,40000⟩

/-- Two datagrams of one host and one of another. -/
def threeContacts : List Input :=
  [.extraListener (.datagram [1] visitor),.extraListener .handler,
    .extraListener (.datagram [2] ⟨0x0aed0006,40000⟩),.extraListener .handler,
    .extraListener (.datagram [3] visitor),.extraListener .handler]

/-- The base station puts the rover into low power mode; then both timers fire. -/
theorem threeContacts_unanswered :
    let s := run (step .silent) (started .silent ⟨0,0⟩ [] [])
      [.rover (.route ⟨"base",0,.command "SET_LOW_POWER" "1"⟩ baseEndpoint) rfl]
    (run (step .silent) s (threeContacts ++ [.requestTimer,.broadcastTimer])).rover = s.rover ∧
      (run (step .silent) s (threeContacts ++ [.requestTimer,.broadcastTimer])).scanned = [] := by
  intro s
  have silent := low_power_program_is_silent .silent s
    (threeContacts ++ [.requestTimer,.broadcastTimer]) (by decide +kernel) (by simp [threeContacts])
    (by decide +kernel)
  have none : s.scanned = [] := by decide +kernel
  rw [none] at silent
  exact silent

/-! ### Contacts -/

/-- A raw message of the program, given to a rover that is awake, leaves for its recipient. -/
def answers (s : Application) (content : Content) (recipient : Endpoint) :
    List (Message × Endpoint) :=
  if recipient.Sendable then [(s.message content,recipient)] else []

/-- A running rover whose stored packets belong to no handshake. -/
structure Live (s : Application) : Prop where
  up : s.rover.Up
  stored : ∀ packet ∈ s.rover.storedPackets, packet.message.Plain

theorem Live.rover {s t : Application} (live : Live s) (steady : Rover.Steady s.rover t.rover) :
    Live t where
  up := steady.up live.up
  stored := by
    intro packet member
    rcases steady.stored packet member with old | plain
    · exact live.stored packet old
    · exact plain

theorem event_steady (s : Rover) (input : Rover.Input) (event : input.isEvent = true)
    (stored : ∀ packet ∈ s.storedPackets, packet.message.Plain) :
    Rover.Steady s (s.step codec input) := by
  cases input with
  | route message sender => exact s.routeMessage_steady codec message sender stored
  | expire timer => exact (s.step_alone codec (.expire timer) trivial (by simp) (by simp)).steady
  | runPosted position =>
    exact (s.step_alone codec (.runPosted position) trivial (by simp) (by simp)).steady
  | timeoutNotification recipient =>
    exact (s.step_alone codec (.timeoutNotification recipient) trivial (by simp) (by simp)).steady
  | protocol input external =>
    exact (s.step_alone codec (.protocol input external) trivial (by simp) (by simp)).steady
  | _ => cases event

theorem foldl_steady (action : Application → Endpoint → Application)
    (each : ∀ s contact, Rover.Steady s.rover (action s contact).rover) (list : List Endpoint)
    (s : Application) : Rover.Steady s.rover (list.foldl action s).rover := by
  induction list generalizing s with
  | nil => exact .of_same rfl rfl rfl
  | cons contact rest ih => exact (each s contact).trans (ih _)

theorem sendRawMessage_steady (s : Application) (content : Content) (recipient : Endpoint)
    (plain : (s.message content).Plain) :
    Rover.Steady s.rover (s.sendRawMessage content recipient).rover :=
  (Rover.sendRawMessage_quiet s.rover (s.message content) recipient plain).steady

/-- Until the signal the rover keeps running. -/
theorem step_live (s : Application) (input : Input) (before : s.stopped = false → Live s)
    (running : (s.step codec input).stopped = false) : Live (s.step codec input) := by
  unfold step at running ⊢
  split at running
  · next stopped => cases stopped.symm.trans running
  · next going =>
    have live := before (by simpa using going)
    rw [if_neg going]
    cases input with
    | rover input event => exact live.rover (event_steady codec s.rover input event live.stored)
    | signal => cases running
    | extraListener arrival =>
      have answered (t : Application) (contact : Endpoint) :
          Rover.Steady t.rover (t.noteContact contact).rover :=
        sendRawMessage_steady (t.store contact) _ contact rfl
      exact live.rover (foldl_steady noteContact answered _
        { s with extraListener := s.extraListener.step arrival.input })
    | coordsListener arrival =>
      have answered (t : Application) (contact : Endpoint) :
          Rover.Steady t.rover (t.sendLocation contact).rover :=
        sendRawMessage_steady t _ contact rfl
      exact live.rover (foldl_steady sendLocation answered _
        { s with coordsListener := s.coordsListener.step arrival.input })
    | requestTimer =>
      dsimp only
      split
      · simp only [handleRequestTimer]
        split
        · exact live.rover (.of_same rfl rfl rfl)
        · have asked (t : Application) (contact : Endpoint) :
              Rover.Steady t.rover (t.requestLocation contact).rover :=
            sendRawMessage_steady t _ _ rfl
          exact live.rover (foldl_steady requestLocation asked _ { s with requestTimer := false })
      · exact live
    | broadcastTimer =>
      dsimp only
      split
      · exact live.rover (.of_same rfl rfl rfl)
      · exact live

end Application

end Lumen
