import Lumen.Handshake

/-! One base station and any number of rovers on one network, with other nodes around them. Seen
from one of the rovers, the fleet is a system of two parties in which the other rovers are among
the other nodes; what is known about two parties therefore holds for each of them, and since the
base station is the same for all, only one of them can ever have a session. -/
namespace Lumen

open Message Machine

/-- The names and endpoints of a fleet. No two rovers share one. -/
structure Crew (ι : Type) where
  stationId : String
  base : Endpoint
  id : ι → String
  endpoint : ι → Endpoint
  baseKnown : base.isUnspecified = false
  sendable : ∀ rover, (endpoint rover).Sendable
  distinctIds : Function.Injective id
  distinctEndpoints : Function.Injective endpoint
  apart : ∀ rover, endpoint rover ≠ base

/-- One of the rovers and the base station. -/
def Crew.parties (crew : Crew ι) (rover : ι) : Parties where
  stationId := crew.stationId
  roverId := crew.id rover
  base := crew.base
  rover := crew.endpoint rover
  baseKnown := crew.baseKnown
  roverSendable := crew.sendable rover

structure Fleet (ι : Type) where
  base : BaseStation
  rovers : ι → Rover

namespace Fleet

variable {ι : Type} (codec : Codec) (crew : Crew ι)

inductive Input (ι : Type) where
  /-- A call of the owner or an event below the message layer. -/
  | base (input : BaseStation.Input)
  | rover (rover : ι) (input : Rover.Input)
  /-- A copy of the message at this position of the sender's log arrives. -/
  | toBase (source : ι) (position : Nat)
  | toRover (target : ι) (position : Nat)
  | between (source target : ι) (position : Nat)
  /-- A message of another node arrives. -/
  | otherToBase (message : Message) (sender : Endpoint)
  | otherToRover (target : ι) (message : Message) (sender : Endpoint)

/-- All nodes right after `start`. -/
def started (baseClock : Clock) (roverClock : ι → Clock) : Fleet ι where
  base := .started crew.stationId baseClock
  rovers := fun rover => .started codec (crew.id rover) crew.base (roverClock rover)

/-- A message manager that is not running passes nothing on. -/
def baseReceives (s : Fleet ι) (message : Message) (sender : Endpoint) : Fleet ι :=
  if s.base.manager.running then { s with base := s.base.routeMessage codec message sender } else s

def setRover [DecidableEq ι] (s : Fleet ι) (rover : ι) (state : Rover) : Fleet ι :=
  { s with rovers := Function.update s.rovers rover state }

def roverReceives [DecidableEq ι] (s : Fleet ι) (target : ι) (message : Message) (sender : Endpoint) : Fleet ι :=
  if (s.rovers target).manager.running then
    s.setRover target ((s.rovers target).routeMessage codec message sender)
  else s

def step [DecidableEq ι] (s : Fleet ι) : Input ι → Fleet ι
  | .base input => { s with base := s.base.step codec input }
  | .rover rover input => s.setRover rover ((s.rovers rover).step codec input)
  | .toBase source position =>
    match System.copyFor crew.base (s.rovers source).manager.sent position with
    | some message => s.baseReceives codec message (crew.endpoint source)
    | none => s
  | .toRover target position =>
    match System.copyFor (crew.endpoint target) s.base.manager.sent position with
    | some message => s.roverReceives codec target message crew.base
    | none => s
  | .between source target position =>
    match System.copyFor (crew.endpoint target) (s.rovers source).manager.sent position with
    | some message => s.roverReceives codec target message (crew.endpoint source)
    | none => s
  | .otherToBase message sender => s.baseReceives codec message sender
  | .otherToRover target message sender => s.roverReceives codec target message sender

/-- Session commands come from the handshake code only, the base station is not stopped, and
the other nodes use neither the id or endpoint of a rover nor the base station's endpoint. -/
def Admissible (s : Fleet ι) : Input ι → Prop
  | .base input => input.isTraffic = true ∧ input.Speaks Plain s.base
  | .rover rover input =>
    (∀ message sender, input ≠ .route message sender) ∧ input.Speaks Plain (s.rovers rover)
  | .toBase _ _ => True
  | .toRover _ _ => True
  | .between _ _ _ => True
  | .otherToBase message sender =>
    ∀ rover, message.sender ≠ crew.id rover ∧ sender ≠ crew.endpoint rover
  | .otherToRover _ _ sender => sender ≠ crew.base

/-! ### The view of one rover -/

/-- The fleet as one of the rovers knows it. -/
def view (s : Fleet ι) (rover : ι) : System := ⟨s.base,s.rovers rover⟩

theorem view_baseReceives (s : Fleet ι) (rover : ι) (message : Message) (sender : Endpoint) :
    (s.baseReceives codec message sender).view rover =
      (s.view rover).baseReceives codec message sender := by
  cases running : s.base.manager.running <;>
    simp [baseReceives,System.baseReceives,view,running]

/-! ### Agreement -/

/-- Every rover agrees with the base station. -/
def Agreed (s : Fleet ι) : Prop := ∀ rover, System.Agreed (crew.parties rover) (s.view rover)

/-- What a step has to keep. -/
structure Advances (s t : Fleet ι) : Prop where
  agreed : Agreed crew t
  keeps : ∀ rover, Session.Keeps (crew.parties rover).peer s.base.session t.base.session

variable {crew}

theorem Agreed.unmoved {s : Fleet ι} (agreed : Agreed crew s) : Advances crew s s :=
  ⟨agreed,fun _ => .refl _ _⟩

/-- The base station receives a message that is not forged. -/
theorem Agreed.baseReceives {s : Fleet ι} (agreed : Agreed crew s) (message : Message)
    (sender : Endpoint)
    (distinct : ∀ rover, message.isHandshake = true →
      Session.Distinct (crew.parties rover).peer ⟨message.sender,sender⟩) :
    Advances crew s (s.baseReceives codec message sender) where
  agreed := by
    intro rover
    rw [view_baseReceives]
    exact System.Agreed.baseReceives codec (agreed rover) message sender (distinct rover)
  keeps := by
    intro rover
    simp only [Fleet.baseReceives]
    split
    · exact (System.base_receives_honest codec s.base message sender (agreed rover).base
        (distinct rover)).2
    · exact .refl _ _

/-- The rovers cannot be mixed up: what one of them signs is not another's. -/
theorem distinct_of_signed {s : Fleet ι} (agreed : Agreed crew s) (source rover : ι)
    {message : Message} (found : System.copyFor crew.base (s.rovers source).manager.sent position =
      some message) (handshake : message.isHandshake = true) :
    Session.Distinct (crew.parties rover).peer ⟨message.sender,crew.endpoint source⟩ := by
  have signed : message.sender = crew.id source :=
    (agreed source).rover.signed _ (System.copyFor_mem found) handshake
  rw [signed]
  exact (crew.distinctIds.eq_iff).trans (crew.distinctEndpoints.eq_iff).symm

theorem started_agreed (baseClock : Clock) (roverClock : ι → Clock) :
    Agreed crew (started codec crew baseClock roverClock) :=
  fun rover => System.started_agreed codec baseClock (roverClock rover)

variable [DecidableEq ι]

theorem view_setRover (s : Fleet ι) (rover : ι) (state : Rover) :
    (s.setRover rover state).view rover = { s.view rover with rover := state } := by
  simp [setRover,view]

theorem view_setRover_other (s : Fleet ι) {rover other : ι} (state : Rover) (differs : other ≠ rover) :
    (s.setRover rover state).view other = s.view other := by
  simp [setRover,view,Function.update_of_ne differs]

theorem view_roverReceives (s : Fleet ι) (target : ι) (message : Message) (sender : Endpoint) :
    (s.roverReceives codec target message sender).view target =
      (s.view target).roverReceives codec message sender := by
  simp only [roverReceives,System.roverReceives]
  split
  · next running => rw [view_setRover,if_pos (by exact running)]; rfl
  · next halted => rw [if_neg (by exact halted)]

theorem view_roverReceives_other (s : Fleet ι) {target other : ι} (message : Message)
    (sender : Endpoint) (differs : other ≠ target) :
    (s.roverReceives codec target message sender).view other = s.view other := by
  simp only [roverReceives]
  split
  · exact view_setRover_other s _ differs
  · rfl

theorem roverReceives_base (s : Fleet ι) (target : ι) (message : Message) (sender : Endpoint) :
    (s.roverReceives codec target message sender).base = s.base := by
  simp only [roverReceives]
  split <;> rfl

/-- One rover changes in a way that keeps its agreement. -/
theorem Agreed.setRover {s : Fleet ι} (agreed : Agreed crew s) (rover : ι) (state : Rover)
    (own : System.Agreed (crew.parties rover) { s.view rover with rover := state }) :
    Advances crew s (s.setRover rover state) where
  agreed := by
    intro other
    by_cases same : other = rover
    · rw [same,view_setRover]
      exact own
    · rw [view_setRover_other s state same]
      exact agreed other
  keeps := fun _ => .refl _ _

theorem Agreed.roverReceives {s : Fleet ι} (agreed : Agreed crew s) (target : ι)
    (message : Message) (sender : Endpoint)
    (told : sender = crew.base → System.Answered (crew.parties target) s.base.session
      (message,crew.endpoint target)) :
    Advances crew s (s.roverReceives codec target message sender) where
  agreed := by
    intro other
    by_cases same : other = target
    · rw [same,view_roverReceives]
      exact System.Agreed.roverReceives codec (agreed target) message sender told
    · rw [view_roverReceives_other codec s message sender same]
      exact agreed other
  keeps := by
    intro other
    rw [roverReceives_base]
    exact .refl _ _

theorem step_advances (s : Fleet ι) (input : Input ι) (agreed : Agreed crew s)
    (admissible : Admissible crew s input) : Advances crew s (s.step codec crew input) := by
  cases input with
  | base input =>
    have goesOn (rover : ι) := System.base_traffic_honest codec s.base input (agreed rover).base
      admissible.1 admissible.2
    have kept (rover : ι) : Session.Keeps (crew.parties rover).peer s.base.session
        (s.base.step codec input).session := by
      rw [(goesOn rover).2]
      exact .refl _ _
    exact ⟨fun rover => (agreed rover).baseMoves (goesOn rover).1 (kept rover),kept⟩
  | rover rover input =>
    apply agreed.setRover
    by_cases live : input = .stop
    · rw [live]
      exact (agreed rover).roverStops
    · exact (agreed rover).roverAlone
        (Rover.step_alone codec (s.rovers rover) input admissible.2 admissible.1 live)
  | toBase source position =>
    simp only [step]
    split
    · next message found =>
      apply agreed.baseReceives
      intro rover handshake
      exact distinct_of_signed agreed source rover found handshake
    · exact agreed.unmoved
  | toRover target position =>
    simp only [step]
    split
    · next message found =>
      apply agreed.roverReceives
      intro _
      exact (agreed target).base.answered _ (System.copyFor_mem found)
    · exact agreed.unmoved
  | between source target position =>
    simp only [step]
    split
    · apply agreed.roverReceives
      intro same
      exact absurd same (crew.apart source)
    · exact agreed.unmoved
  | otherToBase message sender =>
    apply agreed.baseReceives
    intro rover _
    exact iff_of_false (admissible rover).1 (admissible rover).2
  | otherToRover target message sender =>
    apply agreed.roverReceives
    intro same
    exact absurd same admissible

theorem run_agreed (s : Fleet ι) (inputs : List (Input ι)) (agreed : Agreed crew s)
    (admissible : Guarded (step codec crew) (Admissible crew) s inputs) :
    Agreed crew (run (step codec crew) s inputs) :=
  always_of_guarded (step codec crew)
    (fun s input agreed admissible => (step_advances codec s input agreed admissible).agreed) s inputs
    agreed admissible inputs (List.prefix_refl inputs)

/-- An established session stays with its rover. -/
theorem run_established (s : Fleet ι) (inputs : List (Input ι)) (rover : ι) (agreed : Agreed crew s)
    (admissible : Guarded (step codec crew) (Admissible crew) s inputs)
    (held : s.base.session = .established (crew.parties rover).peer) :
    (run (step codec crew) s inputs).base.session = .established (crew.parties rover).peer := by
  induction inputs generalizing s with
  | nil => exact held
  | cons input rest ih =>
    obtain ⟨here,later⟩ := (guarded_cons _ _ s input rest).mp admissible
    have next := step_advances codec s input agreed here
    exact ih _ next.agreed later ((next.keeps rover).established held)

/-- At most one rover of a fleet is ever in session: when one of them is at some time, no other
is then or later, until the base station is stopped. The rovers have different ids and endpoints,
and the other nodes use none of them and not the endpoint of the base station; session commands come
from the handshake code. -/
theorem at_most_one_rover_in_session (baseClock : Clock) (roverClock : ι → Clock)
    (inputs more : List (Input ι))
    (admissible : Guarded (step codec crew) (Admissible crew)
      (started codec crew baseClock roverClock) (inputs ++ more)) (first second : ι) :
    let s := run (step codec crew) (started codec crew baseClock roverClock) inputs
    let t := run (step codec crew) s more
    (s.rovers first).sessionState = .active → (t.rovers second).sessionState = .active →
      first = second := by
  intro s t here there
  obtain ⟨early,late⟩ := (guarded_append _ _ _ inputs more).mp admissible
  have agreed : Agreed crew s :=
    run_agreed codec _ inputs (started_agreed codec baseClock roverClock) early
  have later : Agreed crew t := run_agreed codec s more agreed late
  have held := run_established codec s more first agreed late ((agreed first).active here)
  have peers := held.symm.trans ((later second).active there)
  exact crew.distinctIds (congrArg Peer.id (Session.established.inj peers))

theorem deliveries_admissible (s : Fleet ι) (inputs : List (Input ι))
    (deliveries : ∀ input ∈ inputs, ∃ rover position,
      input = .toBase rover position ∨ input = .toRover rover position) :
    Guarded (step codec crew) (Admissible crew) s inputs := by
  intro done input within
  obtain ⟨rover,position,rfl | rfl⟩ := deliveries input
    (within.subset (List.mem_append_right _ (List.mem_singleton_self _)))
  · trivial
  · trivial

def sampleId (rover : Bool) : String :=
  bif rover then "rover-b" else "rover-a"

def sampleEndpoint (rover : Bool) : Endpoint :=
  bif rover then ⟨0x0aed0003,9001⟩ else ⟨0x0aed0002,9001⟩

theorem sampleEndpoint_sendable (rover : Bool) : (sampleEndpoint rover).Sendable := by
  cases rover <;> decide

theorem sampleId_injective : Function.Injective sampleId := by
  intro first second same
  cases first <;> cases second <;> first | rfl | exact absurd same (by decide)

theorem sampleEndpoint_injective : Function.Injective sampleEndpoint := by
  intro first second same
  cases first <;> cases second <;> first | rfl | exact absurd same (by decide)

theorem sampleBase_known : (⟨0x0aed0001,9000⟩ : Endpoint).isUnspecified = false := rfl

theorem sampleEndpoint_apart (rover : Bool) : sampleEndpoint rover ≠ ⟨0x0aed0001,9000⟩ := by
  cases rover <;> decide

def sampleCrew : Crew Bool where
  stationId := "base"
  base := ⟨0x0aed0001,9000⟩
  id := sampleId
  endpoint := sampleEndpoint
  baseKnown := sampleBase_known
  sendable := sampleEndpoint_sendable
  distinctIds := sampleId_injective
  distinctEndpoints := sampleEndpoint_injective
  apart := sampleEndpoint_apart

/-- The handshake of the first rover. -/
def firstHandshake : List (Input Bool) :=
  [.toBase false 0,.toRover false 0,.toBase false 1,.toRover false 1]

theorem second_rover_not_in_session :
    let s := run (step .silent sampleCrew) (started .silent sampleCrew ⟨0,0⟩ fun _ => ⟨0,0⟩)
      firstHandshake
    ((run (step .silent sampleCrew) s [.toBase true 0]).rovers true).sessionState ≠ .active := by
  intro s active
  have same := at_most_one_rover_in_session .silent ⟨0,0⟩ (fun _ => ⟨0,0⟩) firstHandshake
    [.toBase true 0] (deliveries_admissible .silent _ _ (by simp [firstHandshake])) false true
    (by decide +kernel) active
  cases same

end Fleet

end Lumen
