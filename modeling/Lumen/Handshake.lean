import Lumen.BaseReplies
import Lumen.RoverReplies

/-! One base station, one rover and the network between them. A message that was sent stays
available: the network may deliver a copy of it, to the endpoint it was sent to, at any later
time, any number of times or never. Other nodes may send anything under their own names. -/
namespace Lumen

open Message

/-- The names and endpoints of the two parties. -/
structure Parties where
  stationId : String
  roverId : String
  base : Endpoint
  rover : Endpoint
  baseKnown : base.isUnspecified = false
  roverSendable : rover.Sendable

/-- The rover as the base station should know it. -/
def Parties.peer (parties : Parties) : Peer := ⟨parties.roverId,parties.rover⟩

structure System where
  base : BaseStation
  rover : Rover

namespace System

variable (codec : Codec) (parties : Parties)

inductive Input where
  /-- A call of the owner or an event below the message layer. -/
  | base (input : BaseStation.Input)
  | rover (input : Rover.Input)
  /-- A copy of the message at this position of the sender's log arrives. -/
  | toBase (position : Nat)
  | toRover (position : Nat)
  /-- A message of another node arrives. -/
  | otherToBase (message : Message) (sender : Endpoint)
  | otherToRover (message : Message) (sender : Endpoint)

/-- Both parties right after `start`. -/
def started (baseClock roverClock : Clock) : System where
  base := .started parties.stationId baseClock
  rover := .started codec parties.roverId parties.base roverClock

/-- The message at a position of the log, if it was sent to the endpoint. -/
def copyFor (endpoint : Endpoint) (sent : List (Message × Endpoint)) (position : Nat) :
    Option Message :=
  (sent[position]?.filter fun entry => entry.2 = endpoint).map (·.1)

/-- A message manager that is not running passes nothing on. -/
def baseReceives (s : System) (message : Message) (sender : Endpoint) : System :=
  if s.base.manager.running then { s with base := s.base.routeMessage codec message sender } else s

def roverReceives (s : System) (message : Message) (sender : Endpoint) : System :=
  if s.rover.manager.running then { s with rover := s.rover.routeMessage codec message sender }
  else s

def step (s : System) : Input → System
  | .base input => { s with base := s.base.step codec input }
  | .rover input => { s with rover := s.rover.step codec input }
  | .toBase position =>
    match copyFor parties.base s.rover.manager.sent position with
    | some message => s.baseReceives codec message parties.rover
    | none => s
  | .toRover position =>
    match copyFor parties.rover s.base.manager.sent position with
    | some message => s.roverReceives codec message parties.base
    | none => s
  | .otherToBase message sender => s.baseReceives codec message sender
  | .otherToRover message sender => s.roverReceives codec message sender

/-- Session commands come from the handshake code only, the base station is not stopped, and
the other nodes use neither the rover's id or endpoint nor the base station's endpoint. -/
def Admissible (s : System) : Input → Prop
  | .base input => input.isTraffic = true ∧ input.Speaks Plain s.base
  | .rover input => (∀ message sender, input ≠ .route message sender) ∧ input.Speaks Plain s.rover
  | .toBase _ => True
  | .toRover _ => True
  | .otherToBase message sender => message.sender ≠ parties.roverId ∧ sender ≠ parties.rover
  | .otherToRover _ sender => sender ≠ parties.base

theorem copyFor_eq_some {endpoint : Endpoint} {sent : List (Message × Endpoint)} {position : Nat}
    {message : Message} :
    copyFor endpoint sent position = some message ↔ sent[position]? = some (message,endpoint) := by
  simp only [copyFor,Option.map_eq_some_iff,Option.filter_eq_some_iff,decide_eq_true_eq]
  constructor
  · rintro ⟨⟨first,second⟩,⟨here,rfl⟩,rfl⟩
    exact here
  · intro here
    exact ⟨_,⟨here,rfl⟩,rfl⟩

theorem copyFor_mem {endpoint : Endpoint} {sent : List (Message × Endpoint)} {position : Nat}
    {message : Message} (found : copyFor endpoint sent position = some message) :
    (message,endpoint) ∈ sent := List.mem_of_getElem? (copyFor_eq_some.mp found)

/-! ### What holds of each party -/

/-- A handshake command sent by the base station tells something about its session. -/
def Answered (session : Session) (entry : Message × Endpoint) : Prop :=
  entry.1.isHandshake = true → entry.1.sender = parties.stationId ∧ session ≠ .idle ∧
    (entry.1.isCommand "SESSION_ESTABLISHED" = true → entry.2 = parties.rover →
      session = .established parties.peer)

structure BaseHonest (base : BaseStation) : Prop where
  valid : base.Valid
  up : base.Up
  stationId : base.stationId = parties.stationId
  distinct : ∀ holder, base.session.peer? = some holder → Session.Distinct parties.peer holder
  answered : ∀ entry ∈ base.manager.sent, Answered parties base.session entry

structure RoverHonest (rover : Rover) : Prop where
  roverId : rover.roverId = parties.roverId
  registered : rover.getBaseEndpoint = some parties.base
  live : rover.Up ∨ rover.Down
  signed : ∀ entry ∈ rover.manager.sent, Rover.Signed parties.roverId entry.1
  stored : ∀ packet ∈ rover.storedPackets, packet.message.Plain

variable {parties}

theorem Answered.keeps (keeps : Session.Keeps parties.peer before after)
    (answered : Answered parties before entry) : Answered parties after entry := by
  intro handshake
  obtain ⟨sender,held,established⟩ := answered handshake
  exact ⟨sender,keeps.held held,fun named here => keeps.established (established named here)⟩

theorem answered_of_plain {session : Session} {entry : Message × Endpoint}
    (plain : entry.1.Plain) : Answered parties session entry :=
  fun handshake => Bool.noConfusion (plain.symm.trans handshake)

/-- A fresh answer is one in the sense of the invariant. -/
theorem answered_of_answersFor {session : Session} {entry : Message × Endpoint}
    (distinct : ∀ holder, session.peer? = some holder → Session.Distinct parties.peer holder)
    (sender : entry.1.sender = parties.stationId)
    (answers : BaseStation.AnswersFor session entry) : Answered parties session entry := by
  intro _
  cases session with
  | idle => cases answers
  | offered peer =>
    refine ⟨sender,nofun,fun established => ?_⟩
    exact absurd (isCommand_unique answers.1 established) (by decide)
  | established peer =>
    refine ⟨sender,nofun,fun _ here => ?_⟩
    obtain ⟨id,endpoint⟩ := peer
    have place : endpoint = parties.rover := answers.2.symm.trans here
    have name : id = parties.roverId := (distinct _ rfl).mpr place
    rw [place,name]
    rfl

/-- The base station goes on without receiving anything. -/
theorem base_traffic_honest (base : BaseStation) (input : BaseStation.Input)
    (honest : BaseHonest parties base) (traffic : input.isTraffic = true)
    (spoken : input.Speaks Plain base) :
    BaseHonest parties (base.step codec input) ∧ (base.step codec input).session = base.session := by
  have quiet := BaseStation.step_quiet codec base input traffic
  obtain ⟨more,sent,plain⟩ := BaseStation.step_sendsOnly codec plain_self base
    input traffic spoken
  refine ⟨⟨quiet.valid honest.valid,quiet.up honest.up,quiet.stationId.trans honest.stationId,?_,?_⟩,
    quiet.session⟩
  · rw [quiet.session]
    exact honest.distinct
  · rw [quiet.session,sent]
    intro entry member
    rcases List.mem_append.mp member with old | new
    · exact honest.answered entry old
    · exact answered_of_plain (plain entry new)

/-- Nobody takes the rover's session away. -/
theorem sessionStep_keeps (session : Session) (message : Message) (sender : Endpoint)
    (distinct : message.isHandshake = true →
      Session.Distinct parties.peer ⟨message.sender,sender⟩)
    (before : ∀ holder, session.peer? = some holder → Session.Distinct parties.peer holder) :
    Session.Keeps parties.peer session
        (BaseStation.sessionStep session (.route message sender)) ∧
      ∀ holder, (BaseStation.sessionStep session (.route message sender)).peer? = some holder →
        Session.Distinct parties.peer holder := by
  simp only [BaseStation.sessionStep]
  split
  · next init =>
    have apart := distinct (by simp [isHandshake,init])
    exact ⟨Session.onInit_keeps session apart,Session.onInit_distinct session apart before⟩
  · split
    · rw [Session.onConfirm_peer]
      exact ⟨Session.onConfirm_keeps session _ _,before⟩
    · exact ⟨.refl _ _,before⟩

theorem base_receives_honest (base : BaseStation) (message : Message) (sender : Endpoint)
    (honest : BaseHonest parties base)
    (distinct : message.isHandshake = true →
      Session.Distinct parties.peer ⟨message.sender,sender⟩) :
    BaseHonest parties (base.routeMessage codec message sender) ∧
      Session.Keeps parties.peer base.session (base.routeMessage codec message sender).session := by
  obtain ⟨session,valid⟩ := BaseStation.routeMessage_session codec base message sender honest.valid
  obtain ⟨station,up⟩ := BaseStation.routeMessage_up codec base message sender honest.valid
  obtain ⟨keeps,apart⟩ := sessionStep_keeps base.session message sender distinct honest.distinct
  rw [← session] at keeps apart
  refine ⟨⟨valid,up honest.up,station.trans honest.stationId,apart,?_⟩,keeps⟩
  intro entry member
  rcases (BaseStation.routeMessage_sent codec base message sender honest.valid).1 with
    nothing | ⟨answer,sent,signed,answers⟩
  · rw [nothing] at member
    exact (honest.answered entry member).keeps keeps
  · rw [sent] at member
    rcases List.mem_append.mp member with old | new
    · exact (honest.answered entry old).keeps keeps
    · rw [List.mem_singleton.mp new]
      exact answered_of_answersFor apart (signed.trans honest.stationId) answers

theorem rover_steady_honest (honest : RoverHonest parties s) (steady : Rover.Steady s t)
    (live : t.Up ∨ t.Down) : RoverHonest parties t where
  roverId := steady.roverId.trans honest.roverId
  registered := steady.registered.trans honest.registered
  live := live
  signed := by
    obtain ⟨more,sent,signed⟩ := steady.sent
    rw [honest.roverId] at signed
    rw [sent]
    intro entry member
    rcases List.mem_append.mp member with old | new
    · exact honest.signed entry old
    · exact signed entry new
  stored := by
    intro packet member
    rcases steady.stored packet member with old | plain
    · exact honest.stored packet old
    · exact plain

theorem live_of_alone (alone : Rover.Alone s t) (live : s.Up ∨ s.Down) : t.Up ∨ t.Down := by
  rcases live with up | down
  · exact Or.inl (alone.steady.up up)
  · right
    refine ⟨alone.steady.managerRunning.trans down.manager,?_⟩
    rcases alone.sessionState with same | ⟨active,_⟩
    · exact same.trans down.sessionState
    · cases down.sessionState.symm.trans active

/-! ### Agreement -/

variable (parties) in
/-- The invariant of the whole system. -/
structure Agreed (s : System) : Prop where
  base : BaseHonest parties s.base
  rover : RoverHonest parties s.rover
  active : s.rover.sessionState = .active → s.base.session = .established parties.peer
  accepting : s.rover.sessionState = .handshakeAccept → s.base.session ≠ .idle

namespace Agreed

theorem baseMoves (agreed : Agreed parties s) {base : BaseStation}
    (honest : BaseHonest parties base)
    (keeps : Session.Keeps parties.peer s.base.session base.session) :
    Agreed parties { s with base := base } where
  base := honest
  rover := agreed.rover
  active := fun active => keeps.established (agreed.active active)
  accepting := fun accepting => keeps.held (agreed.accepting accepting)

/-- A rover that is not advanced agrees with the base station as before. -/
theorem roverAlone (agreed : Agreed parties s) {rover : Rover}
    (alone : Rover.Alone s.rover rover) : Agreed parties { s with rover := rover } where
  base := agreed.base
  rover := rover_steady_honest agreed.rover alone.steady (live_of_alone alone agreed.rover.live)
  active := by
    intro active
    rcases alone.sessionState with same | ⟨_,lost⟩
    · exact agreed.active (same.symm.trans active)
    · cases lost.symm.trans active
  accepting := by
    intro accepting
    rcases alone.sessionState with same | ⟨_,lost⟩
    · exact agreed.accepting (same.symm.trans accepting)
    · cases lost.symm.trans accepting

theorem roverStops (agreed : Agreed parties s) : Agreed parties { s with rover := s.rover.stop } := by
  obtain ⟨down,id,registered,sent,stored⟩ := Rover.stop_down s.rover
  refine ⟨agreed.base,⟨id.trans agreed.rover.roverId,registered.trans agreed.rover.registered,
    Or.inr down,?_,?_⟩,nofun,nofun⟩
  · rw [sent]
    exact agreed.rover.signed
  · rw [stored]
    exact nofun

theorem baseReceives (agreed : Agreed parties s) (message : Message) (sender : Endpoint)
    (distinct : message.isHandshake = true →
      Session.Distinct parties.peer ⟨message.sender,sender⟩) :
    Agreed parties (s.baseReceives codec message sender) := by
  simp only [System.baseReceives]
  split
  · obtain ⟨honest,keeps⟩ := base_receives_honest codec s.base message sender agreed.base distinct
    exact agreed.baseMoves honest keeps
  · exact agreed

/-- The rover is advanced by the base station's own commands only, and these tell the truth. -/
theorem roverReceives (agreed : Agreed parties s) (message : Message) (sender : Endpoint)
    (told : sender = parties.base → Answered parties s.base.session (message,parties.rover)) :
    Agreed parties (s.roverReceives codec message sender) := by
  simp only [System.roverReceives]
  split
  · next running =>
    have up : s.rover.Up := agreed.rover.live.resolve_right fun down => by
      cases running.symm.trans down.manager
    have truth (name : String) (from_ : s.rover.FromBase name message sender) :
        Answered parties s.base.session (message,parties.rover) :=
      told (Option.some.inj (from_.2.1.symm.trans agreed.rover.registered))
    rcases Rover.routeMessage_cases codec plain_self s.rover message sender with
      ⟨from_,accept⟩ | ⟨from_,established⟩ | quiet
    · obtain ⟨steady,state⟩ := Rover.handleSessionAccept_steady codec s.rover
      have held := (truth _ from_ (by simp [isHandshake,from_.2.2])).2.1
      rw [accept]
      refine ⟨agreed.base,rover_steady_honest agreed.rover steady (Or.inl (steady.up up)),?_,
        fun _ => held⟩
      intro active
      rcases state with same | accepting
      · exact agreed.active (same.symm.trans active)
      · cases accepting.symm.trans active
    · obtain ⟨steady,state,_⟩ :=
        Rover.handleSessionEstablished_quiet codec s.rover agreed.rover.stored
      have held := (truth _ from_ (by simp [isHandshake,from_.2.2])).2.2 from_.2.2 rfl
      rw [established]
      refine ⟨agreed.base,rover_steady_honest agreed.rover steady (Or.inl (steady.up up)),
        fun _ => held,?_⟩
      intro accepting
      cases state.symm.trans accepting
    · exact agreed.roverAlone ⟨quiet.steady,Or.inl quiet.sessionState⟩
  · exact agreed

end Agreed

/-- One step keeps the agreement, whatever the network and the other nodes do. -/
theorem step_agreed (s : System) (input : Input) (agreed : Agreed parties s)
    (admissible : Admissible parties s input) : Agreed parties (s.step codec parties input) := by
  cases input with
  | base input =>
    obtain ⟨honest,same⟩ := base_traffic_honest codec s.base input agreed.base admissible.1
      admissible.2
    exact agreed.baseMoves honest (by rw [same]; exact .refl _ _)
  | rover input =>
    by_cases live : input = .stop
    · rw [live]
      exact agreed.roverStops
    · exact agreed.roverAlone
        (Rover.step_alone codec s.rover input admissible.2 admissible.1 live)
  | toBase position =>
    simp only [step]
    split
    · next message found =>
      apply agreed.baseReceives
      intro handshake
      exact iff_of_true
        (agreed.rover.signed _ (copyFor_mem found) handshake) rfl
    · exact agreed
  | toRover position =>
    simp only [step]
    split
    · next message found =>
      apply agreed.roverReceives
      intro _
      exact agreed.base.answered _ (copyFor_mem found)
    · exact agreed
  | otherToBase message sender =>
    apply agreed.baseReceives
    intro _
    exact iff_of_false admissible.1 admissible.2
  | otherToRover message sender =>
    apply agreed.roverReceives
    intro same
    exact absurd same admissible

theorem rover_started_honest (clock : Clock) :
    RoverHonest parties (Rover.started codec parties.roverId parties.base clock) := by
  have whole := Rover.initiateHandshake_steady codec
    (Rover.new parties.roverId parties.base clock).launched
  have open_ : ¬ parties.base.isUnspecified = true := by simp [parties.baseKnown]
  have known : (Rover.new parties.roverId parties.base clock).launched.getBaseEndpoint =
      some parties.base := if_neg open_
  have before : RoverHonest parties (Rover.new parties.roverId parties.base clock).launched :=
    ⟨rfl,known,Or.inl ⟨rfl,rfl,rfl⟩,nofun,nofun⟩
  exact rover_steady_honest before whole (Or.inl (whole.up ⟨rfl,rfl,rfl⟩))

theorem started_agreed (baseClock roverClock : Clock) :
    Agreed parties (started codec parties baseClock roverClock) := by
  have init := Rover.started_sessionState codec parties.roverId parties.base roverClock
  refine ⟨⟨BaseStation.started_valid _ _,⟨rfl,rfl,rfl⟩,rfl,nofun,nofun⟩,
    rover_started_honest codec roverClock,?_,?_⟩
  · intro active
    cases init.symm.trans active
  · intro accepting
    cases init.symm.trans accepting

theorem run_agreed (baseClock roverClock : Clock) (inputs : List Input)
    (admissible : Machine.Guarded (step codec parties) (Admissible parties)
      (started codec parties baseClock roverClock) inputs) :
    Agreed parties (Machine.run (step codec parties) (started codec parties baseClock roverClock)
      inputs) :=
  Machine.always_of_guarded (step codec parties) (step_agreed codec) _ inputs
    (started_agreed codec baseClock roverClock) admissible inputs (List.prefix_refl inputs)

/-- Whenever the rover is in session, the base station is in session with this rover. -/
theorem active_rover_has_session (baseClock roverClock : Clock) (inputs : List Input)
    (admissible : Machine.Guarded (step codec parties) (Admissible parties)
      (started codec parties baseClock roverClock) inputs) :
    let s := Machine.run (step codec parties) (started codec parties baseClock roverClock) inputs
    s.rover.sessionState = .active →
      s.base.sessionState = .active ∧ s.base.connectedRoverId = parties.roverId ∧
        s.base.roverEndpoint = parties.rover := by
  intro s active
  have agreed : Agreed parties s := run_agreed codec baseClock roverClock inputs admissible
  exact (BaseStation.established_iff s.base parties.peer).mp (agreed.active active)

/-- A step of the network alone. -/
def Input.isDelivery : Input → Bool
  | .toBase _ => true
  | .toRover _ => true
  | _ => false

theorem deliveries_admissible (s : System) (inputs : List Input)
    (deliveries : ∀ input ∈ inputs, input.isDelivery = true) :
    Machine.Guarded (step codec parties) (Admissible parties) s inputs := by
  intro done input within
  have delivery := deliveries input
    (within.subset (List.mem_append_right _ (List.mem_singleton_self _)))
  cases input with
  | toBase | toRover => trivial
  | _ => cases delivery

def sampleParties : Parties where
  stationId := "base"
  roverId := "rover-a"
  base := ⟨0x0aed0001,9000⟩
  rover := ⟨0x0aed0002,9001⟩
  baseKnown := rfl
  roverSendable := by decide

/-- Every message of the handshake arrives. -/
def losslessHandshake : List Input := [.toBase 0,.toRover 0,.toBase 1,.toRover 1]

theorem losslessHandshake_agrees :
    (Machine.run (step .silent sampleParties) (started .silent sampleParties ⟨0,0⟩ ⟨0,0⟩)
      losslessHandshake).base.connectedRoverId = "rover-a" :=
  (active_rover_has_session .silent ⟨0,0⟩ ⟨0,0⟩ losslessHandshake
    (deliveries_admissible .silent _ _ (by decide)) (by decide +kernel)).2.1

end System

end Lumen
