import Mathlib.Data.List.Perm.Basic
import Lumen.Frame
import Lumen.Fleet
import Lumen.Firsts
import Lumen.Authorship

/-! How rovers find each other. A rover keeps the endpoint each other rover announced last and
reports a rover to its owner when it is new. In a fleet nobody can announce another rover, so that
the tables of all rovers agree with where the rovers are. -/
namespace Lumen

open Endpoint Message Machine

namespace Rover

variable (codec : Codec)

/-! ### What one rover knows -/

/-- The announcements the rover takes note of. -/
def heard (s : Rover) : Input → List (String × Endpoint)
  | .route message sender => if s.Announces message then [(message.sender,sender)] else []
  | _ => []

/-- What the owner's handler is called with. -/
def told (s : Rover) : Input → List (String × Endpoint)
  | .runPosted position => (s.posted[position]?.bind notice?).toList
  | _ => []

/-- An announcement replaces the endpoint of its sender and is news if there was none. -/
theorem routeMessage_heard (s : Rover) (message : Message) (sender : Endpoint)
    (announces : s.Announces message) :
    (s.routeMessage codec message sender).panel = { s.panel with
      discoveredRovers := Function.update s.discoveredRovers message.sender (some sender)
      notices := s.panel.notices ++ s.news message.sender sender } := by
  obtain ⟨named,other,awake⟩ := announces
  have routed : s.routeMessage codec message sender =
      s.handleDiscoveryCommand "ROVER_ANNOUNCE" message.sender sender := by
    obtain ⟨id,timestamp,content⟩ := message
    cases content with
    | command command params =>
      cases of_decide_eq_true named
      simp only [routeMessage,if_neg other]
      exact (if_neg (by decide)).trans ((if_pos rfl).trans (if_pos ⟨other,by simpa using awake⟩))
    | basic | telemetry | status => cases named
  rw [routed,handleDiscoveryCommand_panel,if_pos ⟨other,rfl⟩]

/-- A handler that runs leaves the queue, and the owner is told if it was a notice. -/
theorem runPosted_told (s : Rover) (position : Nat) :
    ∃ left, (s.runPosted position).panel = { s.panel with notices := left } ∧
      (s.told (.runPosted position) ++ left).Perm s.panel.notices := by
  cases queued : s.posted[position]? with
  | none =>
    refine ⟨s.panel.notices,?_,?_⟩
    · simp only [runPosted,queued]
    · rw [told,queued]
      exact List.Perm.refl _
  | some handler =>
    refine ⟨(s.posted.eraseIdx position).filterMap notice?,?_,?_⟩
    · simp only [runPosted,queued]
      exact runHandler_panel _ handler
    · obtain ⟨inside,here⟩ := List.getElem?_eq_some_iff.mp queued
      have taken := (List.getElem_cons_eraseIdx_perm inside).filterMap notice?
      rw [here,List.filterMap_cons] at taken
      rw [told,queued,Option.bind_some]
      cases notified : notice? handler with
      | none => simpa [panel,notified] using taken
      | some entry => simpa [panel,notified] using taken

/-- What the rover has heard of, told its owner and is about to tell it. -/
structure Informed (roverId : String) (announced reported : List (String × Endpoint))
    (panel : Panel) : Prop where
  identity : panel.roverId = roverId
  table : panel.discoveredRovers = Firsts.latest announced
  notified : (reported ++ panel.notices).Perm (Firsts.firsts announced)
  listening : panel.discoveryMessageHandler = true
  others : ∀ entry ∈ announced, entry.1 ≠ roverId

variable {roverId : String} {announced reported : List (String × Endpoint)}

theorem Informed.concat {s : Rover} (informed : Informed roverId announced reported s.panel) (id : String)
    (endpoint : Endpoint) (other : id ≠ s.roverId) :
    Informed roverId (announced ++ [(id,endpoint)]) reported { s.panel with
      discoveredRovers := Function.update s.discoveredRovers id (some endpoint)
      notices := s.panel.notices ++ s.news id endpoint } where
  identity := informed.identity
  table := by
    rw [Firsts.latest_concat,← informed.table]
    rfl
  notified := by
    have known : s.discoveredRovers id = none ↔ id ∉ (Firsts.firsts announced).map (·.1) := by
      rw [← Firsts.latest_eq_none_iff,← informed.table]
      rfl
    have listening : s.discoveryMessageHandler = true := informed.listening
    rw [← List.append_assoc,Firsts.firsts_concat,news]
    by_cases new : s.discoveredRovers id = none
    · rw [if_neg (known.mp new),if_pos ⟨new,listening⟩]
      exact informed.notified.append_right _
    · rw [if_pos (not_not.mp fun unknown => new (known.mpr unknown)),if_neg fun both => new both.1,
        List.append_nil]
      exact informed.notified
  listening := informed.listening
  others := by
    intro entry member
    rcases List.mem_append.mp member with earlier | now
    · exact informed.others entry earlier
    · rw [List.mem_singleton.mp now,← informed.identity]
      exact other

/-- Every other step leaves the table and the queue alone. -/
theorem step_uninformed (s : Rover) (input : Input) (live : input ≠ .stop)
    (informed : Informed roverId announced reported s.panel)
    (unheard : ∀ message sender, input = .route message sender → ¬ s.Announces message)
    (untold : ∀ position, input ≠ .runPosted position) :
    Informed roverId announced reported (s.step codec input).panel := by
  have changes := step_changes codec s input
  generalize (s.step codec input).panel = next at changes ⊢
  cases changes with
  | notes message sender announces => exact absurd announces (unheard message sender rfl)
  | tells position => exact absurd rfl (untold position)
  | stops => exact absurd rfl live
  | listens => exact ⟨informed.identity,informed.table,informed.notified,rfl,informed.others⟩
  | _ => exact ⟨informed.identity,informed.table,informed.notified,informed.listening,informed.others⟩

theorem step_informed (s : Rover) (input : Input) (live : input ≠ .stop)
    (informed : Informed roverId announced reported s.panel) :
    Informed roverId (announced ++ s.heard input) (reported ++ s.told input)
      (s.step codec input).panel := by
  cases input with
  | route message sender =>
    simp only [heard,told,List.append_nil]
    split
    · next announces =>
      simp only [step,routeMessage_heard codec s message sender announces]
      exact informed.concat message.sender sender announces.2.1
    · next silent =>
      rw [List.append_nil]
      apply step_uninformed codec s _ live informed
      · rintro _ _ ⟨⟩
        exact silent
      · simp
  | runPosted position =>
    obtain ⟨left,panel,moved⟩ := runPosted_told s position
    simp only [heard,List.append_nil,step,panel]
    refine ⟨informed.identity,informed.table,?_,informed.listening,informed.others⟩
    rw [List.append_assoc]
    exact (moved.append_left reported).trans informed.notified
  | _ =>
    simp only [heard,told,List.append_nil]
    exact step_uninformed codec s _ live informed (by simp) (by simp)

theorem run_informed (s : Rover) (inputs : List Input) (live : ∀ input ∈ inputs, input ≠ .stop)
    (informed : Informed roverId [] [] s.panel) :
    Informed roverId (trace (step codec) heard s inputs) (trace (step codec) told s inputs)
      (run (step codec) s inputs).panel := by
  induction inputs using List.reverseRecOn with
  | nil => exact informed
  | append_singleton done input ih =>
    rw [trace_concat,trace_concat,run_concat]
    apply step_informed
    · exact live input (List.mem_append_right _ (List.mem_singleton_self _))
    · exact ih fun earlier member => live earlier (List.mem_append_left _ member)

/-- A rover that is not stopped knows every other rover that announced itself, at the endpoint of
the last announcement, and its owner hears of each of them once, with the endpoint of the first
announcement; what it has not heard yet is posted. Announcements that arrive in low power mode are
ignored, and do not count. -/
theorem owner_hears_of_each_rover_once (roverId : String) (base : Endpoint) (clock : Clock)
    (inputs : List Input) (live : ∀ input ∈ inputs, input ≠ .stop) :
    let start := (started codec roverId base clock).step codec .setDiscoveryMessageHandler
    let announced := trace (step codec) heard start inputs
    let s := run (step codec) start inputs
    s.discoveredRovers = Firsts.latest announced ∧
      (trace (step codec) told start inputs ++ s.posted.filterMap notice?).Perm
        (Firsts.firsts announced) ∧
      s.discoveredRovers roverId = none := by
  intro start announced s
  have fresh : Informed roverId [] [] start.panel := by
    have panel : start.panel =
        { (new roverId base clock).launched.panel with discoveryMessageHandler := true } :=
      congrArg (fun panel : Panel => { panel with discoveryMessageHandler := true })
        (started_panel codec roverId base clock)
    rw [panel]
    exact ⟨rfl,rfl,List.Perm.refl _,rfl,nofun⟩
  have informed := run_informed codec start inputs live fresh
  refine ⟨informed.table,informed.notified,?_⟩
  have table : s.discoveredRovers = Firsts.latest announced := informed.table
  rw [table]
  exact Firsts.latest_of_unrecorded _ _ informed.others

/-- A rover announces itself, moves and announces itself again. -/
def announcedTwice : List Input :=
  [.route (BaseStation.sampleCommand "ROVER_ANNOUNCE" "rover-b") ⟨0x0aed0002,9001⟩,
    .route (BaseStation.sampleCommand "ROVER_ANNOUNCE" "rover-b") ⟨0x0aed0003,9001⟩,.runPosted 0]

theorem second_announcement_not_told :
    let start := (started .silent "rover-a" ⟨0x0aed0001,9000⟩ ⟨0,0⟩).step .silent
      .setDiscoveryMessageHandler
    let s := run (step .silent) start announcedTwice
    s.discoveredRovers "rover-b" = some ⟨0x0aed0003,9001⟩ ∧
      (trace (step .silent) told start announcedTwice ++ s.posted.filterMap notice?).Perm
        [("rover-b",⟨0x0aed0002,9001⟩)] := by
  intro start s
  obtain ⟨table,notified,_⟩ := owner_hears_of_each_rover_once .silent "rover-a" ⟨0x0aed0001,9000⟩
    ⟨0,0⟩ announcedTwice (by simp [announcedTwice])
  have announced : trace (step .silent) heard start announcedTwice =
      [("rover-b",⟨0x0aed0002,9001⟩),("rover-b",⟨0x0aed0003,9001⟩)] := by decide +kernel
  rw [announced] at table notified
  exact ⟨congrFun table _,notified⟩

end Rover

namespace Fleet

variable {ι : Type} (codec : Codec) (crew : Crew ι)

/-! ### Where the rovers of a fleet are -/

/-- A message that carries the id of none of the rovers. -/
def Foreign (message : Message) : Prop := ∀ rover, message.sender ≠ crew.id rover

/-- Nobody signs as a rover of the fleet but the rover itself. -/
def Honest (s : Fleet ι) : Input ι → Prop
  | .base input =>
    (∀ message sender, input ≠ .route message sender) ∧ input.Speaks (Foreign crew) s.base
  | .rover rover input =>
    (∀ message sender, input ≠ .route message sender) ∧
      input.Speaks (·.sender = crew.id rover) (s.rovers rover)
  | .otherToRover _ message _ => Foreign crew message
  | _ => True

/-- An entry that, if it is about a rover of the fleet, is about another one and right. -/
def Located (rover : ι) (id : String) (endpoint : Endpoint) : Prop :=
  ∀ other, id = crew.id other → other ≠ rover ∧ endpoint = crew.endpoint other

/-- The table of one rover and what its owner is about to hear. -/
structure Charted (rover : ι) (panel : Rover.Panel) : Prop where
  table : ∀ id endpoint, panel.discoveredRovers id = some endpoint → Located crew rover id endpoint
  notices : ∀ entry ∈ panel.notices, Located crew rover entry.1 entry.2

structure Sound (s : Fleet ι) : Prop where
  stationId : s.base.stationId = crew.stationId
  valid : BaseStation.Valid s.base
  foreign : ∀ entry ∈ s.base.manager.sent, Foreign crew entry.1
  authored : ∀ rover, Rover.Authored (crew.id rover) (s.rovers rover)
  charted : ∀ rover, Charted crew rover (s.rovers rover).panel

variable {crew}

theorem Charted.noted {rover : ι} {s : Rover} (charted : Charted crew rover s.panel) (id : String)
    (endpoint : Endpoint) (located : Located crew rover id endpoint) :
    Charted crew rover { s.panel with
      discoveredRovers := Function.update s.discoveredRovers id (some endpoint)
      notices := s.panel.notices ++ s.news id endpoint } where
  table := by
    intro other place found
    by_cases same : other = id
    · subst same
      cases (Function.update_self (f := s.discoveredRovers) ..).symm.trans found
      exact located
    · exact charted.table other place ((Function.update_of_ne same _ _).symm.trans found)
  notices := by
    intro entry member
    rcases List.mem_append.mp member with earlier | now
    · exact charted.notices entry earlier
    · simp only [Rover.news] at now
      split at now
      · rw [List.mem_singleton.mp now]
        exact located
      · cases now

/-- A step keeps the table right if the announcement it takes note of is. -/
theorem Charted.step {rover : ι} {s : Rover} (charted : Charted crew rover s.panel)
    (input : Rover.Input)
    (located : ∀ message sender, input = .route message sender → s.Announces message →
      Located crew rover message.sender sender) :
    Charted crew rover (s.step codec input).panel := by
  have changes := Rover.step_changes codec s input
  generalize (s.step codec input).panel = next at changes ⊢
  cases changes with
  | notes message sender announces =>
    exact charted.noted message.sender sender (located message sender rfl announces)
  | tells position =>
    refine ⟨charted.table,fun entry member => charted.notices entry ?_⟩
    exact ((List.eraseIdx_sublist _ _).filterMap _).subset member
  | stops => exact ⟨nofun,charted.notices⟩
  | _ => exact ⟨charted.table,charted.notices⟩

/-- The base station does something by itself or receives a message. -/
theorem Sound.baseSteps {s : Fleet ι} (apart : ∀ rover, crew.id rover ≠ crew.stationId)
    (sound : Sound crew s) (input : BaseStation.Input) (spoken : input.Speaks (Foreign crew) s.base) :
    Sound crew { s with base := s.base.step codec input } := by
  have own (message : Message) (signed : message.sender = s.base.stationId) :
      Foreign crew message := by
    intro rover same
    exact apart rover (same.symm.trans (signed.trans sound.stationId))
  obtain ⟨stationId,more,sent,foreign⟩ :=
    s.base.step_sendsSigned codec input sound.valid own spoken
  refine ⟨stationId.trans sound.stationId,
    (BaseStation.step_session codec s.base input sound.valid).2,?_,sound.authored,sound.charted⟩
  rw [sent]
  intro entry member
  rcases List.mem_append.mp member with earlier | now
  · exact sound.foreign entry earlier
  · exact foreign entry now

theorem Sound.baseReceives {s : Fleet ι} (apart : ∀ rover, crew.id rover ≠ crew.stationId)
    (sound : Sound crew s) (message : Message) (sender : Endpoint) :
    Sound crew (s.baseReceives codec message sender) := by
  simp only [Fleet.baseReceives]
  split
  · exact sound.baseSteps codec apart (.route message sender) trivial
  · exact sound

theorem started_sound (baseClock : Clock) (roverClock : ι → Clock) :
    Sound crew (started codec crew baseClock roverClock) where
  stationId := rfl
  valid := BaseStation.started_valid _ _
  foreign := nofun
  authored := fun rover => Rover.started_authored codec _ _ _
  charted := by
    intro rover
    have fresh := Rover.started_panel codec (crew.id rover) crew.base (roverClock rover)
    simp only [started,fresh]
    exact ⟨nofun,nofun⟩

variable [DecidableEq ι]

theorem Sound.setRover {s : Fleet ι} (sound : Sound crew s) (rover : ι) (state : Rover)
    (authored : Rover.Authored (crew.id rover) state) (charted : Charted crew rover state.panel) :
    Sound crew (s.setRover rover state) where
  stationId := sound.stationId
  valid := sound.valid
  foreign := sound.foreign
  authored := by
    intro other
    by_cases same : other = rover
    · subst same
      simpa [Fleet.setRover] using authored
    · simpa [Fleet.setRover,Function.update_of_ne same] using sound.authored other
  charted := by
    intro other
    by_cases same : other = rover
    · subst same
      simpa [Fleet.setRover] using charted
    · simpa [Fleet.setRover,Function.update_of_ne same] using sound.charted other

theorem Sound.roverSteps {s : Fleet ι} (sound : Sound crew s) (rover : ι) (input : Rover.Input)
    (spoken : input.Speaks (·.sender = crew.id rover) (s.rovers rover))
    (truthful : ∀ message sender, input = .route message sender →
      ∀ other, message.sender = crew.id other → sender = crew.endpoint other) :
    Sound crew (s.setRover rover ((s.rovers rover).step codec input)) := by
  have authored := sound.authored rover
  apply sound.setRover
  · exact Rover.step_authored codec _ input authored spoken
  · apply (sound.charted rover).step
    intro message sender routed announces other signed
    refine ⟨?_,truthful message sender routed other signed⟩
    rintro rfl
    exact announces.2.1 (signed.trans authored.roverId.symm)

theorem Sound.roverReceives {s : Fleet ι} (sound : Sound crew s) (target : ι) (message : Message)
    (sender : Endpoint)
    (truthful : ∀ other, message.sender = crew.id other → sender = crew.endpoint other) :
    Sound crew (s.roverReceives codec target message sender) := by
  simp only [Fleet.roverReceives]
  split
  · apply sound.roverSteps codec target (.route message sender) trivial
    rintro _ _ ⟨⟩
    exact truthful
  · exact sound

theorem step_sound (apart : ∀ rover, crew.id rover ≠ crew.stationId) (s : Fleet ι) (input : Input ι)
    (sound : Sound crew s) (honest : Honest crew s input) :
    Sound crew (s.step codec crew input) := by
  cases input with
  | base input => exact sound.baseSteps codec apart input honest.2
  | rover rover input =>
    apply sound.roverSteps codec rover input honest.2
    intro message sender routed
    exact absurd routed (honest.1 message sender)
  | toBase source position =>
    simp only [step]
    split
    · exact sound.baseReceives codec apart _ _
    · exact sound
  | toRover target position =>
    simp only [step]
    split
    · next message found =>
      apply sound.roverReceives
      intro other signed
      exact absurd signed (sound.foreign _ (System.copyFor_mem found) other)
    · exact sound
  | between source target position =>
    simp only [step]
    split
    · next message found =>
      apply sound.roverReceives
      intro other signed
      have author := (sound.authored source).sent _ (System.copyFor_mem found)
      rw [crew.distinctIds (author.symm.trans signed)]
    · exact sound
  | otherToBase message sender => exact sound.baseReceives codec apart message sender
  | otherToRover target message sender =>
    apply sound.roverReceives
    intro other signed
    exact absurd signed (honest other)

theorem run_sound (apart : ∀ rover, crew.id rover ≠ crew.stationId) (s : Fleet ι)
    (inputs : List (Input ι)) (sound : Sound crew s)
    (honest : Guarded (step codec crew) (Honest crew) s inputs) :
    Sound crew (run (step codec crew) s inputs) :=
  always_of_guarded (step codec crew)
    (fun s input sound honest => step_sound codec apart s input sound honest) s inputs sound honest
    inputs (List.prefix_refl inputs)

/-- What a rover knows of the others, and what its owner is about to hear of them, is true: no
rover of the fleet is known at another rover's endpoint, and none discovers itself. -/
theorem discovered_rovers_are_where_they_are (apart : ∀ rover, crew.id rover ≠ crew.stationId)
    (baseClock : Clock) (roverClock : ι → Clock) (inputs : List (Input ι))
    (honest : Guarded (step codec crew) (Honest crew) (started codec crew baseClock roverClock) inputs)
    (rover other : ι) (endpoint : Endpoint) :
    let s := (run (step codec crew) (started codec crew baseClock roverClock) inputs).rovers rover
    s.discoveredRovers (crew.id other) = some endpoint ∨
        .discovery (crew.id other) endpoint ∈ s.posted →
      other ≠ rover ∧ endpoint = crew.endpoint other := by
  intro s known
  have charted := (run_sound codec apart _ inputs (started_sound codec baseClock roverClock)
    honest).charted rover
  rcases known with listed | queued
  · exact charted.table _ _ listed other rfl
  · exact charted.notices (crew.id other,endpoint) (List.mem_filterMap.mpr ⟨_,queued,rfl⟩) other rfl

theorem sampleCrew_apart (rover : Bool) : sampleCrew.id rover ≠ sampleCrew.stationId := by
  cases rover <;> decide

/-- The first rover scans, the second answers and the answer arrives. -/
def firstScan : List (Input Bool) :=
  [.rover false (.scanForRovers 9001 ""),.between false true 2,.between true false 1]

theorem firstScan_finds_only_second :
    let s := (run (step .silent sampleCrew) (started .silent sampleCrew ⟨0,0⟩ fun _ => ⟨0,0⟩)
      firstScan).rovers false
    s.discoveredRovers "rover-b" = some ⟨0x0aed0003,9001⟩ ∧ s.discoveredRovers "rover-a" = none := by
  intro s
  have honest : Guarded (step .silent sampleCrew) (Honest sampleCrew)
      (started .silent sampleCrew ⟨0,0⟩ fun _ => ⟨0,0⟩) firstScan :=
    (guarded_cons ..).mpr ⟨⟨by simp,trivial⟩,(guarded_cons ..).mpr ⟨trivial,(guarded_cons ..).mpr
      ⟨trivial,guarded_nil _ _ _⟩⟩⟩
  have right := discovered_rovers_are_where_they_are .silent sampleCrew_apart ⟨0,0⟩
    (fun _ => ⟨0,0⟩) firstScan honest false
  refine ⟨by decide +kernel,?_⟩
  cases own : s.discoveredRovers "rover-a" with
  | none => rfl
  | some endpoint => exact absurd rfl (right false endpoint (Or.inl own)).1

/-! ### A scan finds the rovers in its range -/

end Fleet

end Lumen
