import Lumen.RoundPhases

/-! When the handshake timer fires, one lossless round completes the handshake, with two
exceptions: the base station has confirmed the session before, or the rover cannot tell the
base station's messages from its own. -/
namespace Lumen

open Message

namespace Round

variable (codec : Codec) {parties : Parties}

/-! ### The timer fires -/

section Fired

variable (s : System) (agreed : System.Agreed parties s) (during : s.rover.handshaking)
  (left : s.rover.handshakeRetryCount < Rover.maxHandshakeRetries)

include agreed during

theorem up_of_handshaking : s.rover.Up := by
  apply agreed.rover.live.resolve_right
  intro down
  rcases during with state | state <;> cases down.sessionState.symm.trans state

include left

theorem fired_rover :
    (fired codec s).system.rover.sessionState = s.rover.sessionState ∧
      (fired codec s).system.rover.manager.sent = s.rover.manager.sent ++
        [(s.rover.message (.command s.rover.repeated s.rover.roverId),parties.base)] :=
  (Rover.handleHandshakeTimer_sent codec s.rover (up_of_handshaking s agreed during)
    agreed.rover.registered during left).2

theorem fired_sound : Sound parties (fired codec s) := by
  have up := up_of_handshaking s agreed during
  obtain ⟨steady,state,_⟩ := Rover.handleHandshakeTimer_sent codec s.rover up
    agreed.rover.registered during left
  exact {
    agreed := agreed.roverAlone ⟨steady,Or.inl state⟩
    up := steady.up up
    toBase := steady.sent.length_le
    toRover := Nat.le_refl _ }

/-- The retry fits the base station's state, unless that is already in session while the rover
still waits for the confirmation. -/
theorem fired_onTrack (ours : Ours parties s.base.session)
    (open_ : ¬ (s.rover.sessionState = .handshakeAccept ∧ s.base.sessionState = .active)) :
    OnTrack parties (fired codec s) := by
  obtain ⟨state,sent⟩ := fired_rover codec s agreed during left
  have pending (name : String) (named : s.rover.repeated = name) :
      Pending parties.base (fired codec s).system.rover.manager.sent (fired codec s).toBase name := by
    rw [sent]
    exact pending_fresh _ (Nat.le_refl _) (decide_eq_true named)
  refine ⟨fired_sound codec s agreed during left,ours,?_⟩
  rw [state]
  rcases during with asking | accepting
  · have init := pending "SESSION_INIT" (if_pos asking)
    rcases ours with idle | waiting | established
    · exact idle ▸ ⟨asking,init⟩
    · exact waiting ▸ Or.inl ⟨asking,Or.inr init⟩
    · exact established ▸ Or.inr (Or.inr init)
  · have confirm := pending "SESSION_CONFIRM" (if_neg (by simp [accepting]))
    rcases ours with idle | waiting | established
    · exact absurd idle (agreed.accepting accepting)
    · exact waiting ▸ Or.inr ⟨accepting,confirm⟩
    · exact absurd ⟨accepting,((BaseStation.established_iff _ _).mp established).1⟩ open_

end Fired

/-! ### When the round fails -/

/-- A rover with the base station's name drops every command of the base station. -/
theorem toRover_deaf (same : parties.stationId = parties.roverId) (s : System) (position : Nat)
    (agreed : System.Agreed parties s) (up : s.rover.Up) :
    (s.step codec parties (.toRover position)).rover.sessionState = s.rover.sessionState := by
  rcases toRover_cases codec parties s position up with ⟨_,unmoved⟩ | ⟨message,found,moved⟩
  · rw [unmoved]
  · have own (handshake : message.isHandshake = true) : message.sender = s.rover.roverId :=
      (agreed.base.answered _ (System.copyFor_mem found) handshake).1.trans
        (same.trans agreed.rover.roverId.symm)
    rw [moved]
    rcases Rover.routeMessage_cases codec plain_self s.rover message parties.base with
      ⟨from_,_⟩ | ⟨from_,_⟩ | quiet
    · exact absurd (own (by simp [isHandshake,from_.2.2])) from_.1
    · exact absurd (own (by simp [isHandshake,from_.2.2])) from_.1
    · exact quiet.sessionState

theorem step_deaf (same : parties.stationId = parties.roverId) (r : Round) (event : Event)
    (sound : Sound parties r) (fair : Fair r event) :
    (r.step codec parties event).system.rover.sessionState = r.system.rover.sessionState := by
  have toBase (position : Nat) := congrArg Rover.sessionState
    (toBase_rover codec parties r.system position sound.agreed.base.up)
  have toRover (position : Nat) := toRover_deaf codec same r.system position sound.agreed sound.up
  cases event with
  | newToBase => exact toBase r.toBase
  | newToRover => exact toRover r.toRover
  | other input =>
    cases input with
    | toBase position => exact toBase position
    | toRover position => exact toRover position
    | base input => rfl
    | rover input =>
      exact (Rover.step_quiet codec plain_self r.system.rover input fair.1 fair.2).sessionState
    | otherToBase | otherToRover => cases fair

section Fails

variable (s : System) (agreed : System.Agreed parties s) (during : s.rover.handshaking)
  (left : s.rover.handshakeRetryCount < Rover.maxHandshakeRetries)

include agreed during left

theorem not_completes_deaf (same : parties.stationId = parties.roverId) :
    ¬ Completes codec parties s := by
  intro completes
  obtain ⟨events,guarded,complete⟩ := (completes [] (Machine.guarded_nil _ _ _)).1
  have reached := ((completes _ guarded).2 complete).1
  have kept := @Machine.always_of_guarded _ _ (step codec parties)
    (fun r => Sound parties r ∧ r.system.rover.sessionState = s.rover.sessionState) Fair
    (fun r event ⟨sound,state⟩ fair =>
      ⟨step_sound codec r event sound fair,(step_deaf codec same r event sound fair).trans state⟩)
    (fired codec s) ([] ++ events)
    ⟨fired_sound codec s agreed during left,(fired_rover codec s agreed during left).1⟩ guarded
    _ (List.prefix_refl _)
  rcases during with state | state <;> cases reached.symm.trans (kept.2.trans state)

/-- The base station in session does not answer a repeated confirmation. -/
theorem not_completes_confirmed
    (accepting : s.rover.sessionState = .handshakeAccept) (active : s.base.sessionState = .active) :
    ¬ Completes codec parties s := by
  intro completes
  obtain ⟨state,sent⟩ := fired_rover codec s agreed during left
  have total : (fired codec s).system.rover.manager.sent.length =
      (fired codec s).toBase + 1 := by
    rw [sent,List.length_append]
    rfl
  have fair : Fair (fired codec s) .newToBase := by
    simp only [Fair]
    omega
  have confirm : (s.rover.message (.command s.rover.repeated s.rover.roverId)).isCommand
      "SESSION_CONFIRM" = true := decide_eq_true (if_neg (by simp [accepting]))
  have unasked (peer : Peer) : s.base.session ≠ .offered peer := by
    simp [BaseStation.session,active]
  have unmoved : ((fired codec s).step codec parties .newToBase).system =
      (fired codec s).system := by
    rcases toBase_cases codec parties (fired codec s).system (fired codec s).toBase
      agreed.base.up with ⟨_,same⟩ | ⟨message,found,moved⟩
    · exact same
    · have here := System.copyFor_eq_some.mp found
      have last : (fired codec s).toBase = s.rover.manager.sent.length := rfl
      rw [sent,last,List.getElem?_concat_length] at here
      cases here
      have dropped := BaseStation.routeMessage_confirm codec (fired codec s).system.base _
        parties.rover confirm (unasked _)
      refine moved.trans ?_
      rw [dropped]
  have complete : Complete ((fired codec s).step codec parties .newToBase) := by
    rw [Complete,unmoved]
    exact ⟨total.symm,rfl⟩
  have reached := ((completes [.newToBase] ((Machine.guarded_cons _ _ _ _ _).mpr
    ⟨fair,Machine.guarded_nil _ _ _⟩)).2 complete).1
  rw [Machine.run_cons,Machine.run_nil,unmoved,state,accepting] at reached
  cases reached

end Fails

/-- The station knows nobody else when its state is inactive or it knows the rover's id. -/
theorem ours_of_fields (s : System) (agreed : System.Agreed parties s)
    (free : s.base.sessionState = .inactive ∨ s.base.connectedRoverId = parties.roverId) :
    Ours parties s.base.session := by
  cases state : s.base.sessionState with
  | inactive => exact Or.inl (by rw [BaseStation.session,state])
  | handshakeInit => exact absurd state agreed.base.valid.entered
  | handshakeAccept =>
    have known := free.resolve_left (by simp [state])
    have held : s.base.session.peer? = some ⟨s.base.connectedRoverId,s.base.roverEndpoint⟩ := by
      rw [BaseStation.session,state]
      rfl
    have place := (agreed.base.distinct _ held).mp known
    exact Or.inr (Or.inl ((BaseStation.offered_iff _ _).mpr ⟨state,known,place⟩))
  | active =>
    have known := free.resolve_left (by simp [state])
    have held : s.base.session.peer? = some ⟨s.base.connectedRoverId,s.base.roverEndpoint⟩ := by
      rw [BaseStation.session,state]
      rfl
    have place := (agreed.base.distinct _ held).mp known
    exact Or.inr (Or.inr ((BaseStation.established_iff _ _).mpr ⟨state,known,place⟩))

/-- In every reachable state in which the rover sets up a session with retries left, and the
base station is not taken by another rover: the round completes if and only if the rover can
tell the base station from itself, and does not wait for a confirmation that the base station
has already given. -/
theorem completes_iff (baseClock roverClock : Clock) (inputs : List System.Input)
    (admissible : Machine.Guarded (System.step codec parties) (System.Admissible parties)
      (System.started codec parties baseClock roverClock) inputs) :
    let s := Machine.run (System.step codec parties)
      (System.started codec parties baseClock roverClock) inputs
    s.rover.handshaking → s.rover.handshakeRetryCount < Rover.maxHandshakeRetries →
      (s.base.sessionState = .inactive ∨ s.base.connectedRoverId = parties.roverId) →
      (Completes codec parties s ↔ parties.stationId ≠ parties.roverId ∧
        ¬ (s.rover.sessionState = .handshakeAccept ∧ s.base.sessionState = .active)) := by
  intro s during left free
  have agreed : System.Agreed parties s :=
    System.run_agreed codec baseClock roverClock inputs admissible
  have ours := ours_of_fields s agreed free
  constructor
  · intro completes
    refine ⟨fun same => not_completes_deaf codec s agreed during left same completes,?_⟩
    rintro ⟨accepting,active⟩
    exact not_completes_confirmed codec s agreed during left accepting active completes
  · rintro ⟨distinct,open_⟩ events guarded
    have track : OnTrack parties (Machine.run (step codec parties) (fired codec s) events) :=
      Machine.always_of_guarded (step codec parties) (step_onTrack codec distinct) _ events
        (fired_onTrack codec s agreed during left ours open_) guarded events (List.prefix_refl _)
    obtain ⟨more,fair,complete⟩ := canComplete codec _ track.sound
    refine ⟨⟨more,(Machine.guarded_append _ _ _ _ _).mpr ⟨guarded,fair⟩,?_⟩,
      connected_of_complete _ track⟩
    rw [Machine.run_append]
    exact complete

/-- Right after both parties started one round is enough. -/
theorem started_completes :
    Completes .silent System.sampleParties
      (System.started .silent System.sampleParties ⟨0,0⟩ ⟨0,0⟩) :=
  (completes_iff .silent ⟨0,0⟩ ⟨0,0⟩ [] (Machine.guarded_nil _ _ _) (Or.inl (by decide +kernel))
    (by decide +kernel) (Or.inl rfl)).mpr ⟨by decide,fun both => by cases both.2⟩

/-- The last message of the first handshake is lost. -/
def lostEstablished : List System.Input := [.toBase 0,.toRover 0,.toBase 1]

/-- The base station drops the repeated SESSION_CONFIRM, and the rover stays in
HANDSHAKE_ACCEPT. -/
theorem lostEstablished_blocks_round :
    let s := Machine.run (System.step .silent System.sampleParties)
      (System.started .silent System.sampleParties ⟨0,0⟩ ⟨0,0⟩) lostEstablished
    Machine.Guarded (System.step .silent System.sampleParties)
        (System.Admissible System.sampleParties)
        (System.started .silent System.sampleParties ⟨0,0⟩ ⟨0,0⟩) lostEstablished ∧
      s.rover.handshaking ∧ s.rover.handshakeRetryCount < Rover.maxHandshakeRetries ∧
      s.base.connectedRoverId = "rover-a" ∧ ¬ Completes .silent System.sampleParties s := by
  intro s
  have admissible := @System.deliveries_admissible .silent System.sampleParties
    (System.started .silent System.sampleParties ⟨0,0⟩ ⟨0,0⟩) lostEstablished (by decide)
  have accepting : s.rover.sessionState = .handshakeAccept := by decide +kernel
  have left : s.rover.handshakeRetryCount < Rover.maxHandshakeRetries := by decide +kernel
  refine ⟨admissible,Or.inr accepting,left,by decide +kernel,?_⟩
  exact not_completes_confirmed .silent s (System.run_agreed .silent ⟨0,0⟩ ⟨0,0⟩ _ admissible)
    (Or.inr accepting) left accepting (by decide +kernel)

end Round

end Lumen
