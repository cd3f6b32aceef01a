import Lumen.Lifecycle

/-! Where the rover is sent and when it arrives. A target is taken from a command of the base
station, replaces the one before it, and is dropped when the rover gets near it. -/
namespace Lumen.Rover

open Machine

variable (codec : Codec)

/-- The target that a command of the base station sets; a near one is none. -/
def commanded (s : Rover) (params : String) : List Coordinate :=
  match parseCoordinates codec params with
  | [latitude,longitude] =>
    if calculateDistance s.currentCoordinate ⟨latitude,longitude⟩ > targetReachedThresholdMeters
    then [⟨latitude,longitude⟩] else []
  | _ => []

/-- The target taken in a step. -/
def targeted (s : Rover) : Input → List Coordinate
  | .route message sender =>
    match message.content with
    | .command command params =>
      if message.sender ≠ s.roverId ∧ command = "SET_TARGET_COORD" ∧
          s.getBaseEndpoint = some sender then s.commanded codec params else []
    | _ => []
  | _ => []

/-- The target reached in a step, which is when the arrival is reported. -/
def reached (s : Rover) : Input → List Coordinate
  | .expire .movement =>
    if s.movementTimer then
      s.targetCoordinate.toList.filter fun target =>
        calculateDistance s.currentCoordinate target ≤ targetReachedThresholdMeters
    else []
  | _ => []

/-- What a step does to the target: a new one is taken, it is dropped, or it is kept. -/
inductive Steers (s : Rover) (taken : List Coordinate) (target : Option Coordinate) : Prop where
  | takes (aim : Coordinate) (new : taken = [aim]) (set : target = some aim)
  | drops (nothing : taken = []) (unset : target = none)
  | keeps (nothing : taken = []) (same : target = s.targetCoordinate)

theorem setTarget_steers (s : Rover) (params : String) :
    Steers s (s.commanded codec params) (s.setTarget codec params).targetCoordinate := by
  unfold commanded setTarget
  generalize parseCoordinates codec params = coordinates
  match coordinates with
  | [latitude,longitude] =>
    by_cases far : calculateDistance s.currentCoordinate ⟨latitude,longitude⟩ >
        targetReachedThresholdMeters
    · simp only [if_pos far]
      exact .takes _ rfl rfl
    · simp only [if_neg far]
      exact .drops rfl rfl
  | [] => exact .keeps rfl rfl
  | [_] => exact .keeps rfl rfl
  | _ :: _ :: _ :: _ => exact .keeps rfl rfl

theorem internal_steers (s : Rover) (command params : String) :
    Steers s (if command = "SET_TARGET_COORD" then s.commanded codec params else [])
      (s.handleInternalCommand codec command params).targetCoordinate := by
  by_cases target : command = "SET_TARGET_COORD"
  · rw [if_pos target,target]
    exact setTarget_steers codec s params
  · rw [if_neg target]
    refine .keeps rfl ?_
    simp only [handleInternalCommand,if_neg target]
    split
    · exact congrArg Panel.targetCoordinate (handleSessionAccept_panel codec s)
    · split
      · have reading := congrArg Panel.targetCoordinate (handleSessionEstablished_panel codec s)
        split at reading <;> exact reading
      · split <;> rfl

theorem routeMessage_steers (s : Rover) (message : Message) (sender : Endpoint) :
    Steers s (s.targeted codec (.route message sender))
      (s.routeMessage codec message sender).targetCoordinate := by
  obtain ⟨id,timestamp,content⟩ := message
  by_cases own : id = s.roverId
  · have nothing : s.targeted codec (.route ⟨id,timestamp,content⟩ sender) = [] := by
      cases content <;> simp [targeted,own]
    refine .keeps nothing ?_
    simp only [routeMessage,if_pos own]
  · cases content with
    | basic | telemetry | status =>
      simp only [routeMessage,if_neg own,targeted]
      exact .keeps rfl (congrArg Panel.targetCoordinate (handUp_panel s _ sender))
    | command command params =>
      simp only [routeMessage,targeted,ne_eq,own,not_false_eq_true,true_and,if_false]
      by_cases base : isBaseCommand command = true
      · rw [if_pos base]
        by_cases registered : s.getBaseEndpoint = some sender
        · simp only [registered,and_true,if_true]
          exact internal_steers codec s command params
        · simp only [registered,and_false,if_false]
          exact .keeps rfl rfl
      · have other : command ≠ "SET_TARGET_COORD" := by
          rintro rfl
          exact base (by decide)
        rw [if_neg base,if_neg fun both => other both.1]
        refine .keeps rfl ?_
        split
        · split
          · have reading := congrArg Panel.targetCoordinate
              (handleDiscoveryCommand_panel s command id sender)
            split at reading <;> exact reading
          · rfl
        · exact congrArg Panel.targetCoordinate (handUp_panel s _ sender)

/-- An arrival is at the target, and drops it. -/
theorem expire_steers (s : Rover) :
    (s.reached (.expire .movement) = [] ∧
      ((s.expire codec .movement).targetCoordinate = s.targetCoordinate)) ∨
    ∃ target, s.targetCoordinate = some target ∧ s.reached (.expire .movement) = [target] ∧
      (s.expire codec .movement).targetCoordinate = none := by
  by_cases pending : s.movementTimer = true
  · simp only [expire,reached,if_pos pending]
    rcases handleMovementTimer_panel codec { s with movementTimer := false } with
      ⟨same,idle⟩ | ⟨target,aim,near,dropped⟩ | ⟨target,place,aim,away,moved⟩
    · have unset : s.targetCoordinate = none := idle
      refine Or.inl ⟨?_,congrArg Panel.targetCoordinate same⟩
      rw [unset]
      rfl
    · have set : s.targetCoordinate = some target := aim
      refine Or.inr ⟨target,set,?_,congrArg Panel.targetCoordinate dropped⟩
      rw [set]
      exact List.filter_cons_of_pos (decide_eq_true near)
    · have set : s.targetCoordinate = some target := aim
      refine Or.inl ⟨?_,congrArg Panel.targetCoordinate moved⟩
      rw [set]
      exact List.filter_cons_of_neg (by simpa using away)
  · simp only [expire,reached,if_neg pending]
    exact Or.inl ⟨trivial,trivial⟩

/-- Only received messages and the movement timer touch the target. -/
def Input.steers : Input → Bool
  | .route _ _ => true
  | .expire .movement => true
  | _ => false

theorem step_unsteered (s : Rover) (input : Input) (other : input.steers = false) :
    (s.step codec input).targetCoordinate = s.targetCoordinate ∧ s.targeted codec input = [] ∧
      s.reached input = [] := by
  refine ⟨?_,?_,?_⟩
  · have changes := step_changes codec s input
    generalize reading : (s.step codec input).panel = next at changes
    have target : (s.step codec input).targetCoordinate = next.targetCoordinate := by
      rw [← reading]
      rfl
    rw [target]
    cases changes with
    | nothing | telemetry | placed | listens | stops | tells => rfl
    | reports | power | aims | near | notes | rests | arrives | moves => cases other
  · cases input with
    | route => cases other
    | _ => rfl
  · cases input with
    | expire timer =>
      cases timer with
      | movement => cases other
      | _ => rfl
    | _ => rfl

/-- Every step, for the targets taken so far and those reached. -/
theorem step_steered (s : Rover) (input : Input) {taken arrived : List Coordinate}
    (steered : (arrived ++ s.targetCoordinate.toList).Sublist taken) :
    ((arrived ++ s.reached input) ++ (s.step codec input).targetCoordinate.toList).Sublist
      (taken ++ s.targeted codec input) := by
  have before : arrived.Sublist taken := (List.sublist_append_left _ _).trans steered
  have steer (steers : Steers s (s.targeted codec input) (s.step codec input).targetCoordinate)
      (nowhere : s.reached input = []) :
      ((arrived ++ s.reached input) ++ (s.step codec input).targetCoordinate.toList).Sublist
        (taken ++ s.targeted codec input) := by
    rw [nowhere,List.append_nil]
    cases steers with
    | takes aim new set =>
      rw [new,set]
      exact before.append (List.Sublist.refl [aim])
    | drops nothing unset =>
      rw [nothing,unset,Option.toList_none,List.append_nil,List.append_nil]
      exact before
    | keeps nothing same =>
      rw [nothing,same,List.append_nil]
      exact steered
  by_cases other : input.steers = false
  · obtain ⟨same,nothing,nowhere⟩ := step_unsteered codec s input other
    exact steer (.keeps nothing same) nowhere
  · cases input with
    | route message sender => exact steer (routeMessage_steers codec s message sender) rfl
    | expire timer =>
      cases timer with
      | movement =>
        rcases expire_steers codec s with ⟨nowhere,same⟩ | ⟨target,set,here,unset⟩
        · exact steer (.keeps rfl same) nowhere
        · simp only [step,targeted,here,unset,List.append_nil,Option.toList_none]
          rw [set] at steered
          exact steered
      | _ => exact absurd rfl other
    | _ => exact absurd rfl other

theorem run_steered (s : Rover) (inputs : List Input) {taken arrived : List Coordinate}
    (steered : (arrived ++ s.targetCoordinate.toList).Sublist taken) :
    ((arrived ++ trace (step codec) reached s inputs) ++
      (run (step codec) s inputs).targetCoordinate.toList).Sublist
        (taken ++ trace (step codec) (targeted codec) s inputs) := by
  induction inputs generalizing s taken arrived with
  | nil => simpa [trace] using steered
  | cons input rest ih =>
    simpa only [trace,run_cons,List.append_assoc] using ih _ (step_steered codec s input steered)

/-! ### Orders -/

/-- The message orders the rover to head for the target. -/
def Aims (message : Message) (target : Coordinate) : Prop :=
  ∃ params, message.content = .command "SET_TARGET_COORD" params ∧
    parseCoordinates codec params = [target.first,target.second]

theorem commanded_eq {s : Rover} {params : String} {target : Coordinate}
    (new : s.commanded codec params = [target]) :
    parseCoordinates codec params = [target.first,target.second] := by
  simp only [commanded] at new
  split at new
  · next parsed =>
    split at new
    · cases new
      exact parsed
    · cases new
  · cases new

theorem targeted_eq {s : Rover} {message : Message} {sender : Endpoint} {target : Coordinate}
    (new : s.targeted codec (.route message sender) = [target]) :
    s.getBaseEndpoint = some sender ∧ Aims codec message target := by
  simp only [targeted] at new
  split at new
  · next command params content =>
    split at new
    · next ordered =>
      obtain ⟨_,rfl,base⟩ := ordered
      exact ⟨base,params,content,commanded_eq codec new⟩
    · cases new
  · cases new

/-- A rover heads for a target it was heading for, or that the base station just gave it. -/
theorem step_target (s : Rover) (input : Input) (target : Coordinate)
    (aim : (s.step codec input).targetCoordinate = some target) :
    s.targetCoordinate = some target ∨ ∃ message sender, input = .route message sender ∧
      s.getBaseEndpoint = some sender ∧ Aims codec message target := by
  by_cases other : input.steers = false
  · exact Or.inl ((step_unsteered codec s input other).1.symm.trans aim)
  · cases input with
    | route message sender =>
      cases routeMessage_steers codec s message sender with
      | takes given new set =>
        cases set.symm.trans aim
        obtain ⟨base,aims⟩ := targeted_eq codec new
        exact Or.inr ⟨message,sender,rfl,base,aims⟩
      | drops _ unset => cases unset.symm.trans aim
      | keeps _ same => exact Or.inl (same.symm.trans aim)
    | expire timer =>
      cases timer with
      | movement =>
        rcases expire_steers codec s with ⟨_,same⟩ | ⟨_,_,_,unset⟩
        · exact Or.inl (same.symm.trans aim)
        · cases unset.symm.trans aim
      | _ => exact absurd rfl other
    | _ => exact absurd rfl other

/-- Only the base station switches the low power mode. -/
theorem step_power (s : Rover) (input : Input) (low : (s.step codec input).lowPowerMode = true) :
    s.lowPowerMode = true ∨ ∃ message sender, input = .route message sender ∧
      s.getBaseEndpoint = some sender ∧ message.content = .command "SET_LOW_POWER" "1" := by
  have changes := step_changes codec s input
  generalize reading : (s.step codec input).panel = next at changes
  have mode : next.lowPowerMode = true := by
    rw [← reading]
    exact low
  cases changes with
  | power message sender params base command =>
    rw [of_decide_eq_true mode] at command
    exact Or.inr ⟨message,sender,rfl,base,command⟩
  | _ => exact Or.inl mode

/-- A target waits for the movement timer. -/
def Underway (s : Rover) : Prop := s.targetCoordinate.isSome = true → s.movementTimer = true

theorem step_underway (s : Rover) (input : Input) (underway : Underway s) (live : input ≠ .stop) :
    Underway (s.step codec input) := by
  have changes := step_changes codec s input
  generalize reading : (s.step codec input).panel = next at changes
  have both : Underway (s.step codec input) =
      (next.targetCoordinate.isSome = true → next.movementTimer = true) := by rw [← reading]; rfl
  rw [both]
  cases changes with
  | stops => exact absurd rfl live
  | aims => exact fun _ => rfl
  | near | arrives => exact nofun
  | rests pending idle =>
    intro some
    have none : s.targetCoordinate.isSome = true := some
    rw [idle] at none
    cases none
  | _ => exact underway

/-- The rover arrives at targets the base station gave it, in the order in which it gave them and
at each at most once; one that was replaced or dropped before is not reached. Until the rover is
stopped, a target that is set has a movement scheduled. -/
theorem arrivals_follow_commands (roverId : String) (base : Endpoint) (clock : Clock)
    (inputs : List Input) :
    let start := started codec roverId base clock
    let s := run (step codec) start inputs
    (trace (step codec) reached start inputs ++ s.targetCoordinate.toList).Sublist
      (trace (step codec) (targeted codec) start inputs) ∧
    ((∀ input ∈ inputs, input ≠ .stop) → s.targetCoordinate.isSome = true →
      s.movementTimer = true) := by
  intro start s
  have idle : start.targetCoordinate = none :=
    congrArg Panel.targetCoordinate (started_panel codec roverId base clock)
  constructor
  · have steered := @run_steered codec start inputs [] [] (by rw [idle]; exact List.Sublist.refl _)
    rwa [List.nil_append,List.nil_append] at steered
  · intro live
    have underway : Underway start := by
      intro some
      rw [idle] at some
      cases some
    exact always_of_guarded (step codec) (step_underway codec) start inputs underway
      (guarded_of_forall (step codec) _ inputs live) inputs (List.prefix_refl inputs)

end Lumen.Rover
