import Lumen.Handshake

/-! One round of the handshake: the rover's handshake timer fires, and from then on the
network delivers every new message once and in order. Copies of older messages may still
arrive in between, and both parties may go on sending other messages. -/
namespace Lumen

open Message

structure Round where
  system : System
  /-- The position of the next new message in the rover's log and in the base station's. -/
  toBase : Nat
  toRover : Nat
  /-- Where the new messages begin. -/
  firstToBase : Nat
  firstToRover : Nat

namespace Round

variable (codec : Codec) (parties : Parties)

inductive Event where
  | newToBase
  | newToRover
  | other (input : System.Input)

/-- The handshake timer fires; what is sent from here on is new. -/
def fired (s : System) : Round where
  system := { s with rover := (s.rover.setHandshakeTimer false).handleHandshakeTimer codec }
  toBase := s.rover.manager.sent.length
  toRover := s.base.manager.sent.length
  firstToBase := s.rover.manager.sent.length
  firstToRover := s.base.manager.sent.length

def step (r : Round) : Event → Round
  | .newToBase =>
    { r with
      system := r.system.step codec parties (.toBase r.toBase)
      toBase := r.toBase + 1 }
  | .newToRover =>
    { r with
      system := r.system.step codec parties (.toRover r.toRover)
      toRover := r.toRover + 1 }
  | .other input => { r with system := r.system.step codec parties input }

/-- New messages arrive in order; besides, old copies may arrive, and what the parties do on
their own has nothing to do with the session. -/
def Fair (r : Round) : Event → Prop
  | .newToBase => r.toBase < r.system.rover.manager.sent.length
  | .newToRover => r.toRover < r.system.base.manager.sent.length
  | .other (.toBase position) => position < r.firstToBase
  | .other (.toRover position) => position < r.firstToRover
  | .other (.base input) => input.isTraffic = true ∧ input.Speaks Plain r.system.base
  | .other (.rover input) => input.isQuiet = true ∧ input.Speaks Plain r.system.rover
  | .other _ => False

/-- Every new message has been delivered. -/
def Complete (r : Round) : Prop :=
  r.toBase = r.system.rover.manager.sent.length ∧ r.toRover = r.system.base.manager.sent.length

def Connected (s : System) : Prop := s.rover.sessionState = .active ∧ s.base.sessionState = .active

/-- However the deliveries are scheduled, all new messages can be delivered in finitely many
steps, and once they are, both parties are in session. -/
def Completes (s : System) : Prop :=
  ∀ events, Machine.Guarded (step codec parties) Fair (fired codec s) events →
    (∃ more, Machine.Guarded (step codec parties) Fair (fired codec s) (events ++ more) ∧
      Complete (Machine.run (step codec parties) (fired codec s) (events ++ more))) ∧
    (Complete (Machine.run (step codec parties) (fired codec s) events) →
      Connected (Machine.run (step codec parties) (fired codec s) events).system)

/-! ### Every round can be completed -/

/-- What every fair step keeps. -/
structure Sound (r : Round) : Prop where
  agreed : System.Agreed parties r.system
  up : r.system.rover.Up
  toBase : r.toBase ≤ r.system.rover.manager.sent.length
  toRover : r.toRover ≤ r.system.base.manager.sent.length

theorem admissible_of_fair (r : Round) (input : System.Input) (fair : Fair r (.other input)) :
    System.Admissible parties r.system input := by
  cases input with
  | base input => exact fair
  | rover input =>
    refine ⟨?_,fair.2⟩
    rintro message sender rfl
    cases fair.1
  | toBase | toRover => trivial
  | otherToBase | otherToRover => cases fair

/-- A delivery to the base station: nothing for it stands there, or it receives it. -/
theorem toBase_cases (s : System) (position : Nat) (up : s.base.Up) :
    (System.copyFor parties.base s.rover.manager.sent position = none ∧
      s.step codec parties (.toBase position) = s) ∨
    ∃ message, System.copyFor parties.base s.rover.manager.sent position = some message ∧
      s.step codec parties (.toBase position) =
        { s with base := s.base.routeMessage codec message parties.rover } := by
  simp only [System.step]
  split
  · next message found => exact Or.inr ⟨message,found,if_pos up.manager⟩
  · next found => exact Or.inl ⟨found,rfl⟩

theorem toRover_cases (s : System) (position : Nat) (up : s.rover.Up) :
    (System.copyFor parties.rover s.base.manager.sent position = none ∧
      s.step codec parties (.toRover position) = s) ∨
    ∃ message, System.copyFor parties.rover s.base.manager.sent position = some message ∧
      s.step codec parties (.toRover position) =
        { s with rover := s.rover.routeMessage codec message parties.base } := by
  simp only [System.step]
  split
  · next message found => exact Or.inr ⟨message,found,if_pos up.manager⟩
  · next found => exact Or.inl ⟨found,rfl⟩

theorem toBase_rover (s : System) (position : Nat) (up : s.base.Up) :
    (s.step codec parties (.toBase position)).rover = s.rover := by
  rcases toBase_cases codec parties s position up with ⟨_,same⟩ | ⟨_,_,moved⟩
  · rw [same]
  · rw [moved]

theorem toRover_base (s : System) (position : Nat) (up : s.rover.Up) :
    (s.step codec parties (.toRover position)).base = s.base := by
  rcases toRover_cases codec parties s position up with ⟨_,same⟩ | ⟨_,_,moved⟩
  · rw [same]
  · rw [moved]

variable {parties}

/-- The logs only grow, and the rover keeps running. -/
structure Grows (s t : System) : Prop where
  rover : SendsOnly (fun _ => True) s.rover.manager.sent t.rover.manager.sent
  base : SendsOnly (fun _ => True) s.base.manager.sent t.base.manager.sent
  up : s.rover.Up → t.rover.Up

theorem steady_grows (s : System) {rover : Rover} (steady : Rover.Steady s.rover rover) :
    Grows s { s with rover := rover } :=
  ⟨steady.sent.mono fun _ _ => trivial,.refl _,steady.up⟩

theorem toBase_grows (s : System) (position : Nat) (agreed : System.Agreed parties s) :
    Grows s (s.step codec parties (.toBase position)) := by
  rcases toBase_cases codec parties s position agreed.base.up with ⟨_,same⟩ | ⟨message,_,moved⟩
  · rw [same]
    exact ⟨.refl _,.refl _,id⟩
  · rw [moved]
    exact ⟨.refl _,BaseStation.routeMessage_grows codec s.base message _ agreed.base.valid,id⟩

theorem toRover_grows (s : System) (position : Nat) (agreed : System.Agreed parties s)
    (up : s.rover.Up) : Grows s (s.step codec parties (.toRover position)) := by
  rcases toRover_cases codec parties s position up with ⟨_,same⟩ | ⟨message,_,moved⟩
  · rw [same]
    exact ⟨.refl _,.refl _,id⟩
  · rw [moved]
    exact steady_grows s (Rover.routeMessage_steady codec s.rover message _ agreed.rover.stored)

theorem other_grows (r : Round) (input : System.Input) (sound : Sound parties r)
    (fair : Fair r (.other input)) : Grows r.system (r.system.step codec parties input) := by
  cases input with
  | base input =>
    have sent := BaseStation.step_sendsOnly codec plain_self r.system.base input
      fair.1 fair.2
    exact ⟨.refl _,sent.mono fun _ _ => trivial,id⟩
  | rover input =>
    have quiet := Rover.step_quiet codec plain_self r.system.rover input fair.1
      fair.2
    exact steady_grows r.system quiet.steady
  | toBase position => exact toBase_grows codec r.system position sound.agreed
  | toRover position => exact toRover_grows codec r.system position sound.agreed sound.up
  | otherToBase | otherToRover => cases fair

theorem step_sound (r : Round) (event : Event) (sound : Sound parties r) (fair : Fair r event) :
    Sound parties (r.step codec parties event) := by
  cases event with
  | newToBase =>
    have grows := toBase_grows codec r.system r.toBase sound.agreed
    exact {
      agreed := System.step_agreed codec r.system (.toBase r.toBase) sound.agreed trivial
      up := grows.up sound.up
      toBase := Nat.le_trans fair grows.rover.length_le
      toRover := Nat.le_trans sound.toRover grows.base.length_le }
  | newToRover =>
    have grows := toRover_grows codec r.system r.toRover sound.agreed sound.up
    exact {
      agreed := System.step_agreed codec r.system (.toRover r.toRover) sound.agreed trivial
      up := grows.up sound.up
      toBase := Nat.le_trans sound.toBase grows.rover.length_le
      toRover := Nat.le_trans fair grows.base.length_le }
  | other input =>
    have grows := other_grows codec r input sound fair
    exact {
      agreed := System.step_agreed codec r.system input sound.agreed
        (admissible_of_fair parties r input fair)
      up := grows.up sound.up
      toBase := Nat.le_trans sound.toBase grows.rover.length_le
      toRover := Nat.le_trans sound.toRover grows.base.length_le }

variable (parties) in
/-- The state after some new messages were delivered to the base station: what it sent
meanwhile is limited. -/
structure BaseHeard (answer : Message → Prop) (r t : Round) : Prop where
  sound : Sound parties t
  rover : t.system.rover = r.system.rover
  toRover : t.toRover = r.toRover
  started : r.toBase ≤ t.toBase
  sent : SendsOnly answer r.system.base.manager.sent t.system.base.manager.sent

/-- Everything new for the base station can be delivered. -/
theorem drain_toBase {asked answer : Message → Prop}
    (answers : ∀ (base : BaseStation) (message : Message), base.Valid → asked message →
      SendsOnly answer base.manager.sent
        (base.routeMessage codec message parties.rover).manager.sent)
    (r : Round) (sound : Sound parties r)
    (pending : ∀ position entry, r.toBase ≤ position →
      r.system.rover.manager.sent[position]? = some entry → asked entry.1) :
    ∃ events, Machine.Guarded (step codec parties) Fair r events ∧
      let t := Machine.run (step codec parties) r events
      BaseHeard parties answer r t ∧ t.toBase = t.system.rover.manager.sent.length := by
  have exhausted := @Machine.exhaust _ _ (step codec parties) (BaseHeard parties answer r) Fair
    Event.newToBase (fun t => r.system.rover.manager.sent.length - t.toBase) ?_ r
    ⟨sound,rfl,rfl,Nat.le_refl _,.refl _⟩
  · obtain ⟨events,guarded,heard,left⟩ := exhausted
    have bound := heard.sound.toBase
    refine ⟨events,guarded,heard,?_⟩
    rw [heard.rover] at bound ⊢
    omega
  · intro t heard more
    have fair : Fair t .newToBase := by
      simp only [Fair,heard.rover]
      omega
    have rover := toBase_rover codec parties t.system t.toBase heard.sound.agreed.base.up
    refine ⟨fair,⟨step_sound codec t .newToBase heard.sound fair,rover.trans heard.rover,
      heard.toRover,Nat.le_succ_of_le heard.started,heard.sent.trans ?_⟩,?_⟩
    · simp only [step]
      rcases toBase_cases codec parties t.system t.toBase heard.sound.agreed.base.up with
        ⟨_,same⟩ | ⟨message,found,moved⟩
      · rw [same]
        exact .refl _
      · have here := System.copyFor_eq_some.mp found
        rw [heard.rover] at here
        rw [moved]
        exact answers _ _ heard.sound.agreed.base.valid (pending _ _ heard.started here)
    · simp only [step]
      omega

variable (parties) in
/-- The state after some new messages were delivered to the rover. -/
structure RoverHeard (answer : Message → Prop) (r t : Round) : Prop where
  sound : Sound parties t
  base : t.system.base = r.system.base
  toBase : t.toBase = r.toBase
  started : r.toRover ≤ t.toRover
  sent : SendsOnly answer r.system.rover.manager.sent t.system.rover.manager.sent

/-- Everything new for the rover can be delivered. -/
theorem drain_toRover {asked answer : Message → Prop}
    (answers : ∀ (rover : Rover) (message : Message),
      (∀ packet ∈ rover.storedPackets, packet.message.Plain) → asked message →
      SendsOnly answer rover.manager.sent
        (rover.routeMessage codec message parties.base).manager.sent)
    (r : Round) (sound : Sound parties r)
    (pending : ∀ position entry, r.toRover ≤ position →
      r.system.base.manager.sent[position]? = some entry → asked entry.1) :
    ∃ events, Machine.Guarded (step codec parties) Fair r events ∧
      let t := Machine.run (step codec parties) r events
      RoverHeard parties answer r t ∧ t.toRover = t.system.base.manager.sent.length := by
  have exhausted := @Machine.exhaust _ _ (step codec parties) (RoverHeard parties answer r) Fair
    Event.newToRover (fun t => r.system.base.manager.sent.length - t.toRover) ?_ r
    ⟨sound,rfl,rfl,Nat.le_refl _,.refl _⟩
  · obtain ⟨events,guarded,heard,left⟩ := exhausted
    have bound := heard.sound.toRover
    refine ⟨events,guarded,heard,?_⟩
    rw [heard.base] at bound ⊢
    omega
  · intro t heard more
    have fair : Fair t .newToRover := by
      simp only [Fair,heard.base]
      omega
    have base := toRover_base codec parties t.system t.toRover heard.sound.up
    refine ⟨fair,⟨step_sound codec t .newToRover heard.sound fair,base.trans heard.base,
      heard.toBase,Nat.le_succ_of_le heard.started,heard.sent.trans ?_⟩,?_⟩
    · simp only [step]
      rcases toRover_cases codec parties t.system t.toRover heard.sound.up with
        ⟨_,same⟩ | ⟨message,found,moved⟩
      · rw [same]
        exact .refl _
      · have here := System.copyFor_eq_some.mp found
        rw [heard.base] at here
        rw [moved]
        exact answers _ _ heard.sound.agreed.rover.stored (pending _ _ heard.started here)
    · simp only [step]
      omega

variable (parties) in
def CanComplete (r : Round) : Prop :=
  ∃ events, Machine.Guarded (step codec parties) Fair r events ∧
    Complete (Machine.run (step codec parties) r events)

theorem canComplete_after (r : Round) (events : List Event)
    (guarded : Machine.Guarded (step codec parties) Fair r events)
    (later : CanComplete codec parties (Machine.run (step codec parties) r events)) :
    CanComplete codec parties r := by
  obtain ⟨more,fair,complete⟩ := later
  refine ⟨events ++ more,(Machine.guarded_append _ _ _ _ _).mpr ⟨guarded,fair⟩,?_⟩
  rw [Machine.run_append]
  exact complete

/-- Messages outside the handshake are not answered. -/
theorem canComplete_plain (r : Round) (sound : Sound parties r)
    (heard : r.toRover = r.system.base.manager.sent.length)
    (pending : ∀ position entry, r.toBase ≤ position →
      r.system.rover.manager.sent[position]? = some entry → entry.1.Plain) :
    CanComplete codec parties r := by
  obtain ⟨events,guarded,after,all⟩ := @drain_toBase codec parties Plain (fun _ => False)
    (fun base message _ plain => BaseStation.routeMessage_sendsNothing codec base message _ plain)
    r sound pending
  refine ⟨events,guarded,all,?_⟩
  obtain ⟨more,sent,none⟩ := after.sent
  cases more with
  | nil => rw [after.toRover,heard,sent,List.append_nil]
  | cons entry rest => exact (none entry List.mem_cons_self).elim

theorem canComplete_established (r : Round) (sound : Sound parties r)
    (heard : r.toBase = r.system.rover.manager.sent.length)
    (pending : ∀ position entry, r.toRover ≤ position →
      r.system.base.manager.sent[position]? = some entry →
        entry.1.isCommand "SESSION_ACCEPT" = false) :
    CanComplete codec parties r := by
  obtain ⟨events,guarded,after,all⟩ := @drain_toRover codec parties
    (·.isCommand "SESSION_ACCEPT" = false) Plain
    (fun rover message stored other =>
      Rover.routeMessage_sendsPlain codec rover message _ stored other) r sound pending
  apply canComplete_after codec r events guarded
  apply canComplete_plain codec _ after.sound all
  intro position entry beyond here
  rw [after.toBase,heard] at beyond
  exact after.sent.new beyond here

theorem canComplete_confirmed (r : Round) (sound : Sound parties r)
    (heard : r.toRover = r.system.base.manager.sent.length)
    (pending : ∀ position entry, r.toBase ≤ position →
      r.system.rover.manager.sent[position]? = some entry →
        entry.1.isCommand "SESSION_INIT" = false) :
    CanComplete codec parties r := by
  obtain ⟨events,guarded,after,all⟩ := @drain_toBase codec parties
    (·.isCommand "SESSION_INIT" = false) (·.isCommand "SESSION_ACCEPT" = false)
    (fun base message _ other =>
      BaseStation.routeMessage_sendsNoAccept codec base message _ other) r sound pending
  apply canComplete_after codec r events guarded
  apply canComplete_established codec _ after.sound all
  intro position entry beyond here
  rw [after.toRover,heard] at beyond
  exact after.sent.new beyond here

theorem canComplete_accepted (r : Round) (sound : Sound parties r)
    (heard : r.toBase = r.system.rover.manager.sent.length) : CanComplete codec parties r := by
  obtain ⟨events,guarded,after,all⟩ := @drain_toRover codec parties (fun _ => True)
    (·.isCommand "SESSION_INIT" = false)
    (fun rover message stored _ => Rover.routeMessage_sendsNoInit codec rover message _ stored)
    r sound (fun _ _ _ _ => trivial)
  apply canComplete_after codec r events guarded
  apply canComplete_confirmed codec _ after.sound all
  intro position entry beyond here
  rw [after.toBase,heard] at beyond
  exact after.sent.new beyond here

/-- Each delivery calls for fewer kinds of messages than the one before it, so five turns are
always enough. -/
theorem canComplete (r : Round) (sound : Sound parties r) : CanComplete codec parties r := by
  obtain ⟨events,guarded,after,all⟩ := @drain_toBase codec parties (fun _ => True) (fun _ => True)
    (fun base message valid _ => BaseStation.routeMessage_grows codec base message _ valid)
    r sound (fun _ _ _ _ => trivial)
  apply canComplete_after codec r events guarded
  exact canComplete_accepted codec _ after.sound all

end Round

end Lumen
