import Lumen.Round

/-! The phases of a round. In each of them the command that continues the handshake is still
to be delivered; every fair step leads to the same or a later phase, and with nothing left to
deliver only the last one is possible. -/
namespace Lumen

open Message

namespace Round

variable (codec : Codec) {parties : Parties}

/-- A new command for the endpoint has not been delivered yet. -/
def Pending (endpoint : Endpoint) (sent : List (Message × Endpoint)) (next : Nat) (name : String) :
    Prop :=
  ∃ position message, next ≤ position ∧ sent[position]? = some (message,endpoint) ∧
    message.isCommand name = true

section Pending

variable {endpoint : Endpoint} {sent later : List (Message × Endpoint)} {next : Nat} {name : String}

theorem Pending.sends {allowed : Message → Prop} (pending : Pending endpoint sent next name)
    (sends : SendsOnly allowed sent later) : Pending endpoint later next name := by
  obtain ⟨more,rfl,_⟩ := sends
  obtain ⟨position,message,beyond,here,named⟩ := pending
  have within : position < sent.length := (List.getElem?_eq_some_iff.mp here).1
  exact ⟨position,message,beyond,by rw [List.getElem?_append_left within]; exact here,named⟩

theorem pending_fresh (message : Message) (bound : next ≤ sent.length)
    (named : message.isCommand name = true) :
    Pending endpoint (sent ++ [(message,endpoint)]) next name :=
  ⟨sent.length,message,bound,by simp,named⟩

/-- A delivery that counts as the next one, or is not counted: it is what was waited for, or
that is still to come. -/
theorem Pending.persists {position after : Nat} (pending : Pending endpoint sent next name)
    (counted : after = next ∨ after = next + 1 ∧ position = next) :
    Pending endpoint sent after name ∨
      ∃ message, System.copyFor endpoint sent position = some message ∧
        message.isCommand name = true := by
  rcases counted with rfl | ⟨rfl,rfl⟩
  · exact Or.inl pending
  · obtain ⟨place,message,beyond,here,named⟩ := pending
    rcases Nat.eq_or_lt_of_le beyond with rfl | further
    · exact Or.inr ⟨message,System.copyFor_eq_some.mpr here,named⟩
    · exact Or.inl ⟨place,message,further,here,named⟩

theorem not_pending_of_complete (complete : next = sent.length) :
    ¬ Pending endpoint sent next name := by
  rintro ⟨position,message,beyond,here,_⟩
  have within := (List.getElem?_eq_some_iff.mp here).1
  omega

end Pending

/-- In every phase the command that continues the handshake is on its way. -/
def OnTheWay (state : Rover.SessionState) (toBase toRover : String → Prop) : Session → Prop
  | .idle => state = .handshakeInit ∧ toBase "SESSION_INIT"
  | .offered _ =>
    state = .handshakeInit ∧ (toRover "SESSION_ACCEPT" ∨ toBase "SESSION_INIT") ∨
      state = .handshakeAccept ∧ toBase "SESSION_CONFIRM"
  | .established _ => state = .active ∨ toRover "SESSION_ESTABLISHED" ∨ toBase "SESSION_INIT"

theorem OnTheWay.mono {toBase toRover toBase' toRover' : String → Prop}
    (phase : OnTheWay state toBase toRover session)
    (init : toBase "SESSION_INIT" → toBase' "SESSION_INIT")
    (accept : toRover "SESSION_ACCEPT" → toRover' "SESSION_ACCEPT")
    (confirm : toBase "SESSION_CONFIRM" → toBase' "SESSION_CONFIRM")
    (established : toRover "SESSION_ESTABLISHED" → toRover' "SESSION_ESTABLISHED") :
    OnTheWay state toBase' toRover' session := by
  cases session with
  | idle => exact ⟨phase.1,init phase.2⟩
  | offered peer =>
    exact phase.imp (fun asking => ⟨asking.1,asking.2.imp accept init⟩)
      (fun accepting => ⟨accepting.1,confirm accepting.2⟩)
  | established peer => exact phase.imp_right fun rest => rest.imp established init

variable (parties) in
/-- Nobody else holds the session. -/
def Ours (session : Session) : Prop :=
  session = .idle ∨ session = .offered parties.peer ∨ session = .established parties.peer

theorem onInit_ours (session : Session) (ours : Ours parties session) :
    session.answer parties.peer ≠ .refuse ∧
      (session.onInit parties.peer = .offered parties.peer ∧ session ≠ .established parties.peer ∨
        session.onInit parties.peer = .established parties.peer ∧
          session = .established parties.peer) := by
  rcases ours with rfl | rfl | rfl
  · exact ⟨by simp [Session.answer],Or.inl ⟨rfl,by simp⟩⟩
  · have offer : (Session.offered parties.peer).answer parties.peer = .offer := if_pos rfl
    exact ⟨by simp [offer],Or.inl ⟨if_pos offer,by simp⟩⟩
  · have confirm : (Session.established parties.peer).answer parties.peer = .confirm := if_pos rfl
    exact ⟨by simp [confirm],Or.inr ⟨if_neg (by simp [confirm]),rfl⟩⟩

/-- What the session expects is answered, and the answer is new to the rover. -/
theorem answer_pending (base : BaseStation) (message : Message)
    (honest : System.BaseHonest parties base) (bound : next ≤ base.manager.sent.length)
    (expected : BaseStation.Expects base.session message parties.rover) :
    let after := base.routeMessage codec message parties.rover
    (after.session = .offered parties.peer →
      Pending parties.rover after.manager.sent next "SESSION_ACCEPT") ∧
    (after.session = .established parties.peer →
      Pending parties.rover after.manager.sent next "SESSION_ESTABLISHED") := by
  intro after
  obtain ⟨sends,must⟩ := BaseStation.routeMessage_sent codec base message parties.rover honest.valid
  rcases sends with nothing | ⟨⟨answer,target⟩,sent,_,answers⟩
  · exact absurd nothing (must honest.up parties.roverSendable expected)
  · constructor
    · intro offered
      rw [offered] at answers
      obtain ⟨named,rfl⟩ := answers
      rw [sent]
      exact pending_fresh answer bound named
    · intro established
      rw [established] at answers
      obtain ⟨named,rfl⟩ := answers
      rw [sent]
      exact pending_fresh answer bound named

variable (parties) in
/-- The handshake goes on, given what is on its way. -/
structure Advancing (toBase toRover : String → Prop) (s : System) : Prop where
  ours : Ours parties s.base.session
  phase : OnTheWay s.rover.sessionState toBase toRover s.base.session

/-- The session after a step is known. -/
theorem Advancing.of_eq {toBase toRover : String → Prop} {base : BaseStation} {rover : Rover}
    {session : Session} (now : base.session = session) (ours : Ours parties session)
    (phase : OnTheWay rover.sessionState toBase toRover session) :
    Advancing parties toBase toRover ⟨base,rover⟩ := by
  subst now
  exact ⟨ours,phase⟩

section BaseHears

variable {toBase toBase' : String → Prop} {next : Nat} (s : System) (message : Message)
  (agreed : System.Agreed parties s) (bound : next ≤ s.base.manager.sent.length)
  (advancing : Advancing parties toBase (Pending parties.rover s.base.manager.sent next) s)
  (persists : ∀ name, toBase name → toBase' name ∨ message.isCommand name = true)

include agreed bound advancing persists

theorem baseHears_init (init : message.isCommand "SESSION_INIT" = true)
    (sender : message.sender = parties.roverId) :
    let after := s.base.routeMessage codec message parties.rover
    Advancing parties toBase' (Pending parties.rover after.manager.sent next)
      { s with base := after } := by
  intro after
  obtain ⟨ours,phase⟩ := advancing
  obtain ⟨heard,reaction⟩ := onInit_ours s.base.session ours
  have moved := (BaseStation.routeMessage_session codec s.base message parties.rover
    agreed.base.valid).1
  rw [BaseStation.sessionStep,if_pos init,sender] at moved
  obtain ⟨accept,confirm⟩ := answer_pending codec s.base message agreed.base bound
    (Or.inl ⟨init,by rw [sender]; exact heard⟩)
  rcases reaction with ⟨offered,before⟩ | ⟨established,_⟩
  · have now : after.session = .offered parties.peer := moved.trans offered
    apply Advancing.of_eq now (Or.inr (Or.inl rfl))
    rcases ours with idle | waiting | other
    · rw [idle] at phase
      exact Or.inl ⟨phase.1,Or.inl (accept now)⟩
    · rw [waiting] at phase
      rcases phase with ⟨asking,_⟩ | ⟨accepting,confirming⟩
      · exact Or.inl ⟨asking,Or.inl (accept now)⟩
      · refine Or.inr ⟨accepting,(persists _ confirming).resolve_right fun named => ?_⟩
        exact absurd (isCommand_unique init named) (by decide)
    · exact absurd other before
  · have now : after.session = .established parties.peer := moved.trans established
    apply Advancing.of_eq now (Or.inr (Or.inr rfl))
    exact Or.inr (Or.inl (confirm now))

theorem baseHears_confirm (confirm : message.isCommand "SESSION_CONFIRM" = true)
    (sender : message.sender = parties.roverId) :
    let after := s.base.routeMessage codec message parties.rover
    Advancing parties toBase' (Pending parties.rover after.manager.sent next)
      { s with base := after } := by
  intro after
  obtain ⟨ours,phase⟩ := advancing
  have notInit : ¬ message.isCommand "SESSION_INIT" = true := fun init =>
    absurd (isCommand_unique init confirm) (by decide)
  have moved := (BaseStation.routeMessage_session codec s.base message parties.rover
    agreed.base.valid).1
  rw [BaseStation.sessionStep,if_neg notInit,if_pos confirm,sender] at moved
  have grows := BaseStation.routeMessage_grows codec s.base message parties.rover agreed.base.valid
  have request (pending : toBase "SESSION_INIT") : toBase' "SESSION_INIT" :=
    (persists _ pending).resolve_right notInit
  rcases ours with idle | waiting | established
  · have now : after.session = .idle := moved.trans (by rw [idle]; rfl)
    rw [idle] at phase
    exact Advancing.of_eq now (Or.inl rfl) ⟨phase.1,request phase.2⟩
  · have now : after.session = .established parties.peer :=
      moved.trans (by rw [waiting]; exact if_pos rfl)
    have expected : BaseStation.Expects s.base.session message parties.rover :=
      Or.inr ⟨confirm,by rw [sender]; exact waiting⟩
    have answer := (answer_pending codec s.base message agreed.base bound expected).2 now
    exact Advancing.of_eq now (Or.inr (Or.inr rfl)) (Or.inr (Or.inl answer))
  · have now : after.session = .established parties.peer :=
      moved.trans (by simp [established,Session.onConfirm])
    rw [established] at phase
    apply Advancing.of_eq now (Or.inr (Or.inr rfl))
    exact phase.imp_right fun rest => rest.imp (·.sends grows) request

/-- The base station receives a message of the rover, possibly one that was waited for. -/
theorem baseHears_advancing (signed : Rover.Signed parties.roverId message) :
    let after := s.base.routeMessage codec message parties.rover
    Advancing parties toBase' (Pending parties.rover after.manager.sent next)
      { s with base := after } := by
  intro after
  by_cases init : message.isCommand "SESSION_INIT" = true
  · exact baseHears_init codec s message agreed bound advancing persists init
      (signed (by simp [isHandshake,init]))
  · by_cases confirm : message.isCommand "SESSION_CONFIRM" = true
    · exact baseHears_confirm codec s message agreed bound advancing persists confirm
        (signed (by simp [isHandshake,confirm]))
    · have same := (BaseStation.routeMessage_session codec s.base message parties.rover
        agreed.base.valid).1
      rw [BaseStation.sessionStep,if_neg init,if_neg confirm] at same
      have grows := BaseStation.routeMessage_grows codec s.base message parties.rover
        agreed.base.valid
      apply Advancing.of_eq same advancing.ours
      exact advancing.phase.mono (fun pending => (persists _ pending).resolve_right init)
        (·.sends grows) (fun pending => (persists _ pending).resolve_right confirm) (·.sends grows)

end BaseHears

section RoverHears

variable {toRover toRover' : String → Prop} {next : Nat} (s : System) (message : Message)
  (agreed : System.Agreed parties s) (up : s.rover.Up)
  (bound : next ≤ s.rover.manager.sent.length)
  (advancing : Advancing parties (Pending parties.base s.rover.manager.sent next) toRover s)
  (persists : ∀ name, toRover name → toRover' name ∨ message.isCommand name = true)

include agreed up bound advancing persists

theorem roverHears_accept (from_ : s.rover.FromBase "SESSION_ACCEPT" message parties.base)
    (held : s.base.session ≠ .idle) :
    let after := s.rover.routeMessage codec message parties.base
    Advancing parties (Pending parties.base after.manager.sent next) toRover'
      { s with rover := after } := by
  intro after
  obtain ⟨ours,phase⟩ := advancing
  have steady := Rover.routeMessage_steady codec s.rover message parties.base agreed.rover.stored
  have routed : after = s.rover.handleSessionAccept codec :=
    Rover.routeMessage_accept codec s.rover message parties.base from_
  have established (pending : toRover "SESSION_ESTABLISHED") : toRover' "SESSION_ESTABLISHED" := by
    refine (persists _ pending).resolve_right fun named => ?_
    exact absurd (isCommand_unique from_.2.2 named) (by decide)
  rcases ours with idle | waiting | done
  · exact absurd idle held
  · apply Advancing.of_eq waiting (Or.inr (Or.inl rfl))
    rw [waiting] at phase
    rcases phase with ⟨asking,_⟩ | ⟨accepting,confirming⟩
    · obtain ⟨state,sent⟩ := Rover.handleSessionAccept_sent codec s.rover up
        agreed.rover.registered (Or.inl asking)
      rw [← routed] at state sent
      refine Or.inr ⟨state,?_⟩
      rw [sent]
      exact pending_fresh _ bound rfl
    · have same : after = s.rover := routed.trans (if_neg (by simp [accepting]))
      exact Or.inr ⟨same ▸ accepting,confirming.sends steady.sent⟩
  · apply Advancing.of_eq done (Or.inr (Or.inr rfl))
    rw [done] at phase
    rcases phase with active | rest
    · have same : after = s.rover := routed.trans (if_neg (by simp [active]))
      exact Or.inl (same ▸ active)
    · exact Or.inr (rest.imp established (·.sends steady.sent))

/-- The rover receives a message of the base station, possibly one that was waited for. -/
theorem roverHears_advancing (distinct : parties.stationId ≠ parties.roverId)
    (answered : System.Answered parties s.base.session (message,parties.rover)) :
    let after := s.rover.routeMessage codec message parties.base
    Advancing parties (Pending parties.base after.manager.sent next) toRover'
      { s with rover := after } := by
  intro after
  have heard (name : String) (named : message.isCommand name = true)
      (handshake : message.isHandshake = true) : s.rover.FromBase name message parties.base := by
    refine ⟨?_,agreed.rover.registered,named⟩
    rw [(answered handshake).1,agreed.rover.roverId]
    exact distinct
  by_cases accept : message.isCommand "SESSION_ACCEPT" = true
  · have handshake : message.isHandshake = true := by simp [isHandshake,accept]
    exact roverHears_accept codec s message agreed up bound advancing persists
      (heard _ accept handshake) (answered handshake).2.1
  · by_cases established : message.isCommand "SESSION_ESTABLISHED" = true
    · have handshake : message.isHandshake = true := by simp [isHandshake,established]
      have routed : after = s.rover.handleSessionEstablished codec :=
        Rover.routeMessage_established codec s.rover message parties.base
          (heard _ established handshake)
      have active := (Rover.handleSessionEstablished_quiet codec s.rover agreed.rover.stored).2.1
      apply Advancing.of_eq ((answered handshake).2.2 established rfl) (Or.inr (Or.inr rfl))
      exact Or.inl (routed ▸ active)
    · rcases Rover.routeMessage_cases codec plain_self s.rover message
        parties.base with ⟨from_,_⟩ | ⟨from_,_⟩ | quiet
      · exact absurd from_.2.2 accept
      · exact absurd from_.2.2 established
      · apply Advancing.of_eq rfl advancing.ours
        have state : after.sessionState = s.rover.sessionState := quiet.sessionState
        simp only [state]
        exact advancing.phase.mono (·.sends quiet.sent)
          (fun pending => (persists _ pending).resolve_right accept) (·.sends quiet.sent)
          (fun pending => (persists _ pending).resolve_right established)

end RoverHears

variable (parties) in
/-- The handshake goes on and nothing it needs is lost. -/
structure OnTrack (r : Round) : Prop where
  sound : Sound parties r
  advancing : Advancing parties (Pending parties.base r.system.rover.manager.sent r.toBase)
    (Pending parties.rover r.system.base.manager.sent r.toRover) r.system

section Deliveries

variable (r : Round) (position after : Nat) (track : OnTrack parties r)

include track

theorem toBase_advancing
    (counted : after = r.toBase ∨ after = r.toBase + 1 ∧ position = r.toBase) :
    let s := r.system.step codec parties (.toBase position)
    Advancing parties (Pending parties.base s.rover.manager.sent after)
      (Pending parties.rover s.base.manager.sent r.toRover) s := by
  rcases toBase_cases codec parties r.system position track.sound.agreed.base.up with
    ⟨nothing,same⟩ | ⟨message,found,moved⟩
  · have kept (name : String)
        (pending : Pending parties.base r.system.rover.manager.sent r.toBase name) :
        Pending parties.base r.system.rover.manager.sent after name :=
      (pending.persists counted).resolve_right fun ⟨_,here,_⟩ => by cases nothing.symm.trans here
    rw [same]
    exact ⟨track.advancing.ours,track.advancing.phase.mono (kept _) id (kept _) id⟩
  · rw [moved]
    apply baseHears_advancing codec r.system message track.sound.agreed track.sound.toRover
      track.advancing
    · intro name pending
      refine (pending.persists counted).imp_right ?_
      rintro ⟨other,here,named⟩
      cases found.symm.trans here
      exact named
    · exact track.sound.agreed.rover.signed _ (System.copyFor_mem found)

theorem toRover_advancing (distinct : parties.stationId ≠ parties.roverId)
    (counted : after = r.toRover ∨ after = r.toRover + 1 ∧ position = r.toRover) :
    let s := r.system.step codec parties (.toRover position)
    Advancing parties (Pending parties.base s.rover.manager.sent r.toBase)
      (Pending parties.rover s.base.manager.sent after) s := by
  rcases toRover_cases codec parties r.system position track.sound.up with
    ⟨nothing,same⟩ | ⟨message,found,moved⟩
  · have kept (name : String)
        (pending : Pending parties.rover r.system.base.manager.sent r.toRover name) :
        Pending parties.rover r.system.base.manager.sent after name :=
      (pending.persists counted).resolve_right fun ⟨_,here,_⟩ => by cases nothing.symm.trans here
    rw [same]
    exact ⟨track.advancing.ours,track.advancing.phase.mono id (kept _) id (kept _)⟩
  · rw [moved]
    apply roverHears_advancing codec r.system message track.sound.agreed track.sound.up
      track.sound.toBase track.advancing
    · intro name pending
      refine (pending.persists counted).imp_right ?_
      rintro ⟨other,here,named⟩
      cases found.symm.trans here
      exact named
    · exact distinct
    · exact track.sound.agreed.base.answered _ (System.copyFor_mem found)

end Deliveries

/-- Every fair step keeps the handshake on track, unless the rover takes the base station's
messages for its own. -/
theorem step_onTrack (distinct : parties.stationId ≠ parties.roverId) (r : Round) (event : Event)
    (track : OnTrack parties r) (fair : Fair r event) :
    OnTrack parties (r.step codec parties event) := by
  refine ⟨step_sound codec r event track.sound fair,?_⟩
  cases event with
  | newToBase => exact toBase_advancing codec r _ _ track (Or.inr ⟨rfl,rfl⟩)
  | newToRover => exact toRover_advancing codec r _ _ track distinct (Or.inr ⟨rfl,rfl⟩)
  | other input =>
    have grows := other_grows codec r input track.sound fair
    cases input with
    | toBase position => exact toBase_advancing codec r position _ track (Or.inl rfl)
    | toRover position => exact toRover_advancing codec r position _ track distinct (Or.inl rfl)
    | base input =>
      have quiet := BaseStation.step_quiet codec r.system.base input fair.1
      apply Advancing.of_eq quiet.session track.advancing.ours
      exact track.advancing.phase.mono id (·.sends grows.base) id (·.sends grows.base)
    | rover input =>
      have quiet := Rover.step_quiet codec plain_self r.system.rover input fair.1
        fair.2
      apply Advancing.of_eq rfl track.advancing.ours
      simp only [quiet.sessionState]
      exact track.advancing.phase.mono (·.sends grows.rover) id (·.sends grows.rover) id
    | otherToBase | otherToRover => cases fair

/-- With nothing left to deliver only one phase is possible. -/
theorem connected_of_complete (r : Round) (track : OnTrack parties r) (complete : Complete r) :
    Connected r.system := by
  obtain ⟨ours,phase⟩ := track.advancing
  have toBase (name : String) := @not_pending_of_complete parties.base _ _ name complete.1
  have toRover (name : String) := @not_pending_of_complete parties.rover _ _ name complete.2
  rcases ours with idle | waiting | established
  · rw [idle] at phase
    exact absurd phase.2 (toBase _)
  · rw [waiting] at phase
    rcases phase with ⟨_,accept | init⟩ | ⟨_,confirm⟩
    · exact absurd accept (toRover _)
    · exact absurd init (toBase _)
    · exact absurd confirm (toBase _)
  · have active := ((BaseStation.established_iff _ _).mp established).1
    rw [established] at phase
    rcases phase with reached | confirmed | init
    · exact ⟨reached,active⟩
    · exact absurd confirmed (toRover _)
    · exact absurd init (toBase _)

end Round

end Lumen
