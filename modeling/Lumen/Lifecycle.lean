import Lumen.Frame
import Lumen.Handover

/-! The life of a rover between `start` and `stop`: how its session moves, what has to wait for
the first session, and what goes on by itself from then on. -/
namespace Lumen.Rover

open Endpoint Message Machine

variable (codec : Codec)

/-! ### The session as an automaton -/

/-- The arrows of the session, with what takes the rover along them. -/
inductive Travels (s : Rover) : Input → SessionState → Prop where
  | stays (live : input ≠ .stop) : Travels s input s.sessionState
  | accepted (message : Message) (sender : Endpoint)
      (from_ : s.FromBase "SESSION_ACCEPT" message sender)
      (waiting : s.sessionState = .handshakeInit ∨ s.sessionState = .disconnected) :
      Travels s (.route message sender) .handshakeAccept
  | established (message : Message) (sender : Endpoint)
      (from_ : s.FromBase "SESSION_ESTABLISHED" message sender)
      (apart : s.sessionState ≠ .active) : Travels s (.route message sender) .active
  | lost (position : Nat) (base : Endpoint)
      (queued : s.posted[position]? = some (.packetTimeout base))
      (registered : s.getBaseEndpoint = some base) (active : s.sessionState = .active) :
      Travels s (.runPosted position) .disconnected
  | stopped : Travels s .stop .inactive

theorem handleSessionEstablished_active (s : Rover) :
    (s.handleSessionEstablished codec).sessionState = .active := by
  simp only [handleSessionEstablished]
  split
  · next active => exact active
  · have forwarded := @sendStoredPackets_quiet Any
      ((((s.enter .active).setHandshakeRetryCount 0).setHandshakeTimer false).setProbeTimer false)
      fun _ _ => trivial
    have quiet := (forwarded.trans (handleStatusTimer_quiet codec plain_any _)).trans
      (handlePositionTelemetryTimer_quiet codec plain_any _)
    exact quiet.sessionState

theorem routeMessage_travels (s : Rover) (message : Message) (sender : Endpoint) :
    Travels s (.route message sender) (s.routeMessage codec message sender).sessionState := by
  rcases routeMessage_cases codec plain_any s message sender with
    ⟨from_,accept⟩ | ⟨from_,established⟩ | quiet
  · rw [accept]
    by_cases waiting : s.sessionState = .handshakeInit ∨ s.sessionState = .disconnected
    · have state : (s.handleSessionAccept codec).sessionState = .handshakeAccept := by
        rw [handleSessionAccept_eq codec s waiting]
        exact (sendCommand_sessionState codec s.confirming _ _).trans (confirming_fields s).2.2.2
      rw [state]
      exact .accepted message sender from_ waiting
    · rw [handleSessionAccept_ignored codec s waiting]
      exact .stays (by simp)
  · rw [established]
    by_cases active : s.sessionState = .active
    · have ignored : s.handleSessionEstablished codec = s := if_pos active
      rw [ignored]
      exact .stays (by simp)
    · rw [handleSessionEstablished_active]
      exact .established message sender from_ active
  · rw [quiet.sessionState]
    exact .stays (by simp)

theorem handleHandshakeTimer_sessionState (s : Rover) :
    (s.handleHandshakeTimer codec).sessionState = s.sessionState := by
  simp only [handleHandshakeTimer]
  split
  · next during =>
    split
    · exact sendCommand_sessionState codec _ _ _
    · -- The retries are used up, and a rover that is not in session ignores the disconnection.
      have apart : s.sessionState ≠ .active := by
        intro active
        rcases during with state | state <;> cases active.symm.trans state
      simp only [handleBaseDisconnect,if_pos apart]
  · rfl

theorem handleProbeTimer_sessionState (s : Rover) :
    (s.handleProbeTimer codec).sessionState = s.sessionState := by
  simp only [handleProbeTimer]
  split
  · exact sendCommand_sessionState codec _ _ _
  · rfl

theorem runPosted_travels (s : Rover) (position : Nat) :
    Travels s (.runPosted position) (s.runPosted position).sessionState := by
  simp only [runPosted]
  split
  · next handler queued =>
    cases handler with
    | packetTimeout recipient =>
      simp only [runHandler,handlePacketTimeout]
      split
      · next both =>
        simp only [handleBaseDisconnect]
        split
        · next apart => exact absurd both.1 apart
        · exact .lost position recipient queued both.2 both.1
      · exact .stays (by simp)
    | resetSequence | armProbe | armHandshake | application | discovery => exact .stays (by simp)
  · exact .stays (by simp)

/-- Every step goes along one of the arrows. -/
theorem step_travels (s : Rover) (input : Input) :
    Travels s input (s.step codec input).sessionState := by
  by_cases quiet : input.isQuiet = true
  · have live : input ≠ .stop := by
      rintro rfl
      cases quiet
    rw [(step_quiet codec plain_any s input quiet (speaks_any s input)).sessionState]
    exact .stays live
  · cases input with
    | route message sender => exact routeMessage_travels codec s message sender
    | runPosted position => exact runPosted_travels s position
    | stop => exact .stopped
    | expire timer =>
      cases timer with
      | handshake =>
        simp only [step,expire]
        split
        · rw [handleHandshakeTimer_sessionState]
          exact .stays (by simp)
        · exact .stays (by simp)
      | probe =>
        simp only [step,expire]
        split
        · rw [handleProbeTimer_sessionState]
          exact .stays (by simp)
        · exact .stays (by simp)
      | status | positionTelemetry | movement => exact absurd rfl quiet
    | _ => exact absurd rfl quiet

/-! ### Before the first session -/

/-- A rover that asks for its first session. -/
structure Asking (s : Rover) : Prop where
  handshaking : s.handshaking
  stored : s.storedPackets = []
  status : s.statusTimer = false

theorem step_asking (s : Rover) (input : Input) (asking : Asking s) (live : input ≠ .stop)
    (apart : (s.step codec input).sessionState ≠ .active) : Asking (s.step codec input) := by
  have connected : s.sessionState ≠ .disconnected := by
    intro lost
    rcases asking.handshaking with state | state <;> cases lost.symm.trans state
  have out : s.sessionState ≠ .active := by
    intro active
    rcases asking.handshaking with state | state <;> cases active.symm.trans state
  refine ⟨?_,?_,?_⟩
  · have travels := step_travels codec s input
    generalize state : (s.step codec input).sessionState = next at travels apart
    cases travels with
    | stays =>
      simp only [Rover.handshaking,state]
      exact asking.handshaking
    | accepted => exact Or.inr state
    | established => exact absurd rfl apart
    | lost position base queued registered active => exact absurd active out
    | stopped => exact absurd rfl live
  · cases step_moves codec s input with
    | hands calls few hands => exact hands.stored.trans asking.stored
    | stores message base offers registered lost => exact absurd lost connected
    | forwards base registered announced away active => exact absurd active apart
    | below event external same stored => exact stored.trans asking.stored
    | resets position same queued stored => exact stored.trans asking.stored
    | stops same => exact absurd same live
  · have changes := step_changes codec s input
    generalize reading : (s.step codec input).panel = next at changes
    have timer : (s.step codec input).statusTimer = next.statusTimer := by rw [← reading]; rfl
    rw [timer]
    cases changes with
    | reports message sender from_ begins =>
      rw [show s.step codec (.route message sender) = s.routeMessage codec message sender from rfl,
        routeMessage_established codec s message sender from_,
        handleSessionEstablished_active] at apart
      exact absurd rfl apart
    | stops => exact absurd rfl live
    | _ => exact asking.status

theorem started_asking (roverId : String) (base : Endpoint) (clock : Clock) :
    Asking (started codec roverId base clock) := by
  refine ⟨Or.inl (started_sessionState codec roverId base clock),?_,?_⟩
  · exact sendCommand_stored codec _ _ _
  · exact congrArg Panel.statusTimer (started_panel codec roverId base clock)

/-- Before its first session a rover is always in the handshake, whatever happens: it is never
DISCONNECTED, so it stores nothing of what it is given to send, it does not probe, and the
status report is not scheduled. -/
theorem before_first_session (roverId : String) (base : Endpoint) (clock : Clock)
    (inputs : List Input) (live : ∀ input ∈ inputs, input ≠ .stop)
    (never : Always (step codec) (fun s => s.sessionState ≠ .active)
      (started codec roverId base clock) inputs) :
    let s := run (step codec) (started codec roverId base clock) inputs
    (s.sessionState = .handshakeInit ∨ s.sessionState = .handshakeAccept) ∧
      s.storedPackets = [] ∧ s.statusTimer = false := by
  have asking : Asking (run (step codec) (started codec roverId base clock) inputs) := by
    induction inputs using List.reverseRecOn with
    | nil => exact started_asking codec roverId base clock
    | append_singleton done input ih =>
      have before := ih (fun earlier member => live earlier (List.mem_append_left _ member))
        fun sooner within => never sooner (within.trans (List.prefix_append done [input]))
      have apart := never (done ++ [input]) (List.prefix_refl _)
      rw [run_concat] at apart ⊢
      exact step_asking codec _ input before (live input (by simp)) apart
  exact ⟨asking.handshaking,asking.stored,asking.status⟩

/-- A status is offered while the base station does not answer. -/
theorem unanswered_rover_stores_nothing :
    let s := run (step .silent) (started .silent "rover-a" ⟨0x0aed0001,9000⟩ ⟨0,0⟩)
      [.expire .handshake,.sendStatus]
    s.storedPackets = [] ∧ s.statusTimer = false :=
  (before_first_session .silent "rover-a" ⟨0x0aed0001,9000⟩ ⟨0,0⟩ [.expire .handshake,.sendStatus]
    (by simp) (by simp only [always_cons,always_nil]; decide +kernel)).2

/-! ### From the first session on -/

/-- Both reports are scheduled. -/
def Reporting (s : Rover) : Prop := s.statusTimer = true ∧ s.positionTelemetryTimer = true

theorem step_reporting (s : Rover) (input : Input) (reporting : Reporting s) (live : input ≠ .stop) :
    Reporting (s.step codec input) := by
  have changes := step_changes codec s input
  generalize reading : (s.step codec input).panel = next at changes
  have timers : Reporting (s.step codec input) =
      (next.statusTimer = true ∧ next.positionTelemetryTimer = true) := by rw [← reading]; rfl
  rw [timers]
  cases changes with
  | stops => exact absurd rfl live
  | reports => exact ⟨rfl,rfl⟩
  | telemetry => exact ⟨reporting.1,rfl⟩
  | _ => exact reporting

theorem step_active_reporting (s : Rover) (input : Input)
    (before : s.sessionState = .active → Reporting s) (live : input ≠ .stop)
    (active : (s.step codec input).sessionState = .active) : Reporting (s.step codec input) := by
  by_cases already : s.sessionState = .active
  · exact step_reporting codec s input (before already) live
  · have travels := step_travels codec s input
    rw [active] at travels
    generalize now : SessionState.active = state at travels
    cases travels with
    | stays => exact absurd now.symm already
    | established message sender from_ =>
      have begun : (s.step codec (.route message sender)).panel =
          { s.panel with statusTimer := true, positionTelemetryTimer := true } := by
        rw [show s.step codec (.route message sender) = s.routeMessage codec message sender from rfl,
          routeMessage_established codec s message sender from_,handleSessionEstablished_panel,
          if_neg already]
      exact ⟨congrArg Panel.statusTimer begun,congrArg Panel.positionTelemetryTimer begun⟩
    | accepted | lost | stopped => cases now

/-- Once a rover has been in session, its status and position reports stay scheduled until it is
stopped: through disconnections, handshakes and low power mode. -/
theorem reports_outlive_session (roverId : String) (base : Endpoint) (clock : Clock)
    (inputs more : List Input) (live : ∀ input ∈ inputs ++ more, input ≠ .stop)
    (active : (run (step codec) (started codec roverId base clock) inputs).sessionState = .active) :
    let s := run (step codec) (started codec roverId base clock) (inputs ++ more)
    s.statusTimer = true ∧ s.positionTelemetryTimer = true := by
  have session : Always (step codec) (fun s => s.sessionState = .active → Reporting s)
      (started codec roverId base clock) inputs := by
    refine @always_of_guarded _ _ (step codec) (fun s => s.sessionState = .active → Reporting s)
      (fun _ input => input ≠ .stop) ?_ _ inputs ?_ ?_
    · exact fun s input before going => step_active_reporting codec s input before going
    · intro impossible
      cases (started_sessionState codec roverId base clock).symm.trans impossible
    · exact guarded_of_forall (step codec) _ inputs fun input member =>
        live input (List.mem_append_left _ member)
  have reporting := session inputs (List.prefix_refl inputs) active
  rw [run_append]
  exact always_of_guarded (step codec) (fun s input reporting going =>
    step_reporting codec s input reporting going) _ more reporting
    (guarded_of_forall (step codec) _ more fun input member =>
      live input (List.mem_append_right _ member)) more (List.prefix_refl more)

/-- The session begins and the base station is lost again. -/
theorem lost_rover_reports :
    let s := run (step .silent) (started .silent "rover-a" ⟨0x0aed0001,9000⟩ ⟨0,0⟩)
      ([.route ⟨"base",0,.command "SESSION_ESTABLISHED" "base"⟩ ⟨0x0aed0001,9000⟩] ++
        [.timeoutNotification ⟨0x0aed0001,9000⟩,.runPosted 0])
    s.sessionState = .disconnected ∧ s.statusTimer = true :=
  ⟨by decide +kernel,(reports_outlive_session .silent "rover-a" ⟨0x0aed0001,9000⟩ ⟨0,0⟩
    [.route ⟨"base",0,.command "SESSION_ESTABLISHED" "base"⟩ ⟨0x0aed0001,9000⟩]
    [.timeoutNotification ⟨0x0aed0001,9000⟩,.runPosted 0] (by simp) (by decide +kernel)).1⟩

end Lumen.Rover
