import Lumen.Reliability

/-! The session of the base station, abstractly: at most one rover holds it, by being the
first to ask; it is established when that rover confirms the offer made to it, and only
the same rover can be made a new offer. -/
namespace Lumen

/-- The two things by which the base station knows a rover. -/
structure Peer where
  id : String
  endpoint : Endpoint
  deriving DecidableEq, Repr

inductive Session where
  | idle
  | offered (peer : Peer)
  | established (peer : Peer)
  deriving DecidableEq, Repr

namespace Session

def peer? : Session → Option Peer
  | .idle => none
  | .offered peer => some peer
  | .established peer => some peer

/-- A request is accepted with an offer, answered by a confirmation of the standing session,
or refused. -/
inductive Answer where
  | offer
  | confirm
  | refuse
  deriving DecidableEq, Repr

def answer (session : Session) (peer : Peer) : Answer :=
  match session with
  | .idle => .offer
  | .offered holder => if holder.id = peer.id then .offer else .refuse
  | .established holder =>
    if holder = peer then .confirm else if holder.id = peer.id then .offer else .refuse

def onInit (session : Session) (peer : Peer) : Session :=
  if session.answer peer = .offer then .offered peer else session

def onConfirm (session : Session) (peer : Peer) : Session :=
  if session = .offered peer then .established peer else session

theorem answer_offer (session : Session) (peer : Peer) (accepted : session.answer peer = .offer) :
    session = .idle ∨ ∃ holder, session.peer? = some holder ∧ holder.id = peer.id := by
  simp only [answer] at accepted
  split at accepted
  · exact Or.inl rfl
  · split at accepted
    · next same => exact Or.inr ⟨_,rfl,same⟩
    · cases accepted
  · split at accepted
    · cases accepted
    · split at accepted
      · next same => exact Or.inr ⟨_,rfl,same⟩
      · cases accepted

theorem onInit_offered_iff (session : Session) (peer : Peer) :
    session.onInit peer = .offered peer ↔ session.answer peer = .offer := by
  simp only [onInit]
  split
  · next accepted => exact iff_of_true rfl accepted
  · next other =>
    refine iff_of_false (fun held => other ?_) other
    rw [held,answer,if_pos rfl]

/-- The holder's id stays. -/
theorem onInit_id (session : Session) (peer holder : Peer) (held : session.peer? = some holder) :
    ∃ next, (session.onInit peer).peer? = some next ∧ next.id = holder.id := by
  simp only [onInit]
  split
  · next accepted =>
    rcases answer_offer session peer accepted with rfl | ⟨other,same,id⟩
    · cases held
    · rw [same] at held
      cases held
      exact ⟨peer,rfl,id.symm⟩
  · exact ⟨holder,held,rfl⟩

theorem onConfirm_peer (session : Session) (peer : Peer) :
    (session.onConfirm peer).peer? = session.peer? := by
  simp only [onConfirm]
  split
  · next offer => rw [offer]; rfl
  · rfl

/-! ### One rover among others -/

/-- The two marks of a rover are never mixed with those of another. -/
def Distinct (rover peer : Peer) : Prop := peer.id = rover.id ↔ peer.endpoint = rover.endpoint

/-- What a rover can rely on: a session is not given up, and its own stays established. -/
structure Keeps (rover : Peer) (before after : Session) : Prop where
  held : before ≠ .idle → after ≠ .idle
  established : before = .established rover → after = .established rover

theorem Keeps.refl (rover : Peer) (session : Session) : Keeps rover session session := ⟨id,id⟩

theorem ne_idle_iff (session : Session) : session ≠ .idle ↔ ∃ peer, session.peer? = some peer := by
  cases session <;> simp [peer?]

theorem onInit_keeps (session : Session) {rover peer : Peer} (distinct : Distinct rover peer) :
    Keeps rover session (session.onInit peer) where
  held := by
    intro held
    obtain ⟨holder,found⟩ := (ne_idle_iff session).mp held
    obtain ⟨next,later,_⟩ := onInit_id session peer holder found
    exact (ne_idle_iff _).mpr ⟨next,later⟩
  established := by
    rintro rfl
    have refused : (established rover).answer peer ≠ .offer := by
      simp only [answer]
      split
      · exact nofun
      · next other =>
        have differs : rover.id ≠ peer.id := by
          intro same
          obtain ⟨id,endpoint⟩ := peer
          cases same
          cases distinct.mp rfl
          exact other rfl
        rw [if_neg differs]
        exact nofun
    exact if_neg refused

theorem onConfirm_keeps (session : Session) (rover peer : Peer) :
    Keeps rover session (session.onConfirm peer) where
  held := by
    intro held
    obtain ⟨holder,found⟩ := (ne_idle_iff session).mp held
    exact (ne_idle_iff _).mpr ⟨holder,(onConfirm_peer session peer).trans found⟩
  established := by
    rintro rfl
    exact if_neg nofun

theorem onInit_distinct (session : Session) {rover peer : Peer} (distinct : Distinct rover peer)
    (before : ∀ holder, session.peer? = some holder → Distinct rover holder) :
    ∀ holder, (session.onInit peer).peer? = some holder → Distinct rover holder := by
  intro holder found
  simp only [onInit] at found
  split at found
  · cases found
    exact distinct
  · exact before holder found

/-! ### The events behind a session -/

/-- The events of a run that decide about the session. -/
inductive Event where
  | accepted (peer : Peer)
  | confirmed (peer : Peer)
  deriving DecidableEq, Repr

/-- The most recent accepted request is the peer's, and `later` came after it. -/
def LatestAccepted (seen : List Event) (peer : Peer) (later : List Event) : Prop :=
  (∃ earlier, seen = earlier ++ .accepted peer :: later) ∧ ∀ other, .accepted other ∉ later

/-- The first accepted request carried this id. -/
def FirstAccepted (seen : List Event) (id : String) : Prop :=
  ∃ earlier first later, seen = earlier ++ .accepted first :: later ∧
    (∀ other, .accepted other ∉ earlier) ∧ first.id = id

/-- The events so far account for the session. -/
def Accounted (seen : List Event) : Session → Prop
  | .idle => ∀ other, .accepted other ∉ seen
  | .offered peer => (∃ later, LatestAccepted seen peer later) ∧ FirstAccepted seen peer.id
  | .established peer =>
    (∃ later, LatestAccepted seen peer later ∧ .confirmed peer ∈ later) ∧
      FirstAccepted seen peer.id

section Accounts

variable {seen : List Event} {session : Session}

theorem latestAccepted_append (latest : LatestAccepted seen peer later) (more : List Event)
    (none : ∀ other, .accepted other ∉ more) :
    LatestAccepted (seen ++ more) peer (later ++ more) := by
  obtain ⟨⟨earlier,rfl⟩,quiet⟩ := latest
  refine ⟨⟨earlier,by simp⟩,fun other member => ?_⟩
  rcases List.mem_append.mp member with old | new
  · exact quiet other old
  · exact none other new

theorem firstAccepted_append {name : String} (first : FirstAccepted seen name)
    (more : List Event) : FirstAccepted (seen ++ more) name := by
  obtain ⟨earlier,peer,later,rfl,quiet,same⟩ := first
  exact ⟨earlier,peer,later ++ more,by simp,quiet,same⟩

theorem accounted_append (accounted : session.Accounted seen) (more : List Event)
    (none : ∀ other, .accepted other ∉ more) : session.Accounted (seen ++ more) := by
  cases session with
  | idle =>
    intro other member
    rcases List.mem_append.mp member with old | new
    · exact accounted other old
    · exact none other new
  | offered peer =>
    obtain ⟨⟨later,latest⟩,first⟩ := accounted
    exact ⟨⟨_,latestAccepted_append latest more none⟩,firstAccepted_append first more⟩
  | established peer =>
    obtain ⟨⟨later,latest,confirmed⟩,first⟩ := accounted
    exact ⟨⟨_,latestAccepted_append latest more none,List.mem_append_left _ confirmed⟩,
      firstAccepted_append first more⟩

theorem accounted_first (accounted : session.Accounted seen) (held : session.peer? = some holder) :
    FirstAccepted seen holder.id := by
  cases session with
  | idle => cases held
  | offered peer => cases held; exact accounted.2
  | established peer => cases held; exact accounted.2

/-- An accepted request is the latest; its id is the first one's. -/
theorem accounted_onInit (accounted : session.Accounted seen) (peer : Peer) :
    (session.onInit peer).Accounted
      (seen ++ if session.answer peer = .offer then [.accepted peer] else []) := by
  simp only [onInit]
  split
  · next accepted =>
    refine ⟨⟨[],⟨seen,rfl⟩,by simp⟩,?_⟩
    rcases answer_offer session peer accepted with rfl | ⟨holder,held,same⟩
    · exact ⟨seen,peer,[],rfl,accounted,rfl⟩
    · rw [← same]
      exact firstAccepted_append (accounted_first accounted held) _
  · rw [List.append_nil]
    exact accounted

theorem accounted_onConfirm (accounted : session.Accounted seen) (peer : Peer) :
    (session.onConfirm peer).Accounted (seen ++ [.confirmed peer]) := by
  have longer := accounted_append accounted [.confirmed peer] (by simp)
  simp only [onConfirm]
  split
  · next offered =>
    rw [offered] at longer accounted
    obtain ⟨⟨later,latest⟩,_⟩ := accounted
    exact ⟨⟨_,latestAccepted_append latest [.confirmed peer] (by simp),by simp⟩,longer.2⟩
  · exact longer

end Accounts

end Session

end Lumen
