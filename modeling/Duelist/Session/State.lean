import Duelist.Session.Standing
import Duelist.Solution.Files
import Duelist.Exchange.Errand
import Duelist.Submission.Crew
/-!
# Sessions

All that a player's session consists of: the crew of followers with the world and the stop signal,
the standing, and who is to be told of the end.
-/

namespace Duelist

/-- Who may be told of the end of a session. -/
inductive Audience where
  /-- Whoever began the session. -/
  | host
  /-- The prompt with the given number. -/
  | prompt (number : Nat)
  deriving Repr, DecidableEq

/-- Where a session is played. -/
structure Venue (σ : Type) where
  /-- The way to the service. -/
  link : Link σ
  /-- The files that can be handed in. -/
  files : Files := {}
  /-- The numbers of the followers that never answer once the stop signal is raised. -/
  hangs : Nat → Bool := fun _ => false

/-- The session of a player. -/
structure Session (σ : Type) where
  /-- The followers, the world and the stop signal. -/
  crew : Crew σ
  /-- Where the player stands. -/
  standing : Standing := {}
  /-- Who is to be told of the end; nobody after that was done. -/
  audience : Option Audience := none
  /-- Who was told of the end, and what. -/
  told : Option (Audience × Closing) := none

/-- Something done in a session. -/
abbrev Play (σ : Type) := StateM (Session σ)

namespace Session

variable {σ : Type}

/-- Acts on the crew of the session. -/
def onCrew {α : Type} (act : StateM (Crew σ) α) : Play σ α := fun s =>
  ((act s.crew).1, { s with crew := (act s.crew).2 })

/-- Acts in the world of the session. -/
def inWorld {α : Type} (act : Act σ α) : Play σ α :=
  onCrew (Crew.inWorld act)

instance : MonadLift (StateM (World σ)) (StateM (Session σ)) := ⟨inWorld⟩

instance : MonadLift (StateM (Crew σ)) (StateM (Session σ)) := ⟨onCrew⟩

/-- The world of a session. -/
def world (s : Session σ) : World σ :=
  s.crew.world

/-- The session in another world. -/
def placed (w : World σ) (s : Session σ) : Session σ :=
  { s with crew := { s.crew with world := w } }

instance : MonadLift (Errand (World σ)) (Errand (Session σ)) := ⟨Errand.within world placed⟩

/-- Answers what was typed. -/
def say (text : String) : Play σ Unit :=
  inWorld (Act.say text)

/-- Shows the prompt. -/
def showPrompt : Play σ Unit :=
  inWorld (Act.put .prompt)

/-- Changes the standing. -/
def restand (change : Standing → Standing) : Play σ Unit :=
  modify fun s => { s with standing := change s.standing }

/-- Changes the standing if that is possible, and tells whether it was. -/
def attempt (change : Standing → Option Standing) : Play σ Bool := fun s =>
  match change s.standing with
  | none => (false, s)
  | some standing => (true, { s with standing })

/-- A session that is about to begin, whose host is to be told of the end. -/
def begin (service : σ) (tokens : Tokens) : Session σ where
  crew := { world := { service, tokens } }
  audience := some .host

end Session

end Duelist
