import Duelist.Session.Playing
/-!
# Handing in

Sending a solution, and leaving. What can be found out without the service is found out first: is
there a duel, is there such a file, is it text, is its language known. A solution that was accepted
gets a follower, unless the session is already closing.
-/

namespace Duelist.Session

variable {σ : Type} (venue : Venue σ)

/-- The text and the language of the solution at `path`. -/
def solutionAt (files : Files) (path : String) : Except Refusal (String × Language) :=
  match files.find? path with
  | none => .error (.missingFile path)
  | some node =>
    match node.text with
    | .error reason => .error (.unreadableFile path reason)
    | .ok text => (Language.ofPath (Utf8.bytes path)).map fun language => (text, language)

/-- What is handed in, and for which duel. -/
def checkSolution (files : Files) (standing : Standing) (path : String) :
    Except Refusal (Int64 × String × Language) :=
  match standing.accepting? with
  | none => .error .noDuel
  | some duel => (solutionAt files path).map fun solution => (duel, solution)

/-- Hands in the solution at `path`; the result is the number given to the submission. -/
def handingIn (path : String) : Errand (Session σ) (Except Failure Int64) := do
  match checkSolution venue.files (← get).standing path with
  | .error why => return .error (.refused why)
  | .ok (duel, text, language) =>
    match ← venue.link.handIn duel text language with
    | .error e => return .error e
    | .ok submission =>
      say (σ := σ) s!"Solution sent! Submission id: {submission}"
      -- the signal may have been raised since the solution was checked
      if ← onCrew (Crew.follow venue.link duel submission) then
        return .ok submission
      else
        say (σ := σ) s!"Could not follow submission {submission}: {Crew.refusal}"
        return .ok submission

/-- Hands in the solution at `path` with nobody in between. -/
def handIn (path : String) : Play σ (Except Failure Int64) :=
  (handingIn venue path).atOnce

/-- Leaves without waiting for the end of the duel: stops the followers and waits for them. The
result is the number of those that were given up. -/
def leaving : Errand (Session σ) Nat := do
  restand (σ := σ) Standing.leave
  raise venue
  onCrew (σ := σ) Crew.join

/-- Leaves with nobody in between. -/
def leave : Play σ Nat :=
  (leaving venue).atOnce

end Duelist.Session
