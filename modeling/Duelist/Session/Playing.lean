import Duelist.Events.Subscription
import Duelist.Session.State
/-!
# Playing

What the events of the stream do to a session, as errands: the queries that an event leads to may
have to wait, and others go on between two steps. A duel that starts while the player is in the
queue is presented; should that fail in part, the duel still runs. The end of the duel that is being
played ends the session: the result is announced, the followers are stopped and waited for, and only
then whoever is to be told of the end is told. All other events are passed over.
-/

namespace Duelist.Session

variable {σ : Type} (venue : Venue σ)

/-- Tells the player something. -/
def notify (text : String) : Errand (Session σ) Unit :=
  .lift (inWorld (Act.notify text))

/-! ### The start of a duel -/

/-- The banner of a duel. -/
def banner (duel : Int64) : String :=
  s!"=== THE DUEL HAS STARTED! ID: {duel} ==="

/-- How to hand in a solution. -/
def hint : String :=
  "To send a solution, use: submit <path_to_file>"

/-- Presents the opponent and the task of a duel to the player. -/
def present (duel : Int64) : Errand (Session σ) Unit := do
  match ← venue.link.duel duel with
  | .error e => notify s!"Could not load the duel information: {e.message}"
  | .ok summary =>
    -- opponent and task are noted even if nothing more of them can be shown
    restand (σ := σ) (Standing.learn summary.opponent summary.task)
    let nickname := match ← venue.link.player summary.opponent with
      | .ok player => player.nickname
      | .error _ => "Unknown"
    notify s!"Opponent: {nickname}"
    match ← venue.link.sheet summary.task with
    | .ok sheet => notify sheet.text
    | .error e => notify s!"Could not load the task: {e.message}"

/-- Takes the start of a duel. -/
def started (duel : Int64) (opponent : Option Int64) (task : Option String) :
    Errand (Session σ) Flow := do
  if ← attempt (σ := σ) (Standing.begin? duel opponent task) then
    notify (banner duel)
    present venue duel
    notify hint
    return .proceed
  else return .proceed

/-! ### The end of a duel -/

/-- Announces the result of a duel, and hands it on if it could be fetched. -/
def announce (duel : Int64) : Errand (Session σ) (Option DuelResult) := do
  match ← venue.link.duel duel with
  | .ok summary =>
    notify s!"=== DUEL RESULT: {summary.result.headline} ==="
    return some summary.result
  | .error e =>
    notify s!"Could not load the duel result: {e.message}"
    return none

/-- Closes the duel, which is handed on as it goes down. -/
def closeDuel (result : Option DuelResult) : Play σ (Option Duel) := fun s =>
  (s.standing.outcome result, { s with standing := s.standing.close })

/-- Raises the stop signal. -/
def raise : Play σ Unit :=
  onCrew (Crew.raise venue.link venue.hangs)

/-- Tells the audience of the end, once. -/
def tell (closing : Closing) : Play σ Unit :=
  modify fun s => match s.audience with
    | some audience => { s with audience := none, told := some (audience, closing) }
    | none => s

/-- Takes the end of a duel. -/
def finished (duel : Int64) : Errand (Session σ) Flow := do
  if ← attempt (σ := σ) (Standing.finish? duel) then
    let result ← announce venue duel
    let outcome ← closeDuel (σ := σ) result
    raise venue
    let givenUp ← onCrew (σ := σ) Crew.join
    restand (σ := σ) (Standing.enter .over)
    -- last, because whoever is told may leave the program
    tell (σ := σ) { duel := outcome, givenUp }
    return .stop
  else return .proceed

/-! ### Events -/

/-- Takes an event. Once the session is over there is nothing to take. -/
def take (e : Event) : Errand (Session σ) Flow := do
  if (← get).standing.phase = .over then return .stop
  else match e with
    | .started duel opponent task => started venue duel opponent task
    | .finished duel => finished venue duel

/-- The session as the handler of its events. -/
def handler : Handler (Session σ) where
  handle := take venue
  raised s := s.crew.raised

end Duelist.Session
