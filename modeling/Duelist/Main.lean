import Duelist.Exchange.SignIn
import Duelist.Prompt.Desk
import Duelist.Rehearsed
import Duelist.Session.Queueing
import Duelist.Settings
/-!
# The program

Signs the player in, joins the queue and runs the prompt on standard input and output. The program
does not bring a network with it: it plays against `Link.unreachable`, so that signing in fails as
it does when the service is down.
-/

namespace Duelist

/-- Asks for a line of input. -/
def ask (question : String) : IO String := do
  let output ← IO.getStdout
  output.putStr question
  output.flush
  return Text.trim (← (← IO.getStdin).getLine)

/-- Shows what was put on the display since the transcript had `seen` entries. -/
def display {σ : Type} (seen : Nat) (w : World σ) : IO Unit := do
  let recent := { w with transcript := w.transcript.drop seen }
  let output ← IO.getStdout
  output.putStr (String.join (recent.lines.map Line.rendered))
  output.flush

/-- Does something at the desk and shows what came of it. -/
def perform {σ α : Type} (act : StateM (Desk σ) α) (desk : Desk σ) : IO (α × Desk σ) := do
  let (a, after) := act.run desk
  display desk.session.world.transcript.length after.session.world
  return (a, after)

/-- Passes typed lines on until the prompt is left. -/
partial def runPrompt {σ : Type} (venue : Venue σ) (desk : Desk σ) : IO Unit := do
  let line ← (← IO.getStdin).getLine
  let act := if line.isEmpty then Desk.endInput venue else Desk.type venue (Utf8.bytes line)
  match ← perform act desk with
  | (.running, desk) => runPrompt venue desk
  | _ => return ()

/-- Plays a session from signing in to the end of the prompt. -/
def play {σ : Type} (venue : Venue σ) (service : σ) : IO Unit := do
  let nickname ← ask "Login: "
  let password ← ask "Password: "
  let desk : Desk σ := { seat := { session := Session.begin service {} } }
  let say (text : String) := Desk.inSession (σ := σ) (Session.say text)
  let (signedIn, desk) ←
    perform (Desk.inSession (Session.inWorld (venue.link.signIn nickname password))) desk
  match signedIn with
  | .error e => let _ ← perform (say s!"Authentication error: {e.message}") desk
  | .ok () =>
    let (_, desk) ← perform (say "\nWelcome!") desk
    let (queued, desk) ← perform (Desk.inSeat (Seat.joinQueue venue)) desk
    match queued with
    | .error e => let _ ← perform (say s!"Could not join the duel queue: {e.message}") desk
    | .ok () =>
      let (_, desk) ← perform Desk.openPrompt desk
      runPrompt venue desk

/-- The settings made by the environment and by the arguments, which win. -/
def settings (arguments : List String) : IO (Except String Settings) := do
  let mut values : List (String × List UInt8) := []
  for name in Settings.variableNames do
    match ← IO.getEnv name with
    | some value => values := (name, Utf8.bytes value) :: values
    | none => pure ()
  let base := Settings.ofEnvironment fun name => values.lookup name
  return (Settings.changesOfArguments arguments).map base.applyAll

end Duelist

/-- Runs the program. -/
def main (arguments : List String) : IO UInt32 := do
  match ← Duelist.settings arguments with
  | .error argument =>
    (← IO.getStderr).putStrLn s!"error: unexpected argument '{argument}' found"
    return 2
  | .ok settings =>
    Duelist.play { link := Duelist.Link.unreachable settings.base } ()
    return 0
