import Duelist.Prompt.Command
import Duelist.Session.HandingIn
/-!
# The prompt

The prompt takes one message after another, be it a typed line, the end of the input or the end of
the session, and goes on until one of the latter two. A line is carried out before the next message
is looked at.
-/

namespace Duelist

/-- What reaches the prompt. -/
inductive Message where
  /-- A line was typed. -/
  | line (text : String)
  /-- The input came to its end, or could not be read any further. -/
  | closed
  /-- The session is over. -/
  | over (closing : Closing)
  deriving Repr, DecidableEq

/-- Why the prompt is left. -/
inductive Exit where
  /-- The session is over. -/
  | sessionOver (closing : Closing)
  /-- There is no more input. -/
  | inputClosed
  deriving Repr, DecidableEq

/-- How a solution that was not handed in is told of. -/
def Failure.submitNotice : Failure → String
  | .refused why => s!"Cannot submit: {why.message}"
  | .rejected status body => s!"Submission rejected: {status} - {body}"
  | e => s!"Submission failed: {e.message}"

namespace Session

variable {σ : Type} (venue : Venue σ)

/-- Carries out a command. -/
def execute : Command → Play σ Unit
  | .empty => return ()
  | .usage => say "Usage: submit <path_to_file>"
  | .unknown _ => say "Unknown command. Available commands: submit"
  | .submit path => do
    match ← handIn venue path with
    | .ok _ => return ()
    | .error e => say e.submitNotice

/-- Takes a message. -/
def obey : Message → Play σ (Option Exit)
  | .line text => do
    execute venue (.ofLine text)
    showPrompt
    return none
  | .closed => do
    say "\nLeaving..."
    let _ ← leave venue
    return some .inputClosed
  | .over closing => return some (.sessionOver closing)

/-- Takes messages in order until one of them makes the prompt end. -/
def obeyAll : List Message → Play σ (Option Exit)
  | [] => return none
  | message :: messages => do
    match ← obey venue message with
    | some exit => return some exit
    | none => obeyAll messages

/-- Shows the first prompt, after which the prompt numbered `number` is the one to be told of the
end of the session, and nobody else. -/
def openPrompt (number : Nat) : Play σ Unit := do
  modify fun s => { s with audience := some (.prompt number) }
  showPrompt

end Session

end Duelist
