/-!
# Failures

All that can go wrong while a duel is played, as causes; `message` words them for the player. None
of them ends the program: the operation that met one is given up.
-/

namespace Duelist

/-- Why a solution is not sent, or the queue not joined. Found out without asking the service. -/
inductive Refusal where
  /-- Solutions are accepted while a duel runs. -/
  | noDuel
  /-- The player already waits or plays. -/
  | alreadyQueued
  /-- There is no such file. -/
  | missingFile (path : String)
  /-- The file is there and is not readable text. -/
  | unreadableFile (path reason : String)
  /-- Nothing is known about files with this extension. -/
  | unknownExtension (extension : String)
  deriving Repr, DecidableEq

/-- The wording of a refusal. -/
def Refusal.message : Refusal → String
  | .noDuel => "you are not in an active duel"
  | .alreadyQueued => "you are already in a duel or waiting for one"
  | .missingFile path => s!"file {path} not found"
  | .unreadableFile path reason => s!"could not read {path}: {reason}"
  | .unknownExtension extension =>
    s!"unsupported file extension '{extension}', use one of .py, .cpp, .go"

/-- Why something that the service sent has no meaning. -/
inductive Misfit where
  /-- The body of a reply broke off, or is not UTF-8. -/
  | unreadable
  /-- The body of a reply is not the record that was asked for. -/
  | notRecord (body : String)
  /-- The payload of an event is not what its type asks for. -/
  | payload
  deriving Repr, DecidableEq

/-- The wording of a misfit. What exactly is wrong with a payload is not told. -/
def Misfit.message : Misfit → String
  | .unreadable => "could not read response body"
  | .notRecord body => s!"invalid JSON body: '{body}'"
  | .payload => "<json>"

/-- What can go wrong between the client and the service. -/
inductive Failure where
  /-- The tokens could not be refreshed: the service answered with `status`, or there was no
  refresh token to send. -/
  | notSignedIn (status : Option UInt16)
  /-- The event stream could not be opened, or broke. -/
  | streamLost (reason : String)
  /-- Refused without asking the service. -/
  | refused (why : Refusal)
  /-- The service answered with a status other than 200. -/
  | rejected (status : UInt16) (body : String)
  /-- The service could not be reached. -/
  | unreachable (reason : String)
  /-- The service sent something without a meaning. -/
  | misfit (what : Misfit)
  deriving Repr, DecidableEq

namespace Failure

/-- The wording of a failure. -/
def message : Failure → String
  | .notSignedIn none => "authentication failed"
  | .notSignedIn (some status) => s!"authentication failed ({status})"
  | .streamLost reason => s!"connection lost: {reason}"
  | .refused why => why.message
  | .rejected status body => s!"server error {status}: {body}"
  | .unreachable reason => s!"request failed: {reason}"
  | .misfit what => s!"unexpected response: {what.message}"

/-- True if signing in again may help: the tokens could not be refreshed, or were not accepted
although they were fresh. -/
def isAboutTokens : Failure → Bool
  | .notSignedIn _ => true
  | .rejected status _ => status == 401
  | _ => false

end Failure

end Duelist
