import Duelist.Display
import Duelist.Exchange.Reply
import Duelist.Exchange.Request
import Duelist.Service.Tokens
/-!
# The world of a player

A service is anything that answers requests; its answers may depend on all that was sent before,
which the type `σ` remembers. The world is what all parts of the client act on: the service as it
now is, the stored tokens, and the transcript of what was sent and shown.
-/

namespace Duelist

/-- An entry of the transcript. -/
inductive Entry where
  /-- A request, and what became of it. -/
  | sent (request : Request) (outcome : Outcome)
  /-- A line on the display. -/
  | shown (line : Line)

namespace Entry

/-- The line that was shown. -/
def line? : Entry → Option Line
  | .shown line => some line
  | .sent _ _ => none

/-- The request that was sent, with its outcome. -/
def exchange? : Entry → Option (Request × Outcome)
  | .sent request outcome => some (request, outcome)
  | .shown _ => none

end Entry

/-- The way to a service: its address, and how it answers. -/
structure Link (σ : Type) where
  /-- The address put in front of every path. -/
  base : String
  /-- The answer to a request, and the service afterwards. -/
  answer : Request → σ → Outcome × σ

/-- What the client acts on. -/
structure World (σ : Type) where
  /-- The service. -/
  service : σ
  /-- The stored tokens. -/
  tokens : Tokens := {}
  /-- What was sent and shown, oldest first. -/
  transcript : List Entry := []

namespace World

variable {σ : Type}

/-- What was shown, oldest first. -/
def lines (w : World σ) : List Line :=
  w.transcript.filterMap Entry.line?

/-- What was sent, oldest first. -/
def exchanges (w : World σ) : List (Request × Outcome) :=
  w.transcript.filterMap Entry.exchange?

/-- Adds an entry to the transcript. -/
def note (entry : Entry) (w : World σ) : World σ :=
  { w with transcript := w.transcript ++ [entry] }

end World

/-- Something done in the world. -/
abbrev Act (σ : Type) := StateM (World σ)

namespace Act

variable {σ : Type}

/-- Puts a line on the display. -/
def put (line : Line) : Act σ Unit :=
  modify (World.note (.shown line))

/-- Answers what was typed. -/
def say (text : String) : Act σ Unit :=
  put (.say text)

/-- Tells the player something. -/
def notify (text : String) : Act σ Unit :=
  put (.notify text)

/-- Reads both tokens at once. -/
def tokens : Act σ Tokens :=
  return (← get).tokens

/-- Replaces both tokens at once. -/
def store (tokens : Tokens) : Act σ Unit :=
  modify fun w => { w with tokens }

end Act

namespace Link

variable {σ : Type}

/-- Sends a request and waits for the reply. -/
def exchange (link : Link σ) (request : Request) : Act σ Outcome := do
  let (outcome, service) := link.answer request (← get).service
  modify fun w => { w with service }
  modify (World.note (.sent request outcome))
  return outcome

/-- Sends `q`, with the access token `token` unless it is empty. -/
def send (link : Link σ) (q : Query) (token : String) : Act σ (Except Failure Reply) := do
  let bearer := if token.isEmpty then none else some token
  let outcome ← link.exchange (.ofQuery link.base q bearer)
  return outcome.mapError Failure.ofReasons

/-- Sends `q` without a token. -/
def sendAnonymously (link : Link σ) (q : Query) : Act σ (Except Failure Reply) := do
  let outcome ← link.exchange (.ofQuery link.base q none)
  return outcome.mapError Failure.ofReasons

end Link

end Duelist
