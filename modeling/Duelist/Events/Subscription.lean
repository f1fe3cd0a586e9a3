import Duelist.Exchange.Errand
import Duelist.Events.Framing
import Duelist.Text.Lines
/-!
# Subscriptions

Reading the event stream. The bytes are cut into lines, each line is decoded and framed, and each
event is handed to a handler, one at a time and in the order of arrival. Before it waits for a line
the reader looks at the stop signal; a reader that already waits notices the signal only after the
next line. There is no second attempt: when the stream ends or breaks, reading is over.

To handle an event is an errand. While it waits, so does the reader.
-/

namespace Duelist

/-- Whether to read on after an event. -/
inductive Flow where
  /-- Read on. -/
  | proceed
  /-- Stop reading. -/
  | stop
  deriving Repr, DecidableEq

/-- Who takes the events, acting on a state of type `τ`. -/
structure Handler (τ : Type) where
  /-- Takes one event. -/
  handle : Event → Errand τ Flow
  /-- True once the stop signal is raised. -/
  raised : τ → Bool

/-- Why reading is over. -/
inductive StreamEnd where
  /-- The service closed the stream. -/
  | closed
  /-- The handler wanted no more, or the stop signal was raised. -/
  | stopped
  /-- Something went wrong. -/
  | failed (e : Failure)

/-- What the player is told about the end of the stream, if anything. -/
def StreamEnd.notice? : StreamEnd → Option String
  | .closed => some "The server closed the event stream."
  | .stopped => none
  | .failed e => some s!"Connection error: {e.message}"

/-- A reader that waits for the rest of a line. -/
structure Subscription where
  /-- What is remembered from earlier lines. -/
  framer : Framer := {}
  /-- The bytes of the line that is not finished yet. -/
  unread : List UInt8 := []

namespace Subscription

variable {τ : Type} (handler : Handler τ)

/-- Goes on with `a`, unless the stop signal is raised. -/
def unlessRaised {α : Type} (a : α) : StateM τ (Except StreamEnd α) := do
  if handler.raised (← get) then return .error .stopped else return .ok a

/-- Reads a line, up to the wait for the next one. -/
def readLine (line : List UInt8) (f : Framer) : Errand τ (Except StreamEnd Framer) := do
  match Utf8.text? line with
  | none => return .error (.failed (.streamLost Utf8.complaint))
  | some text =>
    match f.take text with
    | (.misfit, _) => return .error (.failed (.misfit .payload))
    | (.event e, f) =>
      -- the signal is not looked at while the event is handled
      match ← handler.handle e with
      | .stop => return .error .stopped
      | .proceed => unlessRaised handler f
    | (_, f) => unlessRaised handler f

/-- Reads lines in order. -/
def readLines : List (List UInt8) → Framer → Errand τ (Except StreamEnd Framer)
  | [], f => return .ok f
  | line :: lines, f => do
    match ← readLine handler line f with
    | .error ending => return .error ending
    | .ok f => readLines lines f

/-- Begins to wait for the first line. -/
def start : StateM τ (Except StreamEnd Subscription) :=
  unlessRaised handler {}

/-- Takes bytes that have arrived. -/
def receive (s : Subscription) (bytes : List UInt8) : Errand τ (Except StreamEnd Subscription) := do
  let (lines, unread) := Text.cutLines (s.unread ++ bytes)
  match ← readLines handler lines s.framer with
  | .error ending => return .error ending
  | .ok framer => return .ok { framer, unread }

/-- Takes the end of the stream. A last line without a line feed is a line like any other; if the
stream broke, it is dropped. -/
def finish (s : Subscription) : Option String → Errand τ StreamEnd
  | some reason => return .failed (.streamLost reason)
  | none => do
    if s.unread.isEmpty then return .closed
    else match ← readLine handler s.unread s.framer with
      | .error ending => return ending
      | .ok _ => return .closed

/-- The body of the event stream, in the reply to the query that opens it. -/
def body : Except Failure Reply → Except Failure Body
  | .error (.unreachable reason) => .error (.streamLost reason)
  | .error e => .error e
  | .ok reply =>
    if reply.isSuccess then .ok reply.body
    else .error (.streamLost s!"server answered {reply.status}")

/-- Reads a body: all of it, or up to the wait for the first line if it is still being written. -/
def readBody : Body → Errand τ (Except StreamEnd Subscription)
  | .live => start handler
  | .whole content => do
    match ← start handler with
    | .error ending => return .error ending
    | .ok s =>
      -- the whole body is there, so that nothing has to be waited for but the handler
      match ← receive handler s content.bytes with
      | .error ending => return .error ending
      | .ok s => return .error (← finish handler s content.failure)

/-- Begins to read from the reply to the query that opens the stream. -/
def follow (reply : Except Failure Reply) : Errand τ (Except StreamEnd Subscription) :=
  match body reply with
  | .error e => return .error (.failed e)
  | .ok b => readBody handler b

end Subscription

end Duelist
