import Duelist.Failure
import Duelist.Events.Basic
import Duelist.Text.Blank
/-!
# Framing

The event stream is a sequence of lines. A line `event:` announces a type, the next line `data:`
uses it up and carries the whole payload. All other lines, blank lines and lone colons among them,
are passed over.
-/

namespace Duelist

/-- A line of the event stream, without what is blank at its ends. -/
inductive StreamLine where
  /-- Announces a type. -/
  | announces (type : String)
  /-- Carries a payload. -/
  | carries (data : String)
  /-- Means nothing. -/
  | noise
  deriving Repr, DecidableEq

/-- Tells the kinds of line apart. -/
def StreamLine.ofText (line : String) : StreamLine :=
  let line := Text.trimmed line.toList
  match "event:".toList.isPrefixOf? line with
  | some type => .announces (.ofList (Text.trimmed type))
  | none =>
    match "data:".toList.isPrefixOf? line with
    | some data => .carries (.ofList (Text.trimmed data))
    | none => .noise

/-- What a line completes. -/
inductive Completion where
  /-- Nothing. -/
  | none
  /-- An event. -/
  | event (e : Event)
  /-- An event of a type without a meaning to the client. -/
  | foreign (type : String)
  /-- An event whose payload does not fit its type. -/
  | misfit
  deriving Repr, DecidableEq

/-- What is remembered from line to line: the type announced last, until it is used up. -/
structure Framer where
  /-- The announced type. -/
  pending : Option String := .none
  deriving Repr, DecidableEq

namespace Framer

/-- What an event of type `type` with payload `data` completes. -/
def complete (type data : String) : Completion :=
  match Event.decode type data with
  | .event e => .event e
  | .foreign => .foreign type
  | .misfit => .misfit

/-- Takes one line. -/
def take (f : Framer) (line : String) : Completion × Framer :=
  match StreamLine.ofText line with
  | .announces type => (.none, ⟨some type⟩)
  | .noise => (.none, f)
  | .carries data =>
    match f.pending with
    | some type => (complete type data, ⟨none⟩)
    | none => (.none, f)

/-- Takes the lines in order; the completions are those of the lines one by one. -/
def takeAll : Framer → List String → List Completion
  | _, [] => []
  | f, line :: lines => (f.take line).1 :: (f.take line).2.takeAll lines

end Framer

end Duelist
