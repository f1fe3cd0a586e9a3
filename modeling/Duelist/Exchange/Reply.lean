import Duelist.Failure
import Duelist.Json.Reading
import Duelist.Text.Utf8
/-!
# Replies

What comes back from the service: a status and a body that still has to be read. Reading a body may
fail halfway. Only the status 200 is a success.
-/

namespace Duelist

/-- What a body holds: bytes, after which reading ends, or fails with `failure`. -/
structure Content where
  /-- The bytes. -/
  bytes : List UInt8 := []
  /-- Why reading fails. -/
  failure : Option String := none
  deriving Repr, DecidableEq

/-- The content as text, unless reading fails or the bytes are not UTF-8. -/
def Content.text? (c : Content) : Option String :=
  match c.failure with
  | none => Utf8.text? c.bytes
  | some _ => none

/-- A body that has not been read yet. -/
inductive Body where
  /-- All of it is there. -/
  | whole (content : Content)
  /-- It is still being written. -/
  | live
  deriving Repr, DecidableEq

/-- An answer of the service. -/
structure Reply where
  /-- The status. -/
  status : UInt16
  /-- The body. -/
  body : Body
  deriving Repr, DecidableEq

/-- What becomes of a request: a reply, or the reasons why the service was not reached, the
outermost first. -/
abbrev Outcome := Except (List String) Reply

/-- What is there of a body; nothing if it is still being written. -/
def Body.content : Body → Content
  | .whole content => content
  | .live => {}

/-- What is there of a body as text. -/
def Body.text? (b : Body) : Option String :=
  b.content.text?

namespace Reply

/-- True of a reply that holds what was asked for. -/
def isSuccess (r : Reply) : Bool :=
  r.status == 200

/-- True if the access token was not accepted. -/
def isUnauthorized (r : Reply) : Bool :=
  r.status == 401

/-- The body as text. -/
def text (r : Reply) : Except Misfit String :=
  match r.body.text? with
  | some text => .ok text
  | none => .error .unreadable

/-- The body as a record. -/
def record {α : Type} (read : Json → Option α) (r : Reply) : Except Misfit α := do
  let text ← r.text
  match (Json.ofText? text).bind read with
  | some a => .ok a
  | none => .error (.notRecord text)

/-- The failure that a reply without success stands for. -/
def rejection (r : Reply) : Failure :=
  .rejected r.status (r.body.text?.getD "")

/-- Refuses all but a success. -/
def success (r : Reply) : Except Failure Reply :=
  if r.isSuccess then .ok r else .error r.rejection

/-- A reply as diagnostics show it, without its body. -/
def diagnostic (r : Reply) : String :=
  s!"ApiResponse \x7b status: {r.status}, .. \x7d"

end Reply

/-- The failure to reach the service for the given reasons, told in one line. -/
def Failure.ofReasons (reasons : List String) : Failure :=
  .unreachable (String.intercalate ": " reasons)

end Duelist
