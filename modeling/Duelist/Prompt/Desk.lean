import Duelist.Prompt.Loop
import Duelist.Session.Seat
/-!
# The desk

A player's seat with the keyboard in front of it. Bytes from the keyboard are cut into lines; a line
that is not UTF-8 ends the input. One prompt may run at a time. What is typed while none runs is
lost.
-/

namespace Duelist

/-- A running prompt. -/
structure Prompt where
  /-- Its number. -/
  number : Nat
  /-- The bytes of the line that is not finished yet. -/
  unread : List UInt8 := []

/-- A seat and its keyboard. -/
structure Desk (σ : Type) where
  /-- The seat. -/
  seat : Seat σ
  /-- The running prompt. -/
  prompt : Option Prompt := none
  /-- The number of prompts so far. -/
  opened : Nat := 0

/-- The messages that are typed lines, up to the first one that is not UTF-8. -/
def Message.ofLines : List (List UInt8) → List Message
  | [] => []
  | typed :: rest =>
    match Utf8.text? typed with
    | some text => .line text :: ofLines rest
    | none => [.closed]

/-- The messages at the end of the input, when `unread` was typed after the last line. -/
def Message.atEnd (unread : List UInt8) : List Message :=
  (if unread.isEmpty then [] else ofLines [unread]) ++ [.closed]

/-- What a prompt does. -/
inductive Prompting where
  /-- It was started just now, or goes on. -/
  | running
  /-- It was running before. -/
  | alreadyRunning
  /-- There is none. -/
  | absent
  /-- It has ended. -/
  | left (exit : Exit)
  deriving Repr, DecidableEq

namespace Desk

variable {σ : Type} (venue : Venue σ)

/-- The session. -/
def session (desk : Desk σ) : Session σ :=
  desk.seat.session

/-- Acts on the seat. -/
def inSeat {α : Type} (act : StateM (Seat σ) α) : StateM (Desk σ) α := fun desk =>
  ((act desk.seat).1, { desk with seat := (act desk.seat).2 })

/-- Acts on the session. -/
def inSession {α : Type} (act : Play σ α) : StateM (Desk σ) α :=
  inSeat (Seat.inSession act)

/-- Starts a prompt unless one is running. -/
def openPrompt : StateM (Desk σ) Prompting := do
  match (← get).prompt with
  | some _ => return .alreadyRunning
  | none =>
    let number := (← get).opened
    modify fun desk => { desk with prompt := some { number }, opened := number + 1 }
    inSession (Session.openPrompt number)
    return .running

/-- The end of the session, if the running prompt is the one to be told of it and has not taken it
yet. -/
def tidings (desk : Desk σ) : List Message :=
  match desk.prompt, desk.session.told with
  | some prompt, some (.prompt number, closing) =>
    if number = prompt.number then [.over closing] else []
  | _, _ => []

/-- Hands messages to the running prompt, which then keeps `unread` for later. The end of the
session goes before them. -/
def pass (messages : List Message) (unread : List UInt8) : StateM (Desk σ) Prompting := do
  let desk ← get
  match desk.prompt with
  | none => return .absent
  | some prompt =>
    match ← inSession (Session.obeyAll venue (desk.tidings ++ messages)) with
    | some exit =>
      modify fun desk => { desk with prompt := none }
      return .left exit
    | none =>
      modify fun desk => { desk with prompt := some { prompt with unread } }
      return .running

/-- Takes bytes from the keyboard. -/
def type (bytes : List UInt8) : StateM (Desk σ) Prompting := do
  match (← get).prompt with
  | none => return .absent
  | some prompt =>
    let (lines, unread) := Text.cutLines (prompt.unread ++ bytes)
    pass venue (Message.ofLines lines) unread

/-- Takes the end of the input. An unfinished last line is a line like any other. -/
def endInput : StateM (Desk σ) Prompting := do
  match (← get).prompt with
  | none => return .absent
  | some prompt => pass venue (Message.atEnd prompt.unread) []

/-- Lets the running prompt take the end of the session, if it was told of it. -/
def collect : StateM (Desk σ) (Option Exit) := do
  match (← get).prompt with
  | none => return none
  | some prompt =>
    match ← pass venue [] prompt.unread with
    | .left exit => return some exit
    | _ => return none

end Desk

end Duelist
