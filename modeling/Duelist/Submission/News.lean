import Duelist.Failure
import Duelist.Service.Grading
/-!
# News of a submission

What the player is told while a submission is graded. The service is asked again and again; a
message that it repeats is shown once, a complaint about the tokens is shown once for each
submission, and the verdict is shown at the end.
-/

namespace Duelist

/-- Keeps messages from being repeated: remembers the last one that passed. -/
structure MessageFilter where
  /-- The last message that passed. -/
  last : Option String := none
  deriving Repr, DecidableEq

namespace MessageFilter

/-- Lets a message pass if it is not empty and differs from the last one that passed. -/
def passes (f : MessageFilter) (message : Option String) : Bool :=
  match message with
  | some text => !text.isEmpty && f.last != some text
  | none => false

/-- The filter after a message was offered to it. -/
def next (f : MessageFilter) (message : Option String) : MessageFilter :=
  if f.passes message then ⟨message⟩ else f

/-- For each of several messages in turn, whether it passes. -/
def passesEach : MessageFilter → List (Option String) → List Bool
  | _, [] => []
  | f, message :: messages => f.passes message :: (f.next message).passesEach messages

end MessageFilter

/-- What is remembered of the news of one submission. -/
structure Memory where
  /-- The messages shown so far. -/
  filter : MessageFilter := {}
  /-- True once a complaint about the tokens was shown. -/
  complained : Bool := false
  deriving Repr, DecidableEq

namespace Grading

/-- The last news of a submission: its verdict, and the message if there is one. -/
def report (id : Int64) (g : Grading) : String :=
  let verdict := g.verdict.getD "Unknown"
  let message := match g.message with
    | some text => if text.isEmpty then "" else s!"\nMessage: {text}"
    | none => ""
  s!"=== SUBMISSION {id} RESULT ===\nVerdict: {verdict}" ++ message

/-- A message of the grader. -/
def messageNotice (id : Int64) (text : String) : String :=
  s!"Submission {id}: {text}"

end Grading

/-- The complaint that the service no longer accepts the tokens. -/
def Failure.complaint (id : Int64) (e : Failure) : String :=
  s!"Submission {id}: cannot check the status, {e.message}. Log in again to follow it."

namespace Memory

/-- The notices that an answer of the service calls for, in order. -/
def notices (m : Memory) (id : Int64) : Except Failure Grading → List String
  | .ok g =>
    (if m.filter.passes g.message then [Grading.messageNotice id (g.message.getD "")] else [])
      ++ (if g.isDone then [g.report id] else [])
  | .error e => if e.isAboutTokens && !m.complained then [e.complaint id] else []

/-- The memory after an answer of the service. -/
def next (m : Memory) : Except Failure Grading → Memory
  | .ok g => { m with filter := m.filter.next g.message }
  | .error e => { m with complained := m.complained || e.isAboutTokens }

end Memory

/-- True of the answer after which there is no news. -/
def isLastNews : Except Failure Grading → Bool
  | .ok g => g.isDone
  | .error _ => false

end Duelist
