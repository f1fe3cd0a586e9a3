import Duelist.Exchange.Endpoints
import Duelist.Submission.News
/-!
# Followers

A follower asks the service how the grading of one submission goes, tells the player the news, and
asks again until there is a verdict or the stop signal is raised. Between two moves it is at rest:
it is about to send its question and has already read the token that goes with it. A move sends the
question and does all that follows, up to the next question to be sent. When the token is refused,
that is the same question with a fresh token; the refresh itself is not waited for.

The stop signal is looked at before a new question is begun and never in the middle of one.
-/

namespace Duelist

/-- What a follower is doing. -/
inductive Pursuit where
  /-- About to take the next step of `call`. -/
  | asking (call : Call)
  /-- Done. -/
  | ended

/-- A follower of one submission. -/
structure Follower where
  /-- The duel. -/
  duel : Int64
  /-- The submission. -/
  submission : Int64
  /-- What the player was told. -/
  memory : Memory := {}
  /-- What the follower is doing. -/
  pursuit : Pursuit

namespace Follower

variable {σ : Type} (link : Link σ)

/-- True once the follower is done. -/
def hasEnded (f : Follower) : Bool :=
  match f.pursuit with
  | .ended => true
  | .asking _ => false

/-- The follower about to ask from the start. -/
def asksAgain (f : Follower) : Follower :=
  { f with pursuit := .asking (.reading (.grading f.duel f.submission)) }

/-- The follower when it is done. -/
def stopped (f : Follower) : Follower :=
  { f with pursuit := .ended }

/-- Tells the player the news in an answer. -/
def tell (f : Follower) (answer : Except Failure Grading) : Act σ Follower := do
  (f.memory.notices f.submission answer).forM Act.notify
  return { f with memory := f.memory.next answer }

/-- Takes the end of a call: tells the news, and stops after the last news or if the stop signal is
raised. -/
def hear (raised : Bool) (f : Follower) (result : Except Failure Reply) : Act σ Follower := do
  let answer := recordOf Grading.ofJson? result
  let f ← f.tell answer
  return if isLastNews answer || raised then f.stopped else f.asksAgain

/-- Goes on up to the next question to be sent. -/
def settle (f : Follower) : Act σ Follower :=
  match f.pursuit with
  | .ended => return f
  | .asking call => return { f with pursuit := .asking (← call.settle link) }

/-- A new follower, which has read its token and is at rest. -/
def start (duel submission : Int64) : Act σ Follower :=
  settle link (asksAgain { duel, submission, pursuit := .ended })

/-- Makes one move. -/
def move (raised : Bool) (f : Follower) : Act σ Follower :=
  match f.pursuit with
  | .ended => return f
  | .asking call => do
    match ← (← call.step link).settle link with
    | .finished result => settle link (← hear raised f result)
    | call => return { f with pursuit := .asking call }

/-- Ends under a raised stop signal: brings the question under way to its end, tells the news, and
stops. -/
def conclude (f : Follower) : Act σ Follower :=
  match f.pursuit with
  | .ended => return f
  | .asking call => do hear true f (← call.complete link)

end Follower

end Duelist
