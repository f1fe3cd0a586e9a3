import Duelist.Exchange.Asking
import Duelist.Service.Duel
import Duelist.Service.Grading
import Duelist.Service.Task
import Duelist.Solution.Extension
/-!
# Endpoints

The questions that the client asks of the service, as errands. All but the event stream take nothing
but the status 200 for an answer, and read the body as the record that the question is about.
-/

namespace Duelist

/-! ### Queries -/

namespace Query

/-- Opens the event stream. -/
def events : Query :=
  .stream "/duels/connect"

/-- Asks for a duel. -/
def duel (id : Int64) : Query :=
  .get s!"/duels/{id}"

/-- Asks for the profile of a player. -/
def player (id : Int64) : Query :=
  .get s!"/users/{id}"

/-- Asks for a task. -/
def task (id : String) : Query :=
  .get s!"/task/{id}"

/-- Asks for a file of a task. -/
def taskFile (task file : String) : Query :=
  .get s!"/task/{task}/{file}"

/-- Hands in a solution. -/
def solution (duel : Int64) (solution : String) (language : Language) : Query :=
  .post s!"/duels/{duel}/submissions"
    (.strings [("language", language.name), ("solution", solution)])

/-- Asks how the grading of a submission goes. -/
def grading (duel submission : Int64) : Query :=
  .get s!"/duels/{duel}/submissions/{submission}"

end Query

/-! ### Results -/

/-- The body of a successful reply as a record. -/
def recordOf {α : Type} (read : Json → Option α) (result : Except Failure Reply) :
    Except Failure α := do
  let reply ← (← result).success
  (reply.record read).mapError .misfit

/-- The body of a successful reply as text. -/
def textOf (result : Except Failure Reply) : Except Failure String := do
  let reply ← (← result).success
  reply.text.mapError .misfit

/-! ### Questions -/

namespace Link

variable {σ : Type} (link : Link σ)

/-- Opens the event stream. The reply is handed on whatever its status. -/
def openEvents : Errand (World σ) (Except Failure Reply) :=
  link.request .events

/-- The opponent, the task and the result of a duel. -/
def duel (id : Int64) : Errand (World σ) (Except Failure DuelSummary) :=
  return recordOf DuelSummary.ofJson? (← link.ask (.duel id))

/-- The public profile of a player. -/
def player (id : Int64) : Errand (World σ) (Except Failure Player) :=
  return recordOf Player.ofJson? (← link.ask (.player id))

/-- A task. -/
def task (id : String) : Errand (World σ) (Except Failure Task) :=
  return recordOf Task.ofJson? (← link.ask (.task id))

/-- A file of a task, as it is. -/
def taskFile (task file : String) : Errand (World σ) (Except Failure String) :=
  return textOf (← link.ask (.taskFile task file))

/-- Hands in a solution; the result is the number given to the submission. -/
def handIn (duel : Int64) (solution : String) (language : Language) :
    Errand (World σ) (Except Failure Int64) :=
  return recordOf Grading.receipt? (← link.ask (.solution duel solution language))

/-- How the grading of a submission goes. -/
def grading (duel submission : Int64) : Errand (World σ) (Except Failure Grading) :=
  return recordOf Grading.ofJson? (← link.ask (.grading duel submission))

/-! ### Tasks with their files -/

/-- Fetches the files of samples, both of each one, and keeps the samples for which both came. -/
def sampleTexts (task : String) : List Sample → Errand (World σ) (List SampleText)
  | [] => return []
  | sample :: samples => do
    let input ← link.taskFile task sample.input
    let output ← link.taskFile task sample.output
    let rest ← sampleTexts task samples
    match input, output with
    | .ok input, .ok output => return { order := sample.order, input, output } :: rest
    | _, _ => return rest

/-- Fetches a task and its files. -/
def sheet (id : String) : Errand (World σ) (Except Failure Sheet) := do
  match ← link.task id with
  | .error e => return .error e
  | .ok task =>
    let statement ← link.taskFile id task.statement
    let samples ← link.sampleTexts id task.samples
    return .ok { task, statement := statement.toOption, samples }

end Link

end Duelist
