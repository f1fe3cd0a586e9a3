import Duelist.Json.Record
/-!
# Gradings

What the service tells about a submission while it is graded.
-/

namespace Duelist

/-- How far the grading of a submission has come. -/
inductive GradingStatus where
  /-- Tests are being run. -/
  | running
  /-- There is a verdict. -/
  | done
  /-- Not begun, or in a state of another name. -/
  | pending
  deriving Repr, DecidableEq, Inhabited

/-- The status with the given name; a name that is not known stands for a pending one. -/
def GradingStatus.ofName (name : String) : GradingStatus :=
  if name = "Running" then .running
  else if name = "Done" then .done
  else .pending

/-- Reads a status. -/
def GradingStatus.ofJson? (v : Json) : Option GradingStatus :=
  v.choice?.map ofName

/-- A submission as the grader sees it. -/
structure Grading where
  /-- How far the grading has come. -/
  status : GradingStatus := .pending
  /-- The verdict, once there is one. -/
  verdict : Option String := none
  /-- What the grader has to say. -/
  message : Option String := none
  deriving Repr, DecidableEq, Inhabited

/-- True once there will be no further news. -/
def Grading.isDone (g : Grading) : Bool :=
  g.status == .done

/-- Reads a grading. -/
def Grading.ofJson? (v : Json) : Option Grading := do
  let field ← v.record? ["status", "verdict", "message"]
  return {
    status := ← Json.defaulted .pending GradingStatus.ofJson? (field "status")
    verdict := ← Json.defaulted none (Json.nullable Json.string?) (field "verdict")
    message := ← Json.defaulted none (Json.nullable Json.string?) (field "message") }

/-- Reads the number given to a new submission. -/
def Grading.receipt? (v : Json) : Option Int64 := do
  let field ← v.record? ["submission_id"]
  Json.required Json.int64? (field "submission_id")

end Duelist
