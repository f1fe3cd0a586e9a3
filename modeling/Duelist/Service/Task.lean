import Duelist.Json.Record
/-!
# Tasks

The description of a task. Statement and samples are named files of the task, fetched one by one;
`Sheet` is a task with those files that could be fetched, and `Sheet.text` is what the player gets
to read.
-/

namespace Duelist

/-- A sample of a task: the files that hold its input and the output expected for it. -/
structure Sample where
  /-- The label of the sample. -/
  order : UInt32
  /-- The file with the input. -/
  input : String
  /-- The file with the expected output. -/
  output : String
  deriving Repr, DecidableEq

/-- Reads a sample. -/
def Sample.ofJson? (v : Json) : Option Sample := do
  let field ← v.record? ["order", "input", "output"]
  return {
    order := ← Json.required Json.uint32? (field "order")
    input := ← Json.required Json.string? (field "input")
    output := ← Json.required Json.string? (field "output") }

/-- A task: its limits and the names of its files. -/
structure Task where
  /-- The title. -/
  title : String
  /-- The time limit in milliseconds. -/
  timeLimit : UInt64
  /-- The memory limit in megabytes. -/
  memoryLimit : UInt64
  /-- The file with the statement. -/
  statement : String
  /-- The samples, in the order of the service. -/
  samples : List Sample
  deriving Repr, DecidableEq

/-- Reads the inner record of a task. -/
def Task.ofInner? (v : Json) : Option Task := do
  let field ← v.record? ["title", "tl", "ml", "statement", "tests"]
  return {
    title := ← Json.required Json.string? (field "title")
    timeLimit := ← Json.required Json.uint64? (field "tl")
    memoryLimit := ← Json.required Json.uint64? (field "ml")
    statement := ← Json.required Json.string? (field "statement")
    samples := ← Json.defaulted [] (Json.list? Sample.ofJson?) (field "tests") }

/-- Reads a task, which is wrapped into a record of its own. -/
def Task.ofJson? (v : Json) : Option Task := do
  let field ← v.record? ["task"]
  Json.required Task.ofInner? (field "task")

/-- A sample whose two files have been fetched. -/
structure SampleText where
  /-- The label of the sample. -/
  order : UInt32
  /-- The input. -/
  input : String
  /-- The output expected for it. -/
  output : String
  deriving Repr, DecidableEq

/-- A sample as the player sees it. -/
def SampleText.text (s : SampleText) : String :=
  s!"\n\nTest {s.order}:\nInput:\n{s.input}\nExpected output:\n{s.output}"

/-- A task with those of its files that could be fetched. -/
structure Sheet where
  /-- The task. -/
  task : Task
  /-- The statement, if it could be fetched. -/
  statement : Option String
  /-- The samples both of whose files could be fetched, in the order of the service. -/
  samples : List SampleText
  deriving Repr, DecidableEq

/-- The task as the player sees it: title and limits, the statement if there is one, and the
samples. -/
def Sheet.text (s : Sheet) : String :=
  let head := s!"=== TASK: {s.task.title} ===\n" ++
    s!"Limits: TL={s.task.timeLimit}ms, ML={s.task.memoryLimit}MB"
  let statement := match s.statement with
    | some text => s!"\n\n--- STATEMENT ---\n{text}"
    | none => ""
  head ++ statement ++ "\n\n--- TESTS ---" ++ String.join (s.samples.map SampleText.text)

end Duelist
