import Duelist.Events.Basic
import Duelist.Exchange.Reply
import Duelist.Proofs.Encoding
import Duelist.Proofs.Reading
import Duelist.Proofs.Writing
import Duelist.Service.Duel
import Duelist.Service.Grading
import Duelist.Service.Task
import Duelist.Service.Tokens
/-!
# The wire format

How the service writes what it tells, one relation for each kind of body and of event, and that it
is read back from every text that writes it, of which there always is one (`WireFormat`). The
relations leave open what JSON leaves open: which members there are besides the fields, the order of
all of them, the gaps between tokens, and how the characters of a string are written.

The reading goes in two steps, from a text to the value that it writes down
(`Json.ofText?_of_isText`) and from there to the record (`Json.Reads`, one lemma for each kind).
-/

namespace Duelist

variable {α : Type}

/-! ### How it is written -/

/-- The names for a result. -/
def DuelResult.IsNamed : DuelResult → String → Prop
  | .win, name => name = "Win"
  | .lose, name => name = "Lose"
  | .draw, name => name = "Draw"
  | .pending, name => name ∉ ["Win", "Lose", "Draw"]

/-- The value tells the result. -/
def DuelResult.IsWritten (r : DuelResult) (v : Json) : Prop :=
  ∃ name, r.IsNamed name ∧ Json.Chooses name v

/-- The value tells of the duel. -/
def DuelSummary.IsWritten (d : DuelSummary) : Json → Prop :=
  Json.IsRecord [
    .must "id" (Json.IsInteger d.id.toInt),
    .must "task_id" (Json.IsString d.task),
    .must "opponent_id" (Json.IsInteger d.opponent.toInt),
    .may "result" (d.result = .pending) d.result.IsWritten]

/-- The value tells of the player. -/
def Player.IsWritten (p : Player) : Json → Prop :=
  Json.IsRecord [.must "nickname" (Json.IsString p.nickname)]

/-- The value tells of the sample. -/
def Sample.IsWritten (s : Sample) : Json → Prop :=
  Json.IsRecord [
    .must "order" (Json.IsInteger s.order.toNat),
    .must "input" (Json.IsString s.input),
    .must "output" (Json.IsString s.output)]

/-- The value tells of the task, without the record around it. -/
def Task.IsWrittenInside (t : Task) : Json → Prop :=
  Json.IsRecord [
    .must "title" (Json.IsString t.title),
    .must "tl" (Json.IsInteger t.timeLimit.toNat),
    .must "ml" (Json.IsInteger t.memoryLimit.toNat),
    .must "statement" (Json.IsString t.statement),
    .may "tests" (t.samples = []) (Json.IsList Sample.IsWritten t.samples)]

/-- The value tells of the task. -/
def Task.IsWritten (t : Task) : Json → Prop :=
  Json.IsRecord [.must "task" t.IsWrittenInside]

/-- Somewhere in the value a field of a task or of a sample is given twice. -/
def Task.Repeats (v : Json) : Prop :=
  Json.Repeats ["task"] v ∨ Json.Within "task" (fun inner =>
    Json.Repeats ["title", "tl", "ml", "statement", "tests"] inner ∨
      Json.Within "tests" (fun tests => ∃ samples, tests = .array samples ∧
        ∃ sample ∈ samples, Json.Repeats ["order", "input", "output"] sample) inner) v

/-- The names for a status. -/
def GradingStatus.IsNamed : GradingStatus → String → Prop
  | .running, name => name = "Running"
  | .done, name => name = "Done"
  | .pending, name => name ∉ ["Running", "Done"]

/-- The value tells the status. -/
def GradingStatus.IsWritten (s : GradingStatus) (v : Json) : Prop :=
  ∃ name, s.IsNamed name ∧ Json.Chooses name v

/-- The value tells of the grading. -/
def Grading.IsWritten (g : Grading) : Json → Prop :=
  Json.IsRecord [
    .may "status" (g.status = .pending) g.status.IsWritten,
    .may "verdict" (g.verdict = none) (Json.NullOr Json.IsString g.verdict),
    .may "message" (g.message = none) (Json.NullOr Json.IsString g.message)]

/-- The value tells the number of a new submission. -/
def Grading.IsReceipt (submission : Int64) : Json → Prop :=
  Json.IsRecord [.must "submission_id" (Json.IsInteger submission.toInt)]

/-- The value tells the tokens. -/
def Tokens.IsWritten (t : Tokens) : Json → Prop :=
  Json.IsRecord [
    .must "access_token" (Json.IsString t.access),
    .must "refresh_token" (Json.IsString t.refresh)]

namespace Event

/-- The type of an event. -/
def type : Event → String
  | .started .. => "DuelStarted"
  | .finished _ => "DuelFinished"

/-- The value is a payload that tells of the event. -/
def IsWritten : Event → Json → Prop
  | .started duel opponent task =>
    Json.IsRecord [
      .must "duel_id" (Json.IsInteger duel.toInt),
      .may "opponent_id" (opponent = none)
        (Json.NullOr (fun n : Int64 => Json.IsInteger n.toInt) opponent),
      .may "task_id" (task = none) (Json.NullOr Json.IsString task)]
  | .finished duel => Json.IsRecord [.must "duel_id" (Json.IsInteger duel.toInt)]

/-- The value gives a field of an event of the type twice. -/
def Repeats (type : String) (v : Json) : Prop :=
  type = "DuelStarted" ∧ Json.Repeats ["duel_id", "opponent_id", "task_id"] v ∨
    type = "DuelFinished" ∧ Json.Repeats ["duel_id"] v

end Event

/-! ### What is promised -/

/-- A body that holds the text. -/
def Body.ofText (text : String) : Body :=
  .whole { bytes := Utf8.bytes text }

/-- Every text that writes the value down, sent as a body, is read with the given outcome. -/
def Json.ComesTo (read : Json → Option α) (v : Json) (outcome : String → Except Misfit α) : Prop :=
  ∀ (text : String) (r : Reply), v.IsText text → r.body = .ofText text →
    r.record read = outcome text

/-- Bodies are read back that are written as `IsWritten` says, and those are refused that repeat a
field. -/
structure ReadsBack (read : Json → Option α) (IsWritten : α → Json → Prop)
    (Repeats : Json → Prop) : Prop where
  /-- Everything can be written. -/
  written (a : α) : ∃ v text, IsWritten a v ∧ v.IsText text
  /-- What is written is read. -/
  back (a : α) (v : Json) (h : IsWritten a v) : v.ComesTo read fun _ => .ok a
  /-- A field given twice makes reading fail. -/
  once (v : Json) (h : Repeats v) : v.ComesTo read fun text => .error (.notRecord text)

/-- All that the service writes is read back. -/
structure WireFormat : Prop where
  duel : ReadsBack DuelSummary.ofJson? DuelSummary.IsWritten
    (Json.Repeats ["id", "task_id", "opponent_id", "result"])
  player : ReadsBack Player.ofJson? Player.IsWritten (Json.Repeats ["nickname"])
  task : ReadsBack Task.ofJson? Task.IsWritten Task.Repeats
  grading : ReadsBack Grading.ofJson? Grading.IsWritten
    (Json.Repeats ["status", "verdict", "message"])
  receipt : ReadsBack Grading.receipt? Grading.IsReceipt (Json.Repeats ["submission_id"])
  tokens : ReadsBack Tokens.ofJson? Tokens.IsWritten
    (Json.Repeats ["access_token", "refresh_token"])
  eventWritten (e : Event) : ∃ v text, e.IsWritten v ∧ v.IsText text
  event (e : Event) (v : Json) (h : e.IsWritten v) (text : String) (htext : v.IsText text) :
    Event.decode e.type text = .event e
  eventOnce (type : String) (v : Json) (h : Event.Repeats type v) (text : String)
    (htext : v.IsText text) : Event.decode type text = .misfit

/-! ### From texts to values -/

namespace Reply

variable {read : Json → Option α} {r : Reply} {text : String} {v : Json}

/-- A body that holds a text is read as that text. -/
lemma text_eq_ok (h : r.body = .ofText text) : r.text = .ok text := by
  have hbytes : Utf8.text? (Utf8.bytes text) = some text := Utf8.text?_eq_some_iff.mpr rfl
  rw [Reply.text, h, Body.text?, Body.ofText, Body.content, Content.text?, hbytes]

/-- If the text of a body writes a value down, the record is read from that value. -/
lemma record_eq_ok (h : r.body = .ofText text) (htext : v.IsText text) {a : α}
    (hread : read v = some a) : r.record read = .ok a := by
  have hv : (Json.ofText? text).bind read = some a := by
    rw [Json.ofText?_of_isText htext, Option.bind_some, hread]
  rw [record, text_eq_ok h]
  simp only [bind, Except.bind, hv]

/-- If nothing can be read from the text of a body, it is refused with a quotation of it. -/
lemma record_eq_error_of_bind (h : r.body = .ofText text)
    (hread : (Json.ofText? text).bind read = none) : r.record read = .error (.notRecord text) := by
  rw [record, text_eq_ok h]
  simp only [bind, Except.bind, hread]

/-- So it is if the text writes down a value from which no record can be read. -/
lemma record_eq_error (h : r.body = .ofText text) (htext : v.IsText text)
    (hread : read v = none) : r.record read = .error (.notRecord text) := by
  refine record_eq_error_of_bind h ?_
  rw [Json.ofText?_of_isText htext, Option.bind_some, hread]

end Reply

/-! ### From values to records -/

/-- Values are read back that are written as `IsWritten` says, and those are refused that repeat a
field. -/
structure Json.Reads (read : Json → Option α) (IsWritten : α → Json → Prop)
    (Repeats : Json → Prop) : Prop where
  written (a : α) : ∃ v, v.IsWritable ∧ IsWritten a v
  back (a : α) (v : Json) (h : IsWritten a v) : read v = some a
  once (v : Json) (h : Repeats v) : read v = none

/-- Values that are read back are read back from replies, too. -/
lemma Json.Reads.readsBack {read : Json → Option α} {IsWritten : α → Json → Prop}
    {Repeats : Json → Prop} (h : Json.Reads read IsWritten Repeats) :
    ReadsBack read IsWritten Repeats where
  written a := by
    obtain ⟨v, hv, ha⟩ := h.written a
    obtain ⟨text, htext⟩ := hv.exists_isText
    exact ⟨v, text, ha, htext⟩
  back a v hv _ _ htext hbody := Reply.record_eq_ok hbody htext (h.back a v hv)
  once v hv _ _ htext hbody := Reply.record_eq_error hbody htext (h.once v hv)

/-- A name tells the result that it is a name for. -/
lemma DuelResult.ofName_eq_iff {r : DuelResult} {name : String} :
    DuelResult.ofName name = r ↔ r.IsNamed name := by
  by_cases hwin : name = "Win"
  · cases r <;> simp [ofName, IsNamed, hwin]
  by_cases hlose : name = "Lose"
  · cases r <;> simp [ofName, IsNamed, hlose]
  by_cases hdraw : name = "Draw"
  · cases r <;> simp [ofName, IsNamed, hdraw]
  · cases r <;> simp [ofName, IsNamed, hwin, hlose, hdraw]

/-- A result is read from any value that tells it. -/
lemma DuelResult.ofJson?_of_isWritten {r : DuelResult} {v : Json} (h : r.IsWritten v) :
    DuelResult.ofJson? v = some r := by
  obtain ⟨name, hname, hv⟩ := h
  rw [ofJson?, Json.choice?_eq_some_iff.mpr hv, Option.map_some, ofName_eq_iff.mpr hname]

/-- A result can be told. -/
lemma DuelResult.exists_isWritten (r : DuelResult) : ∃ v, v.IsWritable ∧ r.IsWritten v := by
  cases r with
  | win | lose | draw => exact Json.exists_chooses _ rfl
  | pending => exact Json.exists_chooses "Pending" (by simp [IsNamed])

/-- Summaries of duels are read back. -/
lemma DuelSummary.reads : Json.Reads DuelSummary.ofJson? DuelSummary.IsWritten
    (Json.Repeats ["id", "task_id", "opponent_id", "result"]) where
  written d := by
    refine Json.exists_isRecord (by simp) ?_
    simp only [List.forall_mem_cons]
    exact ⟨Json.exists_must (Json.exists_isInteger _), Json.exists_must (Json.exists_isString _),
      Json.exists_must (Json.exists_isInteger _), Json.exists_may d.result.exists_isWritten,
      by simp⟩
  back d v h := by
    obtain ⟨field, hfield, hgiven⟩ := Json.exists_record? h
    simp only [List.map_cons, List.map_nil, List.forall_mem_cons, Json.Field.must_name,
      Json.Field.may_name] at hfield hgiven
    obtain ⟨hid, htask, hopponent, hresult, -⟩ := hgiven
    have hid := Json.required_of_must hid fun _ => Json.int64?_of_isInteger
    have htask := Json.required_of_must htask fun _ => Json.string?_of_isString
    have hopponent := Json.required_of_must hopponent fun _ => Json.int64?_of_isInteger
    have hresult := Json.defaulted_of_may hresult fun _ => DuelResult.ofJson?_of_isWritten
    simp [ofJson?, hfield, hid, htask, hopponent, hresult]
  once v h := by
    rw [DuelSummary.ofJson?, Json.record?_eq_none h]
    rfl

/-- Players are read back. -/
lemma Player.reads :
    Json.Reads Player.ofJson? Player.IsWritten (Json.Repeats ["nickname"]) where
  written p := by
    refine Json.exists_isRecord (by simp) ?_
    exact List.forall_mem_singleton.mpr (Json.exists_must (Json.exists_isString _))
  back p v h := by
    obtain ⟨field, hfield, hgiven⟩ := Json.exists_record? h
    simp only [List.map_cons, List.map_nil, List.forall_mem_cons, Json.Field.must_name]
      at hfield hgiven
    have hnickname := Json.required_of_must hgiven.1 fun _ => Json.string?_of_isString
    simp [ofJson?, hfield, hnickname]
  once v h := by
    rw [Player.ofJson?, Json.record?_eq_none h]
    rfl

/-- Samples are read back. -/
lemma Sample.reads :
    Json.Reads Sample.ofJson? Sample.IsWritten (Json.Repeats ["order", "input", "output"]) where
  written s := by
    refine Json.exists_isRecord (by simp) ?_
    simp only [List.forall_mem_cons]
    exact ⟨Json.exists_must (Json.exists_isInteger _), Json.exists_must (Json.exists_isString _),
      Json.exists_must (Json.exists_isString _), by simp⟩
  back s v h := by
    obtain ⟨field, hfield, hgiven⟩ := Json.exists_record? h
    simp only [List.map_cons, List.map_nil, List.forall_mem_cons, Json.Field.must_name]
      at hfield hgiven
    obtain ⟨horder, hinput, houtput, -⟩ := hgiven
    have horder := Json.required_of_must horder fun _ => Json.uint32?_of_isInteger
    have hinput := Json.required_of_must hinput fun _ => Json.string?_of_isString
    have houtput := Json.required_of_must houtput fun _ => Json.string?_of_isString
    simp [ofJson?, hfield, horder, hinput, houtput]
  once v h := by
    rw [Sample.ofJson?, Json.record?_eq_none h]
    rfl

/-- What is inside a task can be written down. -/
lemma Task.exists_isWrittenInside (t : Task) : ∃ v, v.IsWritable ∧ t.IsWrittenInside v := by
  refine Json.exists_isRecord (by simp) ?_
  simp only [List.forall_mem_cons]
  exact ⟨Json.exists_must (Json.exists_isString _), Json.exists_must (Json.exists_isInteger _),
    Json.exists_must (Json.exists_isInteger _), Json.exists_must (Json.exists_isString _),
    Json.exists_may (Json.exists_isList Sample.reads.written _), by simp⟩

/-- What is inside a task is read from any value that tells of it. -/
lemma Task.ofInner?_of_isWrittenInside {t : Task} {v : Json} (h : t.IsWrittenInside v) :
    Task.ofInner? v = some t := by
  obtain ⟨field, hfield, hgiven⟩ := Json.exists_record? h
  simp only [List.map_cons, List.map_nil, List.forall_mem_cons, Json.Field.must_name,
    Json.Field.may_name] at hfield hgiven
  obtain ⟨htitle, htime, hmemory, hstatement, hsamples, -⟩ := hgiven
  have htitle := Json.required_of_must htitle fun _ => Json.string?_of_isString
  have htime := Json.required_of_must htime fun _ => Json.uint64?_of_isInteger
  have hmemory := Json.required_of_must hmemory fun _ => Json.uint64?_of_isInteger
  have hstatement := Json.required_of_must hstatement fun _ => Json.string?_of_isString
  have hsamples := Json.defaulted_of_may hsamples fun _ => Json.list?_of_isList Sample.reads.back
  simp [ofInner?, hfield, htitle, htime, hmemory, hstatement, hsamples]

/-- One sample that repeats a field is enough. -/
lemma Task.ofInner?_eq_none {v : Json}
    (h : Json.Within "tests" (fun tests => ∃ samples, tests = .array samples ∧
      ∃ sample ∈ samples, Json.Repeats ["order", "input", "output"] sample) v) :
    Task.ofInner? v = none := by
  cases hfield : v.record? ["title", "tl", "ml", "statement", "tests"] with
  | none =>
    rw [ofInner?, hfield]
    rfl
  | some field =>
    obtain ⟨tests, htests, samples, rfl, sample, hmem, hsample⟩ :=
      Json.exists_of_within h (by simp) hfield
    have hnone := Json.list?_eq_none hmem (Sample.reads.once sample hsample)
    simp [ofInner?, hfield, htests, Json.defaulted, hnone]

/-- Tasks are read back. -/
lemma Task.reads : Json.Reads Task.ofJson? Task.IsWritten Task.Repeats where
  written t := by
    refine Json.exists_isRecord (by simp) ?_
    exact List.forall_mem_singleton.mpr (Json.exists_must t.exists_isWrittenInside)
  back t v h := by
    obtain ⟨field, hfield, hgiven⟩ := Json.exists_record? h
    simp only [List.map_cons, List.map_nil, List.forall_mem_cons, Json.Field.must_name]
      at hfield hgiven
    have htask := Json.required_of_must hgiven.1 fun _ => Task.ofInner?_of_isWrittenInside
    simp [ofJson?, hfield, htask]
  once v h := by
    cases hfield : v.record? ["task"] with
    | none =>
      rw [ofJson?, hfield]
      rfl
    | some field =>
      obtain h | h := h
      · rw [Json.record?_eq_none h] at hfield
        cases hfield
      · -- a field of the task itself is given twice, or one of a sample in it
        obtain ⟨inner, htask, hinner⟩ := Json.exists_of_within h (by simp) hfield
        have hnone : ofInner? inner = none := by
          obtain hinner | hinner := hinner
          · rw [ofInner?, Json.record?_eq_none hinner]
            rfl
          · exact ofInner?_eq_none hinner
        simp [ofJson?, hfield, htask, Json.required, hnone]

/-- A name tells the status that it is a name for. -/
lemma GradingStatus.ofName_eq_iff {s : GradingStatus} {name : String} :
    GradingStatus.ofName name = s ↔ s.IsNamed name := by
  by_cases hrunning : name = "Running"
  · cases s <;> simp [ofName, IsNamed, hrunning]
  by_cases hdone : name = "Done"
  · cases s <;> simp [ofName, IsNamed, hdone]
  · cases s <;> simp [ofName, IsNamed, hrunning, hdone]

/-- A status is read from any value that tells it. -/
lemma GradingStatus.ofJson?_of_isWritten {s : GradingStatus} {v : Json} (h : s.IsWritten v) :
    GradingStatus.ofJson? v = some s := by
  obtain ⟨name, hname, hv⟩ := h
  rw [ofJson?, Json.choice?_eq_some_iff.mpr hv, Option.map_some, ofName_eq_iff.mpr hname]

/-- A status can be told. -/
lemma GradingStatus.exists_isWritten (s : GradingStatus) : ∃ v, v.IsWritable ∧ s.IsWritten v := by
  cases s with
  | running | done => exact Json.exists_chooses _ rfl
  | pending => exact Json.exists_chooses "Pending" (by simp [IsNamed])

/-- A text or null. -/
lemma Json.nullable_string? {text : Option String} {v : Json}
    (h : Json.NullOr Json.IsString text v) : Json.nullable Json.string? v = some text := by
  refine Json.nullable_of_nullOr (fun s v hs => ⟨?_, Json.string?_of_isString hs⟩) h
  rintro rfl
  cases hs

/-- An integer of 64 bits or null. -/
lemma Json.nullable_int64? {n : Option Int64} {v : Json}
    (h : Json.NullOr (fun n : Int64 => Json.IsInteger n.toInt) n v) :
    Json.nullable Json.int64? v = some n := by
  refine Json.nullable_of_nullOr (fun n v hn => ⟨?_, Json.int64?_of_isInteger hn⟩) h
  rintro rfl
  cases hn

/-- Gradings are read back. -/
lemma Grading.reads : Json.Reads Grading.ofJson? Grading.IsWritten
    (Json.Repeats ["status", "verdict", "message"]) where
  written g := by
    refine Json.exists_isRecord (by simp) ?_
    simp only [List.forall_mem_cons]
    exact ⟨Json.exists_may g.status.exists_isWritten,
      Json.exists_may (Json.exists_nullOr Json.exists_isString _),
      Json.exists_may (Json.exists_nullOr Json.exists_isString _), by simp⟩
  back g v h := by
    obtain ⟨field, hfield, hgiven⟩ := Json.exists_record? h
    simp only [List.map_cons, List.map_nil, List.forall_mem_cons, Json.Field.may_name]
      at hfield hgiven
    obtain ⟨hstatus, hverdict, hmessage, -⟩ := hgiven
    have hstatus := Json.defaulted_of_may hstatus fun _ => GradingStatus.ofJson?_of_isWritten
    have hverdict := Json.defaulted_of_may hverdict fun _ => Json.nullable_string?
    have hmessage := Json.defaulted_of_may hmessage fun _ => Json.nullable_string?
    simp [ofJson?, hfield, hstatus, hverdict, hmessage]
  once v h := by
    rw [Grading.ofJson?, Json.record?_eq_none h]
    rfl

/-- The number of a new submission is read back. -/
lemma Grading.reads_receipt :
    Json.Reads Grading.receipt? Grading.IsReceipt (Json.Repeats ["submission_id"]) where
  written n := by
    refine Json.exists_isRecord (by simp) ?_
    exact List.forall_mem_singleton.mpr (Json.exists_must (Json.exists_isInteger _))
  back n v h := by
    obtain ⟨field, hfield, hgiven⟩ := Json.exists_record? h
    simp only [List.map_cons, List.map_nil, List.forall_mem_cons, Json.Field.must_name]
      at hfield hgiven
    have hsubmission := Json.required_of_must hgiven.1 fun _ => Json.int64?_of_isInteger
    simp [receipt?, hfield, hsubmission]
  once v h := by
    rw [Grading.receipt?, Json.record?_eq_none h]
    rfl

/-- Tokens are read back. -/
lemma Tokens.reads : Json.Reads Tokens.ofJson? Tokens.IsWritten
    (Json.Repeats ["access_token", "refresh_token"]) where
  written t := by
    refine Json.exists_isRecord (by simp) ?_
    simp only [List.forall_mem_cons]
    exact ⟨Json.exists_must (Json.exists_isString _), Json.exists_must (Json.exists_isString _),
      by simp⟩
  back t v h := by
    obtain ⟨field, hfield, hgiven⟩ := Json.exists_record? h
    simp only [List.map_cons, List.map_nil, List.forall_mem_cons, Json.Field.must_name]
      at hfield hgiven
    obtain ⟨haccess, hrefresh, -⟩ := hgiven
    have haccess := Json.required_of_must haccess fun _ => Json.string?_of_isString
    have hrefresh := Json.required_of_must hrefresh fun _ => Json.string?_of_isString
    simp [ofJson?, hfield, haccess, hrefresh]
  once v h := by
    rw [Tokens.ofJson?, Json.record?_eq_none h]
    rfl

/-! ### Events -/

namespace Event

/-- There is a payload for any event. -/
lemma exists_isWritten (e : Event) : ∃ v, v.IsWritable ∧ e.IsWritten v := by
  cases e with
  | started duel opponent task =>
    refine Json.exists_isRecord (by simp) ?_
    simp only [List.forall_mem_cons]
    exact ⟨Json.exists_must (Json.exists_isInteger _),
      Json.exists_may (Json.exists_nullOr (fun n : Int64 => Json.exists_isInteger n.toInt) _),
      Json.exists_may (Json.exists_nullOr Json.exists_isString _), by simp⟩
  | finished duel =>
    refine Json.exists_isRecord (by simp) ?_
    exact List.forall_mem_singleton.mpr (Json.exists_must (Json.exists_isInteger _))

/-- The start of a duel is read from any payload that tells of it. -/
lemma started?_of_isWritten {duel : Int64} {opponent : Option Int64} {task : Option String}
    {v : Json} (h : (started duel opponent task).IsWritten v) :
    started? v = some (.started duel opponent task) := by
  obtain ⟨field, hfield, hgiven⟩ := Json.exists_record? h
  simp only [List.map_cons, List.map_nil, List.forall_mem_cons, Json.Field.must_name,
    Json.Field.may_name] at hfield hgiven
  obtain ⟨hduel, hopponent, htask, -⟩ := hgiven
  have hduel := Json.required_of_must hduel fun _ => Json.int64?_of_isInteger
  have hopponent := Json.defaulted_of_may hopponent fun _ => Json.nullable_int64?
  have htask := Json.defaulted_of_may htask fun _ => Json.nullable_string?
  simp [started?, hfield, hduel, hopponent, htask]

/-- The end of a duel is read from any payload that tells of it. -/
lemma finished?_of_isWritten {duel : Int64} {v : Json} (h : (finished duel).IsWritten v) :
    finished? v = some (.finished duel) := by
  obtain ⟨field, hfield, hgiven⟩ := Json.exists_record? h
  simp only [List.map_cons, List.map_nil, List.forall_mem_cons, Json.Field.must_name]
    at hfield hgiven
  have hduel := Json.required_of_must hgiven.1 fun _ => Json.int64?_of_isInteger
  simp [finished?, hfield, hduel]

variable {type text : String} {v : Json} {read : Json → Option Event}

/-- A payload is decoded as the event that is read from its value. -/
lemma decode_eq_event (hreader : reader? type = some read) (htext : v.IsText text) {e : Event}
    (hread : read v = some e) : decode type text = .event e := by
  have hv : (Json.ofText? text).bind read = some e := by
    rw [Json.ofText?_of_isText htext, Option.bind_some, hread]
  simp only [decode, hreader, hv]

/-- A payload from whose value no event can be read is a misfit. -/
lemma decode_eq_misfit (hreader : reader? type = some read) (htext : v.IsText text)
    (hread : read v = none) : decode type text = .misfit := by
  have hv : (Json.ofText? text).bind read = none := by
    rw [Json.ofText?_of_isText htext, Option.bind_some, hread]
  simp only [decode, hreader, hv]

/-- An event is decoded from any payload that tells of it. -/
lemma decode_of_isWritten {e : Event} (h : e.IsWritten v) (htext : v.IsText text) :
    decode e.type text = .event e := by
  cases e with
  | started duel opponent task => exact decode_eq_event rfl htext (started?_of_isWritten h)
  | finished duel => exact decode_eq_event rfl htext (finished?_of_isWritten h)

/-- A payload that gives a field twice is a misfit. -/
lemma decode_of_repeats (h : Event.Repeats type v) (htext : v.IsText text) :
    decode type text = .misfit := by
  obtain ⟨rfl, h⟩ | ⟨rfl, h⟩ := h
  · refine decode_eq_misfit rfl htext ?_
    rw [started?, Json.record?_eq_none h]
    rfl
  · refine decode_eq_misfit rfl htext ?_
    rw [finished?, Json.record?_eq_none h]
    rfl

end Event

/-! ### The result -/

/-- Whatever the service writes is read back, and no field may be given twice. -/
theorem wire_format : WireFormat where
  duel := DuelSummary.reads.readsBack
  player := Player.reads.readsBack
  task := Task.reads.readsBack
  grading := Grading.reads.readsBack
  receipt := Grading.reads_receipt.readsBack
  tokens := Tokens.reads.readsBack
  eventWritten e := by
    obtain ⟨v, hv, he⟩ := e.exists_isWritten
    obtain ⟨text, htext⟩ := hv.exists_isText
    exact ⟨v, text, he, htext⟩
  event _ _ h _ htext := Event.decode_of_isWritten h htext
  eventOnce _ _ h _ htext := Event.decode_of_repeats h htext

example : (Reply.mk 200 (.ofText
    " \x7b\"refresh_token\" :\"\\u0072\",\"x\":[1e9],\"\\u0061ccess_token\":\"a\"\x7d\n")).record
    Tokens.ofJson? = .ok { access := "a", refresh := "r" } := by
  decide +kernel

end Duelist
