import Duelist.Proofs.WireFormat
/-!
# Leniency

What becomes of a duel whose result, and of a grading whose status, is not one of those that the
client knows (`results_and_statuses`). A result that is left out and one of an unknown name are both
pending. This is as far as leniency goes: what is no name at all, be it `null` or a number, makes
the whole body unreadable, however valid the rest of it is (`null_is_refused`).
-/

namespace Duelist

variable {α σ : Type}

/-! ### Bodies with one field singled out -/

/-- A field under which this is given, or nothing. -/
def Json.Field.exactly (name : String) (given : Option Json) : Json.Field where
  name := name
  Holds x := x = given

/-- A field with a fixed content has the name that it is given. -/
@[simp]
lemma Json.Field.exactly_name (name : String) (given : Option Json) :
    (exactly name given).name = name := rfl

/-- The value tells of the duel, except that `given` stands for the result. -/
def DuelSummary.IsWrittenWith (d : DuelSummary) (given : Option Json) : Json → Prop :=
  Json.IsRecord [
    .must "id" (Json.IsInteger d.id.toInt),
    .must "task_id" (Json.IsString d.task),
    .must "opponent_id" (Json.IsInteger d.opponent.toInt),
    .exactly "result" given]

/-- The value tells of the grading, except that `given` stands for the status. -/
def Grading.IsWrittenWith (g : Grading) (given : Option Json) : Json → Prop :=
  Json.IsRecord [
    .exactly "status" given,
    .may "verdict" (g.verdict = none) (Json.NullOr Json.IsString g.verdict),
    .may "message" (g.message = none) (Json.NullOr Json.IsString g.message)]

/-! ### How they are read, and how they should be -/

/-- How a body is read that is valid but for one field, in which the names of `IsNamed` stand for
the values of `σ`. `IsBody given` is the body that gives `given` there, `body s` is what it tells
if the field means `s`. -/
structure ReadsLeniently (read : Json → Option α) (IsBody : Option Json → Json → Prop)
    (body : σ → α) (IsNamed : σ → String → Prop) (pending : σ) : Prop where
  /-- A field that is left out means `pending`. -/
  leftOut (v : Json) (h : IsBody none v) : v.ComesTo read fun _ => .ok (body pending)
  /-- A name means what it stands for. -/
  named (v w : Json) (h : IsBody (some w) v) (name : String) (hw : Json.Chooses name w) (s : σ)
    (hs : IsNamed s name) : v.ComesTo read fun _ => .ok (body s)
  /-- What is no name is refused. -/
  unnamed (v w : Json) (h : IsBody (some w) v) (hw : ∀ name, ¬Json.Chooses name w) :
    v.ComesTo read fun text => .error (.notRecord text)

/-- What the field should mean: a name that is given as a text means what it stands for, and
everything else, nothing included, is pending. -/
def ShouldMean (IsNamed : σ → String → Prop) (pending : σ) (given : Option Json) (s : σ) : Prop :=
  (∃ name, given = some (.text name) ∧ IsNamed s name) ∨
    (∀ name, given ≠ some (.text name)) ∧ s = pending

/-- How a body is read, and when this is as it should be: if the field is left out or given as a
text, or else as a name of `pending`. -/
structure ReadsAsItShould (read : Json → Option α) (IsBody : Option Json → Json → Prop)
    (body : σ → α) (IsNamed : σ → String → Prop) (pending : σ) : Prop
    extends ReadsLeniently read IsBody body IsNamed pending where
  asItShould (v : Json) (given : Option Json) (h : IsBody given v) (s : σ)
    (hs : ShouldMean IsNamed pending given s) (text : String) (htext : v.IsText text) (r : Reply)
    (hbody : r.body = .ofText text) :
    r.record read = .ok (body s) ↔ given = none ∨ (∃ name, given = some (.text name)) ∨
      ∃ name, given = some (.object [(some name, .null)]) ∧ IsNamed pending name

section

variable {read : Json → Option α} {IsBody : Option Json → Json → Prop} {body : σ → α}
  {IsNamed : σ → String → Prop} {pending : σ} {ofName : String → σ}

/-- A field whose alternatives are told apart by name. -/
lemma ReadsLeniently.of_defaulted (hname : ∀ s name, ofName name = s ↔ IsNamed s name)
    (hread : ∀ given v, IsBody given v →
      read v = (Json.defaulted pending (fun w => w.choice?.map ofName) given).map body) :
    ReadsLeniently read IsBody body IsNamed pending where
  leftOut v h _ _ htext hbody := Reply.record_eq_ok hbody htext (hread _ v h)
  named v w h name hw s hs _ _ htext hbody := by
    refine Reply.record_eq_ok hbody htext ?_
    rw [hread _ v h, Json.defaulted, Json.choice?_eq_some_iff.mpr hw, Option.map_some,
      (hname s name).mpr hs, Option.map_some]
  unnamed v w h hw _ _ htext hbody := by
    have hnone : w.choice? = none :=
      Option.eq_none_iff_forall_ne_some.mpr fun name h => hw name (Json.choice?_eq_some_iff.mp h)
    refine Reply.record_eq_error hbody htext ?_
    rw [hread _ v h, Json.defaulted, hnone, Option.map_none, Option.map_none]

/-- A field that is read leniently means what it should if it is left out or given as a text,
provided that the names that are told apart are those that stand for something. -/
lemma ReadsLeniently.asItShould (hreads : ReadsLeniently read IsBody body IsNamed pending)
    (hname : ∀ s name, ofName name = s ↔ IsNamed s name)
    (hbody : ∀ s s', body s = body s' → s = s') :
    ReadsAsItShould read IsBody body IsNamed pending := by
  refine ⟨hreads, fun v given h s hs text htext r hr => ?_⟩
  cases given with
  | none =>
    obtain rfl : s = pending := by simpa [ShouldMean] using hs
    simpa using hreads.leftOut v h text r htext hr
  | some w =>
    -- a value that chooses a name is read by it; all other values are refused
    by_cases hw : ∃ name, Json.Chooses name w
    · obtain ⟨name, rfl | rfl⟩ := hw
      · have hnamed : IsNamed s name := by simpa [ShouldMean, Json.text] using hs
        simpa using hreads.named v _ h name (.inl rfl) s hnamed text r htext hr
      · obtain rfl : s = pending := by simpa [ShouldMean, Json.text] using hs
        have hread := hreads.named v _ h name (.inr rfl) _ ((hname _ name).mp rfl) text r htext hr
        have hinj : body (ofName name) = body s ↔ ofName name = s :=
          ⟨hbody _ _, congrArg body⟩
        simp [hread, Json.text, hinj, hname]
    · have hnone : ∀ name, ¬Json.Chooses name w := fun name h => hw ⟨name, h⟩
      have hread := hreads.unnamed v w h hnone text r htext hr
      rw [hread]
      constructor
      · rintro ⟨⟩
      · rintro (h | ⟨name, h⟩ | ⟨name, h, -⟩)
        · cases h
        · exact absurd (.inl (Option.some.inj h)) (hnone name)
        · exact absurd (.inr (Option.some.inj h)) (hnone name)

end

/-! ### Results and statuses -/

/-- A body that tells of a duel is read with what its result is read as, and is refused if that is
refused. -/
lemma DuelSummary.ofJson?_of_isWrittenWith {d : DuelSummary} {given : Option Json} {v : Json}
    (h : d.IsWrittenWith given v) : DuelSummary.ofJson? v =
      (Json.defaulted .pending DuelResult.ofJson? given).map
        fun result => { d with result := result } := by
  obtain ⟨field, hfield, hgiven⟩ := Json.exists_record? h
  simp only [List.map_cons, List.map_nil, List.forall_mem_cons, Json.Field.must_name,
    Json.Field.exactly_name] at hfield hgiven
  obtain ⟨hid, htask, hopponent, hresult, -⟩ := hgiven
  have hid := Json.required_of_must hid fun _ => Json.int64?_of_isInteger
  have htask := Json.required_of_must htask fun _ => Json.string?_of_isString
  have hopponent := Json.required_of_must hopponent fun _ => Json.int64?_of_isInteger
  have hresult : field "result" = given := hresult
  cases hread : Json.defaulted .pending DuelResult.ofJson? given with
  | none => simp [ofJson?, hfield, hid, htask, hopponent, hresult, hread]
  | some result => simp [ofJson?, hfield, hid, htask, hopponent, hresult, hread]

/-- A body that tells of a grading is read with what its status is read as, and is refused if that
is refused. -/
lemma Grading.ofJson?_of_isWrittenWith {g : Grading} {given : Option Json} {v : Json}
    (h : g.IsWrittenWith given v) : Grading.ofJson? v =
      (Json.defaulted .pending GradingStatus.ofJson? given).map
        fun status => { g with status := status } := by
  obtain ⟨field, hfield, hgiven⟩ := Json.exists_record? h
  simp only [List.map_cons, List.map_nil, List.forall_mem_cons, Json.Field.may_name,
    Json.Field.exactly_name] at hfield hgiven
  obtain ⟨hstatus, hverdict, hmessage, -⟩ := hgiven
  have hstatus : field "status" = given := hstatus
  have hverdict := Json.defaulted_of_may hverdict fun _ => Json.nullable_string?
  have hmessage := Json.defaulted_of_may hmessage fun _ => Json.nullable_string?
  cases hread : Json.defaulted .pending GradingStatus.ofJson? given with
  | none => simp [ofJson?, hfield, hstatus, hread]
  | some status => simp [ofJson?, hfield, hstatus, hverdict, hmessage, hread]

/-- The result of a duel is read leniently. -/
lemma DuelSummary.readsLeniently (d : DuelSummary) :
    ReadsLeniently DuelSummary.ofJson? d.IsWrittenWith (fun result => { d with result := result })
      DuelResult.IsNamed .pending :=
  .of_defaulted (fun _ _ => DuelResult.ofName_eq_iff)
    fun _ _ => DuelSummary.ofJson?_of_isWrittenWith

/-- So is the status of a grading. -/
lemma Grading.readsLeniently (g : Grading) :
    ReadsLeniently Grading.ofJson? g.IsWrittenWith (fun status => { g with status := status })
      GradingStatus.IsNamed .pending :=
  .of_defaulted (fun _ _ => GradingStatus.ofName_eq_iff)
    fun _ _ => Grading.ofJson?_of_isWrittenWith

/-- A result or status that is left out or unknown by name is pending, and one that is no name is
refused with the body that holds it. -/
theorem results_and_statuses (d : DuelSummary) (g : Grading) :
    ReadsAsItShould DuelSummary.ofJson? d.IsWrittenWith
        (fun result => { d with result := result }) DuelResult.IsNamed .pending ∧
      ReadsAsItShould Grading.ofJson? g.IsWrittenWith
        (fun status => { g with status := status }) GradingStatus.IsNamed .pending := by
  constructor
  · exact d.readsLeniently.asItShould (fun _ _ => DuelResult.ofName_eq_iff)
      fun _ _ h => congrArg DuelSummary.result h
  · exact g.readsLeniently.asItShould (fun _ _ => GradingStatus.ofName_eq_iff)
      fun _ _ h => congrArg Grading.status h

/-- A duel without a result yet, and a grading without a status, neither of which can be read when
the service writes `null` for what it does not know. -/
theorem null_is_refused :
    (Reply.mk 200
        (.ofText "\x7b\"id\":7,\"task_id\":\"t\",\"opponent_id\":3,\"result\":null\x7d")).record
        DuelSummary.ofJson? = .error (.notRecord
          "\x7b\"id\":7,\"task_id\":\"t\",\"opponent_id\":3,\"result\":null\x7d") ∧
    (Reply.mk 200 (.ofText "\x7b\"status\":null\x7d")).record Grading.ofJson? =
      .error (.notRecord "\x7b\"status\":null\x7d") := by
  decide +kernel

end Duelist
