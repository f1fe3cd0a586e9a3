import Duelist.Json.Reading
import Duelist.Proofs.Scanning
/-!
# Reading

A text is read as the value that it writes down (`Json.ofText?_of_isText`). The machine behind the
scanner is taken over one value after the other, wherever a value may come
(`Json.readFrom_of_writes`); the induction follows the grammar.
-/

namespace Duelist.Json

/-! ### Values are read -/

/-- What is read from the place `p` on. -/
def readFrom (p : Place) (cs : List Char) : Option Json :=
  (scan .gap cs).bind fun tokens => (p.run? tokens).bind Place.result?

/-- If the characters begin with a token, what is read is what the place takes the token to be, and
then the rest. -/
lemma readFrom_of_scan {t : Token} {cs rest : List Char}
    (h : scan .gap cs = (scan .gap rest).map (t :: ·)) (p : Place) :
    readFrom p cs = (p.step? t).bind fun p' => readFrom p' rest := by
  rw [readFrom, h]
  cases hrest : scan .gap rest with
  | none => cases p.step? t <;> simp [readFrom, hrest]
  | some tokens =>
    have hrun : p.run? (t :: tokens) = (p.step? t).bind fun p' => p'.run? tokens := by
      rw [Place.run?, List.foldlM_cons]
      rfl
    rw [Option.map_some, Option.bind_some, hrun]
    cases p.step? t <;> simp [readFrom, hrest]

/-- White space is passed over at any place. -/
lemma readFrom_space {gap : List Char} (h : IsSpace gap) (p : Place) (rest : List Char) :
    readFrom p (gap ++ rest) = readFrom p rest := by
  rw [readFrom, scan_space h, readFrom]

/-- A mark is a token of one character. -/
lemma readFrom_mark {c : Char} {t : Token} (h : start? c = some ([t], .gap)) (p : Place)
    (rest : List Char) :
    readFrom p (c :: rest) = (p.step? t).bind fun p' => readFrom p' rest :=
  readFrom_of_scan (scan_mark h rest) p

/-- A value may come at the place `p`, and then it is one behind which `stack` goes on. -/
def Place.Expects (p : Place) (stack : List Opened) : Prop :=
  ∀ t, t ≠ .closeArray → p.step? t = open? stack t

/-- Where a value is to come, one may come. -/
lemma Place.expects_value (stack : List Opened) : (Place.value stack).Expects stack :=
  fun _ _ => rfl

/-- In an array that has just been opened a value may come, too. -/
lemma Place.expects_item (stack : List Opened) :
    (Place.item stack).Expects (.array [] :: stack) := by
  intro t ht
  cases t with
  | closeArray => exact absurd rfl ht
  | _ => rfl

/-- A name may come at the place `p`, for a member behind `members`. -/
def Place.ExpectsName (p : Place) (members : List (Option String × Json)) (stack : List Opened) :
    Prop :=
  ∀ key, p.step? (.string key) = some (.colon members key stack)

/-- White space in front keeps characters apart from a word. -/
lemma isApart_of_isSpace {gap rest : List Char} (h : IsSpace gap) (hrest : IsApart rest) :
    IsApart (gap ++ rest) := by
  cases gap with
  | nil => exact hrest
  | cons c gap =>
    have hall : [' ', '\t', '\n', '\r'].all (isWordChar · == false) = true := by decide
    rintro d ⟨⟩
    exact beq_iff_eq.mp (List.all_eq_true.mp hall c (h c List.mem_cons_self))

/-- So does any character that words do not have. -/
lemma isApart_cons {c : Char} (h : isWordChar c = false) (rest : List Char) :
    IsApart (c :: rest) := by
  rintro d ⟨⟩
  exact h

/-- A value that is one token is read where one may come. -/
lemma readFrom_token {t : Token} {v : Json} {cs rest : List Char} {p : Place}
    {stack : List Opened} (hp : p.Expects stack) (ht : t ≠ .closeArray)
    (hopen : Place.open? stack t = some (.after v stack))
    (h : scan .gap (cs ++ rest) = (scan .gap rest).map (t :: ·)) :
    readFrom p (cs ++ rest) = readFrom (.after v stack) rest := by
  rw [readFrom_of_scan h, hp t ht, hopen, Option.bind_some]

mutual

/-- A value that is written down is read where one may come. -/
theorem readFrom_of_writes {v : Json} {cs : List Char} (h : Writes v cs) (p : Place)
    (stack : List Opened) (hp : p.Expects stack) (rest : List Char) (hrest : IsApart rest) :
    readFrom p (cs ++ rest) = readFrom (.after v stack) rest := by
  -- by recursion on the writing, together with items and members
  cases h with
  | null =>
    exact readFrom_token hp (by simp) rfl
      (scan_word (by decide) (List.all_eq_true.mp rfl) rfl hrest)
  | true =>
    exact readFrom_token hp (by simp) rfl
      (scan_word (by decide) (List.all_eq_true.mp rfl) rfl hrest)
  | false =>
    exact readFrom_token hp (by simp) rfl
      (scan_word (by decide) (List.all_eq_true.mp rfl) rfl hrest)
  | integer n =>
    have hne : (toString n).toList ≠ [] := by
      rw [toList_toString_int]
      split <;> simp
    exact readFrom_token hp (by simp) rfl
      (scan_word hne (fun c => isWordChar_of_mem_toString) (ofWord?_integer n) hrest)
  | decimal h =>
    exact readFrom_token hp (by simp) rfl
      (scan_word h.ne_nil (isWordChar_of_isDecimal h) (ofWord?_of_isDecimal h) hrest)
  | string h => exact readFrom_token hp (by simp) rfl (scan_quotes h rest)
  | @emptyArray gap hgap =>
    rw [List.cons_append, List.append_assoc, readFrom_mark rfl, hp _ (by simp), Place.open?,
      Option.bind_some, readFrom_space hgap, List.singleton_append, readFrom_mark rfl]
    rfl
  | @array items cs h =>
    rw [List.cons_append, List.append_assoc, readFrom_mark rfl, hp _ (by simp), Place.open?,
      Option.bind_some, List.singleton_append,
      readFrom_of_writesItems h _ [] stack (Place.expects_item stack)]
    rfl
  | emptyObject hgap =>
    rw [List.cons_append, List.append_assoc, readFrom_mark rfl, hp _ (by simp), Place.open?,
      Option.bind_some, readFrom_space hgap, List.singleton_append, readFrom_mark rfl]
    rfl
  | object h =>
    rw [List.cons_append, List.append_assoc, readFrom_mark rfl, hp _ (by simp), Place.open?,
      Option.bind_some, List.singleton_append,
      readFrom_of_writesMembers h _ [] stack (fun _ => rfl)]
    rfl

/-- The items of an array are read behind those before them. -/
theorem readFrom_of_writesItems {items : List Json} {cs : List Char} (h : WritesItems items cs)
    (p : Place) (before : List Json) (stack : List Opened)
    (hp : p.Expects (.array before :: stack)) (rest : List Char) :
    readFrom p (cs ++ ']' :: rest) =
      readFrom (.after (.array (before.reverse ++ items)) stack) rest := by
  cases h with
  | @one front back hfront hback v cs h =>
    have hapart := isApart_of_isSpace hback (isApart_cons (c := ']') rfl rest)
    simp only [List.append_assoc]
    rw [readFrom_space hfront, readFrom_of_writes h p _ hp _ hapart, readFrom_space hback,
      readFrom_mark rfl, Place.step?, Option.bind_some, List.reverse_cons]
  | @more front back hfront hback v cs h items others hothers =>
    have hapart := isApart_of_isSpace hback (isApart_cons (c := ',') rfl (others ++ ']' :: rest))
    simp only [List.append_assoc, List.cons_append]
    rw [readFrom_space hfront, readFrom_of_writes h p _ hp _ hapart, readFrom_space hback,
      readFrom_mark rfl, Place.step?, Option.bind_some,
      readFrom_of_writesItems hothers _ (v :: before) stack (Place.expects_value _),
      List.reverse_cons, List.append_assoc, List.singleton_append]

/-- The members of an object are read behind those before them. -/
theorem readFrom_of_writesMembers {members : List (Option String × Json)} {cs : List Char}
    (h : WritesMembers members cs) (p : Place) (before : List (Option String × Json))
    (stack : List Opened) (hp : p.ExpectsName before stack) (rest : List Char) :
    readFrom p (cs ++ '\x7d' :: rest) =
      readFrom (.after (.object (before.reverse ++ members)) stack) rest := by
  cases h with
  | @one front back front' back' hfront hback hfront' hback' name ns hname v cs h =>
    have hapart := isApart_of_isSpace hback' (isApart_cons (c := '\x7d') rfl rest)
    simp only [List.append_assoc, List.cons_append]
    rw [readFrom_space hfront, readFrom_of_scan (scan_quotes hname _), hp, Option.bind_some,
      readFrom_space hback, readFrom_mark rfl, Place.step?, Option.bind_some,
      readFrom_space hfront', readFrom_of_writes h _ _ (Place.expects_value _) _ hapart,
      readFrom_space hback', readFrom_mark rfl, Place.step?, Option.bind_some, List.reverse_cons]
  | @more front back front' back' hfront hback hfront' hback' name ns hname v cs h members others
      hothers =>
    have hapart :=
      isApart_of_isSpace hback' (isApart_cons (c := ',') rfl (others ++ '\x7d' :: rest))
    simp only [List.append_assoc, List.cons_append]
    rw [readFrom_space hfront, readFrom_of_scan (scan_quotes hname _), hp, Option.bind_some,
      readFrom_space hback, readFrom_mark rfl, Place.step?, Option.bind_some,
      readFrom_space hfront', readFrom_of_writes h _ _ (Place.expects_value _) _ hapart,
      readFrom_space hback', readFrom_mark rfl, Place.step?, Option.bind_some,
      readFrom_of_writesMembers hothers _ ((name, v) :: before) stack (fun _ => rfl),
      List.reverse_cons, List.append_assoc, List.singleton_append]

end

/-- A text is read as the value that it writes down. -/
theorem ofText?_of_isText {v : Json} {text : String} (h : IsText v text) :
    ofText? text = some v := by
  obtain ⟨before, cs, after, htext, hbefore, hv, hafter⟩ := h
  have hread : ofText? text = readFrom (.value []) text.toList := rfl
  have hend : IsApart (after ++ []) := isApart_of_isSpace hafter (by simp [IsApart])
  rw [hread, htext, readFrom_space hbefore, ← List.append_nil after,
    readFrom_of_writes hv _ [] (Place.expects_value []) _ hend, readFrom_space hafter]
  rfl

end Duelist.Json
