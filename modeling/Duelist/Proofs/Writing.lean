import Duelist.Proofs.Grammar
import Duelist.Proofs.Records
/-!
# Writing

What can be written down in the grammar: every text as a string literal (`Json.exists_quotes`),
arrays and objects of what can be written down, and so a record with any fields, as long as there is
a value to be given for each of them (`Json.exists_isRecord`). Whatever a field of a record may hold
can be written down.
-/

namespace Duelist.Json

/-! ### String literals -/

/-- Every number below 16 has a hexadecimal digit. -/
lemma exists_isHexDigit {n : ℕ} (h : n < 16) : ∃ c, IsHexDigit n c :=
  ⟨_, .inl (List.getElem?_eq_getElem h)⟩

/-- Every code unit has four digits. -/
lemma exists_isUnit {n : ℕ} (h : n < 0x10000) : ∃ digits, IsUnit n digits := by
  obtain ⟨a, ha⟩ := exists_isHexDigit (n := n / 0x1000) (by omega)
  obtain ⟨b, hb⟩ := exists_isHexDigit (n := n / 0x100 % 16) (by omega)
  obtain ⟨c, hc⟩ := exists_isHexDigit (n := n / 16 % 16) (by omega)
  obtain ⟨d, hd⟩ := exists_isHexDigit (n := n % 16) (by omega)
  have hunit := IsUnit.digits ha hb hc hd
  have hn : ((n / 0x1000 * 16 + n / 0x100 % 16) * 16 + n / 16 % 16) * 16 + n % 16 = n := by omega
  rw [hn] at hunit
  exact ⟨_, hunit⟩

/-- The quote and the backslash have short escapes, and the characters before the blank are code
units; all others stand for themselves. -/
lemma exists_spells (text : List Char) :
    ∃ pieces cs, Spells pieces cs ∧ StandsFor pieces text := by
  induction text with
  | nil => exact ⟨[], [], .nil, .nil⟩
  | cons c text ih =>
    obtain ⟨pieces, cs, hspells, hstands⟩ := ih
    by_cases hquote : c = '\"'
    · subst hquote
      exact ⟨_, _, .short (e := '\"') (by simp [shortEscapes]) hspells, .char '\"' hstands⟩
    by_cases hbackslash : c = '\\'
    · subst hbackslash
      exact ⟨_, _, .short (e := '\\') (by simp [shortEscapes]) hspells, .char '\\' hstands⟩
    by_cases hc : ' ' ≤ c
    · exact ⟨_, _, .plain hc hquote hbackslash hspells, .char c hstands⟩
    · have hsmall : c.toNat < ' '.toNat := Char.lt_def.mp (Char.not_le.mp hc)
      have hlt : c.toNat < 0x10000 := Nat.lt_trans hsmall (by decide)
      obtain ⟨digits, hdigits⟩ := exists_isUnit hlt
      exact ⟨_, _, .unit hdigits hspells, .unit c hlt hstands⟩

/-- Any text can be put between quotation marks. -/
lemma exists_quotes (s : String) : ∃ cs, Quotes (some s) cs := by
  obtain ⟨pieces, cs, hspells, hstands⟩ := exists_spells s.toList
  exact ⟨_, .text hspells hstands⟩

/-! ### Values -/

/-- There are characters that write the value down. -/
def IsWritable (v : Json) : Prop :=
  ∃ cs, Writes v cs

/-- No characters at all are white space. -/
lemma isSpace_nil : IsSpace [] := by
  simp [IsSpace]

/-- Any text can be written down. -/
lemma isWritable_text (s : String) : IsWritable (.text s) := by
  obtain ⟨cs, h⟩ := exists_quotes s
  exact ⟨cs, .string h⟩

/-- Any integer can be written down. -/
lemma isWritable_integer (n : Int) : IsWritable (.integer n) :=
  ⟨_, .integer n⟩

/-- An array can be written down if its items can. -/
lemma isWritable_array {items : List Json} (h : ∀ v ∈ items, IsWritable v) :
    IsWritable (.array items) := by
  have hitems (v : Json) (items : List Json) (h : ∀ w ∈ v :: items, IsWritable w) :
      ∃ cs, WritesItems (v :: items) cs := by
    induction items generalizing v with
    | nil =>
      obtain ⟨cs, hv⟩ := h v List.mem_cons_self
      exact ⟨_, .one isSpace_nil isSpace_nil hv⟩
    | cons w items ih =>
      obtain ⟨hv, hitems⟩ := List.forall_mem_cons.mp h
      obtain ⟨cs, hv⟩ := hv
      obtain ⟨rest, hrest⟩ := ih w hitems
      exact ⟨_, .more isSpace_nil isSpace_nil hv hrest⟩
  cases items with
  | nil => exact ⟨_, .emptyArray isSpace_nil⟩
  | cons v items =>
    obtain ⟨cs, hcs⟩ := hitems v items h
    exact ⟨_, .array hcs⟩

/-- An object can be written down if its names are texts and its values can be written down. -/
lemma isWritable_object {members : List (Option String × Json)}
    (h : ∀ m ∈ members, m.1.isSome ∧ IsWritable m.2) : IsWritable (.object members) := by
  have hmembers (m : Option String × Json) (members : List (Option String × Json))
      (h : ∀ m' ∈ m :: members, m'.1.isSome ∧ IsWritable m'.2) :
      ∃ cs, WritesMembers (m :: members) cs := by
    induction members generalizing m with
    | nil =>
      obtain ⟨name, v⟩ := m
      obtain ⟨hname, cs, hv⟩ := h _ List.mem_cons_self
      obtain ⟨name, rfl⟩ := Option.isSome_iff_exists.mp hname
      obtain ⟨ns, hname⟩ := exists_quotes name
      exact ⟨_, .one isSpace_nil isSpace_nil isSpace_nil isSpace_nil hname hv⟩
    | cons m' members ih =>
      obtain ⟨hm, hmembers⟩ := List.forall_mem_cons.mp h
      obtain ⟨name, v⟩ := m
      obtain ⟨hname, cs, hv⟩ := hm
      obtain ⟨name, rfl⟩ := Option.isSome_iff_exists.mp hname
      obtain ⟨ns, hname⟩ := exists_quotes name
      obtain ⟨rest, hrest⟩ := ih m' hmembers
      exact ⟨_, .more isSpace_nil isSpace_nil isSpace_nil isSpace_nil hname hv hrest⟩
  cases members with
  | nil => exact ⟨_, .emptyObject isSpace_nil⟩
  | cons m members =>
    obtain ⟨cs, hcs⟩ := hmembers m members h
    exact ⟨_, .object hcs⟩

/-- What characters write down, a text writes down. -/
lemma IsWritable.exists_isText {v : Json} (h : v.IsWritable) : ∃ text, v.IsText text := by
  obtain ⟨cs, hcs⟩ := h
  exact ⟨.ofList cs, [], cs, [], by simp, isSpace_nil, hcs, isSpace_nil⟩

/-! ### Records -/

/-- Members that give each of the fields once, and nothing else. -/
lemma exists_members {fields : List Field} (hnames : (fields.map Field.name).Nodup)
    (h : ∀ f ∈ fields, ∃ v, v.IsWritable ∧ f.Holds (some v)) :
    ∃ members : List (Option String × Json),
      (∀ m ∈ members, m.2.IsWritable ∧ ∃ f ∈ fields, m.1 = some f.name) ∧
      ∀ f ∈ fields, ∃ v, f.Holds (some v) ∧ valuesOf f.name members = [v] := by
  induction fields with
  | nil => exact ⟨[], by simp⟩
  | cons f fields ih =>
    rw [List.map_cons, List.nodup_cons] at hnames
    obtain ⟨⟨v, hv, hf⟩, hfields⟩ := List.forall_mem_cons.mp h
    obtain ⟨members, hmembers, hheld⟩ := ih hnames.2 hfields
    have hapart : ∀ g ∈ fields, g.name ≠ f.name := fun g hg hname =>
      hnames.1 (hname ▸ List.mem_map_of_mem hg)
    -- no other field has this name
    have hnone : valuesOf f.name members = [] := by
      refine valuesOf_eq_nil fun m hm => ?_
      obtain ⟨-, g, hg, hname⟩ := hmembers m hm
      simpa [hname] using hapart g hg
    refine ⟨(some f.name, v) :: members, List.forall_mem_cons.mpr ⟨?_, fun m hm => ?_⟩,
      List.forall_mem_cons.mpr ⟨⟨v, hf, ?_⟩, fun g hg => ?_⟩⟩
    · exact ⟨hv, f, List.mem_cons_self, rfl⟩
    · obtain ⟨hw, g, hg, hname⟩ := hmembers m hm
      exact ⟨hw, g, List.mem_cons_of_mem _ hg, hname⟩
    · rw [valuesOf_cons_self, hnone]
    · obtain ⟨w, hw, hvalues⟩ := hheld g hg
      have hne : some f.name ≠ some g.name := by simpa using (hapart g hg).symm
      exact ⟨w, hw, (valuesOf_cons_of_ne hne).trans hvalues⟩

/-- A record can be written down if each of its fields has a value that can. -/
lemma exists_isRecord {fields : List Field} (hnames : (fields.map Field.name).Nodup)
    (h : ∀ f ∈ fields, ∃ v, v.IsWritable ∧ f.Holds (some v)) :
    ∃ v, v.IsWritable ∧ IsRecord fields v := by
  obtain ⟨members, hmembers, hheld⟩ := exists_members hnames h
  have hnamed : ∀ m ∈ members, m.1.isSome := by
    intro m hm
    obtain ⟨-, f, -, hname⟩ := hmembers m hm
    rw [hname]
    rfl
  refine ⟨.object members, isWritable_object fun m hm => ⟨hnamed m hm, (hmembers m hm).1⟩,
    members, rfl, hnamed, fun f hf => ?_⟩
  obtain ⟨v, hv, hvalues⟩ := hheld f hf
  exact ⟨some v, hv, hvalues⟩

/-! ### Fields -/

section

variable {α : Type} {name : String} {missing : Prop} {P : Json → Prop}

/-- There is a value for a field that must be given. -/
lemma exists_must (h : ∃ v, v.IsWritable ∧ P v) :
    ∃ v, v.IsWritable ∧ (Field.must name P).Holds (some v) := by
  obtain ⟨v, hv, hP⟩ := h
  exact ⟨v, hv, v, rfl, hP⟩

/-- There is one for a field that may be left out. -/
lemma exists_may (h : ∃ v, v.IsWritable ∧ P v) :
    ∃ v, v.IsWritable ∧ (Field.may name missing P).Holds (some v) := by
  obtain ⟨v, hv, hP⟩ := h
  exact ⟨v, hv, .inr ⟨v, rfl, hP⟩⟩

/-- There is a value for any text. -/
lemma exists_isString (s : String) : ∃ v, v.IsWritable ∧ IsString s v :=
  ⟨_, isWritable_text s, rfl⟩

/-- There is a value for any integer. -/
lemma exists_isInteger (n : Int) : ∃ v, v.IsWritable ∧ IsInteger n v :=
  ⟨_, isWritable_integer n, rfl⟩

/-- There is a value for a choice that has a name. -/
lemma exists_chooses {IsNamed : String → Prop} (name : String) (h : IsNamed name) :
    ∃ v, v.IsWritable ∧ ∃ name, IsNamed name ∧ Chooses name v :=
  ⟨_, isWritable_text name, name, h, .inl rfl⟩

/-- There is a value for what may be null. -/
lemma exists_nullOr {P : α → Json → Prop} (h : ∀ a, ∃ v, v.IsWritable ∧ P a v) (a : Option α) :
    ∃ v, v.IsWritable ∧ NullOr P a v := by
  cases a with
  | none => exact ⟨.null, ⟨_, .null⟩, rfl⟩
  | some a => exact h a

/-- There is a value for any list. -/
lemma exists_isList {P : α → Json → Prop} (h : ∀ a, ∃ v, v.IsWritable ∧ P a v) (as : List α) :
    ∃ v, v.IsWritable ∧ IsList P as v := by
  have hitems : ∃ items, (∀ v ∈ items, v.IsWritable) ∧ List.Forall₂ P as items := by
    induction as with
    | nil => exact ⟨[], by simp, .nil⟩
    | cons a as ih =>
      obtain ⟨items, hitems, has⟩ := ih
      obtain ⟨v, hv, ha⟩ := h a
      exact ⟨v :: items, List.forall_mem_cons.mpr ⟨hv, hitems⟩, .cons ha has⟩
  obtain ⟨items, hitems, has⟩ := hitems
  exact ⟨.array items, isWritable_array hitems, items, rfl, has⟩

end

end Duelist.Json
