import Duelist.Json.Record
import Mathlib.Data.List.Forall2
import Mathlib.Tactic.Lemma
/-!
# Records

A record as those who write it see it (`Json.IsRecord`): an object that gives the fields in any
order, none of them twice, among whatever other members. `Json.record?` finds the fields of such an
object, and refuses an object that gives one of the names twice (`Json.Repeats`), also where that
object stands inside of another (`Json.Within`). For each reader of a field there is a relation
that says how the field is written, and a lemma that says that it is read back.
-/

namespace Duelist.Json

variable {α : Type}

/-! ### Objects -/

/-- The values given under a name. -/
def valuesOf (name : String) (members : List (Option String × Json)) : List Json :=
  (members.filter fun m => m.1 = some name).map Prod.snd

/-- A field of a record: its name, and what may be given under it, `none` being nothing. -/
structure Field where
  /-- The name. -/
  name : String
  /-- What may be given. -/
  Holds : Option Json → Prop

/-- A field that must be given. -/
def Field.must (name : String) (P : Json → Prop) : Field where
  name := name
  Holds given := ∃ v, given = some v ∧ P v

/-- A field that may be left out under the condition `missing`. -/
def Field.may (name : String) (missing : Prop) (P : Json → Prop) : Field where
  name := name
  Holds given := given = none ∧ missing ∨ ∃ v, given = some v ∧ P v

/-- A field that must be given has the name that it is given. -/
@[simp]
lemma Field.must_name (name : String) (P : Json → Prop) : (Field.must name P).name = name := rfl

/-- So has a field that may be left out. -/
@[simp]
lemma Field.may_name (name : String) (missing : Prop) (P : Json → Prop) :
    (Field.may name missing P).name = name := rfl

/-- An object that gives the fields, none of them twice, and any members under other names. -/
def IsRecord (fields : List Field) (v : Json) : Prop :=
  ∃ members, v = .object members ∧ (∀ m ∈ members, m.1.isSome) ∧
    ∀ field ∈ fields, ∃ given, field.Holds given ∧ valuesOf field.name members = given.toList

/-- An object that gives one of the names twice. -/
def Repeats (names : List String) (v : Json) : Prop :=
  ∃ members, v = .object members ∧ ∃ name ∈ names, 2 ≤ (valuesOf name members).length

/-- An object one of whose values under the name is as `P` says. -/
def Within (name : String) (P : Json → Prop) (v : Json) : Prop :=
  ∃ members, v = .object members ∧ ∃ w ∈ valuesOf name members, P w

section

variable {name : String} {members : List (Option String × Json)}

/-- A value under the name is the first of those that are given under it. -/
lemma valuesOf_cons_self (v : Json) :
    valuesOf name ((some name, v) :: members) = v :: valuesOf name members := by
  simp [valuesOf]

/-- A value under another name is none of them. -/
lemma valuesOf_cons_of_ne {m : Option String × Json} (h : m.1 ≠ some name) :
    valuesOf name (m :: members) = valuesOf name members := by
  simp [valuesOf, h]

/-- If the name does not occur, nothing is given under it. -/
lemma valuesOf_eq_nil (h : ∀ m ∈ members, m.1 ≠ some name) : valuesOf name members = [] := by
  rw [valuesOf, List.map_eq_nil_iff, List.filter_eq_nil_iff]
  simpa using h

end

/-- To look a name up is to find the first value under it. -/
lemma lookup_eq_head? (name : String) (members : List (Option String × Json)) :
    members.lookup (some name) = (valuesOf name members).head? := by
  induction members with
  | nil => rfl
  | cons m members ih =>
    obtain ⟨key, v⟩ := m
    by_cases h : key = some name
    · rw [h, List.lookup_cons_self, valuesOf_cons_self, List.head?_cons]
    · have hbeq : (some name == key) = false := by simpa using Ne.symm h
      rw [List.lookup_cons, hbeq, valuesOf_cons_of_ne h]
      exact ih

/-- The number of times that a name occurs is the number of values under it. -/
lemma countP_eq_length (name : String) (members : List (Option String × Json)) :
    members.countP (·.1 == some name) = (valuesOf name members).length := by
  rw [valuesOf, List.length_map, ← List.countP_eq_length_filter]
  exact List.countP_congr fun m _ => by simp

/-- The fields of a record are found. -/
lemma exists_record? {fields : List Field} {v : Json} (h : IsRecord fields v) :
    ∃ field, v.record? (fields.map Field.name) = some field ∧
      ∀ f ∈ fields, f.Holds (field f.name) := by
  obtain ⟨members, rfl, htexts, hfields⟩ := h
  refine ⟨fun n => members.lookup (some n), ?_, fun f hf => ?_⟩
  · refine if_pos ?_
    rw [Bool.and_eq_true, List.all_eq_true, List.all_eq_true]
    refine ⟨htexts, fun name hname => ?_⟩
    obtain ⟨f, hf, rfl⟩ := List.mem_map.mp hname
    obtain ⟨given, -, hgiven⟩ := hfields f hf
    rw [countP_eq_length, hgiven]
    cases given <;> simp
  · obtain ⟨given, hholds, hgiven⟩ := hfields f hf
    change f.Holds (members.lookup (some f.name))
    rw [lookup_eq_head?, hgiven]
    cases given <;> exact hholds

/-- What is found in an object is all that it gives under the names. -/
lemma valuesOf_of_record? {names : List String} {members : List (Option String × Json)}
    {field : String → Option Json} (h : record? names (.object members) = some field)
    {name : String} (hname : name ∈ names) : valuesOf name members = (field name).toList := by
  obtain ⟨hall, hfield⟩ := Option.ite_none_right_eq_some.mp h
  obtain rfl := Option.some.inj hfield
  rw [Bool.and_eq_true, List.all_eq_true, List.all_eq_true] at hall
  have hone := hall.2 name hname
  rw [countP_eq_length, decide_eq_true_eq] at hone
  change valuesOf name members = (members.lookup (some name)).toList
  rw [lookup_eq_head?]
  cases hvalues : valuesOf name members with
  | nil => rfl
  | cons w ws =>
    rw [hvalues, List.length_cons] at hone
    rw [List.length_eq_zero_iff.mp (by omega : ws.length = 0)]
    rfl

/-- A name that is given twice is refused. -/
lemma record?_eq_none {names : List String} {v : Json} (h : Repeats names v) :
    v.record? names = none := by
  obtain ⟨members, rfl, name, hname, htwice⟩ := h
  refine Option.eq_none_iff_forall_ne_some.mpr fun field hfield => ?_
  rw [valuesOf_of_record? hfield hname] at htwice
  cases hgiven : field name <;> simp [hgiven] at htwice

/-- What stands within an object is what is found there. -/
lemma exists_of_within {names : List String} {name : String} {P : Json → Prop} {v : Json}
    (h : Within name P v) (hname : name ∈ names) {field : String → Option Json}
    (hfield : v.record? names = some field) : ∃ w, field name = some w ∧ P w := by
  obtain ⟨members, rfl, w, hw, hP⟩ := h
  rw [valuesOf_of_record? hfield hname, Option.mem_toList] at hw
  exact ⟨w, hw, hP⟩

/-! ### Fields -/

section

variable {name : String} {P : Json → Prop} {given : Option Json} {read : Json → Option α}
  {default a : α}

/-- A field that must be given is read, if whatever may be given under it is. -/
lemma required_of_must (hgiven : (Field.must name P).Holds given)
    (h : ∀ v, P v → read v = some a) : required read given = some a := by
  obtain ⟨v, rfl, hv⟩ := hgiven
  exact h v hv

/-- A field that may be left out is read, too, and as its default if it is left out. -/
lemma defaulted_of_may (hgiven : (Field.may name (a = default) P).Holds given)
    (h : ∀ v, P v → read v = some a) : defaulted default read given = some a := by
  obtain ⟨rfl, rfl⟩ | ⟨v, rfl, hv⟩ := hgiven
  · rfl
  · exact h v hv

end

/-! ### What a field may hold -/

/-- The text. -/
def IsString (s : String) (v : Json) : Prop :=
  v = .text s

/-- The integer. -/
def IsInteger (n : Int) (v : Json) : Prop :=
  v = .integer n

/-- A value, or null for none. -/
def NullOr (P : α → Json → Prop) : Option α → Json → Prop
  | none, v => v = .null
  | some a, v => P a v

/-- An array of values. -/
def IsList (P : α → Json → Prop) (as : List α) (v : Json) : Prop :=
  ∃ items, v = .array items ∧ List.Forall₂ P as items

/-- The name of an alternative, as a text or as the only member of an object, which is null. -/
def Chooses (name : String) (v : Json) : Prop :=
  v = .text name ∨ v = .object [(some name, .null)]

/-- A text is read. -/
lemma string?_of_isString {s : String} {v : Json} (h : IsString s v) : string? v = some s := by
  rw [show v = .text s from h]
  rfl

/-- A signed integer of 64 bits is read. -/
lemma int64?_of_isInteger {n : Int64} {v : Json} (h : IsInteger n.toInt v) :
    int64? v = some n := by
  have hbounds : Int64.minValue.toInt ≤ n.toInt ∧ n.toInt ≤ Int64.maxValue.toInt :=
    ⟨Int64.minValue_le_toInt n, Int64.toInt_le n⟩
  rw [show v = .integer n.toInt from h, int64?, between?, if_pos hbounds, Option.map_some,
    Int64.ofInt_toInt]

/-- An unsigned integer of 64 bits is read. -/
lemma uint64?_of_isInteger {n : UInt64} {v : Json} (h : IsInteger n.toNat v) :
    uint64? v = some n := by
  have hbounds : (0 : Int) ≤ n.toNat ∧ (n.toNat : Int) ≤ UInt64.size - 1 := by
    have := n.toNat_lt_size
    omega
  rw [show v = .integer n.toNat from h, uint64?, between?, if_pos hbounds, Option.map_some,
    Int.toNat_natCast, UInt64.ofNat_toNat]

/-- An unsigned integer of 32 bits is read. -/
lemma uint32?_of_isInteger {n : UInt32} {v : Json} (h : IsInteger n.toNat v) :
    uint32? v = some n := by
  have hbounds : (0 : Int) ≤ n.toNat ∧ (n.toNat : Int) ≤ UInt32.size - 1 := by
    have := n.toNat_lt_size
    omega
  rw [show v = .integer n.toNat from h, uint32?, between?, if_pos hbounds, Option.map_some,
    Int.toNat_natCast, UInt32.ofNat_toNat]

/-- A name is read from those values that choose it. -/
lemma choice?_eq_some_iff {name : String} {v : Json} : choice? v = some name ↔ Chooses name v := by
  constructor
  · intro h
    fun_cases choice? v with
    | case1 text => exact .inl (congrArg Json.string h)
    | case2 key => exact .inr (by rw [show key = some name from h])
    | case3 v hstring hobject =>
      rw [choice?] at h
      · cases h
      · exact hstring
      · exact hobject
  · rintro (rfl | rfl) <;> rfl

/-- A value or null is read, as long as null is not one of the values. -/
lemma nullable_of_nullOr {P : α → Json → Prop} {read : Json → Option α}
    (h : ∀ a v, P a v → v ≠ .null ∧ read v = some a) {a : Option α} {v : Json}
    (hv : NullOr P a v) : nullable read v = some a := by
  cases a with
  | none =>
    rw [show v = .null from hv]
    rfl
  | some a =>
    obtain ⟨hne, hread⟩ := h a v hv
    rw [nullable, hread]
    · rfl
    · exact hne

/-- An array is read if each of its values is. -/
lemma list?_of_isList {P : α → Json → Prop} {read : Json → Option α}
    (h : ∀ a v, P a v → read v = some a) {as : List α} {v : Json} (hv : IsList P as v) :
    list? read v = some as := by
  obtain ⟨items, rfl, hitems⟩ := hv
  rw [list?]
  induction hitems with
  | nil => rfl
  | cons ha _ ih =>
    rw [List.mapM_cons, h _ _ ha, ih]
    rfl

/-- One item that is refused is enough. -/
lemma list?_eq_none {read : Json → Option α} {items : List Json} {w : Json} (hw : w ∈ items)
    (h : read w = none) : list? read (.array items) = none := by
  rw [list?]
  induction items with
  | nil => cases hw
  | cons v items ih =>
    rw [List.mapM_cons]
    obtain rfl | hw := List.mem_cons.mp hw
    · rw [h]
      rfl
    · rw [ih hw]
      cases read v <;> rfl

end Duelist.Json
