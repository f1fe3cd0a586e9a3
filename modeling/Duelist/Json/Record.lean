import Duelist.Json.Basic
/-!
# Records in JSON

A record is written as an object, or as an array that gives its fields in order. `record?` finds
the value of each field by name; the readers below say what a field may hold.

In an object every name must be a text, members that are no fields are passed over, and a field
may be given once only. In an array fields may be missing at the end, and there is nothing after
the last one.
-/

namespace Duelist.Json

/-- The values that a record with fields `names` gives to them. -/
def record? (names : List String) : Json → Option (String → Option Json)
  | .object members =>
    if members.all (·.1.isSome) && names.all fun n => members.countP (·.1 == some n) ≤ 1 then
      some fun n => members.lookup (some n)
    else none
  | .array items =>
    if items.length ≤ names.length then some fun n => (names.zip items).lookup n else none
  | _ => none

/-! ### Fields -/

/-- A field that must be there. -/
def required {α : Type} (read : Json → Option α) (field : Option Json) : Option α :=
  field.bind read

/-- A field that has the value `default` when it is missing. -/
def defaulted {α : Type} (default : α) (read : Json → Option α) : Option Json → Option α
  | none => some default
  | some v => read v

/-! ### What a field may hold -/

/-- A text. -/
def string? : Json → Option String
  | .string text => text
  | _ => none

/-- An integer from `least` to `greatest`. -/
def between? (least greatest : Int) : Json → Option Int
  | .integer n => if least ≤ n ∧ n ≤ greatest then some n else none
  | _ => none

/-- A signed number of 64 bits. -/
def int64? (v : Json) : Option Int64 :=
  (between? Int64.minValue.toInt Int64.maxValue.toInt v).map Int64.ofInt

/-- A number of 64 bits without sign. -/
def uint64? (v : Json) : Option UInt64 :=
  (between? 0 (UInt64.size - 1) v).map (.ofNat ·.toNat)

/-- A number of 32 bits without sign. -/
def uint32? (v : Json) : Option UInt32 :=
  (between? 0 (UInt32.size - 1) v).map (.ofNat ·.toNat)

/-- Either null, or what `read` accepts. -/
def nullable {α : Type} (read : Json → Option α) : Json → Option (Option α)
  | .null => some none
  | v => (read v).map some

/-- The name of one of several alternatives: a text, or an object whose only member is null. -/
def choice? : Json → Option String
  | .string text => text
  | .object [(name, .null)] => name
  | _ => none

/-- An array, each of whose items `read` accepts. -/
def list? {α : Type} (read : Json → Option α) : Json → Option (List α)
  | .array items => items.mapM read
  | _ => none

end Duelist.Json
