/-!
# JSON values

A JSON text as a tree. Numbers keep the one distinction that records make: an integer, written
without fraction and exponent, or any other number, which is kept as it was written. A string may
hold escapes of surrogates that do not pair up; such a string is valid JSON but stands for no text,
and is `none` here.
-/

namespace Duelist

/-- A JSON value. -/
inductive Json where
  /-- The literal `null`. -/
  | null
  /-- One of the literals `true` and `false`. -/
  | bool (b : Bool)
  /-- A number without fraction and exponent, other than minus zero. -/
  | integer (n : Int)
  /-- Any other number, as written. -/
  | decimal (literal : String)
  /-- A string, `none` if it has an unpaired surrogate. -/
  | string (text : Option String)
  /-- An array. -/
  | array (items : List Json)
  /-- An object, its members in the order of the text. -/
  | object (members : List (Option String × Json))
  deriving Repr, Inhabited, BEq

namespace Json

/-- A string value with the given text. -/
def text (s : String) : Json :=
  .string (some s)

/-- An object whose members all have texts. -/
def strings (members : List (String × String)) : Json :=
  .object (members.map fun m => (some m.1, .text m.2))

end Json

end Duelist
