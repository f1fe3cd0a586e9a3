import Duelist.Json.Basic
import Duelist.Json.Token
/-!
# Reading JSON

Tokens become a tree by a machine with a stack of unfinished arrays and objects. The machine takes
one token a step, so nesting is limited by nothing but memory.
-/

namespace Duelist.Json

/-- An array or object that has been opened and not closed. Its finished parts are kept last
first. -/
inductive Opened where
  /-- An array, one item of which is being read. -/
  | array (items : List Json)
  /-- An object, the value of whose member `key` is being read. -/
  | object (members : List (Option String × Json)) (key : Option String)

/-- What may come next. -/
inductive Place where
  /-- A value. -/
  | value (stack : List Opened)
  /-- The first item of an array, or its end. -/
  | item (stack : List Opened)
  /-- The first name of an object, or its end. -/
  | firstName (stack : List Opened)
  /-- A name after a comma. -/
  | name (members : List (Option String × Json)) (stack : List Opened)
  /-- The colon after a name. -/
  | colon (members : List (Option String × Json)) (key : Option String) (stack : List Opened)
  /-- What follows the value `v`. -/
  | after (v : Json) (stack : List Opened)

/-- The value that is a number. -/
def ofNumber : Number → Json
  | .integer n => .integer n
  | .decimal literal => .decimal literal

/-- Takes a token where a value must come. -/
def Place.open? (stack : List Opened) : Token → Option Place
  | .null => some (.after .null stack)
  | .bool b => some (.after (.bool b) stack)
  | .number n => some (.after (ofNumber n) stack)
  | .string text => some (.after (.string text) stack)
  | .openArray => some (.item stack)
  | .openObject => some (.firstName stack)
  | _ => none

/-- Takes one token. -/
def Place.step? : Place → Token → Option Place
  | .value stack, t => open? stack t
  | .item stack, .closeArray => some (.after (.array []) stack)
  | .item stack, t => open? (.array [] :: stack) t
  | .firstName stack, .closeObject => some (.after (.object []) stack)
  | .firstName stack, .string key => some (.colon [] key stack)
  | .name members stack, .string key => some (.colon members key stack)
  | .colon members key stack, .colon => some (.value (.object members key :: stack))
  | .after v (.array items :: stack), .comma => some (.value (.array (v :: items) :: stack))
  | .after v (.array items :: stack), .closeArray =>
    some (.after (.array (v :: items).reverse) stack)
  | .after v (.object members key :: stack), .comma =>
    some (.name ((key, v) :: members) stack)
  | .after v (.object members key :: stack), .closeObject =>
    some (.after (.object ((key, v) :: members).reverse) stack)
  | _, _ => none

/-- Takes all tokens. -/
def Place.run? (p : Place) (tokens : List Token) : Option Place :=
  tokens.foldlM step? p

/-- The value that has been read, if it is complete. -/
def Place.result? : Place → Option Json
  | .after v [] => some v
  | _ => none

/-- The value that is written by all of the tokens. -/
def ofTokens? (tokens : List Token) : Option Json :=
  ((Place.value []).run? tokens).bind Place.result?

/-- The value of a JSON text. -/
def ofText? (s : String) : Option Json :=
  (tokens? s.toList).bind ofTokens?

end Duelist.Json
