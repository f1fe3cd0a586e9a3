import Duelist.Json.Basic
import Duelist.Json.Literal
import Mathlib.Data.Nat.Notation
import Mathlib.Tactic.Lemma
/-!
# The grammar of JSON

Which texts write a value down, as a relation between values and sequences of characters
(`Json.Writes`). It leaves open all that a writer may choose: the gaps around tokens, the order of
members, and how the characters of a string are written.
-/

namespace Duelist.Json

/-! ### Gaps -/

/-- Nothing but spaces, tabs and the ends of lines. -/
def IsSpace (cs : List Char) : Prop :=
  ∀ c ∈ cs, c ∈ [' ', '\t', '\n', '\r']

/-! ### Strings -/

/-- The hexadecimal digit of value `n`, small or capital. -/
def IsHexDigit (n : ℕ) (c : Char) : Prop :=
  "0123456789abcdef".toList[n]? = some c ∨ "0123456789ABCDEF".toList[n]? = some c

/-- The code unit `n` in four hexadecimal digits. -/
inductive IsUnit : ℕ → List Char → Prop
  | digits {k l m n : ℕ} {a b c d : Char} (ha : IsHexDigit k a) (hb : IsHexDigit l b)
      (hc : IsHexDigit m c) (hd : IsHexDigit n d) :
      IsUnit (((k * 16 + l) * 16 + m) * 16 + n) [a, b, c, d]

/-- The letters that stand for a character behind a backslash, with these characters. -/
def shortEscapes : List (Char × Char) :=
  [('\"', '\"'), ('\\', '\\'), ('/', '/'), ('b', '\x08'), ('f', '\x0c'), ('n', '\n'), ('r', '\r'),
    ('t', '\t')]

/-- What may stand between the quotes of a string literal, as a sequence of characters and code
units. -/
inductive Spells : List Piece → List Char → Prop
  | nil : Spells [] []
  | plain {c : Char} {pieces : List Piece} {cs : List Char} (hc : ' ' ≤ c) (hquote : c ≠ '\"')
      (hbackslash : c ≠ '\\') (h : Spells pieces cs) : Spells (.char c :: pieces) (c :: cs)
  | short {c e : Char} {pieces : List Piece} {cs : List Char} (he : (e, c) ∈ shortEscapes)
      (h : Spells pieces cs) : Spells (.char c :: pieces) ('\\' :: e :: cs)
  | unit {n : ℕ} {digits : List Char} {pieces : List Piece} {cs : List Char}
      (hn : IsUnit n digits) (h : Spells pieces cs) :
      Spells (.unit n :: pieces) ('\\' :: 'u' :: (digits ++ cs))

/-- The sequence stands for the text `cs`: a code unit that is no surrogate for its character, and
a pair of surrogates for theirs. -/
inductive StandsFor : List Piece → List Char → Prop
  | nil : StandsFor [] []
  | char (c : Char) {pieces : List Piece} {cs : List Char} (h : StandsFor pieces cs) :
      StandsFor (.char c :: pieces) (c :: cs)
  | unit (c : Char) {pieces : List Piece} {cs : List Char} (hc : c.toNat < 0x10000)
      (h : StandsFor pieces cs) : StandsFor (.unit c.toNat :: pieces) (c :: cs)
  | pair (c : Char) {pieces : List Piece} {cs : List Char} (hc : 0x10000 ≤ c.toNat)
      (h : StandsFor pieces cs) :
      StandsFor (.unit (0xD800 + (c.toNat - 0x10000) / 0x400) ::
        .unit (0xDC00 + (c.toNat - 0x10000) % 0x400) :: pieces) (c :: cs)

/-- A string literal with its text, `none` if it stands for none because of an unpaired
surrogate. -/
inductive Quotes : Option String → List Char → Prop
  | text {s : String} {pieces : List Piece} {cs : List Char} (h : Spells pieces cs)
      (hs : StandsFor pieces s.toList) : Quotes (some s) ('\"' :: (cs ++ ['\"']))
  | unpaired {pieces : List Piece} {cs : List Char} (h : Spells pieces cs)
      (hs : ∀ text, ¬StandsFor pieces text) : Quotes none ('\"' :: (cs ++ ['\"']))

/-! ### Numbers -/

/-- One or more digits. -/
def AreDigits (cs : List Char) : Prop :=
  cs ≠ [] ∧ ∀ c ∈ cs, c.isDigit

/-- Digits of which the first is a zero only if there is no other. -/
inductive IsWholePart : List Char → Prop
  | zero : IsWholePart ['0']
  | digits {c : Char} {cs : List Char} (hc : c ≠ '0') (h : AreDigits (c :: cs)) :
      IsWholePart (c :: cs)

/-- A fraction, or nothing. -/
inductive IsFraction : List Char → Prop
  | nil : IsFraction []
  | point {cs : List Char} (h : AreDigits cs) : IsFraction ('.' :: cs)

/-- An exponent, or nothing. -/
inductive IsExponentPart : List Char → Prop
  | nil : IsExponentPart []
  | exponent {e : Char} {sign cs : List Char} (he : e = 'e' ∨ e = 'E')
      (hsign : sign = [] ∨ sign = ['+'] ∨ sign = ['-']) (h : AreDigits cs) :
      IsExponentPart (e :: (sign ++ cs))

/-- A number that is no integer: it has a fraction or an exponent, or it is minus zero. -/
inductive IsDecimal : List Char → Prop
  | mk {sign whole fraction exponent : List Char} (hsign : sign = [] ∨ sign = ['-'])
      (hwhole : IsWholePart whole) (hfraction : IsFraction fraction)
      (hexponent : IsExponentPart exponent)
      (h : fraction ++ exponent ≠ [] ∨ sign ++ whole = ['-', '0']) :
      IsDecimal (sign ++ whole ++ (fraction ++ exponent))

/-! ### Values -/

mutual

/-- The characters write the value down. -/
inductive Writes : Json → List Char → Prop
  | null : Writes .null "null".toList
  | true : Writes (.bool true) "true".toList
  | false : Writes (.bool false) "false".toList
  | integer (n : Int) : Writes (.integer n) (toString n).toList
  | decimal {cs : List Char} (h : IsDecimal cs) : Writes (.decimal (.ofList cs)) cs
  | string {text : Option String} {cs : List Char} (h : Quotes text cs) : Writes (.string text) cs
  | emptyArray {gap : List Char} (hgap : IsSpace gap) : Writes (.array []) ('[' :: (gap ++ [']']))
  | array {items : List Json} {cs : List Char} (h : WritesItems items cs) :
      Writes (.array items) ('[' :: (cs ++ [']']))
  | emptyObject {gap : List Char} (hgap : IsSpace gap) :
      Writes (.object []) ('\x7b' :: (gap ++ ['\x7d']))
  | object {members : List (Option String × Json)} {cs : List Char}
      (h : WritesMembers members cs) : Writes (.object members) ('\x7b' :: (cs ++ ['\x7d']))

/-- The characters write the items of an array down, one or more. -/
inductive WritesItems : List Json → List Char → Prop
  | one {before after : List Char} (hbefore : IsSpace before) (hafter : IsSpace after)
      {v : Json} {cs : List Char} (h : Writes v cs) : WritesItems [v] (before ++ (cs ++ after))
  | more {before after : List Char} (hbefore : IsSpace before) (hafter : IsSpace after)
      {v : Json} {cs : List Char} (h : Writes v cs) {items : List Json} {rest : List Char}
      (hrest : WritesItems items rest) :
      WritesItems (v :: items) (before ++ (cs ++ (after ++ ',' :: rest)))

/-- The characters write the members of an object down, one or more. -/
inductive WritesMembers : List (Option String × Json) → List Char → Prop
  | one {front back before after : List Char} (hfront : IsSpace front) (hback : IsSpace back)
      (hbefore : IsSpace before) (hafter : IsSpace after) {name : Option String} {ns : List Char}
      (hname : Quotes name ns) {v : Json} {cs : List Char} (h : Writes v cs) :
      WritesMembers [(name, v)] (front ++ (ns ++ (back ++ ':' :: (before ++ (cs ++ after)))))
  | more {front back before after : List Char} (hfront : IsSpace front) (hback : IsSpace back)
      (hbefore : IsSpace before) (hafter : IsSpace after) {name : Option String} {ns : List Char}
      (hname : Quotes name ns) {v : Json} {cs : List Char} (h : Writes v cs)
      {members : List (Option String × Json)} {rest : List Char}
      (hrest : WritesMembers members rest) :
      WritesMembers ((name, v) :: members)
        (front ++ (ns ++ (back ++ ':' :: (before ++ (cs ++ (after ++ ',' :: rest))))))

end

/-- A text that writes the value down, with gaps around it. -/
def IsText (v : Json) (text : String) : Prop :=
  ∃ before cs after, text.toList = before ++ (cs ++ after) ∧ IsSpace before ∧ Writes v cs ∧
    IsSpace after

end Duelist.Json
