import Duelist.Text.Numeral
/-!
# JSON literals

The meaning of the two kinds of token that carry data: the elements of a string literal, and the
words, which are numbers and the three names.
-/

namespace Duelist.Json

/-! ### String literals -/

/-- An element of a string literal: a character, or a UTF-16 code unit written as `\uXXXX`. -/
inductive Piece where
  /-- A character, written as itself or by a short escape. -/
  | char (c : Char)
  /-- A code unit written with four hexadecimal digits. -/
  | unit (n : Nat)
  deriving Repr, DecidableEq

/-- The value of a hexadecimal digit. -/
def hexDigit? (c : Char) : Option Nat :=
  if '0' ≤ c ∧ c ≤ '9' then some (c.toNat - '0'.toNat)
  else if 'a' ≤ c ∧ c ≤ 'f' then some (c.toNat - 'a'.toNat + 10)
  else if 'A' ≤ c ∧ c ≤ 'F' then some (c.toNat - 'A'.toNat + 10)
  else none

/-- The code unit written by four hexadecimal digits. -/
def unit? (a b c d : Char) : Option Nat := do
  return (((← hexDigit? a) * 16 + (← hexDigit? b)) * 16 + (← hexDigit? c)) * 16 + (← hexDigit? d)

/-- The character meant by a backslash and `c`. -/
def shortEscape? (c : Char) : Option Char :=
  if c = '\"' ∨ c = '\\' ∨ c = '/' then some c
  else if c = 'b' then some '\x08'
  else if c = 'f' then some '\x0c'
  else if c = 'n' then some '\n'
  else if c = 'r' then some '\r'
  else if c = 't' then some '\t'
  else none

/-- True of the first half of a surrogate pair. -/
def isHighSurrogate (n : Nat) : Bool := 0xD800 ≤ n && n < 0xDC00

/-- True of the second half of a surrogate pair. -/
def isLowSurrogate (n : Nat) : Bool := 0xDC00 ≤ n && n < 0xE000

/-- The characters of a string literal, `none` if a surrogate is left unpaired. -/
def Piece.chars? : List Piece → Option (List Char)
  | [] => some []
  | .char c :: rest => (c :: ·) <$> chars? rest
  | .unit n :: rest =>
    if isHighSurrogate n then
      match rest with
      | .unit m :: rest =>
        if isLowSurrogate m then
          (Char.ofNat (0x10000 + (n - 0xD800) * 0x400 + (m - 0xDC00)) :: ·) <$> chars? rest
        else none
      | _ => none
    else if isLowSurrogate n then none
    else (Char.ofNat n :: ·) <$> chars? rest

/-- The text of a string literal, `none` if a surrogate is left unpaired. -/
def Piece.text? (pieces : List Piece) : Option String :=
  (chars? pieces).map .ofList

/-! ### Numbers -/

/-- A number of JSON: an integer, or some other number as it was written. -/
inductive Number where
  /-- Neither fraction nor exponent, and not minus zero. -/
  | integer (n : Int)
  /-- Any other number. -/
  | decimal (literal : String)
  deriving Repr, DecidableEq

/-- True of a whole part: digits that start with `0` only if there is no other. -/
def isWhole (cs : List Char) : Bool :=
  match cs with
  | [] => false
  | ['0'] => true
  | c :: _ => c != '0' && cs.all Char.isDigit

/-- True of what may follow the letter of an exponent: digits behind at most one sign. -/
def isExponent : List Char → Bool
  | '+' :: cs => (Text.digits? cs).isSome
  | '-' :: cs => (Text.digits? cs).isSome
  | cs => (Text.digits? cs).isSome

/-- True of what may follow the whole part: nothing, or a fraction, an exponent or both. -/
def isTail (cs : List Char) : Bool :=
  let fraction := match cs with
    | '.' :: cs => !(cs.takeWhile Char.isDigit).isEmpty
    | _ => true
  let rest := match cs with
    | '.' :: cs => cs.dropWhile Char.isDigit
    | cs => cs
  fraction && match rest with
    | [] => true
    | c :: cs => (c == 'e' || c == 'E') && isExponent cs

/-- Reads a number from its parts: a sign, the digits of the whole part, and what follows them. -/
def Number.ofParts? (negative : Bool) (whole tail : List Char) : Option Number :=
  if isWhole whole && isTail tail then
    let n := Text.valueOfDigits whole
    if tail.isEmpty && !(negative && n == 0) then
      some (.integer (if negative then -(n : Int) else n))
    else
      some (.decimal (.ofList ((if negative then ['-'] else []) ++ whole ++ tail)))
  else none

/-- The number written by a whole word. -/
def Number.ofWord? : List Char → Option Number
  | '-' :: cs => ofParts? true (cs.takeWhile Char.isDigit) (cs.dropWhile Char.isDigit)
  | cs => ofParts? false (cs.takeWhile Char.isDigit) (cs.dropWhile Char.isDigit)

end Duelist.Json
