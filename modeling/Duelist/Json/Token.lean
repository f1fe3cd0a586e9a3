import Duelist.Json.Literal
/-!
# JSON tokens

A JSON text cut into tokens. The scanner walks over the characters once and is at any time in one
of three modes: between tokens, inside a word, or inside a string literal. A word is a longest run
of the characters that occur in numbers and in `true`, `false` and `null`; two words never meet
without something between them in a valid text, so cutting them by the longest run loses nothing.
-/

namespace Duelist.Json

/-- The smallest meaningful part of a JSON text. -/
inductive Token where
  /-- An opening square bracket. -/
  | openArray
  /-- A closing square bracket. -/
  | closeArray
  /-- An opening brace. -/
  | openObject
  /-- A closing brace. -/
  | closeObject
  /-- The colon between a name and its value. -/
  | colon
  /-- The comma between two items or members. -/
  | comma
  /-- The word `null`. -/
  | null
  /-- One of the words `true` and `false`. -/
  | bool (b : Bool)
  /-- A number. -/
  | number (n : Number)
  /-- A string literal, `none` if it has an unpaired surrogate. -/
  | string (text : Option String)
  deriving Repr, DecidableEq

/-- True of the four characters that may stand around tokens. -/
def isGap (c : Char) : Bool :=
  c == ' ' || c == '\t' || c == '\n' || c == '\r'

/-- True of the characters of numbers and names. -/
def isWordChar (c : Char) : Bool :=
  c.isAlphanum || c == '+' || c == '-' || c == '.'

/-- The token that is one punctuation mark. -/
def Token.ofMark? (c : Char) : Option Token :=
  if c = '[' then some .openArray
  else if c = ']' then some .closeArray
  else if c = '\x7b' then some .openObject
  else if c = '\x7d' then some .closeObject
  else if c = ':' then some .colon
  else if c = ',' then some .comma
  else none

/-- The token written by a whole word. -/
def Token.ofWord? (cs : List Char) : Option Token :=
  if cs = ['n', 'u', 'l', 'l'] then some .null
  else if cs = ['t', 'r', 'u', 'e'] then some (.bool true)
  else if cs = ['f', 'a', 'l', 's', 'e'] then some (.bool false)
  else (Number.ofWord? cs).map .number

/-- Where the scanner is. What has been seen of the current token is kept last first. -/
inductive Mode where
  /-- Between two tokens. -/
  | gap
  /-- Inside a word. -/
  | word (seen : List Char)
  /-- Inside a string literal. -/
  | literal (seen : List Piece)

/-- What a character between tokens starts: the tokens that it completes, and the next mode. -/
def start? (c : Char) : Option (List Token × Mode) :=
  if isGap c then some ([], .gap)
  else if c = '\"' then some ([], .literal [])
  else if isWordChar c then some ([], .word [c])
  else (Token.ofMark? c).map fun t => ([t], .gap)

/-- The tokens of the rest of a text, read from the given mode on. -/
def scan : Mode → List Char → Option (List Token)
  | .gap, [] => some []
  | .gap, c :: cs => do
    let (tokens, mode) ← start? c
    return tokens ++ (← scan mode cs)
  | .word seen, [] => do
    return [← Token.ofWord? seen.reverse]
  | .word seen, c :: cs =>
    if isWordChar c then scan (.word (c :: seen)) cs
    else do
      let word ← Token.ofWord? seen.reverse
      let (tokens, mode) ← start? c
      return word :: tokens ++ (← scan mode cs)
  | .literal _, [] => none
  | .literal seen, '\"' :: cs => do
    return .string (Piece.text? seen.reverse) :: (← scan .gap cs)
  | .literal seen, '\\' :: 'u' :: a :: b :: c :: d :: cs => do
    scan (.literal (.unit (← unit? a b c d) :: seen)) cs
  | .literal seen, '\\' :: c :: cs => do
    scan (.literal (.char (← shortEscape? c) :: seen)) cs
  | .literal seen, c :: cs =>
    if c < ' ' ∨ c = '\\' then none else scan (.literal (.char c :: seen)) cs

/-- The tokens of a JSON text. -/
def tokens? (cs : List Char) : Option (List Token) :=
  scan .gap cs

end Duelist.Json
