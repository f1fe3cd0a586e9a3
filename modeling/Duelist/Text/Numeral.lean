/-!
# Decimal numerals

Whole numbers written with ASCII digits.
-/

namespace Duelist.Text

/-- The value of a sequence of ASCII digits, most significant first. -/
def valueOfDigits (cs : List Char) : Nat :=
  cs.foldl (fun n c => 10 * n + (c.toNat - '0'.toNat)) 0

/-- The number written by one or more ASCII digits and nothing else. -/
def digits? (cs : List Char) : Option Nat :=
  if !cs.isEmpty && cs.all Char.isDigit then some (valueOfDigits cs) else none

/-- The number written by digits with at most one plus sign in front. -/
def natural? : List Char → Option Nat
  | '+' :: cs => digits? cs
  | cs => digits? cs

end Duelist.Text
