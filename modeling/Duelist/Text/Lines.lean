/-!
# Lines of bytes

Bytes arrive in pieces of any size, on the event stream as on the keyboard. `cutLines` cuts what
has arrived after each line feed and keeps the unfinished rest for later.
-/

namespace Duelist.Text

/-- The byte that ends a line. -/
def lineFeed : UInt8 := 10

/-- The finished lines, each without its line feed, and the rest after the last line feed. -/
def cutLines : List UInt8 → List (List UInt8) × List UInt8
  | [] => ([], [])
  | b :: bytes =>
    match cutLines bytes with
    | (lines, rest) =>
      if b = lineFeed then ([] :: lines, rest)
      else match lines with
        | [] => ([], b :: rest)
        | line :: lines => ((b :: line) :: lines, rest)

end Duelist.Text
