/-!
# White space

The characters that separate words in what a user types, in settings and in the lines of an event
stream, and the removal of such characters from the ends of a text. A character is blank exactly
when it has the Unicode property `White_Space`; the zero-width characters and the ASCII separators
`U+001C` to `U+001F` do not have it.
-/

namespace Duelist.Text

/-- The characters with the Unicode property `White_Space`, in order. -/
def blanks : List Char :=
  ['\t', '\n', '\x0b', '\x0c', '\r', ' ', '\u0085', '\u00a0', '\u1680', '\u2000', '\u2001',
    '\u2002', '\u2003', '\u2004', '\u2005', '\u2006', '\u2007', '\u2008', '\u2009', '\u200a',
    '\u2028', '\u2029', '\u202f', '\u205f', '\u3000']

/-- True of the characters of `blanks`. -/
def isBlank (c : Char) : Bool :=
  blanks.contains c

/-- Drops the longest run at the end whose members all satisfy `p`. -/
def dropTrailing {α : Type} (p : α → Bool) (cs : List α) : List α :=
  (cs.reverse.dropWhile p).reverse

/-- Drops the blank characters at both ends. -/
def trimmed (cs : List Char) : List Char :=
  dropTrailing isBlank (cs.dropWhile isBlank)

/-- The text without the blank characters at its ends. -/
def trim (s : String) : String :=
  .ofList (trimmed s.toList)

/-- The blank characters are those of the list. -/
theorem isBlank_iff {c : Char} : isBlank c = true ↔ c ∈ blanks := by
  simp [isBlank]

/-- Where nothing is, nothing is dropped. -/
@[simp]
theorem dropTrailing_nil {α : Type} (p : α → Bool) : dropTrailing p [] = [] := rfl

/-- Where nothing is, nothing is trimmed. -/
@[simp]
theorem trimmed_nil : trimmed [] = [] := rfl

/-- A text is trimmed character by character. -/
@[simp]
theorem toList_trim (s : String) : (trim s).toList = trimmed s.toList := by
  simp [trim]

end Duelist.Text
