/-!
# The display

What the player gets to see. There are direct answers to what was typed, notifications that arrive
while the prompt is shown, and the prompt itself.
-/

namespace Duelist

/-- Something put on the display. -/
inductive Line where
  /-- A direct answer to what was typed. -/
  | say (text : String)
  /-- A notification. -/
  | notify (text : String)
  /-- The sign that a command may be typed. -/
  | prompt
  deriving Repr, DecidableEq

namespace Line

/-- The text of an answer or a notification. -/
def text? : Line → Option String
  | .say text | .notify text => some text
  | .prompt => none

/-- The characters that a terminal receives. A notification leaves the line of the prompt and draws
the prompt again afterwards. -/
def rendered : Line → String
  | .say text => s!"{text}\n"
  | .notify text => s!"\n\n{text}\n\n> "
  | .prompt => "\n> "

/-- True if `needle` occurs in `hay`. -/
def occursIn (needle : List Char) : List Char → Bool
  | [] => needle.isEmpty
  | c :: hay => needle.isPrefixOf (c :: hay) || occursIn needle hay

/-- The texts among the lines, in order. -/
def texts (lines : List Line) : List String :=
  lines.filterMap text?

/-- The number of texts in which `needle` occurs. -/
def count (needle : String) (lines : List Line) : Nat :=
  (texts lines).countP fun text => occursIn needle.toList text.toList

end Line

end Duelist
