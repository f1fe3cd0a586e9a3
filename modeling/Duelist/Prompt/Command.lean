import Duelist.Text.Blank
/-!
# Commands

What a line typed at the prompt means. Any line means something: what is not understood is kept as
it was typed.
-/

namespace Duelist

/-- The meaning of a line. -/
inductive Command where
  /-- Hand in the solution at `path`. -/
  | submit (path : String)
  /-- Hand in a solution, but which one is not said. -/
  | usage
  /-- Nothing. -/
  | empty
  /-- Not understood. -/
  | unknown (line : String)
  deriving Repr, DecidableEq

namespace Command

/-- The word that hands in a solution. -/
def keyword : List Char :=
  "submit".toList

/-- The meaning of a line without what is blank at its ends. -/
def ofTrimmed (line : List Char) : Command :=
  if line.isEmpty then .empty
  else if line = keyword then .usage
  else match (keyword ++ [' ']).isPrefixOf? line with
    | some path =>
      let path := Text.trimmed path
      if path.isEmpty then .usage else .submit (.ofList path)
    | none => .unknown (.ofList line)

/-- The meaning of a line. -/
def ofLine (line : String) : Command :=
  ofTrimmed (Text.trimmed line.toList)

end Command

end Duelist
