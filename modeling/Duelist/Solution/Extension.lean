import Duelist.Failure
import Duelist.Text.Parts
import Duelist.Text.Utf8
/-!
# Extensions

The language of a solution is known by the extension of its file. The extension is that of the last
component of the path: neither dots in the directories nor dots in the stem count.
-/

namespace Duelist

/-- The languages that the grader takes. -/
inductive Language where
  /-- Files ending in `.py`. -/
  | python
  /-- Files ending in `.cpp`. -/
  | cpp
  /-- Files ending in `.go`. -/
  | golang
  deriving Repr, DecidableEq

namespace Language

/-- The name by which the grader knows a language. -/
def name : Language → String
  | .python => "Python"
  | .cpp => "C++"
  | .golang => "Golang"

/-- The language with the given extension, in lower case. -/
def ofExtension? (extension : String) : Option Language :=
  if extension = "py" then some .python
  else if extension = "cpp" then some .cpp
  else if extension = "go" then some .golang
  else none

end Language

/-! ### Extensions -/

namespace Path

/-- The byte between the components of a path. -/
def slash : UInt8 := 47

/-- The byte in front of an extension. -/
def dot : UInt8 := 46

/-- The last component of a path. Slashes at the end and components that are one dot do not count;
there is no last component if that leaves nothing, or a step to the parent. -/
def lastName? (path : List UInt8) : Option (List UInt8) :=
  match (Text.parts slash path).reverse.find? fun part => !part.isEmpty && part != [dot] with
  | some name => if name = [dot, dot] then none else some name
  | none => none

/-- What follows the last dot of a name, unless that dot is its first byte. -/
def extensionOfName (name : List UInt8) : Option (List UInt8) :=
  let extension := (name.reverse.takeWhile (· != dot)).reverse
  if extension.length + 1 < name.length then some extension else none

/-- The extension of a path, with ASCII letters in lower case. It is empty if there is none, or if
it is not UTF-8. -/
def extension (path : List UInt8) : String :=
  match (lastName? path).bind extensionOfName with
  | some bytes => ((Utf8.decode bytes).map fun cs => String.ofList (cs.map Char.toLower)).getD ""
  | none => ""

end Path

/-- The language of the file at `path`. -/
def Language.ofPath (path : List UInt8) : Except Refusal Language :=
  match ofExtension? (Path.extension path) with
  | some language => .ok language
  | none => .error (.unknownExtension (Path.extension path))

end Duelist
