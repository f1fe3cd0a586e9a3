import Duelist.Text.Blank
import Duelist.Text.Parts
import Duelist.Text.Utf8
/-!
# Files

The files that a player may hand in. A path is walked component by component, from the directory in
which the client runs or, if it begins with a slash, from the root: an empty component and a single
dot stay where they are, two dots go to the parent, and all but the last step must lead to a
directory. Nothing is known of what lies above the directory of the client but what was put there,
and that one can go up for ever.

Names are limited to 255 bytes and paths to 4095. No name contains the character zero.
-/

namespace Duelist

/-- What is found at a path. -/
inductive Node where
  /-- A file and its contents. -/
  | file (bytes : List UInt8)
  /-- A directory. -/
  | directory
  deriving Repr, DecidableEq

/-- The text of what is found at a path, or why it cannot be read. -/
def Node.text : Node → Except String String
  | .directory => .error "Is a directory (os error 21)"
  | .file bytes =>
    match Utf8.text? bytes with
    | some text => .ok text
    | none => .error Utf8.complaint

/-- Where a walk begins. -/
inductive Base where
  /-- So many levels above the directory of the client. -/
  | above (levels : Nat)
  /-- At the root. -/
  | root
  deriving Repr, DecidableEq

/-- The parent; the root is its own. -/
def Base.parent : Base → Base
  | .above levels => .above (levels + 1)
  | .root => .root

/-- A place in the tree of directories: some names below a base. -/
structure Place where
  /-- The base. -/
  base : Base := .above 0
  /-- The names that lead down from it. -/
  names : List String := []
  deriving Repr, DecidableEq

namespace Place

/-- The parent of a place. -/
def parent (place : Place) : Place :=
  if place.names.isEmpty then { place with base := place.base.parent }
  else { place with names := place.names.dropLast }

/-- What is called `name` at a place. -/
def child (name : String) (place : Place) : Place :=
  { place with names := place.names ++ [name] }

end Place

/-! ### Paths -/

namespace Path

/-- The components of a path between slashes. -/
def components (path : String) : List String :=
  (Text.parts '/' path.toList).map .ofList

/-- The place from which a path is walked. -/
def start (path : String) : Place :=
  if (components path).head? = some "" then { base := .root } else {}

/-- True of a component that stays where it is. -/
def stays (component : String) : Bool :=
  component == "" || component == "."

/-- True of a component that may be the name of something new. -/
def isName (component : String) : Bool :=
  !stays component && component != ".." && component.utf8ByteSize ≤ 255

/-- True of a path that can be walked at all. -/
def isWalkable (path : String) : Bool :=
  !path.isEmpty && path.utf8ByteSize ≤ 4095 && !path.toList.contains '\x00'

/-- The components that lead to where the last name of a path is. Components behind that name that
stay where they are do not count. -/
def above (components : List String) : List String :=
  Text.dropTrailing stays (Text.dropTrailing stays components).dropLast

end Path

/-- Files and directories by the places where they are. -/
structure Files where
  /-- What was put where, the latest first. -/
  entries : List (Place × Node) := []

namespace Files

/-- What is at a place. All bases are directories. -/
def at? (files : Files) (place : Place) : Option Node :=
  if place.names.isEmpty then some .directory else files.entries.lookup place

/-! ### Looking -/

/-- Takes a step of a walk; `none` if there is nothing to step to. -/
def step? (files : Files) (place : Place) (component : String) : Option Place :=
  if files.at? place ≠ some .directory then none
  else if Path.stays component then some place
  else if component = ".." then some place.parent
  else if (files.at? (place.child component)).isSome then some (place.child component)
  else none

/-- Takes several steps. -/
def walk? (files : Files) (place : Place) (components : List String) : Option Place :=
  components.foldlM files.step? place

/-- What is found at a path. -/
def find? (files : Files) (path : String) : Option Node :=
  if Path.isWalkable path then
    (files.walk? (Path.start path) (Path.components path)).bind files.at?
  else none

/-! ### Making -/

/-- Takes the steps of a walk and makes the directories that are missing, up to the first step that
leads nowhere. -/
def clear (files : Files) (place : Place) : List String → Files
  | [] => files
  | component :: rest =>
    match files.step? place component with
    | some next => files.clear next rest
    | none =>
      if Path.isName component && files.at? place = some .directory then
        let next := place.child component
        clear { entries := (next, .directory) :: files.entries } next rest
      else files

/-- Makes the directories along some components, provided that these make up a path. -/
def makeAlong (path : String) (components : List String) (files : Files) : Files :=
  if Path.isWalkable ("/".intercalate components) then files.clear (Path.start path) components
  else files

/-- Makes a directory and those that lead there. A path that ends in a single dot names no new
directory, so that only those that lead there are made. -/
def makeDirectory (path : String) (files : Files) : Files :=
  let components := Path.components path
  let named := (Text.dropTrailing String.isEmpty components).getLast? != some "."
  files.makeAlong path (if named then components else Path.above components)

/-- Writes a file, unless there is a directory, and makes the directories that lead there. -/
def write (path : String) (bytes : List UInt8) (files : Files) : Files :=
  let components := Path.components path
  let files := files.makeAlong path (Path.above components)
  let name := components.getLast?.getD ""
  match files.walk? (Path.start path) components.dropLast with
  | none => files
  | some place =>
    if Path.isWalkable path && Path.isName name && files.at? place = some .directory
        && files.at? (place.child name) ≠ some .directory then
      { entries := (place.child name, .file bytes) :: files.entries }
    else files

end Files

end Duelist
