import Stencil.Text.Cut

/-!
# Paths

A path is a text of steps with slashes between them.  It can be spelled in several ways: slashes may
be doubled or stand at its end, and a step that is a point stays in place.

* `components`: what a path is made of, whatever its spelling;
* `join`: a path seen from a folder.

Both go by the text alone, so that nothing depends on which files there are.
-/

namespace Stencil.Path

/-- What a path is made of. -/
inductive Component where
  /-- The root of the file system. -/
  | root
  /-- The current folder, at the start of a path that is seen from it. -/
  | current
  | parent
  | normal (name : String)
  deriving DecidableEq

/-- Whether a component stays in its folder or goes into it. -/
def Component.isInner : Component → Bool
  | .current | .normal _ => true
  | .root | .parent => false

/-- Whether a path is seen from the root of the file system. -/
def isAbsolute (path : String) : Bool := path.toList.head? = some '/'

/-- The texts between the slashes of a path. -/
def pieces (path : String) : List String := (Text.splitAt '/' path.toList).map String.ofList

/-- From where a path is seen, if it says so: the root, or a point at its start. -/
def start (path : String) : List Component :=
  if isAbsolute path then [.root]
  else if (pieces path).head? = some "." then [.current]
  else []

/-- The component of a piece.  An empty one and a point stay in place. -/
def component? (piece : String) : Option Component :=
  if piece = "" ∨ piece = "." then none
  else if piece = ".." then some .parent
  else some (.normal piece)

/-- The components of a path. -/
def components (path : String) : List Component := start path ++ (pieces path).filterMap component?

/-- A folder with a slash behind it, unless there is one or nothing at all. -/
def folder (path : String) : String :=
  if path = "" ∨ path.toList.getLast? = some '/' then path else path ++ "/"

/-- A path that is seen from a folder; one that is seen from the root stays what it is. -/
def join (base path : String) : String := if isAbsolute path then path else folder base ++ path

end Stencil.Path
