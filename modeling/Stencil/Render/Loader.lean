import Stencil.Data.Fields
import Stencil.Input.Source
import Stencil.Text.Path

/-!
# Loaders

A loader opens named resources: templates, the templates they include, and text bundles.  Names use
slashes, and a name inside a template is relative to the folder of the outermost template.

* `resolveRelative`: a name next to another one;
* `Loader`: resources kept in memory, resources that may fail, or the files of a directory;
* `Loader.openNamed`: the source of a resource, or why there is none.

A directory gives out only what lies under its root: a name with a step up, or from the file
system's own root, is refused before any file is looked at.

`Loader.openNamed` goes by the name alone, whatever the root of the directory is.  What it comes to
with a root (`openNamed_directory` in `Stencil.Proofs.Render.Directory`) is in two steps:

* `pathUnder`: the path of a name below a root, or why there is none;
* `openPath`: opens a path below the root.
-/

namespace Stencil

/-- The name of a resource in the folder of `base`. -/
def resolveRelative (base name : String) : String :=
  match Text.splitLast '/' base.toList with
  | some (folder, _) => String.ofList (folder ++ '/' :: name.toList)
  | none => name

/-! ## Files of a directory -/

/-- What a path leads to. -/
inductive Place where
  | file (text : String)
  | folder
  | missing
  /-- The path goes on behind a file. -/
  | throughFile
  /-- A step of the path is too long for the name of a file. -/
  | overlong
  deriving DecidableEq

/-- The steps of a path, without those that stay in place. -/
def stepsOf (path : String) : List String :=
  ((Text.splitAt '/' path.toList).map String.ofList).filter (fun s => s ≠ "" ∧ s ≠ ".")

/-- The number of bytes in the name of a file is limited. -/
def maxStepSize : Nat := 255

/-- The number of bytes in a whole path is limited. -/
def maxPathSize : Nat := 4095

/-- What the steps of a path lead to from the folder `here`. -/
def walk (files : List (List String × String)) : (here : List String) → List String → Place
  | _, [] => .folder
  | here, step :: rest =>
    if step = "" ∨ step = "." then walk files here rest
    else if maxStepSize < step.utf8ByteSize then .overlong
    else
      let there := here ++ [step]
      match files.find? (fun f => f.1 = there) with
      | some (_, text) => if rest.isEmpty then .file text else .throughFile
      | none =>
        if files.any (fun f => there.isPrefixOf f.1) then walk files there rest else .missing

/-- The name leads out of the directory: it starts at the root of the file system, or has a step up.
This is the check of `path_for`, made of the text of the name. -/
def escapesRoot (name : String) : Bool :=
  name.startsWith "/" || (stepsOf name).contains ".."

/-- Opens what lies under a name, wherever it leads.  A folder can be opened, too, but not read.
No file has a zero character in its name. -/
def openBelow (files : List (String × String)) (name : String) : Except IoError Source :=
  if name.toList.contains '\x00' then
    .error (.of .invalidInput "file name contained an unexpected NUL byte")
  else if maxPathSize < name.utf8ByteSize then .error (.system .invalidFilename)
  else
    let steps := (Text.splitAt '/' name.toList).map String.ofList
    match walk (files.map (fun f => (stepsOf f.1, f.2))) [] steps with
    | .file text => .ok (.ofText text)
    | .folder => .ok [.failure (.system .isADirectory)]
    | .missing => .error (.system .notFound)
    | .throughFile => .error (.system .notADirectory)
    | .overlong => .error (.system .invalidFilename)

/-- The failure for a name that leads out of the directory. -/
def escapeError (name : String) : IoError :=
  .of .invalidInput ("template name escapes loader root: " ++ name)

/-- Opens a file of a directory, unless its name leads out (`open` of `DirLoader`). -/
def openFile (files : List (String × String)) (name : String) : Except IoError Source :=
  if escapesRoot name then .error (escapeError name) else openBelow files name

/-! ## Files below a root -/

/-- The path of a name below a root (`path_for`). -/
def pathUnder (root name : String) : Except IoError String :=
  if (Path.components name).all Path.Component.isInner then .ok (Path.join root name)
  else .error (escapeError name)

/-- Opens a path that starts with the root, as the file system does; `files` are those below it. -/
def openPath (root : String) (files : List (String × String)) (path : String) :
    Except IoError Source :=
  openBelow files (String.ofList (path.toList.drop (Path.folder root).toList.length))

/-! ## Loaders -/

/-- Where resources come from (`TemplateLoader`, `MemoryLoader`, `DirLoader`). -/
inductive Loader where
  /-- Texts in memory. -/
  | memory (texts : List (String × String))
  /-- Sources that may fail at any call, and resources that cannot be opened. -/
  | scripted (resources : List (String × Except IoError Source))
  /-- The files of a directory, by their paths from its root. -/
  | directory (files : List (String × String))

namespace Loader

/-- Opens a resource (`open`). -/
def openNamed : Loader → String → Except IoError Source
  | .memory texts, name =>
    match Fields.get? name texts with
    | some text => .ok (.ofText text)
    | none => .error (.of .notFound ("no template named " ++ name))
  | .scripted resources, name =>
    (Fields.get? name resources).getD (.error (.of .notFound "absent"))
  | .directory files, name => openFile files name

/-- Whether opens are counted; those of files are not. -/
def countsOpens : Loader → Bool
  | .directory _ => false
  | _ => true

/-- The names of the resources. -/
def names : Loader → List String
  | .memory texts => texts.map (·.1)
  | .scripted resources => resources.map (·.1)
  | .directory files => files.map (·.1)

/-- The bytes of texts together. -/
def sizeOfTexts (texts : List (String × String)) : Nat :=
  texts.foldr (fun e n => e.2.utf8ByteSize + n) 0

/-- The bytes of a resource; one that cannot be opened has none. -/
def sizeOfResource : Except IoError Source → Nat
  | .ok source => source.size
  | .error _ => 0

/-- The bytes of all resources together. -/
def size : Loader → Nat
  | .memory texts => sizeOfTexts texts
  | .scripted resources => resources.foldr (fun e n => sizeOfResource e.2 + n) 0
  | .directory files => sizeOfTexts files

end Loader

end Stencil
