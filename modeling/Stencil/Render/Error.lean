import Stencil.Data.Error
import Stencil.Input.Error

/-!
# Failures of rendering

Every failure ends a render at once; what has been written by then stays written.

* `RenderError`: the failures, `RenderError.message` their wording;
* `RenderError.ioKind`: the cause that a failure counts as where failures of input and output are
  expected.
-/

namespace Stencil

/-- Why a render ended early (`TemplateError`). -/
inductive RenderError where
  /-- There is no template of this name. -/
  | templateNotFound (name : String)
  /-- There is no included template of this name. -/
  | includeNotFound (name : String)
  /-- The template ends inside a marker. -/
  | unexpectedEnd
  /-- A marker ends with a single brace. -/
  | improperlyTerminated
  /-- A marker has no name, or one of its modifiers has none. -/
  | invalidMarker
  /-- A repeating section is over a value that is no sequence. -/
  | invalidSection (name : String)
  /-- A variable stands for a value that is no scalar. -/
  | invalidVariable (name : String)
  /-- A section ends under the name of another one. -/
  | invalidClosingSection (expected found : String)
  /-- A section ends that was not open. -/
  | unmatchedSectionEnd (name : String)
  /-- The template ends inside a section. -/
  | unterminatedSection (name : String)
  /-- A template includes itself, directly or through others. -/
  | recursiveInclude (name : String)
  /-- The sink failed. -/
  | output (message : String)
  /-- Reading a template or a bundle, or writing, failed. -/
  | io (e : IoError)
  /-- The data failed. -/
  | source (e : DataError)
  deriving DecidableEq

namespace RenderError

/-- The failure of a sink that has stopped taking text. -/
def sinkFailed : RenderError := .output "sink reported a write failure"

/-- The wording of a failure. -/
def message : RenderError → String
  | .templateNotFound name => "template not found: " ++ name
  | .includeNotFound name => "include not found: " ++ name
  | .unexpectedEnd => "unexpected end of character stream"
  | .improperlyTerminated => "improperly terminated marker"
  | .invalidMarker => "invalid marker"
  | .invalidSection name => "invalid section element: " ++ name
  | .invalidVariable name => "invalid variable: " ++ name
  | .invalidClosingSection expected found =>
    "invalid closing section marker: expected " ++ expected ++ ", found " ++ found
  | .unmatchedSectionEnd name => "section end without matching start: " ++ name
  | .unterminatedSection name => "unterminated section: " ++ name
  | .recursiveInclude name => "recursive include: " ++ name
  | .output message => "error writing to output stream: " ++ message
  | .io e => "I/O error: " ++ e.message.getD "system failure"
  | .source e => "data source error: " ++ e.message

/-- The cause that a failure counts as, where it is made a failure of input and output. -/
def ioKind : RenderError → IoKind
  | .templateNotFound _ | .includeNotFound _ => .notFound
  | .output _ => .brokenPipe
  | .io e => e.kind
  | _ => .invalidData

end RenderError

end Stencil
