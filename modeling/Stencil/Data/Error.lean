/-!
# Failures of data sources

What goes wrong while data is read for a template, with the wording in one place.

* `Unsupported`: what a single-pass row sequence cannot do;
* `XmlFault`: why a text is no document;
* `DataError`: all failures of data sources, `DataError.message` their wording.
-/

namespace Stencil

/-- An operation that would need all rows of a single-pass sequence at once, or the cursor of one
that is at work. -/
inductive Unsupported where
  | size
  | randomAccess
  | concurrentIteration
  deriving DecidableEq

/-- The name of an unsupported operation. -/
def Unsupported.message : Unsupported → String
  | .size => "size of a single-pass row sequence"
  | .randomAccess => "random access to a single-pass row sequence"
  | .concurrentIteration => "concurrent iteration of a row sequence"

/-- Why a text is no XML document. -/
inductive XmlFault where
  | unclosed (name : String)
  | noRoot
  | malformed (detail : String)
  deriving DecidableEq

/-- The wording of a fault. -/
def XmlFault.message : XmlFault → String
  | .unclosed name => "element <" ++ name ++ "> is never closed"
  | .noRoot => "document has no root element"
  | .malformed detail => detail

/-- A failure of a data source (`AdapterError`). -/
inductive DataError where
  /-- A row was asked for after the last one. -/
  | exhausted
  | unsupported (operation : Unsupported)
  /-- The cursor failed. -/
  | source (message : String)
  /-- A stage of the cascading close failed. -/
  | close (stage message : String)
  | xml (fault : XmlFault)
  deriving DecidableEq

/-- The wording of a failure. -/
def DataError.message : DataError → String
  | .exhausted => "no more rows in sequence"
  | .unsupported operation => "operation not supported: " ++ operation.message
  | .source message => "data source error: " ++ message
  | .close stage message => "failed to close " ++ stage ++ ": " ++ message
  | .xml fault => "invalid XML document: " ++ fault.message

end Stencil
