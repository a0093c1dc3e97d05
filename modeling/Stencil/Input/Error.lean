/-!
# Failures of input and output

What a source of bytes, a destination of bytes or a store of named resources reports when it fails.

* `IoKind`: the cause, as far as programs tell causes apart;
* `IoError`: a cause with its message.
-/

namespace Stencil

/-- The cause of a failed operation on bytes or resources (`ErrorKind`). -/
inductive IoKind where
  | notFound
  | permissionDenied
  | connectionRefused
  | connectionReset
  | connectionAborted
  | notConnected
  | brokenPipe
  | alreadyExists
  | wouldBlock
  | notADirectory
  | isADirectory
  | invalidFilename
  | invalidInput
  | invalidData
  | timedOut
  | writeZero
  | interrupted
  | unsupported
  | unexpectedEof
  | outOfMemory
  | other
  deriving DecidableEq

/-- A failed operation on bytes or resources.  Failures of the operating system carry no message of
their own here. -/
structure IoError where
  kind : IoKind
  message : Option String
  deriving DecidableEq

namespace IoError

/-- A failure with a message. -/
def of (kind : IoKind) (message : String) : IoError := ⟨kind, some message⟩

/-- A failure that the operating system words. -/
def system (kind : IoKind) : IoError := ⟨kind, none⟩

/-- Bytes that are no text. -/
def invalidUtf8 : IoError := of .invalidData "stream did not contain valid UTF-8"

end IoError

end Stencil
