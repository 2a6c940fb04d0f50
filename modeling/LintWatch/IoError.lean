/-!
# Input and output errors

An error of the operating system or of a stream has a kind, which decides how it is treated, and
a text for the user. `bare` is the error of which only the kind is known.
-/

namespace LintWatch

/-- What kind of thing went wrong. -/
inductive IoError.Kind where
  | notFound
  | permissionDenied
  | connectionRefused
  | connectionReset
  | hostUnreachable
  | networkUnreachable
  | connectionAborted
  | notConnected
  | addrInUse
  | addrNotAvailable
  | networkDown
  | brokenPipe
  | alreadyExists
  | wouldBlock
  | notADirectory
  | isADirectory
  | directoryNotEmpty
  | readOnlyFilesystem
  | staleNetworkFileHandle
  | invalidInput
  | invalidData
  | timedOut
  | writeZero
  | storageFull
  | notSeekable
  | quotaExceeded
  | fileTooLarge
  | resourceBusy
  | executableFileBusy
  | deadlock
  | crossesDevices
  | tooManyLinks
  | invalidFilename
  | argumentListTooLong
  | interrupted
  | unsupported
  | unexpectedEof
  | outOfMemory
  | other
  deriving DecidableEq, Repr, Inhabited

/-- An input or output error. -/
structure IoError where
  kind : IoError.Kind
  text : String
  deriving DecidableEq, Repr, Inhabited

namespace IoError

/-- What an error of this kind says when nothing else is known about it. -/
def Kind.text : Kind → String
  | .notFound => "entity not found"
  | .permissionDenied => "permission denied"
  | .connectionRefused => "connection refused"
  | .connectionReset => "connection reset"
  | .hostUnreachable => "host unreachable"
  | .networkUnreachable => "network unreachable"
  | .connectionAborted => "connection aborted"
  | .notConnected => "not connected"
  | .addrInUse => "address in use"
  | .addrNotAvailable => "address not available"
  | .networkDown => "network down"
  | .brokenPipe => "broken pipe"
  | .alreadyExists => "entity already exists"
  | .wouldBlock => "operation would block"
  | .notADirectory => "not a directory"
  | .isADirectory => "is a directory"
  | .directoryNotEmpty => "directory not empty"
  | .readOnlyFilesystem => "read-only filesystem or storage medium"
  | .staleNetworkFileHandle => "stale network file handle"
  | .invalidInput => "invalid input parameter"
  | .invalidData => "invalid data"
  | .timedOut => "timed out"
  | .writeZero => "write zero"
  | .storageFull => "no storage space"
  | .notSeekable => "seek on unseekable file"
  | .quotaExceeded => "quota exceeded"
  | .fileTooLarge => "file too large"
  | .resourceBusy => "resource busy"
  | .executableFileBusy => "executable file busy"
  | .deadlock => "deadlock"
  | .crossesDevices => "cross-device link or rename"
  | .tooManyLinks => "too many links"
  | .invalidFilename => "invalid filename"
  | .argumentListTooLong => "argument list too long"
  | .interrupted => "operation interrupted"
  | .unsupported => "unsupported"
  | .unexpectedEof => "unexpected end of file"
  | .outOfMemory => "out of memory"
  | .other => "other error"

/-- The error of which only the kind is known. -/
def bare (kind : Kind) : IoError :=
  ⟨kind, kind.text⟩

/-- The error that the operating system reports by `number` with `text`. -/
def ofSystem (kind : Kind) (text : String) (number : Nat) : IoError :=
  ⟨kind, text ++ " (os error " ++ toString number ++ ")"⟩

/-- A file or directory is not there. -/
def noSuchFile : IoError :=
  ofSystem .notFound "No such file or directory" 2

/-- A program may not be run, or a file not be read. -/
def accessDenied : IoError :=
  ofSystem .permissionDenied "Permission denied" 13

/-- A file stands where a directory is needed. -/
def notDirectory : IoError :=
  ofSystem .notADirectory "Not a directory" 20

/-- A directory stands where a file is needed. -/
def isDirectory : IoError :=
  ofSystem .isADirectory "Is a directory" 21

/-- A file of that name is there already. -/
def fileExists : IoError :=
  ofSystem .alreadyExists "File exists" 17

/-- What should be text is none. -/
def notText : IoError :=
  ⟨.invalidData, "stream did not contain valid UTF-8"⟩

end IoError

end LintWatch
