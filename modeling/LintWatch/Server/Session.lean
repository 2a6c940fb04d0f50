import LintWatch.Server.Message

/-!
# What the host says to a server

Requests are numbered from one. A document is opened when the host first sends it, with version
one; after that every text of it is a change, with the next version. Documents are told apart by
their URI. A session keeps which documents are open apart from their versions, which are integers of
32 bits and start over from the least one after the greatest.
-/

namespace LintWatch.Server

/-- What the host remembers of its talk with a server: the number of the next request, the
documents that are open, and the versions that were sent last. -/
structure Session where
  /-- It goes up by one with each request, so a counter of 64 bits would come round to it again only
  after centuries of a request every nanosecond. -/
  nextRequest : Nat
  opened : List String
  versions : List (String × Int32)
  deriving DecidableEq, Repr

namespace Session

/-- Nothing has been said yet. -/
def new : Session :=
  ⟨1, [], []⟩

variable (s : Session)

/-- The next request, and its number. -/
def ask (method : String) (params : Option Json) : Session × Nat × Json :=
  ({ s with nextRequest := s.nextRequest + 1 }, s.nextRequest,
    request s.nextRequest method params)

/-- The version of a document that was sent last. -/
def version? (uri : String) : Option Int32 :=
  s.versions.lookup uri

/-- The session with this version of a document. -/
def withVersion (uri : String) (version : Int32) : Session :=
  { s with versions := (uri, version) :: s.versions.filter (·.1 ≠ uri) }

/-- The session in which a document is open. -/
def withOpened (uri : String) : Session :=
  { s with opened := uri :: s.opened }

/-- The language of all documents. -/
def language : String := "python"

/-- The message that carries a new text of a document. -/
def sendText (uri text : String) : Session × Json :=
  if s.opened.contains uri then
    let version := (s.version? uri).getD 0 + 1
    (s.withVersion uri version,
      notification "textDocument/didChange" (some (changedParams uri version.toInt text)))
  else
    ((s.withVersion uri 1).withOpened uri,
      notification "textDocument/didOpen" (some (openedParams uri language 1 text)))

end Session

end LintWatch.Server
