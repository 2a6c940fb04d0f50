import LintWatch.Path.FileUri
import LintWatch.Settings.Forms

/-!
# Messages to a language server

Requests and notifications as JSON-RPC objects, and the parameters of those that the host sends.
A directory can be announced only when it has a file URI, that is, when it is absolute.
-/

namespace LintWatch.Server

/-- A path that has no file URI. -/
structure NoUri where
  path : Path
  deriving DecidableEq, Repr

/-- The lack of a file URI as text. -/
def NoUri.message (e : NoUri) : String :=
  "cannot convert path to file URI: " ++ e.path.toText

/-- A directory as it is announced to a server. -/
structure Folder where
  uri : String
  name : String
  deriving DecidableEq, Repr

namespace Folder

/-- The folder of a directory, named after the end of its path. -/
def ofPath (p : Path) : Except NoUri Folder :=
  match FileUri.ofPath? p with
  | none => .error ⟨p⟩
  | some uri =>
    .ok ⟨uri, match p.fileName? with
      | some name => Text.Utf8.decodeLossy name
      | none => p.toText⟩

/-- A folder as JSON. -/
def toJson (f : Folder) : Json :=
  .object [("uri", .str f.uri), ("name", .str f.name)]

end Folder

/-- A request as JSON. -/
def request (id : Nat) (method : String) (params : Option Json) : Json :=
  .objectOfSome [("jsonrpc", some (.str "2.0")), ("id", some (.ofNat id)),
    ("method", some (.str method)), ("params", params)]

/-- A notification as JSON. -/
def notification (method : String) (params : Option Json) : Json :=
  .objectOfSome [("jsonrpc", some (.str "2.0")), ("method", some (.str method)),
    ("params", params)]

/-- The answer to a request, with its result or error under `name`. -/
def answer (id : Json) (name : String) (value : Json) : Json :=
  .object [("jsonrpc", .str "2.0"), ("id", id), (name, value)]

/-- What the host offers to a server. -/
def capabilities : Json :=
  .object [
    ("textDocument", .object [
      ("synchronization", .object [
        ("dynamicRegistration", .bool false), ("willSave", .bool false),
        ("willSaveWaitUntil", .bool false), ("didSave", .bool false)]),
      ("publishDiagnostics", .object [
        ("relatedInformation", .bool false), ("codeDescriptionSupport", .bool true)])]),
    ("workspace", .object [("configuration", .bool true), ("workspaceFolders", .bool true)])]

/-- The parameters that set a server up for `folders`. The first folder is its root as well. -/
def setupParams (processId : Nat) (folders : List Folder) (options : Json) : Json :=
  .object [
    ("processId", .ofNat processId),
    ("clientInfo", .object [("name", .str "ruff-host")]),
    ("rootUri", .orNull (folders.head?.map fun f => .str f.uri)),
    ("initializationOptions", options),
    ("capabilities", capabilities),
    ("workspaceFolders", .arr (folders.map Folder.toJson))]

/-- The parameters that open a document. -/
def openedParams (uri language : String) (version : Int) (text : String) : Json :=
  .object [("textDocument", .object [
    ("uri", .str uri), ("languageId", .str language), ("version", .num (.int version)),
    ("text", .str text)])]

/-- The parameters that replace the text of a document. -/
def changedParams (uri : String) (version : Int) (text : String) : Json :=
  .object [
    ("textDocument", .object [("uri", .str uri), ("version", .num (.int version))]),
    ("contentChanges", .arr [.object [("text", .str text)]])]

/-- The settings that a server asks for: one entry for each item, the bare settings for the
linter's own section and the settings under its name for any other. -/
def configurationResult (params : Option Json) (settings : Settings) : Json :=
  let items := ((params.bind (·.get? "items")).bind Json.items?).getD []
  .arr (items.map fun item =>
    if (item.get? "section").bind Json.text? = some "ruff" then settings.serverValue
    else settings.workspaceValue)

end LintWatch.Server
