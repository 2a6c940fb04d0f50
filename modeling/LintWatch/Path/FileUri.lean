import LintWatch.Domain.Host
import LintWatch.Path.Basic

/-!
# File URIs

A file is announced by the URI of its path: `file://` and the percent-encoded names with a slash
in front of each. Reading takes any absolute URI whose host is missing or `localhost` and whose
path is hierarchical: blanks around the text do not count, the scheme may be in any letter case,
`.` and `..` segments are resolved, and for `file` and the web schemes a backslash is a slash.

A segment that is a letter followed by `:` or `|` is a drive, which `..` does not leave, even with
a backslash behind it that separates nothing. A drive in the first place of a `file` path is written
with `:`, and with it there the host does not count.

Tabs and line ends within a URI mean nothing, but for one case: behind a drive in the first place
they end its segment.
-/

namespace LintWatch.FileUri

open LintWatch.Text

/-- The bytes of a name that a URI writes percent-encoded. -/
def reserved (b : UInt8) : Bool :=
  b < 0x20 || 0x7F ≤ b || " \"<>`#?\x7b\x7d/%\\".toList.any fun c => c.toNat = b.toNat

/-- The URI of an absolute path. -/
def ofPath? (p : Path) : Option String :=
  if p.isAbsolute then
    let names := p.components.drop 1
    let path := names.flatMap fun c => Path.slash :: Percent.encode reserved c.bytes
    some ("file://" ++ Utf8.decodeLossy (if path = [] then [Path.slash] else path))
  else none

/-- A character of a URI, and whether tabs or line ends stand in front of it. -/
structure Sign where
  char : Char
  isApart : Bool
  deriving DecidableEq, Repr

/-- The characters of a text other than tabs and line ends; `isApart` says whether some of these
stand in front of the text. -/
def signs (isApart : Bool) : List Char → List Sign
  | [] => []
  | c :: cs =>
    if c = '\t' ∨ c = '\n' ∨ c = '\r' then signs true cs else ⟨c, isApart⟩ :: signs false cs

/-- The characters of a URI that count. -/
def significant (s : String) : List Sign :=
  let margin (c : Char) : Bool := c.toNat ≤ 0x20
  signs false ((s.toList.dropWhile margin).reverse.dropWhile margin).reverse

/-- The kinds of scheme that are read differently. -/
inductive Scheme where
  | file
  | web
  | other
  deriving DecidableEq, Repr

/-- The kind of the scheme with this lower-case name. -/
def Scheme.ofName (name : List Char) : Scheme :=
  if name = "file".toList then .file
  else if name ∈ ["http", "https", "ws", "wss", "ftp"].map String.toList then .web
  else .other

/-- The kind of the scheme and what follows its colon. -/
def splitScheme? (cs : List Sign) : Option (Scheme × List Sign) :=
  let isSchemeSign (s : Sign) : Bool :=
    s.char.isAlphanum || s.char = '+' || s.char = '-' || s.char = '.'
  let name := (cs.takeWhile isSchemeSign).map Sign.char
  match name.head?, cs.dropWhile isSchemeSign with
  | some first, ⟨':', _⟩ :: rest =>
    if first.isAlpha then some (.ofName (name.map Char.toLower), rest) else none
  | _, _ => none

/-- Whether a character separates the segments of a path under this scheme. -/
def isSeparator (scheme : Scheme) (s : Sign) : Bool :=
  s.char = '/' || (s.char = '\\' && scheme ≠ .other)

/-- Whether a character ends the path of a URI. -/
def endsPath (s : Sign) : Bool :=
  s.char = '?' || s.char = '#'

/-! ## Paths -/

/-- Whether a segment is a letter followed by `:` or `|`. -/
def isDrive : List Char → Bool
  | [c, d] => c.isAlpha && (d = ':' || d = '|')
  | _ => false

/-- Whether a segment is a drive, alone or with a backslash behind it. -/
def startsWithDrive (segment : List Char) : Bool :=
  isDrive (segment.take 2) && (segment.drop 2).head?.all (· = '\\')

/-- Whether a segment is `.`, the dot plain or encoded. -/
def isSingleDot (segment : List Char) : Bool :=
  segment.map Char.toLower ∈ [".", "%2e"].map String.toList

/-- Whether a segment is `..`, each dot plain or encoded. -/
def isDoubleDot (segment : List Char) : Bool :=
  segment.map Char.toLower ∈ ["..", "%2e.", ".%2e", "%2e%2e"].map String.toList

/-- What has been read of a path: the segments that are complete, the last one first, and the
characters of the one that is not, the last one first. -/
structure Segments where
  complete : List (List Char)
  current : List Char
  /-- Whether `current` follows a drive that tabs or line ends have cut off. -/
  isCutOff : Bool
  /-- Whether there is a drive in the first place. -/
  hasDrive : Bool
  deriving Repr

namespace Segments

/-- Nothing has been read. -/
def empty : Segments :=
  ⟨[], [], false, false⟩

variable (scheme : Scheme) (s : Segments)

/-- The segments without the one that `..` leaves. -/
def leave : List (List Char) → List (List Char)
  | [] => []
  | last :: rest => if startsWithDrive last then last :: rest else rest

/-- Ends the current segment. Dots are resolved, and a drive in the first place gets its colon. -/
def close : Segments :=
  let segment := s.current.reverse
  if s.isCutOff then ⟨segment :: s.complete, [], false, s.hasDrive⟩
  else if isDoubleDot segment then ⟨leave s.complete, [], false, s.hasDrive⟩
  else if isSingleDot segment then ⟨s.complete, [], false, s.hasDrive⟩
  else if scheme = .file ∧ s.complete = [] ∧ isDrive segment then
    ⟨[segment.take 1 ++ [':']], [], false, true⟩
  else ⟨segment :: s.complete, [], false, s.hasDrive⟩

/-- Reads one more character. -/
def read (c : Sign) : Segments :=
  if isSeparator scheme c then s.close scheme
  else if scheme = .file ∧ c.isApart ∧ s.complete = [] ∧ isDrive s.current.reverse
      ∧ s.current.head? = some ':' then
    ⟨[s.current.reverse], [c.char], true, s.hasDrive⟩
  else { s with current := c.char :: s.current }

/-- All segments, in order. A path that ends in dots ends in a slash. -/
def finish : List (List Char) :=
  let segment := s.current.reverse
  let closed := (s.close scheme).complete.reverse
  if !s.isCutOff ∧ (isDoubleDot segment ∨ isSingleDot segment) then closed ++ [[]] else closed

end Segments

/-- The path of the resolved segments of a URI. A drive at its end is a directory. -/
def pathOfSegments (segments : List (List Char)) : Path :=
  let bytes := segments.flatMap fun segment =>
    Path.slash :: Percent.decode (Utf8.encode (String.ofList segment))
  let endsInDrive := match bytes.reverse with
    | d :: c :: _ :: _ => (Char.ofNat c.toNat).isAlpha && (d = 0x3A || d = 0x7C)
    | _ => false
  ⟨if endsInDrive then bytes ++ [Path.slash] else bytes⟩

/-- The path that `cs`, which follow the first slash, mean, and whether it begins with a drive. -/
def readPath (scheme : Scheme) (cs : List Sign) : Path × Bool :=
  let s := (cs.takeWhile (!endsPath ·)).foldl (Segments.read scheme) .empty
  let segments := s.finish scheme
  let hasDrive := (s.close scheme).hasDrive
  if scheme = .file then
    let named := segments.dropWhile (· = [])
    (pathOfSegments (if named = [] then [[]] else named), hasDrive)
  else (pathOfSegments segments, hasDrive)

/-! ## Authorities -/

/-- Whether a character ends the authority of a URI. -/
def endsAuthority (scheme : Scheme) (s : Sign) : Bool :=
  isSeparator scheme s || endsPath s

/-- The path of a `file` URI whose authority starts at `cs`. Another host counts unless the path
begins with a drive, and then it must be well formed all the same. -/
def readFile? (cs : List Sign) : Option Path :=
  let name := (cs.takeWhile (!endsAuthority .file ·)).map Sign.char
  let rest := cs.dropWhile (!endsAuthority .file ·)
  if isDrive name then some (readPath .file cs).1
  else if name = [] then some (readPath .file rest).1
  else
    match Domain.Host.read? name with
    | none => none
    | some host =>
      if host.isLocal then some (readPath .file rest).1
      else
        let (path, hasDrive) := readPath .file (match rest with
          | c :: after => if isSeparator .file c then after else rest
          | [] => [])
        if hasDrive then some path else none

/-- What follows the credentials in front of a host, and whether there are any. Credentials ask for
a host. -/
def skipCredentials? (scheme : Scheme) (cs : List Sign) : Option (List Sign × Bool) :=
  let authority := cs.takeWhile (!endsAuthority scheme ·)
  let host := (authority.reverse.takeWhile (·.char ≠ '@')).reverse
  if host.length = authority.length then some (cs, false)
  else
    let credentials := (authority.take (authority.length - host.length - 1)).map Sign.char
    let rest := cs.drop (authority.length - host.length)
    match credentials, rest with
    | [], c :: _ => if endsAuthority scheme c then none else some (rest, false)
    | _, _ => some (rest, credentials ∉ [[], [':']])

/-- The length of the host in front, whose brackets may enclose colons. -/
def hostLength (scheme : Scheme) (inBrackets : Bool) : List Sign → Nat
  | [] => 0
  | s :: rest =>
    if endsAuthority scheme s || (s.char = ':' && !inBrackets) then 0
    else
      hostLength scheme (s.char = '[' || (inBrackets && s.char ≠ ']')) rest + 1

/-- What follows a host and the number of its port. -/
def skipPort? : List Sign → Option (List Sign)
  | ⟨':', _⟩ :: rest =>
    let digits := rest.takeWhile (·.char.isDigit)
    let after := rest.dropWhile (·.char.isDigit)
    let port : Nat := digits.foldl (fun n s => n * 10 + (s.char.toNat - 0x30)) 0
    if (after.take 1).all (endsAuthority .web) ∧ port < 65536 then some after else none
  | rest => some rest

/-- The path of a URI of another scheme than `file` whose authority starts at `cs`. -/
def readAuthority? (scheme : Scheme) (cs : List Sign) : Option Path := do
  let (cs, hasCredentials) ← skipCredentials? scheme cs
  let length := hostLength scheme false cs
  let host := (cs.take length).map Sign.char
  let rest ← skipPort? (cs.drop length)
  if scheme = .web then
    if host = [] ∨ !(← Domain.Host.read? host).isLocal then none
    else
      match rest with
      | c :: after => return (readPath .web (if isSeparator .web c then after else rest)).1
      | [] => return (readPath .web []).1
  else if host = "localhost".toList
      ∨ (host = [] ∧ !hasCredentials ∧ (cs.head?.map Sign.char) ≠ some ':') then
    match rest with
    | [] => none
    | c :: after =>
      if endsPath c then none
      else return (readPath .other (if c.char = '/' then after else rest)).1
  else none

/-- The path that a URI names. -/
def path? (uri : String) : Option Path := do
  let (scheme, rest) ← splitScheme? (significant uri)
  match scheme with
  | .file =>
    match rest with
    | c :: after =>
      if isSeparator .file c then
        match after with
        | d :: cs => if isSeparator .file d then readFile? cs else some (readPath .file after).1
        | [] => some (readPath .file []).1
      else some (readPath .file rest).1
    | [] => some (readPath .file []).1
  | .web => readAuthority? .web (rest.dropWhile (isSeparator .web))
  | .other =>
    match rest with
    | ⟨'/', _⟩ :: ⟨'/', _⟩ :: cs => readAuthority? .other cs
    | ⟨'/', _⟩ :: cs => some (readPath .other cs).1
    | _ => none

end LintWatch.FileUri
