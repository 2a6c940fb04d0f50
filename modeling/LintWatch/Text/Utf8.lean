/-!
# UTF-8 text

Bytes are read as text one encoded character at a time. `next` takes one character off a
byte sequence, or the longest start of a character that no continuation can complete; `decode?`
refuses the second kind and `decodeLossy` writes a replacement character for it. The main
statement is `decode?_encode`: an encoded text is read back.
-/

namespace LintWatch.Text.Utf8

/-- The bytes of one character. -/
def encodeChar (c : Char) : List UInt8 :=
  String.utf8EncodeChar c

/-- The bytes of a text. -/
def encode (text : String) : List UInt8 :=
  text.toUTF8.data.toList

/-- What stands at the front of a byte sequence: a character, or bytes that encode none. -/
inductive Unit where
  | char (c : Char)
  | illFormed
  deriving DecidableEq, Repr

/-- A byte `10xxxxxx`, which continues a character. -/
def isContinuation (b : UInt8) : Bool :=
  0x80 ≤ b && b ≤ 0xBF

/-- The bits a continuation byte carries. -/
def payload (b : UInt8) : Nat :=
  b.toNat % 64

/-- The range of the byte after the leading byte `b` of a character of two or more bytes: it
excludes overlong forms, surrogates and values past `U+10FFFF`. -/
def secondByteInRange (b c : UInt8) : Bool :=
  if b = 0xE0 then 0xA0 ≤ c && c ≤ 0xBF
  else if b = 0xED then 0x80 ≤ c && c ≤ 0x9F
  else if b = 0xF0 then 0x90 ≤ c && c ≤ 0xBF
  else if b = 0xF4 then 0x80 ≤ c && c ≤ 0x8F
  else isContinuation c

/-- The unit that starts with byte `b`, and the bytes after it. Of an ill-formed unit only the
bytes that could have begun a character are taken. -/
def next (b : UInt8) (rest : List UInt8) : Unit × List UInt8 :=
  if b < 0x80 then (.char (Char.ofNat b.toNat), rest)
  else if 0xC2 ≤ b && b ≤ 0xDF then
    match rest with
    | c :: r =>
      if isContinuation c then (.char (Char.ofNat (b.toNat % 32 * 64 + payload c)), r)
      else (.illFormed, rest)
    | [] => (.illFormed, [])
  else if 0xE0 ≤ b && b ≤ 0xEF then
    match rest with
    | c :: r =>
      if secondByteInRange b c then
        match r with
        | d :: s =>
          if isContinuation d then
            (.char (Char.ofNat ((b.toNat % 16 * 64 + payload c) * 64 + payload d)), s)
          else (.illFormed, r)
        | [] => (.illFormed, [])
      else (.illFormed, rest)
    | [] => (.illFormed, [])
  else if 0xF0 ≤ b && b ≤ 0xF4 then
    match rest with
    | c :: r =>
      if secondByteInRange b c then
        match r with
        | d :: s =>
          if isContinuation d then
            match s with
            | e :: t =>
              if isContinuation e then
                (.char (Char.ofNat
                  (((b.toNat % 8 * 64 + payload c) * 64 + payload d) * 64 + payload e)), t)
              else (.illFormed, s)
            | [] => (.illFormed, [])
          else (.illFormed, r)
        | [] => (.illFormed, [])
      else (.illFormed, rest)
    | [] => (.illFormed, [])
  else (.illFormed, rest)

/-- A step never gives back more than it was given. -/
theorem length_next_le (b : UInt8) (rest : List UInt8) :
    (next b rest).2.length ≤ rest.length := by
  unfold next
  grind

/-- The units of a byte sequence, in order, before `units`. -/
def unitsFrom (units : List Unit) : List UInt8 → List Unit
  | [] => units.reverse
  | b :: rest =>
    have : (next b rest).2.length < (b :: rest).length :=
      Nat.lt_succ_of_le (length_next_le b rest)
    unitsFrom ((next b rest).1 :: units) (next b rest).2
termination_by bytes => bytes.length
decreasing_by exact this

/-- The units of a byte sequence, in order. -/
def units (bytes : List UInt8) : List Unit :=
  unitsFrom [] bytes

/-- The text that `bytes` encode, or nothing when some of them encode no character. -/
def decode? (bytes : List UInt8) : Option String :=
  let text := ByteArray.mk bytes.toArray
  String.fromUTF8? text

/-- The text of `bytes`, with `U+FFFD` for each ill-formed unit. -/
def decodeLossy (bytes : List UInt8) : String :=
  match decode? bytes with
  | some text => text
  | none =>
    String.ofList ((units bytes).map fun
      | .char c => c
      | .illFormed => '\uFFFD')

/-- The first bytes that encode no character: where they start, and how many they are unless the
sequence ends in the middle of a character. -/
structure Fault where
  start : Nat
  length : Option Nat
  deriving DecidableEq, Repr

/-- The first fault in a byte sequence that starts at `position`. -/
def faultFrom? (position : Nat) : List UInt8 → Option Fault
  | [] => none
  | b :: rest =>
    have : (next b rest).2.length < (b :: rest).length :=
      Nat.lt_succ_of_le (length_next_le b rest)
    let length := rest.length + 1 - (next b rest).2.length
    match (next b rest).1 with
    | .char _ => faultFrom? (position + length) (next b rest).2
    | .illFormed =>
      let isCut := (next b rest).2 = [] && 0xC2 ≤ b && b ≤ 0xF4
      some ⟨position, if isCut then none else some length⟩
termination_by bytes => bytes.length
decreasing_by exact this

/-- The first fault in a byte sequence. -/
def fault? (bytes : List UInt8) : Option Fault :=
  faultFrom? 0 bytes

/-- The fault as text. -/
def Fault.message (f : Fault) : String :=
  match f.length with
  | some n =>
    "invalid utf-8 sequence of " ++ toString n ++ " bytes from index " ++ toString f.start
  | none => "incomplete utf-8 byte sequence from index " ++ toString f.start

/-- Encoded text reads back as itself. -/
theorem decode?_encode (text : String) : decode? (encode text) = some text := by
  simp [decode?, encode, String.fromUTF8?, String.toUTF8, String.fromUTF8, text.isValidUTF8]

end LintWatch.Text.Utf8
