import LintWatch.Json.Basic
import LintWatch.Text.Utf8

/-!
# JSON tokens

The words of JSON text: brackets, separators and scalars. A scalar text or number carries its
value only if it has one: a text with half a surrogate pair or with bytes that are no UTF-8, and
a number too large for binary64, are words of the text all the same, so that what is skipped
unread may hold them. The main statement is `length_scan_lt`: each token takes at least one byte.
-/

namespace LintWatch.Json

open LintWatch.Text

/-- A scalar as written, with its value where it has one. -/
inductive Scalar where
  | null
  | bool (value : Bool)
  | number (value : Option Number)
  | text (value : Option String)
  deriving DecidableEq, Repr, Inhabited

/-- A word of JSON text. -/
inductive Token where
  | arrayStart
  | arrayEnd
  | objectStart
  | objectEnd
  | comma
  | colon
  | scalar (value : Scalar)
  deriving DecidableEq, Repr

/-- The blanks between tokens. -/
def isSpace (b : UInt8) : Bool :=
  b = 0x20 || b = 0x0A || b = 0x09 || b = 0x0D

/-- Whether a byte is an ASCII digit. -/
def isDigit (b : UInt8) : Bool :=
  0x30 ≤ b && b ≤ 0x39

/-- The number a sequence of digits stands for. -/
def natOfDigits (digits : List UInt8) : Nat :=
  digits.foldl (fun n d => n * 10 + (d.toNat - 0x30)) 0

/-- A number as written: sign, digits before and after the point, and exponent. -/
structure Numeral where
  negative : Bool
  whole : List UInt8
  fraction : List UInt8
  exponent : Option Int
  deriving DecidableEq, Repr

/-- Reads digits into a 64-bit significand; of the first digit that does not fit, and of all
after it, only their number is kept. -/
def accumulate (significand : Nat) : List UInt8 → Nat × Nat
  | [] => (significand, 0)
  | d :: ds =>
    let grown := significand * 10 + (d.toNat - 0x30)
    if grown < UInt64.size then accumulate grown ds else (significand, ds.length + 1)

/-- The power `10 ^ n` as a binary64 value, for `n ≤ 308`. -/
def pow10 (n : Nat) : Float :=
  Float.ofScientific 1 false n

/-- `value * 10 ^ exponent` by one rounded multiplication or by rounded divisions, or nothing
when that is too large. -/
def scaleByPow10 (value : Float) (exponent : Int) : Nat → Option Float
  | 0 => some value
  | fuel + 1 =>
    if exponent.natAbs ≤ 308 then
      if 0 ≤ exponent then
        let scaled := value * pow10 exponent.natAbs
        if scaled.isInf then none else some scaled
      else some (value / pow10 exponent.natAbs)
    else if value == 0.0 then some value
    else if 0 ≤ exponent then none
    else scaleByPow10 (value / pow10 308) (exponent + 308) fuel

/-- The value of a numeral with a point, an exponent or more digits than an integer has. -/
def realOfNumeral (negative : Bool) (significand : Nat) (exponent : Int) : Option Number :=
  (scaleByPow10 (Float.ofNat significand) exponent 8).map fun value =>
    .real (if negative then -value else value).toBits

/-- The value of a numeral: an integer when it is written as one in the 64-bit ranges, else a
binary64 value, or nothing when it is too large for that. -/
def Numeral.value? (n : Numeral) : Option Number :=
  let (significand, dropped) := accumulate 0 n.whole
  if n.fraction = [] ∧ n.exponent = none ∧ dropped = 0 then
    if !n.negative then some (.int significand)
    else if 0 < significand ∧ significand ≤ 0x8000000000000000 then
      some (.int (-(significand : Int)))
    else realOfNumeral true significand 0
  else
    let (significand, unread) := accumulate significand n.fraction
    let places : Int := (dropped : Int) - ((n.fraction.length - unread : Nat) : Int)
    realOfNumeral n.negative significand (places + n.exponent.getD 0)

/-- The bytes after the digits at the front. -/
def afterDigits (bytes : List UInt8) : List UInt8 :=
  bytes.dropWhile isDigit

/-- Reads the digits after a point, when a point stands in front. -/
def scanFraction : List UInt8 → Option (List UInt8 × List UInt8)
  | [] => some ([], [])
  | b :: rest =>
    if b = 0x2E then
      if rest.takeWhile isDigit = [] then none
      else some (rest.takeWhile isDigit, afterDigits rest)
    else some ([], b :: rest)

/-- Reads the digits of an exponent after its sign. -/
def scanExponentDigits (negative : Bool) (bytes : List UInt8) : Option (Option Int × List UInt8) :=
  if bytes.takeWhile isDigit = [] then none
  else
    let n : Int := natOfDigits (bytes.takeWhile isDigit)
    some (some (if negative then -n else n), afterDigits bytes)

/-- Reads an exponent, when its letter stands in front. -/
def scanExponent : List UInt8 → Option (Option Int × List UInt8)
  | [] => some (none, [])
  | b :: rest =>
    if b = 0x65 ∨ b = 0x45 then
      match rest with
      | [] => none
      | c :: after =>
        if c = 0x2D then scanExponentDigits true after
        else if c = 0x2B then scanExponentDigits false after
        else scanExponentDigits false (c :: after)
    else some (none, b :: rest)

/-- Reads a numeral after its sign. No numeral has a leading zero, and digits stand on both sides
of its point. -/
def scanNumeral (negative : Bool) (bytes : List UInt8) : Option (Numeral × List UInt8) := do
  let whole := bytes.takeWhile isDigit
  if whole = [] ∨ (whole.head? = some 0x30 ∧ 1 < whole.length) then none
  else
    let (fraction, rest) ← scanFraction (afterDigits bytes)
    let (exponent, rest) ← scanExponent rest
    return (⟨negative, whole, fraction, exponent⟩, rest)

/-- The value of a hexadecimal digit. -/
def hexDigit? (b : UInt8) : Option Nat :=
  if isDigit b then some (b.toNat - 0x30)
  else if 0x61 ≤ b ∧ b ≤ 0x66 then some (b.toNat - 0x57)
  else if 0x41 ≤ b ∧ b ≤ 0x46 then some (b.toNat - 0x37)
  else none

/-- The value of four hexadecimal digits. -/
def hex4? (a b c d : UInt8) : Option Nat := do
  return (((← hexDigit? a) * 16 + (← hexDigit? b)) * 16 + (← hexDigit? c)) * 16 + (← hexDigit? d)

/-- The byte a one-letter escape stands for. -/
def escapedByte? (b : UInt8) : Option UInt8 :=
  if b = 0x22 ∨ b = 0x5C ∨ b = 0x2F then some b
  else if b = 0x62 then some 0x08
  else if b = 0x66 then some 0x0C
  else if b = 0x6E then some 0x0A
  else if b = 0x72 then some 0x0D
  else if b = 0x74 then some 0x09
  else none

/-- Whether a UTF-16 unit is the first half of a pair. -/
def isHighSurrogate (n : Nat) : Bool :=
  0xD800 ≤ n && n ≤ 0xDBFF

/-- Whether a UTF-16 unit is the second half of a pair. -/
def isLowSurrogate (n : Nat) : Bool :=
  0xDC00 ≤ n && n ≤ 0xDFFF

/-- A part of a written text: a byte, or the UTF-16 unit that a `\u` escape names. -/
inductive Piece where
  | byte (b : UInt8)
  | unit (n : Nat)
  deriving DecidableEq, Repr

/-- Reads an escape after its backslash. -/
def scanEscape : List UInt8 → Option (Piece × List UInt8)
  | [] => none
  | b :: rest =>
    if b = 0x75 then
      match rest with
      | h₁ :: h₂ :: h₃ :: h₄ :: after => (hex4? h₁ h₂ h₃ h₄).map fun n => (.unit n, after)
      | _ => none
    else (escapedByte? b).map fun e => (.byte e, rest)

/-- What follows an escape is shorter than the escape with it. -/
theorem length_scanEscape_lt {input rest : List UInt8} {p : Piece}
    (h : scanEscape input = some (p, rest)) : rest.length < input.length := by
  unfold scanEscape at h
  split at h
  · simp at h
  · split at h
    · split at h
      · obtain ⟨_, _, h⟩ := Option.map_eq_some_iff.1 h
        simp [← (Prod.mk.inj h).2]
        omega
      · simp at h
    · obtain ⟨_, _, h⟩ := Option.map_eq_some_iff.1 h
      simp [← (Prod.mk.inj h).2]

/-- Reads the pieces of a text up to its closing quote, after those of `found`, which are last
first. -/
def scanPieces (found : List Piece) : List UInt8 → Option (List Piece × List UInt8)
  | [] => none
  | b :: rest =>
    if b = 0x22 then some (found.reverse, rest)
    else if b = 0x5C then
      match h : scanEscape rest with
      | none => none
      | some (p, after) =>
        have := length_scanEscape_lt h
        scanPieces (p :: found) after
    else if b < 0x20 then none
    else scanPieces (.byte b :: found) rest
termination_by input => input.length

/-- What follows a text is shorter than the text with it. -/
theorem length_scanPieces_lt {found pieces : List Piece} {input rest : List UInt8}
    (h : scanPieces found input = some (pieces, rest)) : rest.length < input.length := by
  fun_induction scanPieces found input <;> grind

/-- The bytes that pieces stand for, after `bytes`, which are last first. Two units of a
surrogate pair stand for one character; half of a pair stands for none. -/
def assemble (bytes : List UInt8) : List Piece → Option (List UInt8)
  | [] => some bytes.reverse
  | .byte b :: rest => assemble (b :: bytes) rest
  | .unit n :: rest =>
    if isHighSurrogate n then
      match rest with
      | .unit m :: after =>
        if isLowSurrogate m then
          let c := Char.ofNat (0x10000 + (n - 0xD800) * 0x400 + (m - 0xDC00))
          assemble ((Utf8.encodeChar c).reverse ++ bytes) after
        else none
      | _ => none
    else if isLowSurrogate n then none
    else assemble ((Utf8.encodeChar (Char.ofNat n)).reverse ++ bytes) rest

/-- The text that pieces stand for. -/
def textOfPieces? (pieces : List Piece) : Option String :=
  (assemble [] pieces).bind Utf8.decode?

/-- Digits and what follows them make up the whole. -/
theorem length_takeWhile_add_afterDigits (bytes : List UInt8) :
    (bytes.takeWhile isDigit).length + (afterDigits bytes).length = bytes.length := by
  rw [afterDigits, ← List.length_append, List.takeWhile_append_dropWhile]

/-- What follows a fraction is no longer than what it was read from. -/
theorem length_scanFraction_le {input rest digits : List UInt8}
    (h : scanFraction input = some (digits, rest)) : rest.length ≤ input.length := by
  have := length_takeWhile_add_afterDigits
  unfold scanFraction at h
  grind

/-- What follows the digits of an exponent is no longer than what they were read from. -/
theorem length_scanExponentDigits_le {negative : Bool} {input rest : List UInt8}
    {e : Option Int} (h : scanExponentDigits negative input = some (e, rest)) :
    rest.length ≤ input.length := by
  have := length_takeWhile_add_afterDigits
  unfold scanExponentDigits at h
  grind

/-- What follows an exponent is no longer than what it was read from. -/
theorem length_scanExponent_le {input rest : List UInt8} {e : Option Int}
    (h : scanExponent input = some (e, rest)) : rest.length ≤ input.length := by
  have hd := @length_scanExponentDigits_le
  unfold scanExponent at h
  split at h
  · grind
  · split at h
    · split at h <;> grind
    · grind

/-- What follows a numeral is shorter than the numeral with it. -/
theorem length_scanNumeral_lt {negative : Bool} {input rest : List UInt8} {n : Numeral}
    (h : scanNumeral negative input = some (n, rest)) : rest.length < input.length := by
  simp only [scanNumeral, Option.bind_eq_bind, Option.pure_def] at h
  split at h
  · simp at h
  · rename_i hw
    obtain ⟨⟨f, r₁⟩, h₁, h⟩ := Option.bind_eq_some_iff.1 h
    obtain ⟨⟨e, r₂⟩, h₂, h⟩ := Option.bind_eq_some_iff.1 h
    have hf : r₁.length ≤ (afterDigits input).length := length_scanFraction_le h₁
    have he : r₂.length ≤ r₁.length := length_scanExponent_le h₂
    obtain rfl : r₂ = rest := by simpa using (Prod.mk.inj (Option.some.inj h)).2
    have hd := length_takeWhile_add_afterDigits input
    have hp : 0 < (input.takeWhile isDigit).length :=
      List.length_pos_iff.2 fun h0 => hw (Or.inl h0)
    omega

/-- What follows the letters `word`, when `bytes` start with them. -/
def afterWord? (word : String) (bytes : List UInt8) : Option (List UInt8) :=
  let letters := Utf8.encode word
  if letters.isPrefixOf bytes then some (bytes.drop letters.length) else none

/-- The token that one byte makes up. -/
def punctuation? (b : UInt8) : Option Token :=
  if b = 0x5B then some .arrayStart
  else if b = 0x5D then some .arrayEnd
  else if b = 0x7B then some .objectStart
  else if b = 0x7D then some .objectEnd
  else if b = 0x2C then some .comma
  else if b = 0x3A then some .colon
  else none

/-- Reads the scalar that starts with byte `b`. -/
def scanScalar (b : UInt8) (rest : List UInt8) : Option (Scalar × List UInt8) :=
  if b = 0x22 then
    (scanPieces [] rest).map fun (pieces, r) => (.text (textOfPieces? pieces), r)
  else if b = 0x6E then (afterWord? "ull" rest).map fun r => (.null, r)
  else if b = 0x74 then (afterWord? "rue" rest).map fun r => (.bool true, r)
  else if b = 0x66 then (afterWord? "alse" rest).map fun r => (.bool false, r)
  else if b = 0x2D then (scanNumeral true rest).map fun (n, r) => (.number n.value?, r)
  else (scanNumeral false (b :: rest)).map fun (n, r) => (.number n.value?, r)

/-- Reads the token that starts with byte `b`, which is no blank. -/
def scan (b : UInt8) (rest : List UInt8) : Option (Token × List UInt8) :=
  match punctuation? b with
  | some t => some (t, rest)
  | none => (scanScalar b rest).map fun (s, r) => (.scalar s, r)

/-- What follows a word is no longer than what it was read from. -/
theorem length_afterWord?_le {word : String} {input rest : List UInt8}
    (h : afterWord? word input = some rest) : rest.length ≤ input.length := by
  unfold afterWord? at h
  grind

/-- A scalar takes at least one byte. -/
theorem length_scanScalar_lt {b : UInt8} {rest after : List UInt8} {s : Scalar}
    (h : scanScalar b rest = some (s, after)) : after.length < (b :: rest).length := by
  have hw {word : String} {s' : Scalar}
      (h : (afterWord? word rest).map (fun r => (s', r)) = some (s, after)) :
      after.length < (b :: rest).length := by
    obtain ⟨r, hr, h⟩ := Option.map_eq_some_iff.1 h
    have := length_afterWord?_le hr
    obtain rfl : r = after := (Prod.mk.inj h).2
    simp only [List.length_cons]
    omega
  have hn {negative : Bool} {input : List UInt8} (hi : input.length ≤ (b :: rest).length)
      (h : (scanNumeral negative input).map
        (fun (n, r) => (Scalar.number n.value?, r)) = some (s, after)) :
      after.length < (b :: rest).length := by
    obtain ⟨⟨n, r⟩, hr, h⟩ := Option.map_eq_some_iff.1 h
    have := length_scanNumeral_lt hr
    obtain rfl : r = after := (Prod.mk.inj h).2
    omega
  rw [scanScalar] at h
  by_cases h₁ : b = 0x22
  · rw [if_pos h₁] at h
    obtain ⟨⟨p, r⟩, hr, h⟩ := Option.map_eq_some_iff.1 h
    have := length_scanPieces_lt hr
    obtain rfl : r = after := (Prod.mk.inj h).2
    simp only [List.length_cons]
    omega
  rw [if_neg h₁] at h
  by_cases h₂ : b = 0x6E
  · exact hw (by rwa [if_pos h₂] at h)
  rw [if_neg h₂] at h
  by_cases h₃ : b = 0x74
  · exact hw (by rwa [if_pos h₃] at h)
  rw [if_neg h₃] at h
  by_cases h₄ : b = 0x66
  · exact hw (by rwa [if_pos h₄] at h)
  rw [if_neg h₄] at h
  by_cases h₅ : b = 0x2D
  · rw [if_pos h₅] at h
    exact hn (Nat.le_succ _) h
  · rw [if_neg h₅] at h
    exact hn (Nat.le_refl _) h

/-- A token takes at least one byte. -/
theorem length_scan_lt {b : UInt8} {rest after : List UInt8} {t : Token}
    (h : scan b rest = some (t, after)) : after.length < (b :: rest).length := by
  rw [scan] at h
  cases hp : punctuation? b with
  | some u =>
    rw [hp] at h
    obtain rfl : rest = after := (Prod.mk.inj (Option.some.inj h)).2
    simp
  | none =>
    rw [hp] at h
    obtain ⟨⟨s, r⟩, hr, h⟩ := Option.map_eq_some_iff.1 h
    obtain rfl : r = after := (Prod.mk.inj h).2
    exact length_scanScalar_lt hr

/-- The tokens of `bytes` after those of `found`, which are last first. -/
def tokensFrom (found : List Token) : List UInt8 → Option (List Token)
  | [] => some found.reverse
  | b :: rest =>
    if isSpace b then tokensFrom found rest
    else
      match h : scan b rest with
      | none => none
      | some (t, after) =>
        have := length_scan_lt h
        tokensFrom (t :: found) after
termination_by bytes => bytes.length
decreasing_by
  · exact Nat.lt_succ_self _
  · exact this

/-- The tokens of a byte sequence, or nothing when some of it is no token. -/
def tokens? (bytes : List UInt8) : Option (List Token) :=
  tokensFrom [] bytes

end LintWatch.Json
