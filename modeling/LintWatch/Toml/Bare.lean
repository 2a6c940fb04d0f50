import LintWatch.Text.Split
import LintWatch.Toml.Document

/-!
# Unquoted TOML scalars

Truth values, integers, floating-point numbers, dates and times. `Bare.read?` gives the value of
such a word; of a number that is no integer and of a moment only that it is one, since no setting
uses it, but each must be well formed.
-/

namespace LintWatch.Toml.Bare

open LintWatch.Text

/-- The digits of a number that satisfy `isDigit`, single underscores between them aside. -/
def digits? (isDigit : Char → Bool) (cs : List Char) : Option (List Char) :=
  let groups := split '_' cs
  if groups.all fun g => g ≠ [] ∧ g.all isDigit then some groups.flatten else none

/-- The value of a digit in a base up to sixteen. -/
def digitValue (c : Char) : Nat :=
  if c.isDigit then c.toNat - 0x30 else c.toLower.toNat - 0x57

/-- The number that digits stand for in a base. -/
def natOfDigits (base : Nat) (ds : List Char) : Nat :=
  ds.foldl (fun n d => n * base + digitValue d) 0

/-- An integer, when it fits into 128 bits with or without sign. -/
def fit? (n : Int) : Option Scalar :=
  if -Int.pow 2 127 ≤ n ∧ n < Int.pow 2 128 then some (.integer n) else none

/-- Whether digits start with a zero that does not stand alone. -/
def hasLeadingZero (cs : List Char) : Bool :=
  cs.head? = some '0' && 1 < cs.length

/-- A decimal integer without its sign. -/
def decimal? (negative : Bool) (cs : List Char) : Option Scalar := do
  if hasLeadingZero cs then none
  else
    let n : Int := natOfDigits 10 (← digits? Char.isDigit cs)
    fit? (if negative then -n else n)

/-- Whether `mantissa * 10 ^ exponent` rounds to a finite binary64 number. -/
def isFinite (mantissa : Nat) (exponent : Int) : Bool :=
  let size : Int := ((toString mantissa).length : Int) + exponent
  if mantissa = 0 ∨ size < 300 then true
  else if 400 < size then false
  else
    mantissa * Nat.pow 10 exponent.toNat
      < (Nat.pow 2 1024 - Nat.pow 2 970) * Nat.pow 10 (-exponent).toNat

/-- The digits and the sign of an exponent. -/
def exponent? (cs : List Char) : Option Int := do
  let sign := cs.head?
  let ds ← digits? Char.isDigit (if sign = some '+' ∨ sign = some '-' then cs.drop 1 else cs)
  let n : Int := natOfDigits 10 ds
  return if sign = some '-' then -n else n

/-- A number with a point or an exponent, without its sign. -/
def float? (cs : List Char) : Option Scalar := do
  let isMark (c : Char) : Bool := c = 'e' || c = 'E'
  let mantissa := cs.takeWhile (!isMark ·)
  let mark := cs.dropWhile (!isMark ·)
  let exponent ← if mark = [] then some 0 else exponent? (mark.drop 1)
  let whole := mantissa.takeWhile (· ≠ '.')
  let point := mantissa.dropWhile (· ≠ '.')
  let fraction ← if point = [] then some [] else digits? Char.isDigit (point.drop 1)
  let wholeDigits ← digits? Char.isDigit whole
  if hasLeadingZero whole ∨ (mark = [] ∧ point = []) then none
  else if isFinite (natOfDigits 10 (wholeDigits ++ fraction)) (exponent - fraction.length) then
    some .real
  else none

/-- A number. -/
def number? (cs : List Char) : Option Scalar :=
  let isOf (base : Nat) (c : Char) : Bool := c.isAlphanum && digitValue c < base
  let based (base : Nat) (ds : List Char) : Option Scalar :=
    (digits? (isOf base) ds).bind fun ds => fit? (natOfDigits base ds)
  match cs with
  | '0' :: 'x' :: ds => based 16 ds
  | '0' :: 'o' :: ds => based 8 ds
  | '0' :: 'b' :: ds => based 2 ds
  | _ =>
    let signed := cs.head? = some '+' ∨ cs.head? = some '-'
    let rest := if signed then cs.drop 1 else cs
    if rest = "inf".toList ∨ rest = "nan".toList then some .real
    else (decimal? (cs.head? = some '-') rest).or (float? rest)

/-- A number of exactly `count` digits. -/
def fixed? (count : Nat) (cs : List Char) : Option Nat :=
  if cs.length = count ∧ cs.all Char.isDigit then some (natOfDigits 10 cs) else none

/-- The number of days of a month. -/
def daysIn (year month : Nat) : Nat :=
  if month = 2 then
    if year % 4 = 0 ∧ (year % 100 ≠ 0 ∨ year % 400 = 0) then 29 else 28
  else if month ∈ [4, 6, 9, 11] then 30
  else 31

/-- Whether `cs` is a date. -/
def isDate (cs : List Char) : Bool :=
  match split '-' cs with
  | [y, m, d] =>
    match fixed? 4 y, fixed? 2 m, fixed? 2 d with
    | some year, some month, some day =>
      1 ≤ month && month ≤ 12 && 1 ≤ day && day ≤ daysIn year month
    | _, _, _ => false
  | _ => false

/-- Whether `cs` are hours and minutes. -/
def isHourMinute (h m : List Char) : Bool :=
  match fixed? 2 h, fixed? 2 m with
  | some hour, some minute => hour ≤ 23 && minute ≤ 59
  | _, _ => false

/-- Whether `cs` are seconds with or without a fraction. -/
def isSecond (cs : List Char) : Bool :=
  let whole := cs.takeWhile (· ≠ '.')
  let point := cs.dropWhile (· ≠ '.')
  ((fixed? 2 whole).any (· ≤ 60))
    && (point = [] || (point.drop 1 ≠ [] && (point.drop 1).all Char.isDigit))

/-- Whether `cs` is a time of day; the seconds may be left out. -/
def isTime (cs : List Char) : Bool :=
  match split ':' cs with
  | [h, m] => isHourMinute h m
  | [h, m, s] => isHourMinute h m && isSecond s
  | _ => false

/-- Whether `cs` is a time of day with or without an offset. -/
def isOffsetTime (cs : List Char) : Bool :=
  let isSign (c : Char) : Bool := c = '+' || c = '-'
  match cs.getLast? with
  | some c =>
    if c = 'Z' ∨ c = 'z' then isTime cs.dropLast
    else
      let offset := cs.dropWhile (!isSign ·)
      isTime (cs.takeWhile (!isSign ·))
        && (offset = [] || match split ':' (offset.drop 1) with
          | [h, m] => isHourMinute h m
          | _ => false)
  | none => false

/-- Whether `cs` is a date, a time or both. -/
def isMoment (cs : List Char) : Bool :=
  isDate cs || isTime cs
    || (isDate (cs.take 10) && match cs.drop 10 with
      | c :: time => (c = 'T' || c = 't' || c = ' ') && isOffsetTime time
      | [] => false)

/-- The value of an unquoted word. -/
def read? (cs : List Char) : Option Scalar :=
  if cs = "true".toList then some (.bool true)
  else if cs = "false".toList then some (.bool false)
  else if isMoment cs then some .moment
  else number? cs

end LintWatch.Toml.Bare
