/-!
# Shortest decimal text of a binary64 value

A finite positive binary64 value is `m * 2 ^ q`. The decimals that read back as it fill an
interval around it, whose ends count exactly when `m` is even. `shortest` looks on ever finer
decimal grids for a point of that interval: the first grid with a hit wins, of two hits the
nearer one, and of two equally near ones the even one. `render` writes the digits positionally
while the decimal exponent lies between `-5` and `16`, and with an exponent otherwise.
-/

namespace LintWatch

/-- A finite binary64 value without its sign, `mantissa * 2 ^ exponent`. -/
structure Dyadic where
  mantissa : Nat
  exponent : Int
  /-- Whether the value below it is only half as far away as the value above it. -/
  atBinade : Bool
  deriving DecidableEq, Repr

/-- The value that the bits of a finite binary64 number stand for. -/
def Dyadic.ofBits (bits : UInt64) : Dyadic :=
  let fraction := bits.toNat % Nat.pow 2 52
  let biased : Nat := bits.toNat / Nat.pow 2 52 % Nat.pow 2 11
  if biased = 0 then ⟨fraction, -1074, false⟩
  else ⟨Nat.pow 2 52 + fraction, (biased : Int) - 1075, fraction = 0 && 1 < biased⟩

/-- A decimal `digits * 10 ^ exponent`. -/
structure Decimal where
  digits : Nat
  exponent : Int
  deriving DecidableEq, Repr

namespace Decimal

/-- The number of factors `10` needed to bring `n` up to `bound`. -/
def factorsUpTo (n bound : Nat) : Nat → Nat
  | 0 => 0
  | fuel + 1 => if bound ≤ n then 0 else factorsUpTo (n * 10) bound fuel + 1

/-- `⌊log₁₀ (num / den)⌋` for a quotient of a binary64 value. -/
def log10 (num den : Nat) : Int :=
  if den ≤ num then ((toString (num / den)).length : Int) - 1
  else -(factorsUpTo num den 400 : Int)

/-- The point of the grid of multiples of `10 ^ exponent` that lies in the interval of `v` and
nearest to it. -/
def onGrid? (v : Dyadic) (exponent : Int) : Option Decimal :=
  -- In units of a quarter of the last binary place: the value and the ends of its interval.
  let value := 4 * v.mantissa
  let low := if v.atBinade then value - 1 else value - 2
  let high := value + 2
  let shift := v.exponent - 2
  -- Over a common denominator, a unit is `unit` and a grid step is `step`.
  let unit := Nat.pow 2 shift.toNat * Nat.pow 10 (-exponent).toNat
  let step := Nat.pow 10 exponent.toNat * Nat.pow 2 (-shift).toNat
  let below := value * unit / step
  let inside (d : Nat) : Bool :=
    if v.mantissa % 2 = 0 then low * unit ≤ d * step && d * step ≤ high * unit
    else low * unit < d * step && d * step < high * unit
  let distBelow := value * unit - below * step
  let distAbove := (below + 1) * step - value * unit
  match inside below, inside (below + 1) with
  | true, true =>
    if distBelow < distAbove || (distBelow = distAbove && below % 2 = 0)
    then some ⟨below, exponent⟩ else some ⟨below + 1, exponent⟩
  | true, false => some ⟨below, exponent⟩
  | false, true => some ⟨below + 1, exponent⟩
  | false, false => none

/-- The decimal with the fewest digits that reads back as `v`, found on one of the grids from
`top` down. -/
def searchGrids (v : Dyadic) (top : Int) : Nat → Decimal
  | 0 => ⟨v.mantissa * Nat.pow 2 v.exponent.toNat, 0⟩
  | fuel + 1 =>
    match onGrid? v top with
    | some d => if d.digits = 0 then searchGrids v (top - 1) fuel else d
    | none => searchGrids v (top - 1) fuel

/-- The decimal with the fewest digits that reads back as the positive value `v`. -/
def shortest (v : Dyadic) : Decimal :=
  searchGrids v
    (log10 (v.mantissa * Nat.pow 2 v.exponent.toNat) (Nat.pow 2 (-v.exponent).toNat)) 20

/-- `n` copies of the digit zero. -/
def zeros (n : Nat) : String :=
  String.ofList (List.replicate n '0')

/-- A positive decimal as text. -/
def render (d : Decimal) : String :=
  let written := (toString d.digits).toList
  let kept := (written.reverse.dropWhile (· = '0')).reverse
  let exponent := d.exponent + (written.length - kept.length : Nat)
  let point := exponent + kept.length
  if 0 ≤ exponent && point ≤ 16 then
    String.ofList kept ++ zeros exponent.toNat ++ ".0"
  else if 0 < point && point ≤ 16 then
    String.ofList (kept.take point.toNat) ++ "." ++ String.ofList (kept.drop point.toNat)
  else if -5 < point && point ≤ 0 then
    "0." ++ zeros (-point).toNat ++ String.ofList kept
  else
    let fraction := if kept.length ≤ 1 then "" else "." ++ String.ofList (kept.drop 1)
    let sign := if point - 1 < 0 then "-" else "+"
    String.ofList (kept.take 1) ++ fraction ++ "e" ++ sign ++ toString (point - 1).natAbs

/-- The text of the finite binary64 number with these bits. -/
def renderBits (bits : UInt64) : String :=
  let v := Dyadic.ofBits bits
  let sign := if bits.toNat / Nat.pow 2 63 = 1 then "-" else ""
  if v.mantissa = 0 then sign ++ "0.0" else sign ++ (shortest v).render

end Decimal

end LintWatch
