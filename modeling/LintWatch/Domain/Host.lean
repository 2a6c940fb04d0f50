import LintWatch.Domain.Name
import LintWatch.Path.Percent

/-!
# Hosts

A host of a URI is a domain name, with characters percent-encoded or not, or an address: a name
whose last label is a number is an address of four bytes, and brackets enclose one of eight pairs of
bytes.
-/

namespace LintWatch.Domain

open LintWatch.Text

/-- A host of a URI. -/
inductive Host where
  | name (labels : List (List Char))
  | address
  deriving DecidableEq, Repr

namespace Host

/-- The value of a numeral of a base up to 16, which is zero without digits. -/
def numeral? (base : Nat) (ds : List Char) : Option Nat :=
  ds.foldlM (fun n d =>
    (Percent.digit? (UInt8.ofNat d.toNat)).bind fun v =>
      if d.toNat < 0x80 ∧ v < base then some (n * base + v) else none) 0

/-- The value of a part of an address of four bytes. Its base is told by its front. -/
def part? : List Char → Option Nat
  | [] => none
  | '0' :: 'x' :: ds => numeral? 16 ds
  | '0' :: d :: ds => numeral? 8 (d :: ds)
  | ds => numeral? 10 ds

/-- The labels without an empty one at the end. -/
def withoutRoot (labels : List (List Char)) : List (List Char) :=
  if labels.getLast? = some [] then labels.dropLast else labels

/-- Whether a name is meant as an address. -/
def endsInNumber (labels : List (List Char)) : Bool :=
  match (withoutRoot labels).getLast? with
  | some last => (last ≠ [] && last.all Char.isDigit) || (part? last).isSome
  | none => false

/-- Whether labels are an address of four bytes. The last part stands for all bytes that are
left. -/
def isFourBytes (labels : List (List Char)) : Bool :=
  match (withoutRoot labels).mapM part? with
  | none => false
  | some parts =>
    parts.length ≤ 4 && parts.dropLast.all (· < 256)
      && parts.getLast?.all (· < Nat.pow 256 (5 - parts.length))

/-- Whether a part of an address of eight pairs is a byte in decimal. -/
def isByte (ds : List Char) : Bool :=
  ds ≠ [] && ds.all Char.isDigit && (ds = ['0'] || ds.head? ≠ some '0')
    && ds.length ≤ 3 && (numeral? 10 ds).all (· < 256)

/-- How many pairs of bytes parts between colons stand for. The last one may be four bytes with
dots between them, when `isEnd`. -/
def pairs? (isEnd : Bool) : List (List Char) → Option Nat
  | [] => some 0
  | part :: parts =>
    if part ≠ [] ∧ part.length ≤ 4 ∧ (numeral? 16 part).isSome then (pairs? isEnd parts).map (· + 1)
    else if isEnd ∧ parts = [] ∧ (split '.' part).length = 4 ∧ (split '.' part).all isByte then
      some 2
    else none

/-- The parts of a text between colons; an empty text has none. -/
def parts (cs : List Char) : List (List Char) :=
  if cs = [] then [] else split ':' cs

/-- What stands in front of the first two colons in a row and behind them. -/
def splitAtGap? : List Char → Option (List Char × List Char)
  | ':' :: ':' :: cs => some ([], cs)
  | c :: cs => (splitAtGap? cs).map fun (before, after) => (c :: before, after)
  | [] => none

/-- Whether a text is an address of eight pairs of bytes. Two colons in a row stand for the pairs
that are missing, of which there is at least one. -/
def isEightPairs (cs : List Char) : Bool :=
  match splitAtGap? cs with
  | none => pairs? true (parts cs) = some 8
  | some (before, after) =>
    match pairs? false (parts before), pairs? true (parts after) with
    | some m, some n => m + n < 8
    | _, _ => false

/-- The host that is written in this way. -/
def read? (cs : List Char) : Option Host :=
  if cs.head? = some '[' then
    if cs.getLast? = some ']' ∧ isEightPairs (cs.drop 1).dropLast then some .address else none
  else do
    let labels ← labels? (← Utf8.decode? (Percent.decode (Utf8.encode (String.ofList cs))))
    if !endsInNumber labels then some (.name labels)
    else if isFourBytes labels then some .address
    else none

/-- Whether a host is this machine. -/
def isLocal (h : Host) : Bool :=
  h = .name ["localhost".toList]

end Host

end LintWatch.Domain
