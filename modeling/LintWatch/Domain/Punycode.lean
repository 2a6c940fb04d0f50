/-!
# Punycode

A label with characters beyond ASCII is written in ASCII: first its ASCII characters, then, behind
the last hyphen, where the others go and what they are. That is a sequence of numbers, each written
with digits of base 36 whose last one is below a threshold; the thresholds follow the sizes of the
numbers before.
-/

namespace LintWatch.Domain.Punycode

/-- The value of a digit. -/
def digit? (c : Char) : Option Nat :=
  if c.isDigit then some (c.toNat - 0x30 + 26)
  else if c.isAlpha then some (c.toLower.toNat - 0x61)
  else none

/-- The threshold for the digit at `k`, which counts in steps of 36. -/
def threshold (k bias : Nat) : Nat :=
  if k ≤ bias then 1 else if bias + 26 ≤ k then 26 else k - bias

/-- Takes `delta` down to at most 455 and counts how often that takes a division by 35, in steps of
36. -/
def settle (delta k : Nat) : Nat × Nat :=
  if 455 < delta then settle (delta / 35) (k + 36) else (delta, k)
termination_by delta

/-- The bias after a number `delta`, when there are then `count` characters. -/
def adapt (delta count : Nat) (isFirst : Bool) : Nat :=
  let scaled := if isFirst then delta / 700 else delta / 2
  let (delta, k) := settle (scaled + scaled / count) 0
  k + 36 * delta / (delta + 38)

/-- The numbers above which a label counts as malformed. -/
def bound : Nat := UInt32.size

/-- Reads the digits of a number, of which the first has the weight `weight` and stands at `k`, and
adds the number to `sum`. -/
def number? (bias : Nat) : List Char → (k weight sum : Nat) → Option (Nat × List Char)
  | [], _, _, _ => none
  | c :: cs, k, weight, sum => do
    let d ← digit? c
    let sum := sum + d * weight
    if bound ≤ sum then none
    else if d < threshold k bias then return (sum, cs)
    else
      let weight := weight * (36 - threshold k bias)
      if bound ≤ weight then none else number? bias cs (k + 36) weight sum

theorem length_number?_lt {bias : Nat} {cs rest : List Char} {k weight sum n : Nat}
    (h : number? bias cs k weight sum = some (n, rest)) : rest.length < cs.length := by
  induction cs generalizing k weight sum with
  | nil => simp [number?] at h
  | cons c cs ih =>
    rw [number?] at h
    cases hd : digit? c with
    | none => simp [hd] at h
    | some d =>
      simp only [hd, Option.bind_eq_bind, Option.bind_some] at h
      split at h
      · simp at h
      · split at h
        · obtain ⟨-, rfl⟩ : _ ∧ cs = rest := by simpa using h
          simp
        · split at h
          · simp at h
          · exact Nat.lt_succ_of_lt (ih h)

/-- Puts the characters that `cs` stand for among those of `found`. The last one was `code`, and
`place` is where the next one of that code would go. -/
def insertions? (bias code place : Nat) (found : List Char) (cs : List Char) :
    Option (List Char) :=
  match cs with
  | [] => some found
  | c :: rest =>
    match h : number? bias (c :: rest) 36 1 place with
    | none => none
    | some (n, after) =>
      have : after.length ≤ rest.length := Nat.le_of_lt_succ (length_number?_lt h)
      let count := found.length + 1
      let code := code + n / count
      if code < 0xD800 ∨ (0xE000 ≤ code ∧ code < 0x110000) then
        insertions? (adapt (n - place) count (place = 0)) code (n % count + 1)
          (found.insertIdx (n % count) (Char.ofNat code)) after
      else none
termination_by cs.length

/-- The characters that a label stands for, when it is well formed. -/
def decode? (cs : List Char) : Option (List Char) :=
  let digits := (cs.reverse.takeWhile (· ≠ '-')).reverse
  let plain := cs.take (cs.length - digits.length - 1)
  if plain = [] then insertions? 72 0x80 0 [] cs
  else if plain.all (·.toNat < 0x80) then insertions? 72 0x80 0 plain digits
  else none

end LintWatch.Domain.Punycode
