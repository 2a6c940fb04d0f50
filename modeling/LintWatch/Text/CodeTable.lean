/-!
# Tables of code points

A table holds runs of code points, in increasing order, with some numbers for each of them. It is
written in words with blanks between them. A word is the first code point of a run, `-` and the
last one if there are more, `/` and the step if it is not one, and `>` and the numbers with dots
between them if there are any; all of it is hexadecimal.
-/

namespace LintWatch.Text

/-- Code points from `first` to `last` in steps, with the numbers for them. -/
structure CodeRun where
  first : Nat
  last : Nat
  step : Nat
  numbers : List Nat
  deriving Repr, Inhabited

/-- Runs of code points, in increasing order. -/
structure CodeTable where
  runs : Array CodeRun
  deriving Inhabited

namespace CodeRun

/-- The value of a hexadecimal numeral in upper case. -/
def numeral (s : String) : Nat :=
  s.toList.foldl (fun n c => n * 16 + (if c.isDigit then c.toNat - 0x30 else c.toNat - 0x37)) 0

/-- The run that a word stands for. -/
def ofWord (word : String) : CodeRun :=
  let (span, numbers) := match word.splitOn ">" with
    | [span, numbers] => (span, (numbers.splitOn ".").map numeral)
    | _ => (word, [])
  let (ends, step) := match span.splitOn "/" with
    | [ends, step] => (ends, numeral step)
    | _ => (span, 1)
  match ends.splitOn "-" with
  | [first, last] => ⟨numeral first, numeral last, step, numbers⟩
  | _ => ⟨numeral ends, numeral ends, step, numbers⟩

/-- Whether a code point belongs to a run. -/
def contains (r : CodeRun) (n : Nat) : Bool :=
  r.first ≤ n && n ≤ r.last && (n - r.first) % r.step = 0

end CodeRun

namespace CodeTable

/-- The table that these lines of words stand for. -/
def ofLines (lines : List String) : CodeTable :=
  ⟨(lines.flatMap fun line => (line.splitOn " ").map CodeRun.ofWord).toArray⟩

variable (t : CodeTable)

/-- How many of the runs before `high`, of which all before `low` are known to, begin at `n` or
before it. -/
def search (n low high : Nat) : Nat :=
  if low < high then
    let middle := (low + high) / 2
    match t.runs[middle]? with
    | some r => if r.first ≤ n then search n (middle + 1) high else search n low middle
    | none => low
  else low
termination_by high - low

/-- The run that a code point belongs to. -/
def find? (n : Nat) : Option CodeRun :=
  match t.search n 0 t.runs.size with
  | 0 => none
  | i + 1 => t.runs[i]?.filter (·.contains n)

/-- Whether a code point belongs to a run of the table. -/
def contains (c : Char) : Bool :=
  (t.find? c.toNat).isSome

end CodeTable

end LintWatch.Text
