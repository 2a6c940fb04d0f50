/-!
# Quoted TOML texts

A text stands between quotes, on one line or between three quotes on several. Between double
quotes a backslash starts an escape; between single quotes all characters stand for themselves.
Control characters other than the tab are refused. Each reader takes the characters after the
opening quotes and gives the text with the characters after the closing ones.
-/

namespace LintWatch.Toml.Quoted

/-- Whether a character may not stand in a text or a comment. -/
def isControl (c : Char) : Bool :=
  (c.toNat < 0x20 && c ≠ '\t') || c.toNat = 0x7F

/-- The value of a hexadecimal digit. -/
def hexDigit? (c : Char) : Option Nat :=
  if '0' ≤ c ∧ c ≤ '9' then some (c.toNat - 0x30)
  else if 'a' ≤ c ∧ c ≤ 'f' then some (c.toNat - 0x57)
  else if 'A' ≤ c ∧ c ≤ 'F' then some (c.toNat - 0x37)
  else none

/-- The character that `count` hexadecimal digits name, and what follows them. -/
def hexChar? (count : Nat) (cs : List Char) : Option (Char × List Char) := do
  let digits ← (cs.take count).mapM hexDigit?
  let n := digits.foldl (fun n d => n * 16 + d) 0
  if digits.length = count ∧ n.isValidChar then some (Char.ofNat n, cs.drop count) else none

/-- The character that a one-letter escape stands for. -/
def escaped? (c : Char) : Option Char :=
  if c = '"' ∨ c = '\\' then some c
  else if c = 'b' then some '\x08'
  else if c = 't' then some '\t'
  else if c = 'n' then some '\n'
  else if c = 'f' then some '\x0c'
  else if c = 'r' then some '\r'
  else if c = 'e' then some '\x1b'
  else none

/-- Reads an escape after its backslash. -/
def escape? : List Char → Option (Char × List Char)
  | [] => none
  | c :: cs =>
    if c = 'x' then hexChar? 2 cs
    else if c = 'u' then hexChar? 4 cs
    else if c = 'U' then hexChar? 8 cs
    else (escaped? c).map (·, cs)

/-- What follows an escape is shorter than the escape with it. -/
theorem length_escape?_lt {cs rest : List Char} {c : Char} (h : escape? cs = some (c, rest)) :
    rest.length < cs.length := by
  have hx {count : Nat} {ds : List Char} (h : hexChar? count ds = some (c, rest)) :
      rest.length ≤ ds.length := by
    simp only [hexChar?, Option.bind_eq_bind] at h
    obtain ⟨digits, -, h⟩ := Option.bind_eq_some_iff.1 h
    split at h
    · rw [← (Prod.mk.inj (Option.some.inj h)).2]
      simp
    · simp at h
  cases cs with
  | nil => simp [escape?] at h
  | cons d ds =>
    simp only [escape?] at h
    split at h
    · exact Nat.lt_succ_of_le (hx h)
    split at h
    · exact Nat.lt_succ_of_le (hx h)
    split at h
    · exact Nat.lt_succ_of_le (hx h)
    · obtain ⟨_, _, h⟩ := Option.map_eq_some_iff.1 h
      simp [(Prod.mk.inj h).2]

/-- Reads a text between double quotes. `found` are its characters so far, last first. -/
def basic (found : List Char) : List Char → Option (String × List Char)
  | [] => none
  | c :: cs =>
    if c = '"' then some (String.ofList found.reverse, cs)
    else if c = '\\' then
      match h : escape? cs with
      | some (d, rest) =>
        have := length_escape?_lt h
        basic (d :: found) rest
      | none => none
    else if isControl c then none
    else basic (c :: found) cs
termination_by cs => cs.length

/-- Reads a text between single quotes. -/
def literal (found : List Char) : List Char → Option (String × List Char)
  | [] => none
  | c :: cs =>
    if c = '\'' then some (String.ofList found.reverse, cs)
    else if isControl c then none
    else literal (c :: found) cs

/-- The characters without the line end in front. -/
def dropLineEnd : List Char → List Char
  | '\n' :: cs => cs
  | '\r' :: '\n' :: cs => cs
  | cs => cs

/-- Whether a line end stands in front. -/
def startsWithLineEnd : List Char → Bool
  | '\n' :: _ => true
  | '\r' :: '\n' :: _ => true
  | _ => false

/-- Whether the character `c` in front of `cs` may stand in a text of several lines. -/
def isLineChar (c : Char) (cs : List Char) : Bool :=
  !isControl c || c = '\n' || (c = '\r' && cs.head? = some '\n')

/-- The characters after the closing quotes, and how many of the quotes in front of them belong
to the text: up to two may stand before the closing three. -/
def closing? (quote : Char) (cs : List Char) : Option (Nat × List Char) :=
  let quotes := (cs.takeWhile (· = quote)).length
  if 3 ≤ quotes then some (min (quotes - 3) 2, cs.drop (min quotes 5)) else none

/-- The characters after the blanks and line ends in front. -/
def dropBlankLines : List Char → List Char
  | ' ' :: cs | '\t' :: cs | '\n' :: cs => dropBlankLines cs
  | '\r' :: '\n' :: cs => dropBlankLines cs
  | cs => cs

theorem length_dropBlankLines_le (cs : List Char) : (dropBlankLines cs).length ≤ cs.length := by
  fun_induction dropBlankLines cs with
  | case1 cs ih | case2 cs ih | case3 cs ih => exact Nat.le_succ_of_le ih
  | case4 cs ih => exact Nat.le_succ_of_le (Nat.le_succ_of_le ih)
  | case5 => exact Nat.le_refl _

/-- The characters after the blanks in front. -/
def dropBlanks (cs : List Char) : List Char :=
  cs.dropWhile fun c => c = ' ' || c = '\t'

/-- Reads a text between three double quotes. A backslash at the end of a line joins the line with
the next one that is not blank. -/
def basicLines (found : List Char) : List Char → Option (String × List Char)
  | [] => none
  | c :: cs =>
    match closing? '"' (c :: cs) with
    | some (quotes, rest) =>
      some (String.ofList (found.reverse ++ List.replicate quotes '"'), rest)
    | none =>
      if c = '\\' then
        if startsWithLineEnd (dropBlanks cs) then
          have := length_dropBlankLines_le cs
          basicLines found (dropBlankLines cs)
        else
          match h : escape? cs with
          | some (d, rest) =>
            have := length_escape?_lt h
            basicLines (d :: found) rest
          | none => none
      else if isLineChar c cs then basicLines (c :: found) cs
      else none
termination_by cs => cs.length

/-- Reads a text between three single quotes. -/
def literalLines (found : List Char) : List Char → Option (String × List Char)
  | [] => none
  | c :: cs =>
    match closing? '\'' (c :: cs) with
    | some (quotes, rest) =>
      some (String.ofList (found.reverse ++ List.replicate quotes '\''), rest)
    | none => if isLineChar c cs then literalLines (c :: found) cs else none

/-- Reads a quoted text from its opening quotes on. -/
def read? : List Char → Option (String × List Char)
  | '"' :: '"' :: '"' :: cs => basicLines [] (dropLineEnd cs)
  | '"' :: cs => basic [] cs
  | '\'' :: '\'' :: '\'' :: cs => literalLines [] (dropLineEnd cs)
  | '\'' :: cs => literal [] cs
  | _ => none

end LintWatch.Toml.Quoted
