import LintWatch.Proofs.Frame.Header

/-!
# Header blocks

A header block is lines of text up to a blank one. Of its lines only those count that have the name
of the length header (`Line.Gives`), and of these the last one, if all of them can be read
(`Verdict`). Whatever the other lines are, reading a block comes to what the block says, and takes
off the stream the block and nothing else, or the lines up to the first one whose length cannot be
read: `read_headers_of_block`.
-/

namespace LintWatch.Frame

open LintWatch.Text
open LintWatch.Text.Utf8 (encode)

/-! ## Lengths -/

/-- The texts that are read as a length: the digits of a number of 64 bits, with a plus sign in front
or without. -/
def IsLength (cs : List Char) (n : Nat) : Prop :=
  ∃ digits, (cs = digits ∨ cs = '+' :: digits) ∧ digits ≠ [] ∧ (∀ c ∈ digits, c.isDigit = true) ∧
    numberOf digits = n ∧ n < 2 ^ 64

/-- A text without a plus sign in front. -/
def signless : List Char → List Char
  | '+' :: digits => digits
  | digits => digits

/-- A text is read as a length if it is the digits of one but for a plus sign. -/
theorem parse_length_signless {cs : List Char} {n : Nat} :
    parseLength? cs = some n ↔ signless cs ≠ [] ∧ (∀ c ∈ signless cs, c.isDigit = true) ∧
      numberOf (signless cs) = n ∧ n < 2 ^ 64 := by
  have hread : parseLength? cs = if signless cs = [] ∨ !(signless cs).all Char.isDigit then none
      else if numberOf (signless cs) < 2 ^ 64 then some (numberOf (signless cs)) else none := rfl
  rw [hread]
  grind

/-- A text is read as the length that it is. -/
theorem parse_length_eq_some_iff {cs : List Char} {n : Nat} :
    parseLength? cs = some n ↔ IsLength cs n := by
  rw [parse_length_signless]
  constructor
  · intro h
    refine ⟨signless cs, ?_, h⟩
    unfold signless
    split
    next => exact .inr rfl
    next => exact .inl rfl
  · rintro ⟨digits, hsign, h⟩
    have hsignless : signless cs = digits := by
      rcases hsign with rfl | rfl
      · unfold signless
        split
        next =>
          -- A plus sign is no digit.
          exact absurd (h.2.1 '+' List.mem_cons_self) (by decide)
        next => rfl
      · rfl
    rwa [hsignless]

/-! ## Lines -/

/-- A line of a header block, with a carriage return in front of its end or without. -/
structure Line where
  text : List Char
  hasReturn : Bool
  one_line : '\n' ∉ text

namespace Line

variable (l : Line)

/-- The characters of a line with the end of the line. -/
def chars : List Char :=
  l.text ++ (if l.hasReturn then ['\r'] else []) ++ ['\n']

/-- The bytes of a line with the end of the line. -/
def bytes : List UInt8 :=
  encode (String.ofList l.chars)

/-- Nothing but blanks stands on the line. -/
def IsBlank : Prop :=
  ∀ c ∈ l.text, isBlank c = true

/-- In front of the first colon of the line stands the name of the length header, in whatever
letters, and behind it `value`. -/
def Gives (value : List Char) : Prop :=
  ∃ name, trim l.text = name ++ ':' :: value ∧ ':' ∉ name ∧
    name.map Char.toLower = lengthName.map Char.toLower

/-- The line gives the length `n`. -/
def Says (n : Nat) : Prop :=
  ∃ value, l.Gives value ∧ IsLength (trim value) n

/-- If the line has the name of the length header, a length stands behind it. -/
def IsReadable : Prop :=
  ∀ value, l.Gives value → ∃ n, IsLength (trim value) n

/-- The line has not the name of the length header. -/
def IsSilent : Prop :=
  ∀ value, ¬ l.Gives value

/-- What stands behind the name of the length header, if the line has it. -/
def value? : Option (List Char) :=
  if ((trim l.text).takeWhile (· ≠ ':')).map Char.toLower = lengthName.map Char.toLower then
    ((trim l.text).dropWhile (· ≠ ':')).tail?
  else none

variable {l}

/-- A line gives at most one value. -/
theorem gives_iff {value : List Char} : l.Gives value ↔ l.value? = some value := by
  constructor
  · rintro ⟨name, htrim, hcolon, hname⟩
    obtain ⟨hfront, hback⟩ := split_colon hcolon value
    rw [value?, htrim, hfront, hback, if_pos hname]
    rfl
  · intro h
    obtain ⟨hname, hback⟩ := Option.ite_none_right_eq_some.1 h
    obtain ⟨c, hback⟩ : ∃ c, (trim l.text).dropWhile (· ≠ ':') = c :: value := by
      cases hdrop : (trim l.text).dropWhile (· ≠ ':') with
      | nil => rw [hdrop] at hback; cases hback
      | cons c tail =>
          rw [hdrop] at hback
          exact ⟨c, congrArg (c :: ·) (Option.some.inj hback)⟩
    obtain rfl : c = ':' := by
      have hhead := List.head?_dropWhile_not (· ≠ ':') (trim l.text)
      rw [hback] at hhead
      simpa using hhead
    have hcolon : ':' ∉ (trim l.text).takeWhile (· ≠ ':') := by
      intro hmem
      simpa using List.mem_takeWhile_imp hmem
    refine ⟨_, ?_, hcolon, hname⟩
    rw [← hback, List.takeWhile_append_dropWhile]

/-- The end of a line does not count. -/
theorem trim_chars : trim l.chars = trim l.text := by
  rw [chars, List.append_assoc, trim_append_of_blank]
  cases l.hasReturn
  · exact List.all_eq_true.1 (by decide)
  · exact List.all_eq_true.1 (by decide)

instance (l : Line) : Decidable l.IsBlank :=
  decidable_of_iff (l.text.all isBlank = true) List.all_eq_true

instance (l : Line) (n : Nat) : Decidable (l.Says n) :=
  decidable_of_iff (∃ value ∈ l.value?, parseLength? (trim value) = some n)
    (exists_congr fun _ => and_congr gives_iff.symm parse_length_eq_some_iff)

instance (l : Line) : Decidable l.IsReadable :=
  decidable_of_iff (∀ value ∈ l.value?, (parseLength? (trim value)).isSome)
    (forall_congr' fun _ => imp_congr gives_iff.symm
      (Option.isSome_iff_exists.trans (exists_congr fun _ => parse_length_eq_some_iff)))

/-- A line that gives no value is silent. -/
theorem is_silent_iff : l.IsSilent ↔ l.value? = none := by
  rw [Option.eq_none_iff_forall_ne_some]
  exact forall_congr' fun _ => not_congr gives_iff

instance (l : Line) : Decidable l.IsSilent :=
  decidable_of_iff (l.value? = none) is_silent_iff.symm

/-- A line of blanks ends a block. -/
theorem of_line_of_is_blank (h : l.IsBlank) : Header.ofLine l.chars = .blank := by
  have htrim : trim l.chars = [] := trim_chars.trans (trim_eq_nil_iff.2 h)
  rw [Header.ofLine, htrim]
  rfl

/-- A line with the name of the length header gives what stands behind the colon. -/
theorem of_line_of_gives {value : List Char} (h : l.Gives value) :
    Header.ofLine l.chars = match parseLength? (trim value) with
      | some n => .length n
      | none => .badLength (String.ofList value) := by
  obtain ⟨name, htrim, hcolon, hname⟩ := h
  exact of_line_of_trim (trim_chars.trans htrim) hcolon hname

/-- A line gives the length that it says. -/
theorem of_line_of_says {n : Nat} (h : l.Says n) : Header.ofLine l.chars = .length n := by
  obtain ⟨value, hgives, hlength⟩ := h
  rw [of_line_of_gives hgives, parse_length_eq_some_iff.2 hlength]

/-- What stands behind the colon and is no length is reported. -/
theorem of_line_of_unreadable {value : List Char} (h : l.Gives value)
    (hvalue : ∀ n, ¬ IsLength (trim value) n) :
    Header.ofLine l.chars = .badLength (String.ofList value) := by
  have hparse : parseLength? (trim value) = none := by
    rw [Option.eq_none_iff_forall_ne_some]
    exact fun n hn => hvalue n (parse_length_eq_some_iff.1 hn)
  rw [of_line_of_gives h, hparse]

/-- A line that has not the name of the length header means nothing. -/
theorem of_line_of_silent (hblank : ¬ l.IsBlank) (h : l.IsSilent) :
    Header.ofLine l.chars = .other := by
  have hne : trim l.text ≠ [] := fun hnil => hblank (trim_eq_nil_iff.1 hnil)
  have hvalue : l.value? = none := is_silent_iff.1 h
  rw [Header.ofLine, trim_chars]
  simp only [if_neg hne]
  split
  next => rfl
  next hback =>
    refine if_neg fun hname => ?_
    rw [value?, hback, if_pos (hname.trans (by decide))] at hvalue
    cases hvalue

end Line

/-! ## Blocks -/

/-- What a block of lines in front of a blank one comes to, and which lines are left of it. The last
line that gives a length counts, if all that have its name can be read; the first one that cannot
be read ends the reading. -/
inductive Verdict (blank : Line) : List Line → Headers → List Line → Prop
  | length {early late : List Line} {l : Line} {n : Nat} (hearly : ∀ e ∈ early, e.IsReadable)
      (hl : l.Says n) (hlate : ∀ e ∈ late, e.IsSilent) :
      Verdict blank (early ++ l :: late) (.length n) []
  | missing {lines : List Line} (hlines : ∀ l ∈ lines, l.IsSilent) :
      Verdict blank lines (.failed (.malformed "missing Content-Length header")) []
  | unreadable {early late : List Line} {l : Line} {value : List Char}
      (hearly : ∀ e ∈ early, e.IsReadable) (hl : l.Gives value)
      (hvalue : ∀ n, ¬ IsLength (trim value) n) :
      Verdict blank (early ++ l :: late)
        (.failed (.malformed ("invalid Content-Length value: " ++ String.ofList value)))
        (late ++ [blank])

/-- Every block comes to something. -/
theorem exists_verdict (blank : Line) (lines : List Line) :
    ∃ result left, Verdict blank lines result left := by
  -- What the lines behind the first one come to is what the block comes to, unless the first one
  -- cannot be read or is the only one to give a length.
  induction lines with
  | nil => exact ⟨_, _, .missing (by simp)⟩
  | cons l lines ih =>
      by_cases hl : l.IsReadable
      · have hreadable {early : List Line} (hearly : ∀ e ∈ early, e.IsReadable) :
            ∀ e ∈ l :: early, e.IsReadable := List.forall_mem_cons.2 ⟨hl, hearly⟩
        obtain ⟨result, left, hverdict⟩ := ih
        cases hverdict with
        | length hearly hlast hlate => exact ⟨_, _, .length (hreadable hearly) hlast hlate⟩
        | unreadable hearly hgives hvalue =>
            exact ⟨_, _, .unreadable (hreadable hearly) hgives hvalue⟩
        | missing hlines =>
            by_cases hgives : ∃ value, l.Gives value
            · obtain ⟨value, hgives⟩ := hgives
              obtain ⟨n, hn⟩ := hl value hgives
              exact ⟨_, _, @Verdict.length _ [] _ _ _ (by simp) ⟨value, hgives, hn⟩ hlines⟩
            · exact ⟨_, _, .missing (List.forall_mem_cons.2 ⟨not_exists.1 hgives, hlines⟩)⟩
      · obtain ⟨value, hgives, hvalue⟩ : ∃ value, l.Gives value ∧ ¬ ∃ n, IsLength (trim value) n := by
          simpa [Line.IsReadable] using hl
        exact ⟨_, _, @Verdict.unreadable _ [] _ _ _ (by simp) hgives (not_exists.1 hvalue)⟩

variable {s : Stream} {lines : List Line} {blank : Line} {rest : List UInt8}

/-- A line in front of a stream is read as the header that it is. -/
theorem read_headers_of_bytes (found : Option Nat) (begun : Bool) {l : Line}
    (hbytes : s.bytes = l.bytes ++ rest) :
    readHeaders found begun s = readHeader found s.line.2 (Header.ofLine l.chars) ∧
      s.line.2.bytes = rest := by
  have hreturn : '\n' ∉ l.text ++ if l.hasReturn then ['\r'] else [] := by
    have := l.one_line
    cases l.hasReturn <;> simpa
  exact ⟨read_headers_of_line found begun hbytes hreturn, (Stream.line_of_bytes hbytes hreturn).2⟩

/-- Lines that can be read are read, and what has been found stays unless one of them gives a
length. -/
theorem read_headers_of_readable (hlines : ∀ l ∈ lines, ¬ l.IsBlank ∧ l.IsReadable)
    (found : Option Nat) (begun : Bool) (hbytes : s.bytes = lines.flatMap Line.bytes ++ rest) :
    ∃ found' begun' after, readHeaders found begun s = readHeaders found' begun' after ∧
      after.bytes = rest ∧ after.failure = s.failure ∧
      ((∀ l ∈ lines, l.IsSilent) → found' = found) := by
  -- The first line leaves the other lines in front of a stream that fails like this one.
  induction lines generalizing s found begun with
  | nil => exact ⟨found, begun, s, rfl, hbytes, rfl, fun _ => rfl⟩
  | cons l lines ih =>
      rw [List.flatMap_cons, List.append_assoc] at hbytes
      obtain ⟨⟨hblank, hreadable⟩, hlines⟩ := List.forall_mem_cons.1 hlines
      obtain ⟨hline, hrest⟩ := read_headers_of_bytes found begun hbytes
      by_cases hgives : ∃ value, l.Gives value
      · obtain ⟨value, hgives⟩ := hgives
        obtain ⟨n, hn⟩ := hreadable value hgives
        rw [Line.of_line_of_says ⟨value, hgives, hn⟩] at hline
        obtain ⟨found', begun', after, hread, hafter, hfailure, -⟩ := ih hlines (some n) true hrest
        exact ⟨found', begun', after, hline.trans hread, hafter, hfailure,
          fun hsilent => absurd hgives (hsilent l List.mem_cons_self value)⟩
      · rw [Line.of_line_of_silent hblank (not_exists.1 hgives)] at hline
        obtain ⟨found', begun', after, hread, hafter, hfailure, hfound⟩ := ih hlines found true hrest
        exact ⟨found', begun', after, hline.trans hread, hafter, hfailure,
          fun hsilent => hfound (List.forall_mem_cons.1 hsilent).2⟩

/-- A line behind lines that can be read is read as the header that it is. -/
theorem read_headers_behind {l : Line} (hlines : ∀ l ∈ lines, ¬ l.IsBlank ∧ l.IsReadable)
    (found : Option Nat) (begun : Bool)
    (hbytes : s.bytes = lines.flatMap Line.bytes ++ (l.bytes ++ rest)) :
    ∃ found' after, readHeaders found begun s = readHeader found' after (Header.ofLine l.chars) ∧
      after.bytes = rest ∧ after.failure = s.failure ∧
      ((∀ l ∈ lines, l.IsSilent) → found' = found) := by
  obtain ⟨found', begun', behind, hread, hbehind, hfailure, hfound⟩ :=
    read_headers_of_readable hlines found begun hbytes
  obtain ⟨hline, hrest⟩ := read_headers_of_bytes found' begun' hbehind
  exact ⟨found', behind.line.2, hread.trans hline, hrest, hfailure, hfound⟩

/-- A blank line behind lines that give no length ends a block with what has been found. -/
theorem read_headers_of_silent (hlines : ∀ l ∈ lines, ¬ l.IsBlank)
    (hsilent : ∀ l ∈ lines, l.IsSilent) (hblank : blank.IsBlank) (found : Option Nat)
    (begun : Bool) (hbytes : s.bytes = lines.flatMap Line.bytes ++ (blank.bytes ++ rest)) :
    ∃ after, readHeaders found begun s = readHeader found after .blank ∧ after.bytes = rest ∧
      after.failure = s.failure := by
  have hreadable : ∀ l ∈ lines, ¬ l.IsBlank ∧ l.IsReadable := fun l hl =>
    ⟨hlines l hl, fun value hgives => absurd hgives (hsilent l hl value)⟩
  obtain ⟨found', after, hread, hrest, hfailure, hfound⟩ :=
    read_headers_behind hreadable found begun hbytes
  rw [Line.of_line_of_is_blank hblank, hfound hsilent] at hread
  exact ⟨after, hread, hrest, hfailure⟩

/-- Reading a block comes to what the block says. -/
theorem read_headers_of_verdict {result : Headers} {left : List Line}
    (hverdict : Verdict blank lines result left) (hlines : ∀ l ∈ lines, ¬ l.IsBlank)
    (hblank : blank.IsBlank) (hbytes : s.bytes = (lines ++ [blank]).flatMap Line.bytes ++ rest) :
    ∃ after, readHeaders none false s = (result, after) ∧
      after.bytes = left.flatMap Line.bytes ++ rest ∧ after.failure = s.failure := by
  cases hverdict with
  | missing hsilent =>
      have hblock : s.bytes = lines.flatMap Line.bytes ++ (blank.bytes ++ rest) := by
        simpa using hbytes
      exact read_headers_of_silent hlines hsilent hblank none false hblock
  | @length early late l n hearly hl hlate =>
      have hblock : s.bytes = early.flatMap Line.bytes ++
          (l.bytes ++ (late.flatMap Line.bytes ++ (blank.bytes ++ rest))) := by
        simpa using hbytes
      rw [List.forall_mem_append, List.forall_mem_cons] at hlines
      obtain ⟨found, behind, hread, hbehind, hbehindFailure, -⟩ := read_headers_behind
        (fun e he => ⟨hlines.1 e he, hearly e he⟩) none false hblock
      obtain ⟨after, hrest, hafter, hafterFailure⟩ :=
        read_headers_of_silent hlines.2.2 hlate hblank (some n) true hbehind
      rw [Line.of_line_of_says hl] at hread
      exact ⟨after, hread.trans hrest, hafter, hafterFailure.trans hbehindFailure⟩
  | @unreadable early late l value hearly hl hvalue =>
      have hblock : s.bytes = early.flatMap Line.bytes ++
          (l.bytes ++ ((late ++ [blank]).flatMap Line.bytes ++ rest)) := by
        simpa using hbytes
      rw [List.forall_mem_append] at hlines
      obtain ⟨found, after, hread, hafter, hfailure, -⟩ := read_headers_behind
        (fun e he => ⟨hlines.1 e he, hearly e he⟩) none false hblock
      rw [Line.of_line_of_unreadable hl hvalue] at hread
      exact ⟨after, hread, hafter, hfailure⟩

/-- Whatever the lines of a block are, the block comes to something, and reading it comes to just
that: the last of the lengths if all of them can be read, with nothing but the block taken off, or
an error, and then the lines behind the first one that cannot be read are left. -/
theorem read_headers_of_block (hlines : ∀ l ∈ lines, ¬ l.IsBlank) (hblank : blank.IsBlank)
    (hbytes : s.bytes = (lines ++ [blank]).flatMap Line.bytes ++ rest) :
    (∃ result left, Verdict blank lines result left) ∧
      ∀ result left, Verdict blank lines result left →
        ∃ after, readHeaders none false s = (result, after) ∧
          after.bytes = left.flatMap Line.bytes ++ rest ∧ after.failure = s.failure :=
  ⟨exists_verdict blank lines, fun _ _ hverdict =>
    read_headers_of_verdict hverdict hlines hblank hbytes⟩

/-- Lines that look like lengths, of which two are: one in other letters, with a sign and a zero in
front, and one without a carriage return. -/
def oddLines : List Line :=
  [⟨"Content-Length : 9".toList, true, by decide⟩,
    ⟨" CONTENT-length:+07\t".toList, true, by decide⟩,
    ⟨"Type: Content-Length: ü".toList, false, by decide⟩,
    ⟨"content-Length: 2".toList, false, by decide⟩,
    ⟨"Content-Length".toList, true, by decide⟩]

/-- A blank line that is not empty. -/
def spaceLine : Line :=
  ⟨[' '], true, by decide⟩

/-- The last of the lengths counts, and just the block is taken off. -/
theorem read_headers_of_odd_lines :
    ∃ after, readHeaders none false
        (.ofPieces [oddLines.flatMap Line.bytes, spaceLine.bytes ++ [0x33]] none)
      = (.length 2, after) ∧ after.bytes = [0x33] := by
  have hlines : ∀ l ∈ oddLines, ¬ l.IsBlank := by decide +kernel
  have hblank : spaceLine.IsBlank := by decide +kernel
  have hbytes : (Stream.ofPieces
      [oddLines.flatMap Line.bytes, spaceLine.bytes ++ [0x33]] none).bytes
        = (oddLines ++ [spaceLine]).flatMap Line.bytes ++ [0x33] := by
    simp [Stream.bytes, Stream.ofPieces]
  have hearly : ∀ e ∈ oddLines.take 3, e.IsReadable := by decide +kernel
  have hverdict : Verdict spaceLine oddLines (.length 2) [] :=
    .length hearly (by decide +kernel) (by decide +kernel)
  obtain ⟨after, hread, hrest, -⟩ :=
    (read_headers_of_block hlines hblank hbytes).2 _ _ hverdict
  exact ⟨after, hread, hrest⟩

end LintWatch.Frame
