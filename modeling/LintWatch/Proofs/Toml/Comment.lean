import LintWatch.Proofs.Toml.Layout

/-!
# The comments of a text

A comment runs from its hash sign to the end of its line, and hash signs in quoted texts start none:
`commentsIn`. Comments stand in gaps, so the comments of a text are those of its gaps, in which
neither names nor the characters between them have a part: `commentsIn_of_gap?`,
`commentsIn_of_parts?`.
-/

namespace LintWatch.Toml

/-- Whether a character ends a line, or stands in front of the one that does. -/
def endsLine (c : Char) : Bool :=
  c = '\n' || c = '\r'

/-- What follows a quoted text is shorter than the text. -/
theorem length_quoted_lt {cs rest : List Char} {text : String}
    (h : Quoted.read? cs = some (text, rest)) : rest.length < cs.length := by
  obtain ⟨front, rfl, hfront⟩ := Quoted.local_read? cs text rest h
  cases front with
  | nil =>
      have hnil := hfront [] fun d hd => nomatch hd
      cases hnil
  | cons c front =>
      simp only [List.length_append, List.length_cons]
      omega

/-- The comments in a text, in order, each from its hash sign to the end of its line. -/
def commentsIn : List Char → List (List Char)
  | [] => []
  | c :: cs =>
    if c = '#' then
      have := (List.dropWhile_suffix (!endsLine ·) (l := cs)).length_le
      ('#' :: cs.takeWhile (!endsLine ·)) :: commentsIn (cs.dropWhile (!endsLine ·))
    else
      match h : Quoted.read? (c :: cs) with
      | some (_, rest) =>
        have : rest.length ≤ cs.length := Nat.le_of_lt_succ (length_quoted_lt h)
        commentsIn rest
      | none => commentsIn cs
termination_by cs => cs.length

/-- The comments behind a key, which stand behind its last part. -/
def Key.comments (k : List KeyPart) : List (List Char) :=
  match k.getLast? with
  | some p => commentsIn p.tail
  | none => []

mutual

/-- The comments in a value. -/
def Value.comments : Value → List (List Char)
  | .scalar _ _ => []
  | .array items _ gap => itemComments items ++ commentsIn gap
  | .table entries _ gap => entryComments entries ++ commentsIn gap

/-- The comments in the elements of an array and around them. -/
def itemComments : List (List Char × Value × List Char) → List (List Char)
  | [] => []
  | (before, v, after) :: rest =>
    commentsIn before ++ v.comments ++ commentsIn after ++ itemComments rest

/-- The comments in entries and around them. -/
def entryComments : List (List Char × List KeyPart × List Char × Value × List Char) →
    List (List Char)
  | [] => []
  | (lead, key, before, v, after) :: rest =>
    commentsIn lead ++ Key.comments key ++ commentsIn before ++ v.comments ++ commentsIn after
      ++ entryComments rest

end

/-- The comments behind the equals sign of an entry. -/
def Entry.valueComments (e : Entry) : List (List Char) :=
  commentsIn e.2.2.1 ++ e.2.2.2.1.comments ++ commentsIn e.2.2.2.2

/-- The comments of an entry: in front of its key, behind the key and behind the equals sign. -/
def Entry.comments (e : Entry) : List (List Char) :=
  commentsIn e.1 ++ Key.comments e.2.1 ++ e.valueComments

/-- The comments of a section: in front of its head, on the line of the head, and those of its
entries. -/
def Section.comments (s : Section) : List (List Char) :=
  commentsIn s.header.lead ++ commentsIn s.header.tail ++ s.entries.flatMap Entry.comments

/-- The comments of a document. -/
def Document.comments (d : Document) : List (List Char) :=
  d.root.flatMap Entry.comments ++ d.sections.flatMap Section.comments ++ commentsIn d.trailing

/-- Entries in braces have the comments of each of them. -/
theorem entryComments_eq (entries : List Entry) :
    entryComments entries = entries.flatMap Entry.comments := by
  induction entries with
  | nil => rfl
  | cons e entries ih =>
      obtain ⟨lead, key, before, v, after⟩ := e
      rw [entryComments, ih, List.flatMap_cons, Entry.comments, Entry.valueComments]
      simp only [List.append_assoc]

variable {c : Char} {cs rest g g' front : List Char} {key : List KeyPart}

/-! ## Pieces of a text -/

/-- A character that starts neither a comment nor a quoted text. -/
def IsPlain (c : Char) : Prop :=
  c ≠ '#' ∧ c ≠ '"' ∧ c ≠ '\''

instance (c : Char) : Decidable (IsPlain c) :=
  inferInstanceAs (Decidable (c ≠ '#' ∧ c ≠ '"' ∧ c ≠ '\''))

/-- What starts with a plain character starts with no quote. -/
theorem IsPlain.noQuote (h : IsPlain c) (cs : List Char) : Quoted.NoQuote (c :: cs) := by
  intro d hd
  obtain rfl := Option.some.inj hd
  exact h.2

/-- A quoted text does not start with a plain character. -/
theorem read?_of_plain (h : IsPlain c) (cs : List Char) : Quoted.read? (c :: cs) = none := by
  obtain ⟨-, hdouble, hsingle⟩ := h
  unfold Quoted.read?
  split
  next heq => exact absurd (List.cons.inj heq).1 hdouble
  next heq => exact absurd (List.cons.inj heq).1 hdouble
  next heq => exact absurd (List.cons.inj heq).1 hsingle
  next heq => exact absurd (List.cons.inj heq).1 hsingle
  next => rfl

/-- Where a line ends, or the text. -/
def AtLineEnd (rest : List Char) : Prop :=
  ∀ c, rest.head? = some c → endsLine c = true

/-- The text ends where nothing stands. -/
theorem atLineEnd_nil : AtLineEnd [] := by
  intro c hc
  cases hc

/-- A line ends in front of its end. -/
theorem atLineEnd_cons (hc : endsLine c = true) (rest : List Char) : AtLineEnd (c :: rest) := by
  intro d hd
  obtain rfl := Option.some.inj hd
  exact hc

/-- Nothing has no comments. -/
@[simp]
theorem commentsIn_nil : commentsIn [] = [] := by
  rw [commentsIn]

/-- A plain character adds no comment. -/
theorem commentsIn_cons (h : IsPlain c) (cs : List Char) :
    commentsIn (c :: cs) = commentsIn cs := by
  rw [commentsIn, if_neg h.1]
  split
  next hread =>
    rw [read?_of_plain h] at hread
    cases hread
  next => rfl

/-- Plain characters add no comment. -/
theorem commentsIn_append_of_plain (h : ∀ c ∈ front, IsPlain c) (rest : List Char) :
    commentsIn (front ++ rest) = commentsIn rest := by
  induction front with
  | nil => rfl
  | cons c front ih =>
      obtain ⟨hc, hfront⟩ := List.forall_mem_cons.1 h
      rw [List.cons_append, commentsIn_cons hc, ih hfront]

/-- A quoted text adds no comment. -/
theorem commentsIn_of_quoted {text : String} (h : Quoted.read? cs = some (text, rest)) :
    commentsIn cs = commentsIn rest := by
  cases cs with
  | nil => cases h
  | cons c cs =>
      have hc : c ≠ '#' := by
        rintro rfl
        cases h
      rw [commentsIn, if_neg hc]
      split
      next hread =>
        rw [h] at hread
        cases hread
        rfl
      next hread =>
        rw [h] at hread
        cases hread

/-- A comment is all that stands between its hash sign and the end of its line. -/
theorem commentsIn_hash {text : List Char} (htext : ∀ c ∈ text, endsLine c = false)
    (hrest : AtLineEnd rest) :
    commentsIn ('#' :: (text ++ rest)) = ('#' :: text) :: commentsIn rest := by
  have hall : ∀ c ∈ text, (!endsLine c) = true := by
    intro c hc
    rw [htext c hc]
    rfl
  have hstop : rest.takeWhile (!endsLine ·) = [] ∧ rest.dropWhile (!endsLine ·) = rest := by
    cases rest with
    | nil => exact ⟨rfl, rfl⟩
    | cons c rest =>
        rw [List.takeWhile_cons, List.dropWhile_cons, hrest c rfl]
        exact ⟨rfl, rfl⟩
  rw [commentsIn, if_pos rfl, List.takeWhile_append_of_pos hall, List.dropWhile_append_of_pos hall,
    hstop.1, hstop.2, List.append_nil]

/-- A comment without the end of its line. -/
theorem commentsIn_hash_alone {text : List Char} (htext : ∀ c ∈ text, endsLine c = false) :
    commentsIn ('#' :: text) = ['#' :: text] := by
  have halone := commentsIn_hash htext atLineEnd_nil
  rwa [List.append_nil, commentsIn_nil] at halone

/-- The characters of a comment end no line. -/
theorem IsComment.endsLine {text : List Char} (h : IsComment text) :
    ∀ c ∈ text, endsLine c = false := by
  intro c hc
  obtain ⟨hline, hreturn⟩ := ne_line_end (h c hc)
  simp [Toml.endsLine, hline, hreturn]

/-- The characters of gaps outside of comments are plain. -/
theorem plain_of_blank (h : c = ' ' ∨ c = '\t' ∨ c = '\n' ∨ c = '\r') : IsPlain c := by
  rcases h with rfl | rfl | rfl | rfl <;> decide

/-- Blanks hold no comment. -/
theorem IsBlanks.plain (h : IsBlanks g) : ∀ c ∈ g, IsPlain c := by
  intro c hc
  exact plain_of_blank ((h c hc).imp_right Or.inl)

/-- Blanks hold no comment. -/
theorem IsBlanks.commentsIn_eq (h : IsBlanks g) : commentsIn g = [] := by
  rw [← List.append_nil g, commentsIn_append_of_plain h.plain, commentsIn_nil]

/-- The comments of a gap are those of the text in which it stands. -/
theorem IsGap.commentsIn_append (h : IsGap g) (rest : List Char) :
    commentsIn (g ++ rest) = commentsIn g ++ commentsIn rest := by
  induction h with
  | nil => rw [commentsIn_nil]; rfl
  | blank hc _ ih =>
      have hplain := plain_of_blank (hc.imp_right (·.imp_right Or.inl))
      rw [List.cons_append, commentsIn_cons hplain, commentsIn_cons hplain, ih]
  | @comment text g htext _ ih =>
      have hend : ∀ more, commentsIn ('#' :: (text ++ '\n' :: more))
          = ('#' :: text) :: commentsIn more := by
        intro more
        rw [commentsIn_hash htext.endsLine (atLineEnd_cons rfl more),
          commentsIn_cons (plain_of_blank (Or.inr (Or.inr (Or.inl rfl))))]
      simp only [List.append_assoc, List.cons_append, hend, ih]

/-- The comment at the end of a line is one of the text in which the line stands. -/
theorem IsTail.commentsIn_append {t : List Char} (h : IsTail t) (hrest : AtLineEnd rest) :
    commentsIn (t ++ rest) = commentsIn t ++ commentsIn rest := by
  obtain ⟨blanks, tail, rfl, hblanks, rfl | ⟨text, rfl, htext⟩⟩ := h
  · rw [List.append_nil, commentsIn_append_of_plain hblanks.plain, hblanks.commentsIn_eq]
    rfl
  · rw [List.append_assoc, commentsIn_append_of_plain hblanks.plain,
      commentsIn_append_of_plain hblanks.plain, List.cons_append,
      commentsIn_hash htext.endsLine hrest, commentsIn_hash_alone htext.endsLine]
    rfl

/-! ## Reading gaps -/

/-- What has been read of a comment that has not come to its end; outside of comments nothing. -/
def IsOpen (inComment : Bool) (start : List Char) : Prop :=
  if inComment then ∃ text, start = '#' :: text ∧ ∀ c ∈ text, endsLine c = false else start = []

/-- A comment ends with its line. -/
theorem IsOpen.commentsIn_append {inComment : Bool} {start : List Char} (h : IsOpen inComment start)
    (hrest : inComment = true → AtLineEnd rest) :
    commentsIn (start ++ rest) = commentsIn start ++ commentsIn rest := by
  cases inComment with
  | false =>
      obtain rfl : start = [] := h
      rw [commentsIn_nil]
      rfl
  | true =>
      obtain ⟨text, rfl, htext⟩ := h
      rw [List.cons_append, commentsIn_hash htext (hrest rfl), commentsIn_hash_alone htext]
      rfl

/-- A line end is no part of a comment in front of it. -/
theorem IsOpen.commentsIn_line {inComment : Bool} {start : List Char} (h : IsOpen inComment start)
    (hc : endsLine c = true) (rest : List Char) :
    commentsIn (start ++ c :: rest) = commentsIn start ++ commentsIn rest := by
  have hplain : IsPlain c := by
    simp only [endsLine, Bool.or_eq_true, decide_eq_true_eq] at hc
    exact plain_of_blank (Or.inr (Or.inr hc))
  rw [h.commentsIn_append fun _ => atLineEnd_cons hc rest, commentsIn_cons hplain]

/-- The comments that a reader of gaps takes off are those of the text, with the comment included
that it has begun to read. -/
theorem IsOpen.commentsIn_of_gap? {lines inComment : Bool} {start found : List Char}
    (hopen : IsOpen inComment start) (h : gap? lines inComment found cs = some (g, rest)) :
    ∃ piece, g = found.reverse ++ piece ∧
      commentsIn (start ++ cs) = commentsIn (start ++ piece) ++ commentsIn rest := by
  have hnone : IsOpen false [] := rfl
  induction cs generalizing inComment start found with
  | nil =>
      rw [gap?] at h
      obtain ⟨rfl, rfl⟩ := Prod.mk.inj (Option.some.inj h)
      exact ⟨[], (List.append_nil _).symm, by simp⟩
  | cons c cs ih =>
      cases gapStep_of_gap? h with
      | stop hg hrest hline =>
          subst hg hrest
          have hend : inComment = true → AtLineEnd (c :: cs) := by
            intro hin
            obtain ⟨-, rfl | rfl⟩ := hline hin <;> exact atLineEnd_cons rfl cs
          refine ⟨[], (List.append_nil _).symm, ?_⟩
          rw [hopen.commentsIn_append hend, List.append_nil]
      | line _ hmore =>
          obtain ⟨piece, rfl, hpiece⟩ := ih hnone hmore
          refine ⟨'\n' :: piece, by simp, ?_⟩
          rw [hopen.commentsIn_line rfl, hopen.commentsIn_line rfl, List.append_assoc]
          exact congrArg _ hpiece
      | skip _ hnext hmore =>
          -- The carriage return goes, and the comment ends at the line end behind it.
          obtain ⟨more, rfl⟩ := List.head?_eq_some_iff.1 hnext
          obtain ⟨piece, rfl, hpiece⟩ := ih hopen hmore
          refine ⟨piece, rfl, ?_⟩
          rw [← hpiece, hopen.commentsIn_line rfl, hopen.commentsIn_line rfl,
            commentsIn_cons (plain_of_blank (Or.inr (Or.inr (Or.inl rfl))))]
      | comment hcontrol hmore =>
          obtain ⟨text, rfl, htext⟩ := hopen
          have hlonger : IsOpen true ('#' :: (text ++ [c])) := by
            refine ⟨text ++ [c], rfl, List.forall_mem_append.2 ⟨htext, ?_⟩⟩
            intro d hd
            obtain rfl := List.mem_singleton.1 hd
            obtain ⟨hline, hreturn⟩ := ne_line_end hcontrol
            simp [endsLine, hline, hreturn]
          obtain ⟨piece, rfl, hpiece⟩ := ih hlonger hmore
          refine ⟨c :: piece, by simp, ?_⟩
          simpa using hpiece
      | blank hblank hmore =>
          obtain rfl : start = [] := hopen
          obtain ⟨piece, rfl, hpiece⟩ := ih hnone hmore
          have hplain := plain_of_blank (hblank.imp_right Or.inl)
          refine ⟨c :: piece, by simp, ?_⟩
          rw [List.nil_append, List.nil_append, commentsIn_cons hplain, commentsIn_cons hplain]
          exact hpiece
      | hash hmore =>
          obtain rfl : start = [] := hopen
          have hbegun : IsOpen true ['#'] := ⟨[], rfl, List.forall_mem_nil _⟩
          obtain ⟨piece, rfl, hpiece⟩ := ih hbegun hmore
          exact ⟨'#' :: piece, by simp, hpiece⟩

/-- The comments that a reader of gaps takes off are those of the text. -/
theorem commentsIn_of_gap? {lines : Bool} (h : gap? lines false [] cs = some (g, rest)) :
    commentsIn cs = commentsIn g ++ commentsIn rest := by
  obtain ⟨piece, rfl, hpiece⟩ := IsOpen.commentsIn_of_gap? (show IsOpen false [] from rfl) h
  exact hpiece

/-- A quote ends the gap in front of it. -/
theorem noQuote_of_gap? {lines : Bool} (h : gap? lines false [] cs = some (g, rest))
    (hrest : Quoted.NoQuote rest) : Quoted.NoQuote cs := by
  intro c hc
  obtain ⟨more, rfl⟩ := List.head?_eq_some_iff.1 hc
  constructor
  · rintro rfl
    have hgap : gap? lines false [] ('"' :: more) = some ([], '"' :: more) :=
      gap?_of_stops lines (stops_cons rfl more) []
    rw [hgap] at h
    cases h
    exact (hrest '"' rfl).1 rfl
  · rintro rfl
    have hgap : gap? lines false [] ('\'' :: more) = some ([], '\'' :: more) :=
      gap?_of_stops lines (stops_cons rfl more) []
    rw [hgap] at h
    cases h
    exact (hrest '\'' rfl).2 rfl

/-- Blanks are split off the front. -/
theorem append_splitBlanks (cs : List Char) : (splitBlanks cs).1 ++ (splitBlanks cs).2 = cs :=
  List.takeWhile_append_dropWhile

/-- Blanks that are split off hold no comment. -/
theorem commentsIn_splitBlanks (cs : List Char) :
    commentsIn (splitBlanks cs).2 = commentsIn cs := by
  conv_rhs => rw [← append_splitBlanks cs]
  rw [commentsIn_append_of_plain (is_blanks_split cs).plain]

/-! ## Reading keys -/

/-- A character of a bare name is plain. -/
theorem plain_of_keyChar (h : isKeyChar c = true) : IsPlain c := by
  refine ⟨?_, ?_, ?_⟩ <;> (rintro rfl; exact absurd h (by decide))

/-- Behind a quote that ends an empty name stands what follows the name. -/
theorem rest_of_basic {name : String} (h : Quoted.basic [] ('"' :: cs) = some (name, rest)) :
    rest = cs := by
  simp only [Quoted.basic, if_true, Option.some.injEq, Prod.mk.injEq] at h
  exact h.2.symm

/-- A name adds no comment. Behind an empty name in quotes there must be no third quote, which
would be the start of a text of several lines. -/
theorem commentsIn_of_keyName? {name : String} (h : keyName? cs = some (name, rest))
    (hrest : Quoted.NoQuote rest) : commentsIn cs = commentsIn rest := by
  unfold keyName? at h
  split at h
  next more =>
    have hread : Quoted.read? ('"' :: more) = some (name, rest) := by
      unfold Quoted.read?
      split
      next heq =>
        obtain rfl := (List.cons.inj heq).2
        obtain rfl := rest_of_basic h
        exact absurd rfl (hrest '"' rfl).1
      next heq =>
        obtain rfl := (List.cons.inj heq).2
        exact h
      next heq => cases heq
      next heq => cases heq
      next hone _ _ => exact absurd rfl (hone _)
    exact commentsIn_of_quoted hread
  next more =>
    have hread : Quoted.read? ('\'' :: more) = some (name, rest) := by
      unfold Quoted.read?
      split
      next heq => cases heq
      next heq => cases heq
      next heq =>
        obtain rfl := (List.cons.inj heq).2
        simp only [Quoted.literal, if_true, Option.some.injEq, Prod.mk.injEq] at h
        obtain ⟨-, rfl⟩ := h
        exact absurd rfl (hrest '\'' rfl).2
      next heq =>
        obtain rfl := (List.cons.inj heq).2
        exact h
      next hone => exact absurd rfl (hone _)
    exact commentsIn_of_quoted hread
  next =>
    dsimp only at h
    split at h
    next => cases h
    next =>
      obtain ⟨-, rfl⟩ := Prod.mk.inj (Option.some.inj h)
      conv_lhs => rw [← List.takeWhile_append_dropWhile (p := isKeyChar) (l := cs)]
      refine commentsIn_append_of_plain ?_ _
      intro c hc
      exact plain_of_keyChar (List.all_eq_true.1 List.all_takeWhile c hc)

/-- Blanks are not quotes. -/
theorem noQuote_of_splitBlanks (h : Quoted.NoQuote (splitBlanks cs).2) : Quoted.NoQuote cs := by
  have hblanks := is_blanks_split cs
  rw [← append_splitBlanks cs]
  cases hfirst : (splitBlanks cs).1 with
  | nil => exact h
  | cons b blanks =>
      have hb : b ∈ (splitBlanks cs).1 := by
        rw [hfirst]
        exact List.mem_cons_self
      exact (hblanks.plain b hb).noQuote _

/-- A key adds no comment. -/
theorem commentsIn_of_parts? {limit : Nat} (h : parts? limit cs = some (key, rest))
    (hrest : Quoted.NoQuote rest) : commentsIn cs = commentsIn rest := by
  induction limit generalizing cs key rest with
  | zero => cases h
  | succ limit ih =>
      simp only [parts?, keyPart?, Option.bind_eq_bind, Option.bind_eq_some_iff, Option.pure_def,
        Option.some.injEq] at h
      obtain ⟨⟨p, after⟩, ⟨⟨name, behind⟩, hname, hp⟩, h⟩ := h
      obtain ⟨-, hafter⟩ := Prod.mk.inj hp
      have hpart : Quoted.NoQuote after → commentsIn cs = commentsIn after := by
        intro hnoQuote
        subst hafter
        rw [← commentsIn_splitBlanks cs,
          commentsIn_of_keyName? hname (noQuote_of_splitBlanks hnoQuote), commentsIn_splitBlanks]
      split at h
      next more heq =>
        obtain rfl : after = '.' :: more := heq
        simp only [Option.bind_eq_some_iff, Option.some.injEq, Prod.mk.injEq] at h
        obtain ⟨⟨parts, end_⟩, hparts, -, rfl⟩ := h
        have hdot : IsPlain '.' := by decide
        rw [hpart (hdot.noQuote more), commentsIn_cons hdot, ih hparts hrest]
      next =>
        obtain ⟨-, rfl⟩ := Prod.mk.inj (Option.some.inj h)
        exact hpart hrest

/-- A key without comments behind it has none. -/
theorem LaidKey.comments_eq (h : LaidKey IsBlanks key) : Key.comments key = [] := by
  unfold Key.comments
  split
  next p hp => exact (h.last p hp).commentsIn_eq
  next => rfl

/-- The gap behind a key has the comments of the key. -/
theorem LaidKey.comments_endWith (h : LaidKey IsBlanks key) (gap : List Char) :
    Key.comments (endWith gap key) = commentsIn gap := by
  induction key with
  | nil => exact absurd rfl h.ne_nil
  | cons p key ih =>
      cases key with
      | nil =>
          show commentsIn (p.tail ++ gap) = commentsIn gap
          exact commentsIn_append_of_plain (IsBlanks.plain (h.last p rfl)) gap
      | cons q key =>
          have hmore := ih h.cons.2.2
          show Key.comments (p :: endWith gap (q :: key)) = commentsIn gap
          cases hend : endWith gap (q :: key) with
          | nil =>
              cases key <;> cases hend
          | cons r more =>
              rw [hend] at hmore
              rw [← hmore, Key.comments, Key.comments, List.getLast?_cons_cons]

end LintWatch.Toml
