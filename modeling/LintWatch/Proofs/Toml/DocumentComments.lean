import LintWatch.Proofs.Toml.Comment

/-!
# The comments of a document

What has been read has the comments of its text, each in one of the gaps of the document
(`commentsIn_of_read?`), and a document that is laid out is written with all of them
(`commentsIn_render`).
-/

namespace LintWatch.Toml

variable {c : Char} {cs rest : List Char} {key : List KeyPart}

/-! ## Reading values -/

/-- A character that ends no word is plain. -/
theorem plain_of_wordChar (h : (!endsWord c) = true) : IsPlain c := by
  refine ⟨?_, ?_, ?_⟩ <;> (rintro rfl; exact absurd h (by decide))

/-- A word is plain and stands in front. -/
theorem exists_after_word (cs : List Char) :
    ∃ rest, cs = word cs ++ rest ∧ ∀ c ∈ word cs, IsPlain c := by
  have hplain : ∀ (cs : List Char), ∀ c ∈ cs.takeWhile (!endsWord ·), IsPlain c := by
    intro cs c hc
    exact plain_of_wordChar (List.all_eq_true.1 List.all_takeWhile c hc)
  have hsplit : ∀ cs : List Char,
      cs.takeWhile (!endsWord ·) ++ cs.dropWhile (!endsWord ·) = cs := fun _ =>
    List.takeWhile_append_dropWhile
  unfold word
  dsimp only
  split
  next d time heq =>
    split
    next =>
      refine ⟨(d :: time).dropWhile (!endsWord ·), ?_, ?_⟩
      · conv_lhs => rw [← hsplit cs, heq, ← hsplit (d :: time)]
        simp
      · refine List.forall_mem_append.2 ⟨hplain cs, List.forall_mem_cons.2 ⟨by decide, ?_⟩⟩
        exact hplain (d :: time)
    next => exact ⟨_, (hsplit cs).symm, hplain cs⟩
  next => exact ⟨_, (hsplit cs).symm, hplain cs⟩

/-- A scalar adds no comment. -/
theorem commentsIn_of_scalar? {v : Value} (h : scalar? cs = some (v, rest)) :
    commentsIn cs = commentsIn rest := by
  unfold scalar? at h
  split at h
  next =>
    simp only [Option.bind_eq_bind, Option.bind_eq_some_iff, Option.pure_def, Option.some.injEq,
      Prod.mk.injEq] at h
    obtain ⟨⟨text, after⟩, hread, -, rfl⟩ := h
    exact commentsIn_of_quoted hread
  next =>
    simp only [Option.bind_eq_bind, Option.bind_eq_some_iff, Option.pure_def, Option.some.injEq,
      Prod.mk.injEq] at h
    obtain ⟨s, -, -, rfl⟩ := h
    obtain ⟨rest, hcs, hplain⟩ := exists_after_word cs
    have hdrop : cs.drop (word cs).length = rest := by
      have hboth := congrArg (List.drop (word cs).length) hcs
      rwa [List.drop_left] at hboth
    rw [hdrop]
    conv_lhs => rw [hcs]
    exact commentsIn_append_of_plain hplain rest

/-- Elements in front of others have their comments in front. -/
theorem itemComments_append (items more : List (List Char × Value × List Char)) :
    itemComments (items ++ more) = itemComments items ++ itemComments more := by
  induction items with
  | nil => rfl
  | cons i items ih =>
      obtain ⟨before, v, after⟩ := i
      simp only [List.cons_append, itemComments, ih, List.append_assoc]

/-- What has been read as a value, as an array or as a table in braces has the comments of the text
that has been read. -/
theorem commentsIn_of_read (fuel : Nat) :
    (∀ {depth cs v rest}, value? fuel depth cs = some (v, rest) →
      commentsIn cs = v.comments ++ commentsIn rest) ∧
    (∀ {depth found cs v rest}, items? fuel depth found cs = some (v, rest) →
      itemComments found.reverse ++ commentsIn cs = v.comments ++ commentsIn rest) ∧
    (∀ {depth found cs v rest}, entries? fuel depth found cs = some (v, rest) →
      entryComments found.reverse ++ commentsIn cs = v.comments ++ commentsIn rest) := by
  have hcons : ∀ {c : Char} {cs more : List Char}, IsPlain c → cs = c :: more →
      commentsIn cs = commentsIn more := by
    rintro c _ more hc rfl
    exact commentsIn_cons hc more
  induction fuel with
  | zero => refine ⟨?_, ?_, ?_⟩ <;> (intros; contradiction)
  | succ fuel ih =>
      obtain ⟨ihvalue, ihitems, ihentries⟩ := ih
      refine ⟨?_, ?_, ?_⟩
      · intro depth cs v rest h
        unfold value? at h
        split at h
        next =>
          split at h
          next => cases h
          next => exact (hcons (by decide) rfl).trans (ihitems h)
        next =>
          split at h
          next => cases h
          next =>
            have hread := ihentries h
            rw [List.reverse_nil, entryComments, List.nil_append] at hread
            exact (hcons (by decide) rfl).trans hread
        next =>
          obtain ⟨spelling, s, rfl, -⟩ := spells_of_scalar? h
          rw [Value.comments, List.nil_append]
          exact commentsIn_of_scalar? h
      · intro depth found cs v rest h
        simp only [items?, Option.bind_eq_bind, Option.bind_eq_some_iff] at h
        obtain ⟨⟨before, cs⟩, hbefore, h⟩ := h
        rw [commentsIn_of_gap? hbefore]
        split at h
        next heq =>
          simp only [Option.pure_def, Option.some.injEq, Prod.mk.injEq] at h
          obtain ⟨rfl, rfl⟩ := h
          rw [hcons (by decide) heq, Value.comments, List.append_assoc]
        next =>
          simp only [Option.bind_eq_some_iff] at h
          obtain ⟨⟨w, after⟩, hw, ⟨behind, cs'⟩, hbehind, h⟩ := h
          rw [ihvalue hw, commentsIn_of_gap? hbehind]
          split at h
          next heq =>
            have hread := ihitems h
            rw [List.reverse_cons, itemComments_append] at hread
            rw [hcons (by decide) heq, ← hread]
            simp [itemComments]
          next heq =>
            simp only [Option.pure_def, Option.some.injEq, Prod.mk.injEq] at h
            obtain ⟨rfl, rfl⟩ := h
            rw [hcons (by decide) heq, Value.comments, List.reverse_cons, itemComments_append]
            simp [itemComments]
          next => cases h
      · intro depth found cs v rest h
        simp only [entries?, Option.bind_eq_bind, Option.bind_eq_some_iff] at h
        obtain ⟨⟨lead, cs⟩, hlead, h⟩ := h
        rw [commentsIn_of_gap? hlead]
        split at h
        next heq =>
          simp only [Option.pure_def, Option.some.injEq, Prod.mk.injEq] at h
          obtain ⟨rfl, rfl⟩ := h
          rw [hcons (by decide) heq, Value.comments, List.append_assoc]
        next =>
          simp only [Option.bind_eq_some_iff] at h
          obtain ⟨⟨key, afterKey⟩, hkey, ⟨behind, cs'⟩, hbehind, h⟩ := h
          split at h
          next more hequals =>
            simp only [Option.bind_eq_some_iff] at h
            obtain ⟨⟨before, cs₁⟩, hbefore, ⟨w, cs₂⟩, hw, ⟨after, cs₃⟩, hafter, h⟩ := h
            obtain rfl : cs' = '=' :: more := hequals
            have hequals : IsPlain '=' := by decide
            have hnoQuote := noQuote_of_gap? hbehind (hequals.noQuote more)
            have hcomments := (laid_of_key? hkey).comments_endWith behind
            rw [commentsIn_of_parts? hkey hnoQuote, commentsIn_of_gap? hbehind,
              commentsIn_cons hequals, commentsIn_of_gap? hbefore, ihvalue hw,
              commentsIn_of_gap? hafter]
            split at h
            next heq =>
              have hread := ihentries h
              rw [List.reverse_cons, entryComments_eq, List.flatMap_append] at hread
              rw [hcons (by decide) heq, ← hread, entryComments_eq]
              simp [Entry.comments, Entry.valueComments, hcomments]
            next heq =>
              simp only [Option.pure_def, Option.some.injEq, Prod.mk.injEq] at h
              obtain ⟨rfl, rfl⟩ := h
              rw [hcons (by decide) heq, Value.comments, entryComments_eq, List.reverse_cons,
                entryComments_eq]
              simp [Entry.comments, Entry.valueComments, hcomments]
            next => cases h
          next => cases h

/-! ## Reading documents -/

/-- A line end adds no comment. -/
theorem commentsIn_of_afterLineEnd? (h : afterLineEnd? cs = some rest) :
    commentsIn cs = commentsIn rest := by
  unfold afterLineEnd? at h
  split at h
  next =>
    obtain rfl := Option.some.inj h
    rfl
  next =>
    obtain rfl := Option.some.inj h
    exact commentsIn_cons (by decide) _
  next =>
    obtain rfl := Option.some.inj h
    rw [commentsIn_cons (by decide), commentsIn_cons (by decide)]
  next => cases h

variable {lead : List Char} {e : Entry} {header : Header}

/-- What has been read as a line has the comments of its text. -/
theorem commentsIn_of_line? (h : line? lead cs = some (e, rest)) :
    commentsIn lead ++ commentsIn cs = e.comments ++ commentsIn rest := by
  simp only [line?, Option.bind_eq_bind, Option.bind_eq_some_iff] at h
  obtain ⟨⟨key, afterKey⟩, hkey, h⟩ := h
  split at h
  next start heq =>
    obtain rfl : afterKey = '=' :: start := heq
    have hequals : IsPlain '=' := by decide
    simp only [Option.bind_eq_some_iff, Option.pure_def, Option.some.injEq, Prod.mk.injEq] at h
    obtain ⟨⟨v, behind⟩, hv, ⟨after, end_⟩, hafter, more, hmore, rfl, rfl⟩ := h
    rw [commentsIn_of_parts? hkey (hequals.noQuote _), commentsIn_cons hequals,
      ← commentsIn_splitBlanks start, (commentsIn_of_read _).1 hv, commentsIn_of_gap? hafter,
      commentsIn_of_afterLineEnd? hmore]
    simp only [Entry.comments, Entry.valueComments, (laid_of_key? hkey).comments_eq,
      (is_blanks_split _).commentsIn_eq, List.append_assoc, List.nil_append]
  next => cases h

/-- What has been read as the head of a section has the comments of its text. -/
theorem commentsIn_of_header? (h : header? lead cs = some (header, rest)) :
    commentsIn lead ++ commentsIn cs
      = commentsIn header.lead ++ commentsIn header.tail ++ commentsIn rest := by
  simp only [header?, Option.bind_eq_bind, Option.bind_eq_some_iff] at h
  obtain ⟨⟨key, afterKey⟩, hkey, h⟩ := h
  have hstart : commentsIn (if (cs.head? == some '[') = true then cs.drop 1 else cs)
      = commentsIn cs := by
    split
    next hopen =>
      obtain ⟨more, rfl⟩ := List.head?_eq_some_iff.1 (eq_of_beq hopen)
      exact (commentsIn_cons (by decide) more).symm
    next => rfl
  have hclosing : ∃ count, (if (cs.head? == some '[') = true then [']', ']'] else [']'])
      = List.replicate (count + 1) ']' := by
    split
    next => exact ⟨1, rfl⟩
    next => exact ⟨0, rfl⟩
  obtain ⟨count, hcount⟩ := hclosing
  rw [hcount] at h
  split at h
  next => cases h
  next hbrackets =>
    simp only [Bool.not_eq_true', Bool.not_eq_false, List.isPrefixOf_iff_prefix] at hbrackets
    obtain ⟨more, rfl⟩ := hbrackets
    simp only [Option.bind_eq_some_iff, Option.pure_def, Option.some.injEq, Prod.mk.injEq,
      List.drop_left] at h
    obtain ⟨⟨tail, behind⟩, htail, end_, hend, rfl, rfl⟩ := h
    have hplain : ∀ c ∈ List.replicate (count + 1) ']', IsPlain c := by
      intro c hc
      obtain rfl := List.eq_of_mem_replicate hc
      decide
    have hnoQuote : Quoted.NoQuote (List.replicate (count + 1) ']' ++ more) :=
      IsPlain.noQuote (by decide) _
    rw [← hstart, commentsIn_of_parts? hkey hnoQuote, commentsIn_append_of_plain hplain,
      commentsIn_of_gap? htail, commentsIn_of_afterLineEnd? hend, List.append_assoc]

/-- The comments of what has been read, which is last first. -/
def commentsFound (root : List Entry) (sections : List Section) : List (List Char) :=
  root.reverse.flatMap Entry.comments ++
    (sections.map fun s => { s with entries := s.entries.reverse }).reverse.flatMap Section.comments

/-- One more entry adds its comments. -/
theorem commentsFound_addEntry (e : Entry) (root : List Entry) (sections : List Section) :
    commentsFound (addEntry e root sections).1 (addEntry e root sections).2
      = commentsFound root sections ++ e.comments := by
  cases sections with
  | nil => simp [addEntry, commentsFound]
  | cons s sections => simp [addEntry, commentsFound, Section.comments]

/-- What has been read as statements has the comments of its text. -/
theorem commentsIn_of_statements? {fuel : Nat} {root : List Entry} {sections : List Section}
    {d : Document} (h : statements? fuel root sections cs = some d) :
    commentsFound root sections ++ commentsIn cs = d.comments := by
  induction fuel generalizing root sections cs with
  | zero => cases h
  | succ fuel ih =>
      simp only [statements?, Option.bind_eq_bind, Option.bind_eq_some_iff] at h
      obtain ⟨⟨lead, more⟩, hlead, h⟩ := h
      rw [commentsIn_of_gap? hlead]
      split at h
      next heq =>
        obtain rfl : more = [] := heq
        obtain rfl := Option.some.inj h
        simp [commentsFound, Document.comments]
      next more heq =>
        obtain rfl : _ = '[' :: more := heq
        simp only [Option.bind_eq_some_iff] at h
        obtain ⟨⟨header, rest⟩, hheader, h⟩ := h
        rw [← ih h, commentsIn_cons (by decide), commentsIn_of_header? hheader]
        simp [commentsFound, Section.comments]
      next =>
        simp only [Option.bind_eq_some_iff] at h
        obtain ⟨⟨e, rest⟩, hline, h⟩ := h
        rw [← ih h, commentsFound_addEntry, commentsIn_of_line? hline]
        simp only [List.append_assoc]

/-- The reader of a document loses no comment. -/
theorem commentsIn_of_read? {text : List Char} {d : Document} (h : Document.read? text = some d) :
    commentsIn text = d.comments := by
  have hmark : commentsIn (if text.head? = some byteOrderMark then text.drop 1 else text)
      = commentsIn text := by
    split
    next hhead =>
      obtain ⟨more, rfl⟩ := List.head?_eq_some_iff.1 hhead
      exact (commentsIn_cons (by decide) more).symm
    next => rfl
  rw [← hmark]
  exact commentsIn_of_statements? h

/-! ## Writing -/

/-- A gap starts with neither a quote nor a character of a name. -/
theorem of_isGapChar (h : isGapChar c = true) :
    (c ≠ '"' ∧ c ≠ '\'') ∧ isKeyChar c = false := by
  simp only [isGapChar, Bool.or_eq_true, decide_eq_true_eq] at h
  rcases h with (((rfl | rfl) | rfl) | rfl) | rfl <;> decide

/-- A part of a key has the comments behind it. -/
theorem commentsIn_part {p : KeyPart} (hp : p.Laid) (htail : IsGap p.tail) (hc : IsPlain c)
    (hkey : isKeyChar c = false) (rest : List Char) :
    commentsIn (p.render ++ c :: rest) = commentsIn p.tail ++ commentsIn rest := by
  have hhead : ∀ d, (p.tail ++ c :: rest).head? = some d →
      (d ≠ '"' ∧ d ≠ '\'') ∧ isKeyChar d = false := by
    intro d hd
    rcases htail.head_append hd with hgap | hd
    · exact of_isGapChar hgap
    · obtain rfl := Option.some.inj hd
      exact ⟨hc.2, hkey⟩
  have hname := hp.spells.reads (p.tail ++ c :: rest) fun d hd => (hhead d hd).2
  rw [KeyPart.render, List.append_assoc, List.append_assoc,
    commentsIn_append_of_plain hp.lead.plain,
    commentsIn_of_keyName? hname fun d hd => (hhead d hd).1, htail.commentsIn_append,
    commentsIn_cons hc]

/-- A key has the comments behind its last part. -/
theorem commentsIn_key (h : LaidKey IsGap key) (hc : IsPlain c) (hkey : isKeyChar c = false)
    (rest : List Char) :
    commentsIn (renderKey key ++ c :: rest) = Key.comments key ++ commentsIn rest := by
  induction key with
  | nil => exact absurd rfl h.ne_nil
  | cons p key ih =>
      cases key with
      | nil => exact commentsIn_part (h.parts p List.mem_cons_self) (h.last p rfl) hc hkey rest
      | cons q key =>
          obtain ⟨hp, htail, hmore⟩ := h.cons
          simp only [renderKey, List.append_assoc, List.cons_append]
          rw [commentsIn_part hp htail.isGap (by decide) (by decide), htail.commentsIn_eq, ih hmore]
          rw [Key.comments, Key.comments, List.getLast?_cons_cons]
          rfl

/-- A key without comments behind it is one with a gap behind it. -/
theorem LaidKey.isGap (h : LaidKey IsBlanks key) : LaidKey IsGap key :=
  ⟨h.ne_nil, h.parts, h.inner, fun p hp => (h.last p hp).isGap, h.length_le⟩

/-- A separator or bracket behind a value or a gap is plain. -/
theorem plain_of_separator (hc : c ∈ [',', ']', '\x7d']) : IsPlain c := by
  simp only [List.mem_cons, List.not_mem_nil, or_false] at hc
  rcases hc with rfl | rfl | rfl <;> decide

mutual

/-- A value that is laid out has the comments of the text as which it is written. -/
theorem commentsIn_value {v : Value} {depth : Nat} (h : LaidValue depth v) {rest : List Char}
    (hrest : EndsValue rest) :
    commentsIn (v.render ++ rest) = v.comments ++ commentsIn rest := by
  cases h with
  | scalar hspells =>
      rw [Value.comments, List.nil_append]
      exact commentsIn_of_scalar? (hspells.reads rest hrest)
  | @array depth items comma gap hitems _ hgap =>
      rw [Value.comments]
      cases comma with
      | true =>
          have hread := commentsIn_items hitems .nil (c := ',') (by simp) (gap ++ ']' :: rest)
          rw [hgap.commentsIn_append, commentsIn_cons (by decide)] at hread
          simpa [Value.render, commentsIn_cons (show IsPlain '[' by decide)] using hread
      | false =>
          have hread := commentsIn_items hitems hgap (c := ']') (by simp) rest
          simpa [Value.render, commentsIn_cons (show IsPlain '[' by decide)] using hread
  | @table depth entries comma gap hentries _ hgap =>
      rw [Value.comments]
      cases comma with
      | true =>
          have hread := commentsIn_entries hentries .nil (c := ',') (by simp)
            (gap ++ '\x7d' :: rest)
          rw [hgap.commentsIn_append, commentsIn_cons (by decide)] at hread
          simpa [Value.render, commentsIn_cons (show IsPlain '\x7b' by decide)] using hread
      | false =>
          have hread := commentsIn_entries hentries hgap (c := '\x7d') (by simp) rest
          simpa [Value.render, commentsIn_cons (show IsPlain '\x7b' by decide)] using hread

/-- Elements that are laid out have the comments of the text as which they are written. -/
theorem commentsIn_items {items : List (List Char × Value × List Char)} {depth : Nat}
    (h : LaidItems depth items) {gap : List Char} (hgap : IsGap gap) {c : Char}
    (hc : c ∈ [',', ']', '\x7d']) (rest : List Char) :
    commentsIn (renderItems items ++ (gap ++ c :: rest))
      = itemComments items ++ (commentsIn gap ++ commentsIn rest) := by
  have hclose := commentsIn_cons (plain_of_separator hc) rest
  cases h with
  | nil => rw [renderItems, itemComments, List.nil_append, hgap.commentsIn_append, hclose]; rfl
  | @cons _ before after v more hbefore hv hafter hmore =>
      cases more with
      | nil =>
          have hread := commentsIn_value hv (ends_value_gap (hafter.append hgap) hc rest)
          rw [List.append_assoc, hafter.commentsIn_append, hgap.commentsIn_append, hclose] at hread
          simp [renderItems, itemComments, hbefore.commentsIn_append, hread]
      | cons i more =>
          have hread := commentsIn_value hv (ends_value_gap hafter (c := ',') (by simp)
            (renderItems (i :: more) ++ (gap ++ c :: rest)))
          rw [hafter.commentsIn_append, commentsIn_cons (by decide),
            commentsIn_items hmore hgap hc rest] at hread
          rw [itemComments]
          simp [renderItems, hbefore.commentsIn_append, hread]

/-- Entries in braces that are laid out have the comments of the text as which they are written. -/
theorem commentsIn_entries {entries : List Entry} {depth : Nat} (h : LaidEntries depth entries)
    {gap : List Char} (hgap : IsGap gap) {c : Char} (hc : c ∈ [',', ']', '\x7d'])
    (rest : List Char) :
    commentsIn (renderEntries entries ++ (gap ++ c :: rest))
      = entryComments entries ++ (commentsIn gap ++ commentsIn rest) := by
  have hclose := commentsIn_cons (plain_of_separator hc) rest
  cases h with
  | nil => rw [renderEntries, entryComments, List.nil_append, hgap.commentsIn_append, hclose]; rfl
  | @cons _ lead before after key v more hlead hkey hbefore hv hafter hmore =>
      have hfront : ∀ text, commentsIn (lead ++ (renderKey key ++ '=' :: (before ++ text)))
          = commentsIn lead ++ (Key.comments key ++ (commentsIn before ++ commentsIn text)) := by
        intro text
        rw [hlead.commentsIn_append, commentsIn_key hkey (by decide) (by decide),
          hbefore.commentsIn_append]
      cases more with
      | nil =>
          have hread := commentsIn_value hv (ends_value_gap (hafter.append hgap) hc rest)
          rw [List.append_assoc, hafter.commentsIn_append, hgap.commentsIn_append, hclose] at hread
          simp [renderEntries, entryComments, hfront, hread]
      | cons e more =>
          have hread := commentsIn_value hv (ends_value_gap hafter (c := ',') (by simp)
            (renderEntries (e :: more) ++ (gap ++ c :: rest)))
          rw [hafter.commentsIn_append, commentsIn_cons (by decide),
            commentsIn_entries hmore hgap hc rest] at hread
          rw [entryComments]
          simp [renderEntries, hfront, hread]

end

/-- A line that is laid out has the comments of the text as which it is written. -/
theorem commentsIn_renderLine (h : LaidLine e) (rest : List Char) :
    commentsIn (renderLine e ++ rest) = e.comments ++ commentsIn rest := by
  obtain ⟨lead, key, before, v, after⟩ := e
  obtain ⟨hlead, hkey, hbefore, hv, hafter⟩ := h
  simp only at hlead hkey hbefore hv hafter
  have hread := commentsIn_value hv (ends_value_line hafter rest)
  rw [hafter.commentsIn_append (atLineEnd_cons rfl rest), commentsIn_cons (by decide)] at hread
  simp only [renderLine, List.append_assoc, List.cons_append, List.nil_append]
  rw [hlead.commentsIn_append, commentsIn_key hkey.isGap (by decide) (by decide),
    hbefore.isGap.commentsIn_append, hread]
  simp only [Entry.comments, Entry.valueComments, List.append_assoc]

/-- Lines that are laid out have the comments of the text as which they are written. -/
theorem commentsIn_lines {entries : List Entry} (h : ∀ e ∈ entries, LaidLine e)
    (rest : List Char) :
    commentsIn (entries.flatMap renderLine ++ rest)
      = entries.flatMap Entry.comments ++ commentsIn rest := by
  induction entries with
  | nil => rfl
  | cons e entries ih =>
      obtain ⟨he, hentries⟩ := List.forall_mem_cons.1 h
      rw [List.flatMap_cons, List.flatMap_cons, List.append_assoc, List.append_assoc,
        commentsIn_renderLine he, ih hentries]

/-- A section that is laid out has the comments of the text as which it is written. -/
theorem commentsIn_section {s : Section} (h : s.Laid) (rest : List Char) :
    commentsIn (s.render ++ rest) = s.comments ++ commentsIn rest := by
  obtain ⟨⟨lead, isArray, key, tail⟩, entries⟩ := s
  obtain ⟨⟨hlead, hkey, htail⟩, hentries⟩ := h
  simp only at hlead hkey htail hentries
  have hopening : ∀ text, commentsIn ((if isArray then ['[', '['] else ['[']) ++ text)
      = commentsIn text := by
    intro text
    have hopen : IsPlain '[' := by decide
    cases isArray with
    | true => exact (commentsIn_cons hopen ('[' :: text)).trans (commentsIn_cons hopen text)
    | false => exact commentsIn_cons hopen text
  have hclosing : ∀ text, commentsIn (renderKey key ++ ((if isArray then [']', ']'] else [']'])
      ++ text)) = commentsIn text := by
    intro text
    have hbracket : ∀ text, commentsIn (renderKey key ++ ']' :: text) = commentsIn text := by
      intro text
      rw [commentsIn_key hkey.isGap (by decide) (by decide), hkey.comments_eq]
      rfl
    cases isArray with
    | true => exact (hbracket (']' :: text)).trans (commentsIn_cons (by decide) text)
    | false => exact hbracket text
  simp only [Section.render, Header.render, List.append_assoc, List.cons_append, List.nil_append]
  rw [hlead.commentsIn_append, hopening, hclosing, htail.commentsIn_append (atLineEnd_cons rfl _),
    commentsIn_cons (by decide), commentsIn_lines hentries]
  simp only [Section.comments, List.append_assoc]

/-- Each comment of a document that is laid out is written. -/
theorem commentsIn_render {d : Document} (h : d.Laid) : commentsIn d.render = d.comments := by
  have hsections : ∀ (sections : List Section), (∀ s ∈ sections, s.Laid) →
      commentsIn (sections.flatMap Section.render ++ d.trailing)
        = sections.flatMap Section.comments ++ commentsIn d.trailing := by
    intro sections hlaid
    induction sections with
    | nil => rfl
    | cons s sections ih =>
        obtain ⟨hs, hmore⟩ := List.forall_mem_cons.1 hlaid
        rw [List.flatMap_cons, List.flatMap_cons, List.append_assoc, List.append_assoc,
          commentsIn_section hs, ih hmore]
  rw [Document.render, List.append_assoc, commentsIn_lines h.root, hsections _ h.sections,
    Document.comments, List.append_assoc]

end LintWatch.Toml
