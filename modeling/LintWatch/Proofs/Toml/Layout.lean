import LintWatch.Proofs.Toml.Value

/-!
# Documents as they are written

A document is laid out when its lines and section heads are: `Document.Laid`. Whatever has been read
is laid out (`laid_of_read?`), and a document that is laid out is read back, once it has been
written, with what it says (`read?_render`). So a change to a document that keeps it laid out is a
change to the text with the meaning that the document says.
-/

namespace LintWatch.Toml

/-- A line of its own that is laid out. -/
structure LaidLine (e : Entry) : Prop where
  lead : IsGap e.1
  key : LaidKey IsBlanks e.2.1
  before : IsBlanks e.2.2.1
  value : LaidValue depthLimit e.2.2.2.1
  after : IsTail e.2.2.2.2

/-- The head of a section that is laid out. -/
structure Header.Laid (h : Header) : Prop where
  lead : IsGap h.lead
  key : LaidKey IsBlanks h.key
  tail : IsTail h.tail

/-- A section that is laid out. -/
structure Section.Laid (s : Section) : Prop where
  header : s.header.Laid
  entries : ∀ e ∈ s.entries, LaidLine e

/-- A document that is laid out. -/
structure Document.Laid (d : Document) : Prop where
  root : ∀ e ∈ d.root, LaidLine e
  sections : ∀ s ∈ d.sections, s.Laid
  trailing : IsTrailing d.trailing

/-- What a section says: whether it is one of an array, the names of its key, and its entries. -/
def Section.said (s : Section) : Bool × List String × List (List String × Option Data) :=
  (s.header.isArray, Key.names s.header.key, s.entries.map Entry.said)

/-- What a document says, line by line. -/
def Document.said (d : Document) :
    List (List String × Option Data) ×
      List (Bool × List String × List (List String × Option Data)) :=
  (d.root.map Entry.said, d.sections.map Section.said)

variable {cs rest lead : List Char} {e : Entry} {h : Header} {root : List Entry}
  {sections : List Section}

/-! ## What documents mean -/

/-- Sections that say the same do the same to a table. -/
theorem bindSection_congr {s s' : Section} (h : s'.said = s.said) (fields : Fields) (place : Nat) :
    bindSection fields (s', place) = bindSection fields (s, place) := by
  simp only [Section.said, Prod.mk.injEq] at h
  obtain ⟨hkind, hnames, hentries⟩ := h
  have hbind : (bindEntries? · s'.entries) = (bindEntries? · s.entries) :=
    funext (bindEntries?_congr hentries)
  simp only [bindSection, hkind, hnames, hbind]

/-- Sections that say the same, one after the other, do the same to a table. -/
theorem foldlM_bindSection_congr {sections' : List Section}
    (h : sections'.map Section.said = sections.map Section.said) (fields : Fields) (place : Nat) :
    (sections'.zipIdx place).foldlM bindSection fields
      = (sections.zipIdx place).foldlM bindSection fields := by
  induction sections generalizing sections' fields place with
  | nil =>
      obtain rfl := List.map_eq_nil_iff.1 h
      rfl
  | cons s sections ih =>
      obtain ⟨s', sections', rfl, hs, hsections⟩ := List.map_eq_cons_iff.1 h
      simp only [List.zipIdx_cons, List.foldlM_cons, bindSection_congr hs]
      exact bind_congr fun fields => ih hsections fields (place + 1)

/-- Documents that say the same have the same fields. -/
theorem fields?_congr {d d' : Document} (h : d'.said = d.said) : d'.fields? = d.fields? := by
  obtain ⟨hroot, hsections⟩ := Prod.mk.inj h
  simp only [Document.fields?, bindEntries?_congr hroot]
  exact bind_congr fun fields => foldlM_bindSection_congr hsections fields 0

/-! ## Reading -/

/-- What has been read as a line is laid out, behind the gap in front of it. -/
theorem laid_of_line? (hlead : IsGap lead) (h : line? lead cs = some (e, rest)) : LaidLine e := by
  simp only [line?, Option.bind_eq_bind, Option.bind_eq_some_iff] at h
  obtain ⟨⟨key, afterKey⟩, hkey, h⟩ := h
  split at h
  next =>
    simp only [Option.bind_eq_some_iff, Option.pure_def, Option.some.injEq, Prod.mk.injEq] at h
    obtain ⟨⟨v, behind⟩, hv, ⟨after, end_⟩, hafter, more, -, rfl, -⟩ := h
    exact ⟨hlead, laid_of_key? hkey, is_blanks_split _, laid_of_value? hv, is_tail_of_gap? hafter⟩
  next => cases h

/-- What has been read as the head of a section is laid out, behind the gap in front of it. -/
theorem laid_of_header? (hlead : IsGap lead) (hread : header? lead cs = some (h, rest)) :
    h.Laid := by
  simp only [header?, Option.bind_eq_bind, Option.bind_eq_some_iff] at hread
  obtain ⟨⟨key, afterKey⟩, hkey, hread⟩ := hread
  generalize (if (cs.head? == some '[') = true then [']', ']'] else [']']) = closing at hread
  split at hread
  next => cases hread
  next =>
    simp only [Option.bind_eq_some_iff, Option.pure_def, Option.some.injEq, Prod.mk.injEq] at hread
    obtain ⟨⟨tail, behind⟩, htail, more, -, rfl, -⟩ := hread
    exact ⟨hlead, laid_of_key? hkey, is_tail_of_gap? htail⟩

/-- An entry that is laid out goes behind statements that are. -/
theorem laid_addEntry (he : LaidLine e) (hroot : ∀ e ∈ root, LaidLine e)
    (hsections : ∀ s ∈ sections, s.Laid) :
    (∀ e' ∈ (addEntry e root sections).1, LaidLine e') ∧
      ∀ s ∈ (addEntry e root sections).2, s.Laid := by
  cases sections with
  | nil => exact ⟨List.forall_mem_cons.2 ⟨he, hroot⟩, hsections⟩
  | cons s sections =>
      obtain ⟨hs, hmore⟩ := List.forall_mem_cons.1 hsections
      refine ⟨hroot, List.forall_mem_cons.2 ⟨⟨hs.header, ?_⟩, hmore⟩⟩
      exact List.forall_mem_cons.2 ⟨he, hs.entries⟩

/-- What has been read as statements behind statements that are laid out is laid out. -/
theorem laid_of_statements? {fuel : Nat} {d : Document} (hroot : ∀ e ∈ root, LaidLine e)
    (hsections : ∀ s ∈ sections, s.Laid) (h : statements? fuel root sections cs = some d) :
    d.Laid := by
  induction fuel generalizing root sections cs with
  | zero => cases h
  | succ fuel ih =>
      simp only [statements?, Option.bind_eq_bind, Option.bind_eq_some_iff] at h
      obtain ⟨⟨lead, more⟩, hlead, h⟩ := h
      split at h
      next =>
        obtain rfl := Option.some.inj h
        refine ⟨?_, ?_, is_trailing_of_gap? hlead⟩
        · intro e he
          exact hroot e (List.mem_reverse.1 he)
        · intro s hs
          obtain ⟨s, hmem, rfl⟩ := List.mem_map.1 (List.mem_reverse.1 hs)
          refine ⟨(hsections s hmem).header, fun e he => ?_⟩
          exact (hsections s hmem).entries e (List.mem_reverse.1 he)
      next heq =>
        simp only [Option.bind_eq_some_iff] at h
        obtain ⟨⟨header, rest⟩, hheader, h⟩ := h
        have hlaid := laid_of_header? (is_gap_of_gap?_cons hlead heq) hheader
        exact ih hroot (List.forall_mem_cons.2 ⟨⟨hlaid, by simp⟩, hsections⟩) h
      next hnil _ =>
        simp only [Option.bind_eq_some_iff] at h
        obtain ⟨⟨e, rest⟩, hline, h⟩ := h
        have hlaid := laid_of_line? (is_gap_of_gap? hlead hnil) hline
        obtain ⟨hroot', hsections'⟩ := laid_addEntry hlaid hroot hsections
        exact ih hroot' hsections' h

/-- What has been read is laid out. -/
theorem laid_of_read? {text : List Char} {d : Document} (h : Document.read? text = some d) :
    d.Laid :=
  laid_of_statements? (by simp) (by simp) h

/-! ## Writing -/

/-- A line that is laid out is read up to its end, as an entry that says the same. -/
theorem statements?_line (he : LaidLine e) (fuel : Nat) (root : List Entry)
    (sections : List Section) (rest : List Char) :
    ∃ e' : Entry, e'.said = e.said ∧
      statements? (fuel + 1) root sections (renderLine e ++ rest)
        = statements? fuel (addEntry e' root sections).1 (addEntry e' root sections).2 rest := by
  obtain ⟨lead, key, before, v, after⟩ := e
  obtain ⟨hlead, hkey, hbefore, hvalue, hafter⟩ := he
  obtain ⟨blanks, key', hblanks, hkey', hnames, hrender, c, more, hstart, hc⟩ := hkey.exists_start
  obtain ⟨hgapChar, hbracket, -⟩ := of_startsName hc
  simp only at hlead hbefore hvalue hafter
  have hends : EndsKey ('=' :: (before ++ (v.render ++ (after ++ '\n' :: rest)))) := by
    intro d hd
    obtain rfl := Option.some.inj hd
    decide
  obtain ⟨v', hv, hdata⟩ := value?_render hvalue (ends_value_line hafter rest)
    (2 * (v.render ++ (after ++ '\n' :: rest)).length + 2)
    (by simp only [List.length_append]; omega)
  have hgap : gap? true false [] (renderLine (lead, key, before, v, after) ++ rest)
      = some (lead ++ blanks,
          renderKey key' ++ '=' :: (before ++ (v.render ++ (after ++ '\n' :: rest)))) := by
    have htext : renderLine (lead, key, before, v, after) ++ rest = (lead ++ blanks) ++
        (renderKey key' ++ '=' :: (before ++ (v.render ++ (after ++ '\n' :: rest)))) := by
      simp [renderLine, hrender]
    rw [htext]
    refine gap?_of_gap (hlead.append hblanks.isGap) ?_
    rw [hstart]
    exact stops_cons hgapChar _
  have hline : line? (lead ++ blanks)
      (renderKey key' ++ '=' :: (before ++ (v.render ++ (after ++ '\n' :: rest))))
      = some ((lead ++ blanks, key', before, v', after), rest) := by
    simp only [line?, key?_append hkey' hends, Option.bind_eq_bind, Option.bind_some,
      splitBlanks_append hbefore (hvalue.stops _).noBlank, hv, gap?_line hafter rest]
    rfl
  refine ⟨(lead ++ blanks, key', before, v', after), ?_, ?_⟩
  · simp only [Entry.said, hnames, hdata]
  · rw [hstart] at hgap hline
    simp only [statements?, hgap, Option.bind_eq_bind, Option.bind_some, List.cons_append]
    split
    next hnil => cases hnil
    next hopen => exact absurd (List.cons.inj hopen).1 hbracket
    next =>
      rw [List.cons_append] at hline
      simp only [hline, Option.bind_some]

/-- The head of a section that is laid out is read as it was written. -/
theorem statements?_header (hh : h.Laid) (fuel : Nat) (root : List Entry)
    (sections : List Section) (rest : List Char) :
    statements? (fuel + 1) root sections (h.render ++ rest)
      = statements? fuel root (⟨h, []⟩ :: sections) rest := by
  obtain ⟨lead, isArray, key, tail⟩ := h
  obtain ⟨hlead, hkey, htail⟩ := hh
  simp only at hlead hkey htail
  have hends : ∀ more, EndsKey (']' :: more) := by
    intro more d hd
    obtain rfl := Option.some.inj hd
    decide
  cases isArray with
  | true =>
      have htext : Header.render ⟨lead, true, key, tail⟩ ++ rest
          = lead ++ '[' :: '[' :: (renderKey key ++ ']' :: ']' :: (tail ++ '\n' :: rest)) := by
        simp [Header.render]
      have hgap := gap?_of_gap hlead (stops_cons (c := '[') rfl
        ('[' :: (renderKey key ++ ']' :: ']' :: (tail ++ '\n' :: rest))))
      have hheader : header? lead
          ('[' :: (renderKey key ++ ']' :: ']' :: (tail ++ '\n' :: rest)))
          = some (⟨lead, true, key, tail⟩, rest) := by
        simp [header?, key?_append hkey (hends _), gap?_line htail rest, afterLineEnd?]
      rw [htext]
      simp only [statements?, hgap, hheader, Option.bind_eq_bind, Option.bind_some]
  | false =>
      have htext : Header.render ⟨lead, false, key, tail⟩ ++ rest
          = lead ++ '[' :: (renderKey key ++ ']' :: (tail ++ '\n' :: rest)) := by
        simp [Header.render]
      have hgap := gap?_of_gap hlead (stops_cons (c := '[') rfl
        (renderKey key ++ ']' :: (tail ++ '\n' :: rest)))
      have hsingle : (renderKey key ++ ']' :: (tail ++ '\n' :: rest)).head? ≠ some '[' := by
        obtain ⟨blanks, key', hblanks, -, -, hrender, c, more, hstart, hc⟩ := hkey.exists_start
        rw [hrender, hstart]
        cases blanks with
        | nil =>
            intro hd
            exact (of_startsName hc).2.1 (Option.some.inj hd)
        | cons b blanks =>
            intro hd
            obtain rfl := Option.some.inj hd
            exact absurd (hblanks '[' List.mem_cons_self) (by decide)
      have hheader : header? lead (renderKey key ++ ']' :: (tail ++ '\n' :: rest))
          = some (⟨lead, false, key, tail⟩, rest) := by
        simp only [header?, beq_eq_false_iff_ne.2 hsingle, Bool.false_eq_true, if_false,
          key?_append hkey (hends _), Option.bind_eq_bind, Option.bind_some]
        simp [gap?_line htail rest, afterLineEnd?]
      rw [htext]
      simp only [statements?, hgap, hheader, Option.bind_eq_bind, Option.bind_some]

/-- Lines are read one after the other into the section that is last. -/
theorem statements?_lines {entries : List Entry} (h : ∀ e ∈ entries, LaidLine e) (fuel : Nat)
    (header : Header) (found root : List Entry) (sections : List Section) (rest : List Char) :
    ∃ entries' : List Entry, entries'.map Entry.said = entries.map Entry.said ∧
      statements? (fuel + entries.length) root (⟨header, found⟩ :: sections)
          (entries.flatMap renderLine ++ rest)
        = statements? fuel root (⟨header, entries'.reverse ++ found⟩ :: sections) rest := by
  induction entries generalizing found with
  | nil => exact ⟨[], rfl, rfl⟩
  | cons e entries ih =>
      obtain ⟨he, hentries⟩ := List.forall_mem_cons.1 h
      obtain ⟨e', hsaid, hline⟩ := statements?_line he (fuel + entries.length) root
        (⟨header, found⟩ :: sections) (entries.flatMap renderLine ++ rest)
      obtain ⟨entries', hmap, hlines⟩ := ih hentries (e' :: found)
      refine ⟨e' :: entries', ?_, ?_⟩
      · rw [List.map_cons, List.map_cons, hsaid, hmap]
      · rw [List.flatMap_cons, List.append_assoc, List.length_cons, ← Nat.add_assoc, hline]
        simp only [addEntry, hlines, List.reverse_cons, List.append_assoc, List.singleton_append]

/-- The lines in front of all sections are read one after the other. -/
theorem statements?_root {entries : List Entry} (h : ∀ e ∈ entries, LaidLine e) (fuel : Nat)
    (root : List Entry) (rest : List Char) :
    ∃ entries' : List Entry, entries'.map Entry.said = entries.map Entry.said ∧
      statements? (fuel + entries.length) root [] (entries.flatMap renderLine ++ rest)
        = statements? fuel (entries'.reverse ++ root) [] rest := by
  induction entries generalizing root with
  | nil => exact ⟨[], rfl, rfl⟩
  | cons e entries ih =>
      obtain ⟨he, hentries⟩ := List.forall_mem_cons.1 h
      obtain ⟨e', hsaid, hline⟩ := statements?_line he (fuel + entries.length) root []
        (entries.flatMap renderLine ++ rest)
      obtain ⟨entries', hmap, hlines⟩ := ih hentries (e' :: root)
      refine ⟨e' :: entries', ?_, ?_⟩
      · rw [List.map_cons, List.map_cons, hsaid, hmap]
      · rw [List.flatMap_cons, List.append_assoc, List.length_cons, ← Nat.add_assoc, hline]
        simp only [addEntry, hlines, List.reverse_cons, List.append_assoc, List.singleton_append]

/-- How many statements sections make up. -/
def statementCount : List Section → Nat
  | [] => 0
  | s :: sections => s.entries.length + 1 + statementCount sections

/-- Sections are read one after the other. -/
theorem statements?_sections {sections : List Section} (h : ∀ s ∈ sections, s.Laid) (fuel : Nat)
    (root : List Entry) (found : List Section) (rest : List Char) :
    ∃ sections' : List Section,
      (sections'.map fun s => { s with entries := s.entries.reverse }).map Section.said
        = sections.map Section.said ∧
      statements? (fuel + statementCount sections) root found
          (sections.flatMap Section.render ++ rest)
        = statements? fuel root (sections'.reverse ++ found) rest := by
  induction sections generalizing found with
  | nil => exact ⟨[], rfl, rfl⟩
  | cons s sections ih =>
      obtain ⟨hs, hsections⟩ := List.forall_mem_cons.1 h
      obtain ⟨header, entries⟩ := s
      obtain ⟨entries', hentries, hlines⟩ := statements?_lines hs.entries
        (fuel + statementCount sections) header [] root found
        (sections.flatMap Section.render ++ rest)
      obtain ⟨sections', hmap, hmore⟩ := ih hsections (⟨header, entries'.reverse⟩ :: found)
      refine ⟨⟨header, entries'.reverse⟩ :: sections', ?_, ?_⟩
      · simp only [List.map_cons, hmap, Section.said, List.reverse_reverse, hentries]
      · have hfuel : fuel + statementCount (⟨header, entries⟩ :: sections)
            = fuel + statementCount sections + entries.length + 1 := by
          show fuel + (entries.length + 1 + statementCount sections) = _
          omega
        rw [hfuel, List.flatMap_cons, Section.render, List.append_assoc, List.append_assoc,
          statements?_header hs.header, hlines, List.append_nil, hmore, List.reverse_cons,
          List.append_assoc, List.singleton_append]

/-- Every line is written with at least one character. -/
theorem length_le_lines (entries : List Entry) :
    entries.length ≤ (entries.flatMap renderLine).length := by
  induction entries with
  | nil => exact Nat.le_refl 0
  | cons e entries ih =>
      simp only [List.length_cons, List.flatMap_cons, List.length_append, renderLine]
      omega

/-- Every statement of a section is written with at least one character. -/
theorem statementCount_le (sections : List Section) :
    statementCount sections ≤ (sections.flatMap Section.render).length := by
  induction sections with
  | nil => exact Nat.le_refl 0
  | cons s sections ih =>
      have hlines := length_le_lines s.entries
      have hhead : 1 ≤ s.header.render.length := by
        simp only [Header.render, List.length_append, List.length_cons]
        omega
      rw [statementCount, List.flatMap_cons, List.length_append, Section.render,
        List.length_append]
      omega

/-- No statement starts with a byte order mark. -/
theorem statements?_byteOrderMark (fuel : Nat) (root : List Entry) (sections : List Section)
    (rest : List Char) : statements? fuel root sections (byteOrderMark :: rest) = none := by
  cases fuel with
  | zero => rfl
  | succ fuel =>
      have hgap : gap? true false [] (byteOrderMark :: rest) = some ([], byteOrderMark :: rest) :=
        gap?_of_stops true (stops_cons (by decide) rest) []
      have hline : line? [] (byteOrderMark :: rest) = none := rfl
      simp only [statements?, hgap, hline, Option.bind_eq_bind, Option.bind_some]
      rfl

/-- A document that is laid out is read back with what it says, once it has been written. -/
theorem read?_render {d : Document} (h : d.Laid) :
    ∃ d', Document.read? d.render = some d' ∧ d'.said = d.said := by
  obtain ⟨root, sections, trailing⟩ := d
  obtain ⟨hroot, hsections, htrailing⟩ := h
  simp only at hroot hsections htrailing
  have hlength : root.length + statementCount sections
      ≤ (Document.render ⟨root, sections, trailing⟩).length := by
    have hlines := length_le_lines root
    have hcount := statementCount_le sections
    simp only [Document.render, List.length_append]
    omega
  obtain ⟨more, hmore⟩ := Nat.exists_eq_add_of_le hlength
  obtain ⟨root', hroot', hlines⟩ := statements?_root hroot (more + 1 + statementCount sections) []
    (sections.flatMap Section.render ++ trailing)
  obtain ⟨sections', hsections', hread⟩ := statements?_sections hsections (more + 1)
    (root'.reverse ++ []) [] trailing
  have hfuel : (Document.render ⟨root, sections, trailing⟩).length + 1
      = more + 1 + statementCount sections + root.length := by
    omega
  have hstatements : statements? ((Document.render ⟨root, sections, trailing⟩).length + 1) [] []
      (Document.render ⟨root, sections, trailing⟩)
      = some ⟨root', sections'.map fun s => { s with entries := s.entries.reverse }, trailing⟩ := by
    rw [hfuel, Document.render, List.append_assoc, hlines, hread]
    simp [statements?, gap?_trailing htrailing]
  refine ⟨⟨root', sections'.map fun s => { s with entries := s.entries.reverse }, trailing⟩, ?_,
    by simp only [Document.said, hroot', hsections']⟩
  have hmark : (Document.render ⟨root, sections, trailing⟩).head? ≠ some byteOrderMark := by
    intro hhead
    obtain ⟨rest, hrest⟩ := List.head?_eq_some_iff.1 hhead
    rw [hrest, statements?_byteOrderMark] at hstatements
    cases hstatements
  simp only [Document.read?, if_neg hmark]
  exact hstatements

end LintWatch.Toml
