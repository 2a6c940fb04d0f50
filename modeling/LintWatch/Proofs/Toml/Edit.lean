import LintWatch.Proofs.Toml.Tables

/-!
# Changing one value of a document

The document that `Document.put?` gives means what the document meant, but for the one name that has
been bound: `puts_of_put?`. This holds whether the table was written as a section, in braces, with
dotted keys, only as sections below it, or not at all. A document that is laid out stays so:
`laid_put?`.
-/

namespace LintWatch.Toml

variable {d d' : Document} {fields : Fields} {table name : String} {v : Value} {x : Data}
  {part : KeyPart} {key : Key} {before after : List Section} {s : Section}

/-- Fields with a name of a table bound to a value, and else as before. A table that was not there
is new. -/
structure Puts (table name : String) (x : Data) (old new : List (String × Data)) : Prop where
  others (n : String) : n ≠ table → new.lookup n = old.lookup n
  isTable : ∃ before after, new.lookup table = some (.table after) ∧
    (old.lookup table = none ∧ before = [] ∨ old.lookup table = some (.table before)) ∧
    after.lookup name = some x ∧ ∀ n, n ≠ name → after.lookup n = before.lookup n

/-- What fields mean is bound anew where the fields are. -/
theorem Fields.Rebound.puts {old new : Fields} (h : Fields.Rebound table name x old new) :
    Puts table name x (dataOfFields old) (dataOfFields new) := by
  obtain ⟨before, after, o, hnew, hold, hname, hothers⟩ := h.isTable
  refine ⟨?_, dataOfFields before, dataOfFields after, ?_, ?_, ?_, ?_⟩
  · intro n hn
    rw [lookup_dataOfFields, lookup_dataOfFields, h.others n hn]
  · rw [lookup_dataOfFields, hnew]
    rfl
  · rcases hold with ⟨hnone, rfl⟩ | ⟨o, hsome⟩
    · refine Or.inl ⟨?_, rfl⟩
      rw [lookup_dataOfFields, hnone]
      rfl
    · refine Or.inr ?_
      rw [lookup_dataOfFields, hsome]
      rfl
  · rw [lookup_dataOfFields, hname]
    rfl
  · intro n hn
    rw [lookup_dataOfFields, lookup_dataOfFields, hothers n hn]

/-! ## Sections -/

/-- What the section of a table says about a name that has been bound in it. -/
theorem about_put (hkey : Key.names s.header.key = [table]) (hpart : part.name = name)
    (hv : v.data? = some x) (inFront : Bool) (entries : List Entry) :
    Statement.about table name
        (Section.statement { s with entries := EntryStyle.line.put [] part v inFront entries })
      = [.entry [name] (some x)] := by
  have hunder : (Statement.section s.header.isArray [table]
      ((EntryStyle.line.put [] part v inFront entries).map Entry.said)).under table = true :=
    under_head rfl
  have hbelow : (Statement.section s.header.isArray [table]
      ((EntryStyle.line.put [] part v inFront entries).map Entry.said)).below
      = (EntryStyle.line.put [] part v inFront entries).map Entry.statement := by
    cases s.header.isArray <;> exact List.map_map
  simp only [Section.statement, Section.said, hkey]
  rw [Statement.about, if_pos hunder, hbelow, ← hpart, filter_put_self, hv]

/-- The section of a table is not one for a name in the table. -/
theorem not_isWithin (hkey : Key.names s.header.key = [table]) (name : String) :
    s.isWithin [table, name] = false := by
  rw [Section.isWithin, hkey]
  simp [List.isPrefixOf]

/-- A name bound in a section that is new. -/
theorem rebinds_of_new (lead : List Char) (hsections : d.sections = before ++ after)
    (hroot : ∀ e ∈ d.root, e.statement.under table = false)
    (hhead : ∀ s ∈ d.sections, Key.names s.header.key ≠ [table])
    (hkey : Key.names key = [table]) (hpart : part.name = name) (hv : v.data? = some x) :
    Rebinds table name x d.statements
      (Document.dropSections { d with sections := before ++
          ⟨⟨lead, false, key, []⟩, EntryStyle.line.put [] part v false []⟩ :: after }
        [table, name]).statements := by
  generalize hs : (⟨⟨lead, false, key, []⟩, EntryStyle.line.put [] part v false []⟩ : Section) = s
  have hname : Key.names s.header.key = [table] := by
    rw [← hs]
    exact hkey
  have hdrop : (before ++ s :: after).filter (!·.isWithin [table, name])
      = before.filter (!·.isWithin [table, name])
        ++ s :: after.filter (!·.isWithin [table, name]) := by
    rw [List.filter_append, List.filter_cons_of_pos (by rw [not_isWithin hname]; rfl)]
  refine rebinds_of_head hroot rfl hdrop (by rw [← hs]) hname ?_ ?_ ?_
  · rw [← List.filter_append, ← hsections]
    intro o ho
    obtain ⟨hmem, hwithin⟩ := List.mem_filter.1 ho
    exact ⟨hhead o hmem, by simpa using hwithin⟩
  · rw [← hs]
    exact about_put (s := ⟨⟨lead, false, key, []⟩, []⟩) hkey hpart hv false []
  · intro G hG
    show ((before ++ s :: after).filter (!·.isWithin [table, name])).flatMap
      (fun s => G s.statement) = _
    have hnone : G s.statement = [] := by
      obtain ⟨g, hg, hbody⟩ := hG.body
      have hput := EntryStyle.flatMap_put_of_blind (g := g) .line [] part v false (fun said hsaid =>
        hg said (hpart ▸ hsaid)) []
      rw [← hs]
      simp only [Section.statement, Section.said, hkey, hbody, List.flatMap_map]
      exact hput
    rw [flatMap_dropSections hG, hsections, List.flatMap_append, List.flatMap_cons, hnone,
      List.nil_append, List.flatMap_append]

/-- A name bound in the section of a table. -/
theorem rebinds_of_section (inFront : Bool) (hsections : d.sections = before ++ s :: after)
    (hroot : ∀ e ∈ d.root, e.statement.under table = false) (harray : s.header.isArray = false)
    (hkey : Key.names s.header.key = [table])
    (hothers : ∀ o ∈ before ++ after, Key.names o.header.key ≠ [table]) (hpart : part.name = name)
    (hv : v.data? = some x) :
    Rebinds table name x d.statements
      (Document.statements { d.dropSections [table, name] with
        sections := (d.dropSections [table, name]).sections.map fun s =>
          if Key.names s.header.key = [table] then
            { s with entries := EntryStyle.line.put [] part v inFront s.entries }
          else s }) := by
  generalize hput : (fun s : Section => if Key.names s.header.key = [table] then
    { s with entries := EntryStyle.line.put [] part v inFront s.entries } else s) = put
  have hself : put s = { s with entries := EntryStyle.line.put [] part v inFront s.entries } := by
    rw [← hput]
    exact if_pos hkey
  have hother : ∀ o ∈ before ++ after, put o = o := by
    intro o ho
    rw [← hput]
    exact if_neg (hothers o ho)
  have hkept : ∀ part : List Section, (∀ o ∈ part, put o = o) →
      (part.filter (!·.isWithin [table, name])).map put
        = part.filter (!·.isWithin [table, name]) := by
    intro part hpart
    have hid : ∀ o ∈ part.filter (!·.isWithin [table, name]), put o = id o :=
      fun o ho => hpart o (List.mem_filter.1 ho).1
    exact (List.map_congr_left hid).trans (List.map_id _)
  obtain ⟨hbefore, hafter⟩ := List.forall_mem_append.1 hother
  have hdrop : ((before ++ s :: after).filter (!·.isWithin [table, name])).map put
      = before.filter (!·.isWithin [table, name])
        ++ put s :: after.filter (!·.isWithin [table, name]) := by
    rw [List.filter_append, List.filter_cons_of_pos (by rw [not_isWithin hkey]; rfl),
      List.map_append, List.map_cons, hkept before hbefore, hkept after hafter]
  have hdrop' : ((d.dropSections [table, name]).sections.map put)
      = before.filter (!·.isWithin [table, name])
        ++ put s :: after.filter (!·.isWithin [table, name]) := by
    rw [← hdrop, ← hsections]
    rfl
  refine rebinds_of_head hroot rfl hdrop' (by rw [hself]; exact harray) (by rw [hself]; exact hkey)
    ?_ ?_ ?_
  · rw [← List.filter_append]
    intro o ho
    obtain ⟨hmem, hwithin⟩ := List.mem_filter.1 ho
    exact ⟨hothers o hmem, by simpa using hwithin⟩
  · rw [hself]
    exact about_put hkey hpart hv inFront s.entries
  · intro G hG
    show ((d.dropSections [table, name]).sections.map put).flatMap (fun s => G s.statement) = _
    have hsame : G (put s).statement = G s.statement := by
      obtain ⟨g, hg, hbody⟩ := hG.body
      have hflat := EntryStyle.flatMap_put_of_blind (g := g) .line [] part v inFront
        (fun said hsaid => hg said (hpart ▸ hsaid)) s.entries
      rw [hself]
      simp only [Section.statement, Section.said, hkey, hbody, List.flatMap_map]
      exact hflat
    rw [hdrop', hsections, List.flatMap_append, List.flatMap_cons, flatMap_dropSections hG,
      flatMap_dropSections hG, hsame, List.flatMap_append, List.flatMap_cons]

/-! ## Tables of all kinds -/

/-- A new section stands between the others. -/
theorem insertSection_eq (d : Document) (place : Option Nat) (key : Key) (entries : List Entry) :
    ∃ before after lead, d.sections = before ++ after ∧ (lead = [] ∨ lead = ['\n']) ∧
      d.insertSection place key entries
        = { d with sections := before ++ ⟨⟨lead, false, key, []⟩, entries⟩ :: after } := by
  simp only [Document.insertSection, List.splitAt_eq]
  refine ⟨_, _, _, (List.take_append_drop _ d.sections).symm, ?_, rfl⟩
  generalize d.sections.take _ = before
  cases d.root.isEmpty && before.isEmpty with
  | true => exact Or.inl rfl
  | false => exact Or.inr rfl

/-- The part of a key for a new table names it. -/
theorem name_newPart (d : Document) (path : List String) (name : String) :
    (d.newPart path name).name = name := by
  unfold Document.newPart
  cases h : d.sectionPart? path name with
  | none => rfl
  | some p =>
      obtain ⟨s, hs, hp⟩ := Option.bind_eq_some_iff.1 h
      have hwithin := List.find?_some hs
      obtain ⟨rest, hrest⟩ := List.isPrefixOf_iff_prefix.1 hwithin
      show p.name = name
      have hget := congrArg (·[path.length]?) hrest
      simp only [Key.names, List.getElem?_map, hp, Option.map_some] at hget
      simpa using hget.symm

/-- Where a table came into being is one of the origins. -/
theorem origin_mem {o : Origin} {inner : Fields} (h : fields.lookup table = some (.table o inner)) :
    o ∈ originsOfFields fields := by
  induction fields with
  | nil => cases h
  | cons field fields ih =>
      obtain ⟨first, node⟩ := field
      rw [Fields.lookup_cons] at h
      rw [originsOfFields]
      split at h
      next =>
        obtain rfl := Option.some.inj h
        exact List.mem_append_left _ List.mem_cons_self
      next => exact List.mem_append_right _ (ih h)

/-- The keys of a document that is laid out have names. -/
theorem wellNamed_of_laid (h : d.Laid) : ∀ s ∈ d.statements, s.WellNamed := by
  have hnames : ∀ {key : List KeyPart} {IsLast : List Char → Prop}, LaidKey IsLast key →
      Key.names key ≠ [] := by
    intro key IsLast hkey hnil
    exact hkey.ne_nil (List.map_eq_nil_iff.1 hnil)
  intro s hs
  rcases List.mem_append.1 hs with hs | hs
  · obtain ⟨e, he, rfl⟩ := List.mem_map.1 hs
    exact hnames (h.root e he).key
  · obtain ⟨s, hmem, rfl⟩ := List.mem_map.1 hs
    refine ⟨hnames (h.sections s hmem).header.key, fun said hsaid => ?_⟩
    obtain ⟨e, he, rfl⟩ := List.mem_map.1 hsaid
    exact hnames ((h.sections s hmem).entries e he).key

/-- A name bound in a table that the document does not have. -/
theorem rebinds_of_missing (hnil : d.statements.filter (Statement.under table) = [])
    (place : Option Nat) (hv : v.data? = some x) :
    Rebinds table name x d.statements (d.insertSection place [.plain table]
      (EntryStyle.line.put [] (.plain name) v false [])).statements := by
  rw [Document.statements, List.filter_append, List.append_eq_nil_iff, List.filter_eq_nil_iff,
    List.filter_eq_nil_iff] at hnil
  have hroot : ∀ e ∈ d.root, e.statement.under table = false := fun e he =>
    Bool.eq_false_iff.2 (hnil.1 _ (List.mem_map_of_mem he))
  have hnames : ∀ s ∈ d.sections, ∀ rest, Key.names s.header.key ≠ table :: rest := by
    intro s hs rest hkey
    exact hnil.2 _ (List.mem_map_of_mem hs)
      (under_head (show s.statement.names = table :: rest from hkey))
  obtain ⟨before, after, lead, hsplit, -, hinsert⟩ := insertSection_eq d place [.plain table]
    (EntryStyle.line.put [] (.plain name) v false [])
  generalize hs : (⟨⟨lead, false, [.plain table], []⟩,
    EntryStyle.line.put [] (.plain name) v false []⟩ : Section) = s at hinsert
  -- No section is one for the name, so none of them has to go.
  have hkept : (before ++ s :: after).filter (!·.isWithin [table, name])
      = before ++ s :: after := by
    have hothers : ∀ o ∈ before ++ after, (!o.isWithin [table, name]) = true := by
      intro o ho
      rw [← hsplit] at ho
      rw [Bool.not_eq_true', Bool.eq_false_iff]
      intro hwithin
      obtain ⟨rest, hrest⟩ := List.isPrefixOf_iff_prefix.1 hwithin
      exact hnames o ho (name :: rest) hrest.symm
    obtain ⟨hbefore, hafter⟩ := List.forall_mem_append.1 hothers
    refine List.filter_eq_self.2 (List.forall_mem_append.2 ⟨hbefore,
      List.forall_mem_cons.2 ⟨?_, hafter⟩⟩)
    rw [← hs, not_isWithin (show Key.names [KeyPart.plain table] = [table] from rfl)]
    rfl
  have hpart : (KeyPart.plain name).name = name := rfl
  have hnew := rebinds_of_new lead hsplit hroot (fun s hs => hnames s hs [])
    (show Key.names [KeyPart.plain table] = [table] from rfl) hpart hv
  rw [hs] at hnew
  simp only [Document.dropSections, hkept] at hnew
  rw [hinsert]
  exact hnew

/-- The first part of the first dotted key of a table names the table. -/
theorem first_dotted (h : ∃ e ∈ d.root, e.statement.under table = true) :
    ∃ p, ((d.root.find? (sameGroup [table])).map fun e => e.2.1.take 1).getD [] = [p] ∧
      p.name = table := by
  obtain ⟨e, he, hunder⟩ := h
  rw [under_eq_sameGroup] at hunder
  cases hfind : d.root.find? (sameGroup [table]) with
  | none => exact absurd hunder (List.find?_eq_none.1 hfind e he)
  | some o =>
      have hgroup : sameGroup [table] o = true := List.find?_some hfind
      obtain ⟨rest, hrest⟩ := List.isPrefixOf_iff_prefix.1 hgroup
      obtain ⟨p, parts, hkey, hp, -⟩ := List.map_eq_cons_iff.1 hrest.symm
      refine ⟨p, ?_, hp⟩
      rw [Option.map_some, Option.getD_some, hkey]
      rfl

/-- A name bound in a table that the document has, other than in braces. -/
theorem rebinds_of_table {o : Origin} {inner : Fields}
    (htable : fields.lookup table = some (.table o inner)) (hchange : d.canChange fields = true)
    (hbecome : becomeAll (d.statements.filter (Statement.under table)) none
      = some (some o.unplaced))
    (hv : v.data? = some x) (h : d.put? fields table name v = some d') :
    Rebinds table name x d.statements d'.statements := by
  have hpart := name_newPart d [table] name
  have hkinds := becomeAll_statements hbecome
  cases o with
  | «section» place =>
      simp only [Document.put?, htable, Option.some.injEq] at h
      rcases hkinds with ⟨hdotted, -⟩ | ⟨hroot, ⟨himplied, -⟩ |
        ⟨-, before, s, after, hsections, harray, hkey, hothers⟩⟩
      · cases hdotted
      · cases himplied
      · rw [← h]
        exact rebinds_of_section _ hsections hroot harray hkey hothers hpart hv
  | implied =>
      simp only [Document.put?, htable, Option.some.injEq] at h
      rcases hkinds with ⟨hdotted, -⟩ | ⟨hroot, ⟨-, hhead⟩ | ⟨hsection, -⟩⟩
      · cases hdotted
      · obtain ⟨before, after, lead, hsplit, -, hinsert⟩ := insertSection_eq d
          (Fields.places (fields.takeWhile (·.1 ≠ table))).getLast? [d.newPart [] table]
          (EntryStyle.line.put [] (d.newPart [table] name) v false [])
        rw [← h, hinsert]
        refine rebinds_of_new lead hsplit hroot hhead ?_ hpart hv
        exact congrArg (fun n => [n]) (name_newPart d [] table)
      · cases hsection
  | extended =>
      -- Such a document can not be changed.
      simp only [Document.canChange, Bool.and_eq_true, Bool.not_eq_true'] at hchange
      have hmem := List.contains_iff_mem.2 (origin_mem htable)
      rw [hchange.2] at hmem
      cases hmem
  | dotted =>
      simp only [Document.put?, htable, Option.some.injEq] at h
      rcases hkinds with ⟨-, hexists, hroot, hhead⟩ | ⟨-, ⟨himplied, -⟩ | ⟨hsection, -⟩⟩
      · obtain ⟨p, habove, hp⟩ := first_dotted hexists
        rw [← h, habove]
        exact rebinds_of_dotted hp hpart hroot hhead hv
      · cases himplied
      · cases hsection

/-- The document with a name bound in a table means what the document meant, but for the name. -/
theorem puts_of_put? (hd : d.fields? = some fields) (hchange : d.canChange fields = true)
    (hv : v.data? = some x) (hlaid : d'.Laid) (h : d.put? fields table name v = some d') :
    ∃ fields', d'.fields? = some fields' ∧
      Puts table name x (dataOfFields fields) (dataOfFields fields') := by
  have hrun : runAll d.statements [] = some (unplacedFields fields) := by
    rw [runAll_statements, hd]
    rfl
  have hlookup := lookup_unplaced fields table
  have hat := lookup_runAll hrun table
  rw [hlookup] at hat
  -- It is enough to do so without the places of sections.
  suffices hgoal : ∃ r', runAll d'.statements [] = some r' ∧
      Puts table name x (dataOfFields (unplacedFields fields)) (dataOfFields r') by
    obtain ⟨r', hr', hputs⟩ := hgoal
    rw [runAll_statements] at hr'
    obtain ⟨fields', hfields', rfl⟩ := Option.map_eq_some_iff.1 hr'
    rw [dataOfFields_unplaced, dataOfFields_unplaced] at hputs
    exact ⟨fields', hfields', hputs⟩
  have hrebound : Rebinds table name x d.statements d'.statements →
      ((unplacedFields fields).lookup table = none ∨
        ∃ o before, (unplacedFields fields).lookup table = some (.table o before)) →
      ∃ r', runAll d'.statements [] = some r' ∧
        Puts table name x (dataOfFields (unplacedFields fields)) (dataOfFields r') := by
    intro hrebinds htable
    obtain ⟨r', hr', hrebound⟩ := hrebinds.runAll (wellNamed_of_laid hlaid) hrun htable
    exact ⟨r', hr', hrebound.puts⟩
  cases htable : fields.lookup table with
  | none =>
      rw [htable] at hat hlookup
      simp only [Document.put?, htable, Option.some.injEq] at h
      rw [← h] at hrebound ⊢
      exact hrebound (rebinds_of_missing (eq_nil_of_runAt hat) _ hv) (Or.inl hlookup)
  | some node =>
      rw [htable] at hat hlookup
      cases node with
      | table o inner =>
          have hbecome := ((runAt_under table).1 hat).1
          exact hrebound (rebinds_of_table htable hchange hbecome hv h)
            (Or.inr ⟨o.unplaced, unplacedFields inner, hlookup⟩)
      | tables elements => simp only [Document.put?, htable, reduceCtorEq] at h
      | value w =>
          cases w with
          | table old =>
              simp only [Document.put?, htable, Option.some.injEq] at h
              obtain ⟨r', new, hr', hothers, hnew, hname, hrest⟩ :=
                runAll_braces name hrun hlookup hv
              refine ⟨r', by rw [← h]; exact hr', ?_, old, new, ?_, Or.inr ?_, hname, hrest⟩
              · intro n hn
                rw [Fields.lookup_dataOfFields, Fields.lookup_dataOfFields, hothers n hn]
              · rw [Fields.lookup_dataOfFields, hnew]
                rfl
              · rw [Fields.lookup_dataOfFields, hlookup]
                rfl
          | text _ => simp only [Document.put?, htable, reduceCtorEq] at h
          | integer _ => simp only [Document.put?, htable, reduceCtorEq] at h
          | real => simp only [Document.put?, htable, reduceCtorEq] at h
          | bool _ => simp only [Document.put?, htable, reduceCtorEq] at h
          | moment => simp only [Document.put?, htable, reduceCtorEq] at h
          | list _ => simp only [Document.put?, htable, reduceCtorEq] at h

/-- A name is bound in a table, unless something else than a table stands in its place. -/
theorem put?_eq_none_iff (d : Document) (fields : Fields) (table name : String) (v : Value) :
    d.put? fields table name v = none ↔
      ∃ x, (dataOfFields fields).lookup table = some x ∧ ∀ inner, x ≠ .table inner := by
  rw [Fields.lookup_dataOfFields]
  unfold Document.put?
  dsimp only
  cases fields.lookup table with
  | none =>
      refine iff_of_false (fun h => nomatch h) ?_
      rintro ⟨x, hx, -⟩
      cases hx
  | some node =>
      cases node with
      | table o inner =>
          refine iff_of_false ?_ ?_
          · intro h
            cases o <;> cases h
          · rintro ⟨x, hx, hother⟩
            exact hother _ (Option.some.inj hx).symm
      | tables elements =>
          exact iff_of_true rfl ⟨_, rfl, fun inner h => nomatch h⟩
      | value w =>
          cases w with
          | table old =>
              refine iff_of_false (fun h => nomatch h) ?_
              rintro ⟨x, hx, hother⟩
              exact hother _ (Option.some.inj hx).symm
          | text _ => exact iff_of_true rfl ⟨_, rfl, fun inner h => nomatch h⟩
          | integer _ => exact iff_of_true rfl ⟨_, rfl, fun inner h => nomatch h⟩
          | real => exact iff_of_true rfl ⟨_, rfl, fun inner h => nomatch h⟩
          | bool _ => exact iff_of_true rfl ⟨_, rfl, fun inner h => nomatch h⟩
          | moment => exact iff_of_true rfl ⟨_, rfl, fun inner h => nomatch h⟩
          | list _ => exact iff_of_true rfl ⟨_, rfl, fun inner h => nomatch h⟩

/-! ## Layout -/

/-- Entries on lines of their own are laid out after a name has been bound among them. -/
theorem laid_put (above : Key) {entries : List Entry} (hkey : LaidKey IsBlanks (above ++ [part]))
    (hv : LaidValue depthLimit v) (inFront : Bool) (h : ∀ e ∈ entries, LaidLine e) :
    ∀ e ∈ EntryStyle.line.put above part v inFront entries, LaidLine e :=
  EntryStyle.forall_mem_put .line above part v inFront h fun _ he => he.laid_line hkey hv h

/-- A document is laid out with one more section that is laid out. -/
theorem laid_insertSection {entries : List Entry} (hd : d.Laid) (place : Option Nat)
    (hkey : LaidKey IsBlanks key) (h : ∀ e ∈ entries, LaidLine e) :
    (d.insertSection place key entries).Laid := by
  obtain ⟨before, after, lead, hsplit, hlead, hinsert⟩ := insertSection_eq d place key entries
  rw [hinsert]
  refine ⟨hd.root, ?_, hd.trailing⟩
  have hsections := hd.sections
  rw [hsplit] at hsections
  obtain ⟨hbefore, hafter⟩ := List.forall_mem_append.1 hsections
  have hgap : IsGap lead := by
    rcases hlead with rfl | rfl
    · exact .nil
    · exact .blank (Or.inr (Or.inr rfl)) .nil
  exact List.forall_mem_append.2 ⟨hbefore,
    List.forall_mem_cons.2 ⟨⟨⟨hgap, hkey, is_blanks_nil.isTail⟩, h⟩, hafter⟩⟩

/-- A document is laid out without some of its sections. -/
theorem laid_dropSections (hd : d.Laid) (path : List String) : (d.dropSections path).Laid :=
  ⟨hd.root, fun s hs => hd.sections s (List.mem_filter.1 hs).1, hd.trailing⟩

/-- The part of a key for a new table is laid out as a key. -/
theorem laid_newPart (hd : d.Laid) (hname : (KeyPart.plain name).Laid) (path : List String) :
    LaidKey IsBlanks [d.newPart path name] := by
  have hpart : (d.newPart path name).Laid ∧ (d.newPart path name).tail = [] := by
    unfold Document.newPart
    cases h : d.sectionPart? path name with
    | none => exact ⟨hname, rfl⟩
    | some p =>
        obtain ⟨s, hs, hp⟩ := Option.bind_eq_some_iff.1 h
        have hlaid := (hd.sections s (List.mem_of_find?_eq_some hs)).header.key.parts p
          (List.mem_of_getElem? hp)
        exact ⟨⟨is_blanks_nil, hlaid.spells⟩, rfl⟩
  exact laid_key_singleton hpart.1 (by rw [hpart.2]; exact is_blanks_nil)

/-- An entry is laid out after a name has been bound in its value. -/
theorem laid_putInBraces {e : Entry} (he : LaidLine e) (hname : (KeyPart.plain name).Laid)
    (hv : ∀ depth, LaidValue depth v) : LaidLine (Document.putInBraces name v e) := by
  obtain ⟨lead, key, before, w, after⟩ := e
  cases w with
  | scalar spelling s => exact he
  | array items comma gap => exact he
  | table entries comma gap =>
      refine ⟨he.lead, he.key, he.before, ?_, he.after⟩
      have hvalue := he.value
      dsimp only at hvalue
      generalize depthLimit = depth at hvalue
      cases hvalue with
      | @table depth _ _ _ hentries _ hgap =>
          have hkey : LaidKey IsBlanks ([] ++ [KeyPart.plain name]) :=
            laid_key_singleton hname is_blanks_nil
          have hlaid := laid_entries_iff.1 hentries
          have hput := EntryStyle.forall_mem_put .braces [] (.plain name) v false hlaid
            fun e hmakes => hmakes.laid_entry hkey (hv depth) hlaid
          refine .table (laid_entries_iff.2 hput) ?_ hgap
          intro hnil
          obtain ⟨before, e, after, hcases, -⟩ :=
            EntryStyle.put_cases .braces [] (.plain name) v false entries
          rw [hcases] at hnil
          exact absurd hnil (by simp)

/-- A document that is laid out stays so when a name is bound in one of its tables. -/
theorem laid_put? (hd : d.Laid) (htable : (KeyPart.plain table).Laid)
    (hname : (KeyPart.plain name).Laid) (hv : ∀ depth, LaidValue depth v)
    (h : d.put? fields table name v = some d') : d'.Laid := by
  have hplain : ∀ {n}, (KeyPart.plain n).Laid → LaidKey IsBlanks [KeyPart.plain n] :=
    fun hn => laid_key_singleton hn is_blanks_nil
  have hnil : ∀ e ∈ ([] : List Entry), LaidLine e := fun e he => nomatch he
  have hpart := laid_newPart hd hname [table]
  unfold Document.put? at h
  dsimp only at h
  split at h
  next =>
    obtain rfl := Option.some.inj h
    exact laid_insertSection hd _ (hplain htable)
      (laid_put [] (hplain hname) (hv depthLimit) false hnil)
  next =>
    obtain rfl := Option.some.inj h
    refine ⟨fun e he => ?_, hd.sections, hd.trailing⟩
    obtain ⟨e, hmem, rfl⟩ := List.mem_map.1 he
    split
    next => exact laid_putInBraces (hd.root e hmem) hname hv
    next => exact hd.root e hmem
  next => cases h
  next => cases h
  next =>
    obtain rfl := Option.some.inj h
    have hcleared := laid_dropSections hd [table, name]
    refine ⟨hcleared.root, fun s hs => ?_, hcleared.trailing⟩
    obtain ⟨s, hmem, rfl⟩ := List.mem_map.1 hs
    have hs := hcleared.sections s hmem
    split
    next => exact ⟨hs.header, laid_put [] hpart (hv depthLimit) _ hs.entries⟩
    next => exact hs
  next =>
    obtain rfl := Option.some.inj h
    refine laid_dropSections (laid_insertSection hd _ (laid_newPart hd htable []) ?_) _
    exact laid_put [] hpart (hv depthLimit) false hnil
  next =>
    obtain rfl := Option.some.inj h
    refine laid_dropSections (laid_insertSection hd _ (laid_newPart hd htable []) ?_) _
    exact laid_put [] hpart (hv depthLimit) false hnil
  next =>
    obtain rfl := Option.some.inj h
    have hcleared := laid_dropSections hd [table, name]
    refine ⟨laid_put _ ?_ (hv depthLimit) false hd.root, hcleared.sections, hcleared.trailing⟩
    cases hfind : d.root.find? (sameGroup [table]) with
    | none => exact hpart
    | some e =>
        have he := hd.root e (List.mem_of_find?_eq_some hfind)
        show LaidKey IsBlanks (e.2.1.take 1 ++ [d.newPart [table] name])
        cases hkey : e.2.1 with
        | nil => exact absurd hkey he.key.ne_nil
        | cons p parts =>
            have hp := he.key.parts p (by rw [hkey]; exact List.mem_cons_self)
            have htail : IsBlanks p.tail := by
              have hall := he.key
              rw [hkey] at hall
              cases parts with
              | nil => exact hall.last p rfl
              | cons q parts => exact hall.cons.2.1
            exact laid_key_cons hp htail hpart (show 2 ≤ depthLimit by decide)

end LintWatch.Toml
