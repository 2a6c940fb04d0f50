import LintWatch.Proofs.Toml.Put
import LintWatch.Proofs.Toml.Rebinds

/-!
# A name bound in tables of several kinds

A table of a document is written as a section, with dotted keys, or only as sections below it, and
its statements tell which (`becomeAll_statements`). A name that is bound in the section
(`rebinds_of_head`) or with one more dotted key (`rebinds_of_dotted`) is the only thing that
changes. The same is true of a table in braces: `runAll_braces`.
-/

namespace LintWatch.Toml

variable {d d' : Document} {fields : Fields} {table name : String} {v : Value} {x : Data}
  {G : Statement → List Statement} {o? r? : Option Origin} {sections : List Section} {s : Section}

/-! ## Sections of one table -/

/-- What looks at statements looks at entries and at sections. -/
theorem flatMap_statements (d : Document) (G : Statement → List Statement) :
    d.statements.flatMap G
      = d.root.flatMap (fun e => G e.statement) ++ d.sections.flatMap fun s => G s.statement := by
  rw [Document.statements, List.flatMap_append, List.flatMap_map, List.flatMap_map]

/-- Sections for a name may go for whatever is blind to the name. -/
theorem flatMap_dropSections (h : Blind table name G) (sections : List Section) :
    (sections.filter (!·.isWithin [table, name])).flatMap (fun s => G s.statement)
      = sections.flatMap fun s => G s.statement := by
  refine flatMap_filter_of_nil fun s _ hs => ?_
  refine h.within _ _ _ (List.isPrefixOf_iff_prefix.1 ?_)
  rw [Bool.not_eq_false'] at hs
  exact hs

/-- A section below a table is not of the table itself, and implies the table. -/
theorem become_long (hunder : s.statement.under table = true)
    (hne : Key.names s.header.key ≠ [table]) (o? : Option Origin) :
    s.statement.become o? = some (o?.getD .implied) := by
  have hhead := of_decide_eq_true hunder
  obtain ⟨header, entries⟩ := s
  simp only [Section.statement, Section.said, Statement.names] at hhead hne ⊢
  cases hnames : Key.names header.key with
  | nil =>
      rw [hnames] at hhead
      cases hhead
  | cons first names =>
      rw [hnames] at hhead hne
      obtain rfl := Option.some.inj hhead
      cases names with
      | nil => exact absurd rfl hne
      | cons next names => cases header.isArray <;> rfl

/-- Sections below a table leave it as it is, or imply it. -/
theorem becomeAll_sections (h : ∀ s ∈ sections, Key.names s.header.key ≠ [table])
    (o? : Option Origin) :
    ∃ r?, becomeAll ((sections.map Section.statement).filter (Statement.under table)) o? = some r? ∧
      (r? = o? ∨ o? = none ∧ r? = some .implied) := by
  induction sections generalizing o? with
  | nil => exact ⟨o?, rfl, Or.inl rfl⟩
  | cons s sections ih =>
      obtain ⟨hs, hrest⟩ := List.forall_mem_cons.1 h
      rw [List.map_cons]
      by_cases hunder : s.statement.under table = true
      · rw [List.filter_cons_of_pos hunder, becomeAll_cons, become_long hunder hs]
        obtain ⟨r?, hr, hkind⟩ := ih hrest (some (o?.getD .implied))
        refine ⟨r?, hr, ?_⟩
        rcases hkind with rfl | ⟨hnone, -⟩
        · cases o? with
          | none => exact Or.inr ⟨rfl, rfl⟩
          | some o => exact Or.inl rfl
        · cases hnone
      · rw [List.filter_cons_of_neg hunder]
        exact ih hrest o?

/-- Of the sections under a name that leave a table there, one at most is the section of the
table. -/
theorem sections_cases
    (h : becomeAll ((sections.map Section.statement).filter (Statement.under table)) o? = some r?) :
    (∀ s ∈ sections, Key.names s.header.key ≠ [table]) ∨
      r? = some (.section 0) ∧ (o? = none ∨ o? = some .implied) ∧
        ∃ before s after, sections = before ++ s :: after ∧ s.header.isArray = false ∧
          Key.names s.header.key = [table] ∧
          ∀ o ∈ before ++ after, Key.names o.header.key ≠ [table] := by
  induction sections generalizing o? with
  | nil => exact Or.inl fun s hs => nomatch hs
  | cons s sections ih =>
      rw [List.map_cons] at h
      by_cases hunder : s.statement.under table = true
      · rw [List.filter_cons_of_pos hunder, becomeAll_cons] at h
        obtain ⟨o, hbecome, h⟩ := Option.bind_eq_some_iff.1 h
        by_cases hnames : Key.names s.header.key = [table]
        · -- This is the section of the table, and none of the others is.
          obtain ⟨hkind, harray, rfl⟩ : (o? = none ∨ o? = some .implied) ∧
              s.header.isArray = false ∧ o = .section 0 := by
            simp only [Section.statement, Section.said, hnames] at hbecome
            cases harray : s.header.isArray with
            | true =>
                rw [harray] at hbecome
                cases hbecome
            | false =>
                rw [harray] at hbecome
                rcases o? with _ | (place | _ | _ | _)
                · exact ⟨Or.inl rfl, rfl, (Option.some.inj hbecome).symm⟩
                · cases hbecome
                · exact ⟨Or.inr rfl, rfl, (Option.some.inj hbecome).symm⟩
                · cases hbecome
                · cases hbecome
          rcases ih h with hnone | ⟨-, hstart, -⟩
          · obtain ⟨r', hr', hsame⟩ := becomeAll_sections hnone (some (.section 0))
            rw [h] at hr'
            obtain rfl := Option.some.inj hr'
            rcases hsame with rfl | ⟨hnil, -⟩
            · exact Or.inr ⟨rfl, hkind, [], s, sections, rfl, harray, hnames, hnone⟩
            · cases hnil
          · rcases hstart with hstart | hstart <;> cases hstart
        · rw [become_long hunder hnames] at hbecome
          obtain rfl := Option.some.inj hbecome
          rcases ih h with hnone | ⟨hr, hkind, before, t, after, rfl, harray, hkey, hothers⟩
          · exact Or.inl (List.forall_mem_cons.2 ⟨hnames, hnone⟩)
          · refine Or.inr ⟨hr, ?_, s :: before, t, after, rfl, harray, hkey,
              List.forall_mem_cons.2 ⟨hnames, hothers⟩⟩
            cases o? with
            | none => exact Or.inl rfl
            | some o => exact hkind
      · have hnames : Key.names s.header.key ≠ [table] := by
          intro hkey
          exact hunder (under_head (show s.statement.names = [table] from hkey))
        rw [List.filter_cons_of_neg hunder] at h
        rcases ih h with hnone | ⟨hr, hkind, before, t, after, rfl, harray, hkey, hothers⟩
        · exact Or.inl (List.forall_mem_cons.2 ⟨hnames, hnone⟩)
        · exact Or.inr ⟨hr, hkind, s :: before, t, after, rfl, harray, hkey,
            List.forall_mem_cons.2 ⟨hnames, hothers⟩⟩

/-- A table with a section of its own. -/
theorem becomeAll_head {before after : List Section} (harray : s.header.isArray = false)
    (hkey : Key.names s.header.key = [table])
    (hothers : ∀ o ∈ before ++ after, Key.names o.header.key ≠ [table]) :
    becomeAll (((before ++ s :: after).map Section.statement).filter (Statement.under table)) none
      = some (some (.section 0)) := by
  obtain ⟨hbefore, hafter⟩ := List.forall_mem_append.1 hothers
  have hunder : s.statement.under table = true :=
    under_head (show s.statement.names = [table] from hkey)
  have hbecome : ∀ o?, (o? = none ∨ o? = some .implied) →
      s.statement.become o? = some (.section 0) := by
    intro o? ho
    simp only [Section.statement, Section.said, hkey, harray]
    rcases ho with rfl | rfl <;> rfl
  obtain ⟨r₁, hr₁, hkind⟩ := becomeAll_sections hbefore none
  obtain ⟨r₂, hr₂, hsame⟩ := becomeAll_sections hafter (some (.section 0))
  have hr₁' : r₁ = none ∨ r₁ = some .implied := hkind.imp_right And.right
  have hr₂' : r₂ = some (.section 0) := by
    rcases hsame with rfl | ⟨hnil, -⟩
    · rfl
    · cases hnil
  subst hr₂'
  rw [List.map_append, List.map_cons, List.filter_append, List.filter_cons_of_pos hunder,
    becomeAll_append, hr₁, Option.bind_some, becomeAll_cons, hbecome r₁ hr₁', Option.bind_some, hr₂]

/-- A section below a table says nothing about names that it is not below of. -/
theorem about_eq_nil (hnames : Key.names s.header.key ≠ [table])
    (hwithin : s.isWithin [table, name] = false) : s.statement.about table name = [] := by
  unfold Statement.about
  split
  next hunder =>
    have hhead := of_decide_eq_true hunder
    obtain ⟨header, entries⟩ := s
    simp only [Section.statement, Section.said, Statement.names, Section.isWithin]
      at hhead hnames hwithin ⊢
    cases hkey : Key.names header.key with
    | nil =>
        rw [hkey] at hhead
        cases hhead
    | cons first names =>
        rw [hkey] at hhead hnames hwithin
        obtain rfl := Option.some.inj hhead
        cases names with
        | nil => exact absurd rfl hnames
        | cons next names =>
            have hne : next ≠ name := by
              rintro rfl
              simp at hwithin
            have hbelow : (Statement.section header.isArray (first :: next :: names)
                (entries.map Entry.said)).below
                = [.section header.isArray (next :: names) (entries.map Entry.said)] := by
              cases header.isArray <;> rfl
            rw [hbelow]
            refine List.filter_cons_of_neg ?_
            rw [under_cons rfl]
            simpa using hne
  next => rfl

/-! ## Tables of several kinds -/

/-- A name bound in the section of a table. -/
theorem rebinds_of_head {before after : List Section}
    (hroot : ∀ e ∈ d.root, e.statement.under table = false) (hroot' : d'.root = d.root)
    (hsections : d'.sections = before ++ s :: after) (harray : s.header.isArray = false)
    (hkey : Key.names s.header.key = [table])
    (hothers : ∀ o ∈ before ++ after,
      Key.names o.header.key ≠ [table] ∧ o.isWithin [table, name] = false)
    (hkeen : s.statement.about table name = [.entry [name] (some x)])
    (hblind : ∀ G, Blind table name G →
      d'.sections.flatMap (fun s => G s.statement) = d.sections.flatMap fun s => G s.statement) :
    Rebinds table name x d.statements d'.statements := by
  refine ⟨?_, ?_, .section 0, ?_⟩
  · intro G hG
    rw [flatMap_statements, flatMap_statements, hroot', hblind G hG]
  · have hnone : ∀ e ∈ d.root, e.statement.about table name = [] := by
      intro e he
      unfold Statement.about
      rw [hroot e he]
      rfl
    obtain ⟨hbefore, hafter⟩ := List.forall_mem_append.1 hothers
    rw [flatMap_statements, hroot', hsections, List.flatMap_eq_nil_iff.2 hnone,
      List.flatMap_append, List.flatMap_cons, hkeen,
      List.flatMap_eq_nil_iff.2 fun o ho => about_eq_nil (hbefore o ho).1 (hbefore o ho).2,
      List.flatMap_eq_nil_iff.2 fun o ho => about_eq_nil (hafter o ho).1 (hafter o ho).2]
    rfl
  · have hfilter : (d'.root.map Entry.statement).filter (Statement.under table) = [] := by
      rw [hroot', List.filter_eq_nil_iff]
      intro e he
      obtain ⟨e, hmem, rfl⟩ := List.mem_map.1 he
      rw [hroot e hmem]
      exact Bool.false_ne_true
    rw [Document.statements, List.filter_append, hfilter, hsections]
    exact becomeAll_head harray hkey fun o ho => (hothers o ho).1

/-- An entry is under a name when it is in the group of the name. -/
theorem under_eq_sameGroup (table : String) (e : Entry) :
    e.statement.under table = sameGroup [table] e := by
  unfold sameGroup
  rw [Bool.eq_iff_iff, List.isPrefixOf_iff_prefix]
  refine decide_eq_true_iff.trans ?_
  show (Key.names e.2.1).head? = some table ↔ _
  constructor
  · intro h
    obtain ⟨names, hnames⟩ := List.head?_eq_some_iff.1 h
    rw [hnames]
    exact List.prefix_append [table] names
  · rintro ⟨names, hnames⟩
    rw [← hnames]
    rfl

/-- Entries that leave a table under a name do not bind the name itself. -/
theorem names_ne_of_becomeAll {entries : List Entry}
    (h : becomeAll ((entries.map Entry.statement).filter (Statement.under table)) o? = some r?) :
    ∀ e ∈ entries, Key.names e.2.1 ≠ [table] := by
  induction entries generalizing o? with
  | nil => exact fun e he => nomatch he
  | cons e entries ih =>
      rw [List.map_cons] at h
      by_cases hunder : e.statement.under table = true
      · rw [List.filter_cons_of_pos hunder, becomeAll_cons] at h
        obtain ⟨o, hbecome, h⟩ := Option.bind_eq_some_iff.1 h
        refine List.forall_mem_cons.2 ⟨fun hkey => ?_, ih h⟩
        simp only [Entry.statement, Entry.said, hkey] at hbecome
        cases hbecome
      · rw [List.filter_cons_of_neg hunder] at h
        refine List.forall_mem_cons.2 ⟨fun hkey => hunder ?_, ih h⟩
        exact under_head (show e.statement.names = [table] from hkey)

/-- Dotted keys bring a table about. -/
theorem becomeAll_entries {entries : List Entry} (h : ∀ e ∈ entries, Key.names e.2.1 ≠ [table])
    (ho : o? = none ∨ o? = some .dotted) :
    ∃ r?, becomeAll ((entries.map Entry.statement).filter (Statement.under table)) o? = some r? ∧
      (r? = some .dotted ∨ r? = none ∧ ∀ e ∈ entries, e.statement.under table = false) := by
  induction entries generalizing o? with
  | nil =>
      refine ⟨o?, rfl, ?_⟩
      rcases ho with rfl | rfl
      · exact Or.inr ⟨rfl, fun e he => nomatch he⟩
      · exact Or.inl rfl
  | cons e entries ih =>
      obtain ⟨he, hrest⟩ := List.forall_mem_cons.1 h
      rw [List.map_cons]
      by_cases hunder : e.statement.under table = true
      · have hbecome : e.statement.become o? = some .dotted := by
          have hhead := of_decide_eq_true hunder
          simp only [Entry.statement, Entry.said, Statement.names] at hhead ⊢
          cases hkey : Key.names e.2.1 with
          | nil =>
              rw [hkey] at hhead
              cases hhead
          | cons first names =>
              rw [hkey] at hhead he
              obtain rfl := Option.some.inj hhead
              cases names with
              | nil => exact absurd rfl he
              | cons next names =>
                  rcases ho with rfl | rfl
                  · rfl
                  · exact congrArg some (ite_self _)
        rw [List.filter_cons_of_pos hunder, becomeAll_cons, hbecome]
        obtain ⟨r?, hr, hkind⟩ := ih hrest (Or.inr rfl)
        have hdotted : r? = some .dotted := by
          rcases hkind with hdotted | ⟨rfl, hnone⟩
          · exact hdotted
          · -- Without further entries the table is as the first one left it.
            have hnil : (entries.map Entry.statement).filter (Statement.under table) = [] := by
              rw [List.filter_eq_nil_iff]
              intro s hs
              obtain ⟨o, hmem, rfl⟩ := List.mem_map.1 hs
              rw [hnone o hmem]
              exact Bool.false_ne_true
            rw [hnil] at hr
            cases hr
        exact ⟨r?, hr, Or.inl hdotted⟩
      · rw [List.filter_cons_of_neg hunder]
        obtain ⟨r?, hr, hkind⟩ := ih hrest ho
        refine ⟨r?, hr, hkind.imp_right fun ⟨hnil, hnone⟩ => ⟨hnil, ?_⟩⟩
        exact List.forall_mem_cons.2 ⟨Bool.eq_false_iff.2 hunder, hnone⟩

/-- How the entries and the sections of a document bring about a table. -/
theorem becomeAll_statements {o : Origin}
    (h : becomeAll (d.statements.filter (Statement.under table)) none = some (some o)) :
    (o = .dotted ∧ (∃ e ∈ d.root, e.statement.under table = true) ∧
      (∀ e ∈ d.root, Key.names e.2.1 ≠ [table]) ∧
      ∀ s ∈ d.sections, Key.names s.header.key ≠ [table]) ∨
    (∀ e ∈ d.root, e.statement.under table = false) ∧
      (o = .implied ∧ (∀ s ∈ d.sections, Key.names s.header.key ≠ [table]) ∨
        o = .section 0 ∧ ∃ before s after, d.sections = before ++ s :: after ∧
          s.header.isArray = false ∧ Key.names s.header.key = [table] ∧
          ∀ t ∈ before ++ after, Key.names t.header.key ≠ [table]) := by
  rw [Document.statements, List.filter_append, becomeAll_append] at h
  obtain ⟨o?, hroot, hsections⟩ := Option.bind_eq_some_iff.1 h
  have hnames := names_ne_of_becomeAll hroot
  obtain ⟨r?, hr, hkind⟩ := becomeAll_entries hnames (Or.inl rfl)
  rw [hroot] at hr
  obtain rfl := Option.some.inj hr
  rcases hkind with rfl | ⟨rfl, hnone⟩
  · left
    rcases sections_cases hsections with hhead | ⟨-, hstart, -⟩
    · obtain ⟨r?, hr, hsame⟩ := becomeAll_sections hhead (some .dotted)
      rw [hsections] at hr
      obtain rfl := Option.some.inj hr
      rcases hsame with hdotted | ⟨hnil, -⟩
      · refine ⟨Option.some.inj hdotted, ?_, hnames, hhead⟩
        by_contra hno
        have hnil : (d.root.map Entry.statement).filter (Statement.under table) = [] := by
          rw [List.filter_eq_nil_iff]
          intro s hs
          obtain ⟨e, hmem, rfl⟩ := List.mem_map.1 hs
          exact fun hunder => hno ⟨e, hmem, hunder⟩
        rw [hnil] at hroot
        cases hroot
      · cases hnil
    · rcases hstart with hstart | hstart <;> cases hstart
  · refine Or.inr ⟨hnone, ?_⟩
    rcases sections_cases hsections with hhead | ⟨hsection, -, hsplit⟩
    · left
      obtain ⟨r?, hr, hsame⟩ := becomeAll_sections hhead none
      rw [hsections] at hr
      obtain rfl := Option.some.inj hr
      rcases hsame with hnil | ⟨-, himplied⟩
      · cases hnil
      · exact ⟨Option.some.inj himplied, hhead⟩
    · exact Or.inr ⟨Option.some.inj hsection, hsplit⟩

/-- A name bound in a table with dotted keys. -/
theorem rebinds_of_dotted {p part : KeyPart} (hp : p.name = table) (hpart : part.name = name)
    (hroot : ∀ e ∈ d.root, Key.names e.2.1 ≠ [table])
    (hsections : ∀ s ∈ d.sections, Key.names s.header.key ≠ [table]) (hv : v.data? = some x) :
    Rebinds table name x d.statements
      { d.dropSections [table, name] with
        root := EntryStyle.line.put [p] part v false d.root }.statements := by
  have hkey : Key.names ([p] ++ [part]) = [table, name] := by
    simp only [Key.names, List.map_append, List.map_cons, List.map_nil, hp, hpart]
    rfl
  refine ⟨?_, ?_, .dotted, ?_⟩
  · intro G hG
    have hput := EntryStyle.flatMap_put_of_blind (g := fun said => G (.entry said.1 said.2))
      .line [p] part v false (fun said hsaid => hG.entry _ _ (hkey ▸ hsaid)) d.root
    rw [flatMap_statements, flatMap_statements]
    exact congrArg₂ (· ++ ·) hput (flatMap_dropSections hG d.sections)
  · have hput := EntryStyle.flatMap_put_of_keen
      (g := fun said => (Statement.entry said.1 said.2).about table name) .line [p] part v false ?_
      d.root
    · have hnone : ∀ s ∈ d.sections.filter (!·.isWithin [table, name]),
          s.statement.about table name = [] := by
        intro s hs
        obtain ⟨hmem, hwithin⟩ := List.mem_filter.1 hs
        exact about_eq_nil (hsections s hmem) (by simpa using hwithin)
      rw [flatMap_statements]
      show (EntryStyle.line.put [p] part v false d.root).flatMap _ ++
        (d.sections.filter (!·.isWithin [table, name])).flatMap _ = _
      rw [List.flatMap_eq_nil_iff.2 hnone, List.append_nil]
      refine hput.trans ?_
      rw [hkey, hv]
      simp [Statement.about, Statement.under, Statement.names, Statement.below]
    · rintro ⟨names, value⟩ hsaid
      rw [hkey] at hsaid
      unfold Statement.about
      split
      next hunder =>
        have hhead := of_decide_eq_true hunder
        cases names with
        | nil => cases hhead
        | cons first names =>
            obtain rfl := Option.some.inj hhead
            refine List.filter_cons_of_neg fun hunder => hsaid ?_
            have hnext := of_decide_eq_true hunder
            obtain ⟨more, rfl⟩ := List.head?_eq_some_iff.1 hnext
            exact ⟨more, rfl⟩
      next => rfl
  · have hnames : ∀ e ∈ EntryStyle.line.put [p] part v false d.root, Key.names e.2.1 ≠ [table] := by
      refine EntryStyle.forall_mem_put _ [p] part v false hroot fun e he => ?_
      rw [show Key.names e.2.1 = [table, name] from (congrArg Prod.fst he.said).trans hkey]
      simp
    obtain ⟨r?, hr, hkind⟩ := becomeAll_entries hnames (Or.inl rfl)
    have hdotted : r? = some .dotted := by
      rcases hkind with hdotted | ⟨-, hnone⟩
      · exact hdotted
      · obtain ⟨before, e, after, hput, -, he⟩ :=
          EntryStyle.put_cases .line [p] part v false d.root
        have hunder := hnone e (by rw [hput]; exact List.mem_append_right _ List.mem_cons_self)
        have hsaid : e.said.1 = [table, name] := (congrArg Prod.fst he.said).trans hkey
        simp [Entry.statement, Statement.under, Statement.names, hsaid] at hunder
    subst hdotted
    have hkept : ∀ s ∈ d.sections.filter (!·.isWithin [table, name]),
        Key.names s.header.key ≠ [table] := fun s hs => hsections s (List.mem_filter.1 hs).1
    obtain ⟨r?, hr', hsame⟩ := becomeAll_sections hkept (some .dotted)
    rw [Document.statements, List.filter_append, becomeAll_append]
    show (becomeAll (((EntryStyle.line.put [p] part v false d.root).map _).filter _)
      none).bind _ = _
    rw [hr, Option.bind_some]
    refine hr'.trans ?_
    rcases hsame with rfl | ⟨hnil, -⟩
    · rfl
    · cases hnil

/-! ## Tables in braces -/

/-- Statements that do something have keys with names. -/
theorem names_of_runAll {statements : List Statement} {fs r : Fields}
    (h : runAll statements fs = some r) : ∀ s ∈ statements, s.names ≠ [] := by
  induction statements generalizing fs with
  | nil => exact fun s hs => nomatch hs
  | cons s statements ih =>
      rw [runAll_cons] at h
      obtain ⟨fs', hs, hrest⟩ := Option.bind_eq_some_iff.1 h
      refine List.forall_mem_cons.2 ⟨?_, ih hrest⟩
      intro hnil
      obtain ⟨first, hunder⟩ := exists_under hs
      have hhead := of_decide_eq_true hunder
      rw [hnil] at hhead
      cases hhead

/-- What entries say under other names stays when a name is bound among them. -/
theorem filter_put_other {n : String} {part : KeyPart} (hn : n ≠ part.name) (style : EntryStyle)
    (v : Value) (inFront : Bool) (entries : List Entry) :
    ((style.put [] part v inFront entries).map Entry.statement).filter (Statement.under n)
      = (entries.map Entry.statement).filter (Statement.under n) := by
  rw [filter_eq_flatMap, filter_eq_flatMap, List.flatMap_map, List.flatMap_map]
  refine EntryStyle.flatMap_put_of_blind (g := fun said =>
    if (Statement.entry said.1 said.2).under n then [Statement.entry said.1 said.2] else [])
    style [] part v inFront ?_ entries
  rintro ⟨names, value⟩ ⟨rest, rfl⟩
  have hunder : (Statement.entry (part.name :: rest) value).under n = decide (part.name = n) :=
    under_cons rfl
  refine if_neg ?_
  show ¬ (Statement.entry (part.name :: rest) value).under n = true
  rw [hunder]
  simpa using Ne.symm hn

/-- What entries say under a name that has been bound among them. -/
theorem filter_put_self (part : KeyPart) (style : EntryStyle) (v : Value) (inFront : Bool)
    (entries : List Entry) :
    ((style.put [] part v inFront entries).map Entry.statement).filter (Statement.under part.name)
      = [.entry [part.name] v.data?] := by
  rw [filter_eq_flatMap, List.flatMap_map]
  have hput := EntryStyle.flatMap_put_of_keen (g := fun said =>
    if (Statement.entry said.1 said.2).under part.name then [Statement.entry said.1 said.2] else [])
    style [] part v inFront ?_ entries
  · exact hput.trans (if_pos (under_head rfl))
  · rintro ⟨names, value⟩ hnames
    refine if_neg fun hunder => hnames ?_
    obtain ⟨rest, hrest⟩ := List.head?_eq_some_iff.1 (of_decide_eq_true hunder)
    exact ⟨rest, hrest.symm⟩

/-- A name bound among the entries in braces. -/
theorem bindEntries?_put (name : String) {entries : List Entry} {fs : Fields}
    (hv : v.data? = some x) (h : bindEntries? [] entries = some fs) :
    ∃ fs', bindEntries? [] (EntryStyle.braces.put [] (.plain name) v false entries) = some fs' ∧
      fs'.lookup name = some (.value x) ∧ ∀ n, n ≠ name → fs'.lookup n = fs.lookup n := by
  rw [← runAll_entries] at h
  rw [← runAll_entries]
  refine runAll_change h ?_ (fun n hn => filter_put_other hn .braces v false entries) ?_
  · intro s hs
    obtain ⟨e, he, rfl⟩ := List.mem_map.1 hs
    refine EntryStyle.forall_mem_put (P := fun e => e.statement.names ≠ []) _ [] (.plain name) v
      false ?_ ?_ e he
    · exact fun e he => names_of_runAll h _ (List.mem_map_of_mem he)
    · intro e he
      show e.said.1 ≠ []
      rw [he.said]
      exact List.cons_ne_nil name []
  · have hself := filter_put_self (.plain name) .braces v false entries
    rw [hv] at hself
    rw [show (KeyPart.plain name).name = name from rfl] at hself
    rw [hself]
    rfl

/-- An entry whose value is a table has the table in braces. -/
theorem table_of_data? {w : Value} {old : List (String × Data)} (h : w.data? = some (.table old)) :
    ∃ entries comma gap fs, w = .table entries comma gap ∧ bindEntries? [] entries = some fs ∧
      old = dataOfFields fs := by
  cases w with
  | scalar spelling s => cases s <;> cases h
  | array items comma gap =>
      obtain ⟨ds, -, hds⟩ := Option.map_eq_some_iff.1 h
      cases hds
  | table entries comma gap =>
      obtain ⟨fs, hfs, hold⟩ := Option.map_eq_some_iff.1 h
      cases hold
      exact ⟨entries, comma, gap, fs, rfl, hfs, rfl⟩

/-- An entry with a name bound in its value, when it is the one for a table. -/
def rebrace (table name : String) (v : Value) (e : Entry) : Entry :=
  if Key.names e.2.1 = [table] then Document.putInBraces name v e else e

/-- The key of an entry stays when a name is bound in its value. -/
theorem names_rebrace (e : Entry) :
    (rebrace table name v e).statement.names = e.statement.names := by
  unfold rebrace
  split
  next =>
    obtain ⟨lead, key, before, w, after⟩ := e
    cases w <;> rfl
  next => rfl

/-- A name bound in a table in braces. -/
theorem runAll_braces (name : String) {r : Fields} {old : List (String × Data)}
    (hd : runAll d.statements [] = some r)
    (hold : r.lookup table = some (.value (.table old))) (hv : v.data? = some x) :
    ∃ r' new,
      runAll (Document.statements { d with root := d.root.map (rebrace table name v) }) []
        = some r' ∧
      (∀ n, n ≠ table → r'.lookup n = r.lookup n) ∧
      r'.lookup table = some (.value (.table new)) ∧
      new.lookup name = some x ∧ ∀ n, n ≠ name → new.lookup n = old.lookup n := by
  have hnames := names_of_runAll hd
  have hat := lookup_runAll hd table
  rw [hold] at hat
  obtain ⟨first, hsingle⟩ := eq_singleton_of_runAt hat
  -- The statement is an entry, for only an entry has a value.
  have hfirst : (Statement.entry [first] (some (.table old))).under table = true := by
    have hmem : Statement.entry [first] (some (.table old))
        ∈ d.statements.filter (Statement.under table) := by
      rw [hsingle]
      exact List.mem_cons_self
    exact (List.mem_filter.1 hmem).2
  obtain rfl : first = table := by
    rw [under_cons rfl] at hfirst
    exact of_decide_eq_true hfirst
  rw [Document.statements, List.filter_append] at hsingle
  have hsections : (d.sections.map Section.statement).filter (Statement.under first) = [] := by
    rcases List.append_eq_singleton_iff.1 hsingle with ⟨-, hsection⟩ | ⟨-, hnil⟩
    · have hmem : Statement.entry [first] (some (.table old))
          ∈ (d.sections.map Section.statement).filter (Statement.under first) := by
        rw [hsection]
        exact List.mem_cons_self
      obtain ⟨s, -, hs⟩ := List.mem_map.1 (List.mem_filter.1 hmem).1
      cases hs
    · exact hnil
  rw [hsections, List.append_nil, List.filter_map] at hsingle
  obtain ⟨e, he, hstatement⟩ := List.map_eq_singleton_iff.1 hsingle
  obtain ⟨hkey, hdata⟩ : Key.names e.2.1 = [first] ∧ e.2.2.2.1.data? = some (.table old) := by
    injection hstatement with hkey hdata
    exact ⟨hkey, hdata⟩
  obtain ⟨entries, comma, gap, fs, hw, hfs, rfl⟩ := table_of_data? hdata
  obtain ⟨fs', hput, hname, hothers⟩ := bindEntries?_put name hv hfs
  have hchanged : (Document.putInBraces name v e).statement
      = .entry [first] (some (.table (dataOfFields fs'))) := by
    obtain ⟨lead, key, before, w, after⟩ := e
    obtain rfl : w = _ := hw
    have hmeaning : Value.data? (.table (EntryStyle.braces.put [] (.plain name) v false entries)
        comma gap) = some (.table (dataOfFields fs')) := by
      rw [Value.data?, hput]
      rfl
    show Statement.entry (Key.names key) _ = _
    rw [show Key.names key = [first] from hkey]
    exact congrArg (Statement.entry [first]) hmeaning
  have hunder : ∀ n, (Statement.under n ∘ Entry.statement) ∘ rebrace first name v
      = Statement.under n ∘ Entry.statement := by
    intro n
    funext o
    simp only [Function.comp_apply, Statement.under, names_rebrace]
  have hfilter : ∀ n, ((d.root.map (rebrace first name v)).map Entry.statement).filter
      (Statement.under n) = ((d.root.filter (Statement.under n ∘ Entry.statement)).map
        (rebrace first name v)).map Entry.statement := by
    intro n
    rw [List.filter_map, List.filter_map, hunder]
  have hnew : runAt (Document.statements { d with root := d.root.map (rebrace first name v) }
      |>.filter (Statement.under first)) none
        = some (some (.value (.table (dataOfFields fs')))) := by
    rw [Document.statements, List.filter_append, hfilter, he, hsections, List.append_nil]
    show runAt [(rebrace first name v e).statement] none = _
    rw [rebrace, if_pos hkey, hchanged]
    rfl
  have hchangedNames : ∀ s ∈ Document.statements
      { d with root := d.root.map (rebrace first name v) }, s.names ≠ [] := by
    intro s hs
    rcases List.mem_append.1 hs with hs | hs
    · obtain ⟨o', ho', rfl⟩ := List.mem_map.1 hs
      obtain ⟨o, ho, rfl⟩ := List.mem_map.1 ho'
      rw [names_rebrace]
      exact hnames _ (List.mem_append_left _ (List.mem_map_of_mem ho))
    · exact hnames s (List.mem_append_right _ hs)
  have hsame : ∀ n, n ≠ first →
      (Document.statements { d with root := d.root.map (rebrace first name v) }).filter
        (Statement.under n) = d.statements.filter (Statement.under n) := by
    intro n hn
    rw [Document.statements, Document.statements, List.filter_append, List.filter_append, hfilter,
      List.filter_map (f := Entry.statement), List.map_map]
    congr 1
    refine List.map_congr_left fun o ho => ?_
    have hne : Key.names o.2.1 ≠ [first] := by
      intro hnames
      have hhead := of_decide_eq_true (List.mem_filter.1 ho).2
      rw [show o.statement.names = [first] from hnames] at hhead
      exact hn (Option.some.inj hhead).symm
    rw [Function.comp_apply, rebrace, if_neg hne]
  obtain ⟨r', hr', hlookup, hrest⟩ := runAll_change hd hchangedNames hsame hnew
  refine ⟨r', dataOfFields fs', hr', hrest, hlookup, ?_, ?_⟩
  · rw [Fields.lookup_dataOfFields, hname]
    rfl
  · intro n hn
    rw [Fields.lookup_dataOfFields, Fields.lookup_dataOfFields, hothers n hn]

end LintWatch.Toml
