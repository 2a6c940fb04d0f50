import Mathlib.Data.List.Perm.Basic
import LintWatch.Proofs.Toml.DocumentComments
import LintWatch.Proofs.Toml.Edit
import LintWatch.Proofs.Toml.Tidy

/-!
# The comments that a change loses

Binding a name in a table keeps every comment of a document but for those that go with the old
value: `Document.lost`. These are the comments behind the equals sign of the entry for the name, and
all comments of the entries and sections that have to go because they are for names below it. All
others are kept, each as often as it occurs (`comments_put?`), and bringing dotted keys together
loses none (`comments_tidy`).
-/

namespace LintWatch.Toml

/-- The comments that are lost when a key with these names is bound among entries: of the first
entry for it, or for a name below it, those behind the equals sign, or all when the key of the entry
has further names; and all of the others that are in the way. -/
def lostAmong (names : List String) (entries : List Entry) : List (List Char) :=
  match entries.filter (sameGroup names) with
  | [] => []
  | e :: more =>
    (if Key.names e.2.1 = names then e.valueComments else e.comments) ++ more.flatMap Entry.comments

/-- The comments that are lost when a name is bound in the value of the entry for a table. -/
def Entry.lostInBraces (table name : String) (e : Entry) : List (List Char) :=
  if Key.names e.2.1 = [table] then
    match e.2.2.2.1 with
    | .table entries _ _ => lostAmong [name] entries
    | _ => []
  else []

/-- The comments of a section that are lost when a name is bound in a table. -/
def Section.lost (table name : String) (s : Section) : List (List Char) :=
  if s.isWithin [table, name] then s.comments
  else if Key.names s.header.key = [table] then lostAmong [name] s.entries
  else []

/-- The comments that are lost when a name is bound in a table. -/
def Document.lost (table name : String) (d : Document) : List (List Char) :=
  lostAmong [table, name] d.root ++ d.root.flatMap (Entry.lostInBraces table name) ++
    d.sections.flatMap (Section.lost table name)

variable {d d' : Document} {fields : Fields} {table name : String} {v : Value}
  {names : List String} {entries : List Entry} {e : Entry} {s : Section}

/-! ## Lists -/

/-- What is kept and lost of each element is kept and lost of all. -/
theorem perm_flatMap_append {α β : Type} {f g k : α → List β} {l : List α}
    (h : ∀ a ∈ l, (g a ++ k a).Perm (f a)) :
    (l.flatMap g ++ l.flatMap k).Perm (l.flatMap f) :=
  (List.flatMap_append_perm l g k).trans (List.Perm.flatMap_left l h)

/-- Of entries that are not in the way none is. -/
theorem filter_sameGroup_eq_nil (h : ∀ e ∈ entries, sameGroup names e = false) :
    entries.filter (sameGroup names) = [] :=
  List.filter_eq_nil_iff.2 fun e he => Bool.eq_false_iff.1 (h e he)

/-- Nothing is lost where no entry is in the way. -/
theorem lostAmong_eq_nil (h : ∀ e ∈ entries, sameGroup names e = false) :
    lostAmong names entries = [] := by
  rw [lostAmong, filter_sameGroup_eq_nil h]

/-! ## Bringing dotted keys together -/

/-- The last part of a key is not spelled anew. -/
theorem comments_respell (key first : List KeyPart) :
    Key.comments (respell key first) = Key.comments key := by
  have hlast : (respell key first).getLast? = key.getLast? := by
    fun_induction respell key first with
    | case1 p q rest f first h ih =>
        have hne : respell (q :: rest) first ≠ [] := by
          intro hnil
          have hnames := names_respell (q :: rest) first
          rw [hnil] at hnames
          cases hnames
        rw [List.getLast?_cons_cons, ← ih]
        exact List.getLast?_cons_of_ne_nil hne
    | case2 => rfl
    | case3 => rfl
  rw [Key.comments, Key.comments, hlast]

/-- What is seen in entries is seen when they have been brought together. -/
theorem perm_group {α : Type} {f : Entry → List α}
    (hf : ∀ e o : Entry, f (o.1, respell o.2.1 e.2.1, o.2.2) = f o) (depth fuel : Nat)
    (entries : List Entry) : ((group depth fuel entries).flatMap f).Perm (entries.flatMap f) := by
  induction fuel generalizing depth entries with
  | zero => exact .refl _
  | succ fuel ih =>
      cases entries with
      | nil => exact .refl _
      | cons e rest =>
          simp only [group]
          split
          next => exact (ih depth rest).append_left (f e)
          next =>
            generalize (Key.names e.2.1).take (depth + 1) = names
            have hspelled : ((rest.filter (sameGroup names)).map fun o : Entry =>
                (o.1, respell o.2.1 e.2.1, o.2.2)).flatMap f
                  = (rest.filter (sameGroup names)).flatMap f := by
              rw [List.flatMap_map]
              exact List.flatMap_congr fun o _ => hf e o
            have hmine := ih (depth + 1) (e :: (rest.filter (sameGroup names)).map fun o : Entry =>
              (o.1, respell o.2.1 e.2.1, o.2.2))
            rw [List.flatMap_cons, hspelled] at hmine
            have hsplit := (List.filter_append_perm (sameGroup names) rest).flatMap_right f
            rw [List.flatMap_append] at hsplit
            rw [List.flatMap_append, List.flatMap_cons]
            refine (hmine.append (ih depth _)).trans ?_
            rw [List.append_assoc]
            exact hsplit.append_left (f e)

/-- Entries that are brought together keep their comments. -/
theorem comments_tidyEntries (entries : List Entry) :
    ((tidyEntries entries).flatMap Entry.comments).Perm (entries.flatMap Entry.comments) := by
  refine perm_group ?_ _ _ entries
  intro e o
  simp only [Entry.comments, comments_respell]
  rfl

mutual

/-- A value keeps its comments when the entries in it are brought together. -/
theorem Value.comments_tidy (v : Value) : v.tidy.comments.Perm v.comments := by
  cases v with
  | scalar spelling s => exact .refl _
  | array items comma gap => exact (comments_tidyItems items).append_right _
  | table entries comma gap =>
      rw [Value.tidy, Value.comments, Value.comments, entryComments_eq, entryComments_eq]
      exact ((comments_tidyEntries _).trans (comments_tidyValues entries)).append_right _

/-- Elements keep their comments when the entries in them are brought together. -/
theorem comments_tidyItems (items : List (List Char × Value × List Char)) :
    (itemComments (tidyItems items)).Perm (itemComments items) := by
  cases items with
  | nil => exact .refl _
  | cons i items =>
      obtain ⟨before, v, after⟩ := i
      rw [tidyItems, itemComments, itemComments]
      exact (((Value.comments_tidy v).append_left _).append_right _).append
        (comments_tidyItems items)

/-- Entries keep their comments when the entries in their values are brought together. -/
theorem comments_tidyValues (entries : List Entry) :
    ((tidyValues entries).flatMap Entry.comments).Perm (entries.flatMap Entry.comments) := by
  cases entries with
  | nil => exact .refl _
  | cons e entries =>
      obtain ⟨lead, key, before, v, after⟩ := e
      rw [tidyValues, List.flatMap_cons, List.flatMap_cons]
      refine List.Perm.append ?_ (comments_tidyValues entries)
      exact (((Value.comments_tidy v).append_left _).append_right _).append_left _

end

/-- A document keeps its comments when dotted keys are brought together. -/
theorem comments_tidy (d : Document) : d.tidy.comments.Perm d.comments := by
  have htable : ∀ entries : List Entry, ((tidyEntries (tidyValues entries)).flatMap
      Entry.comments).Perm (entries.flatMap Entry.comments) := fun entries =>
    (comments_tidyEntries _).trans (comments_tidyValues entries)
  refine List.Perm.append_right _ ((htable d.root).append ?_)
  rw [Document.tidy, List.flatMap_map]
  exact List.Perm.flatMap_left _ fun s _ => (htable s.entries).append_left _

/-! ## Binding a name among entries -/

namespace EntryStyle

variable {style : EntryStyle}

/-- Entries are set without comments. -/
def Quiet (style : EntryStyle) : Prop :=
  commentsIn style.lead = [] ∧ commentsIn style.lastTail = []

/-- Entries on lines of their own are set without comments. -/
theorem quiet_line : line.Quiet :=
  ⟨commentsIn_nil, commentsIn_nil⟩

/-- Entries in braces are set without comments. -/
theorem quiet_braces : braces.Quiet :=
  ⟨is_blanks_blank.commentsIn_eq, is_blanks_blank.commentsIn_eq⟩

/-- Behind a new value stands no comment. -/
theorem Quiet.after (h : style.Quiet) (isLast : Bool) :
    commentsIn (if isLast then style.lastTail else []) = [] := by
  cases isLast with
  | true => exact h.2
  | false => exact commentsIn_nil

/-- A new entry has no comments. -/
theorem Quiet.comments_entry (h : style.Quiet) (hv : v.comments = []) (key : Key) (isLast : Bool) :
    (style.entry key v isLast).comments = [] := by
  have hkey : Key.comments (style.entry key v isLast).2.1 = [] := by
    rcases List.eq_nil_or_concat' key with rfl | ⟨init, last, rfl⟩
    · rfl
    · simpa [entry, Key.comments] using is_blanks_blank.commentsIn_eq
  have hblank := is_blanks_blank.commentsIn_eq
  rw [Entry.comments, hkey]
  simp [Entry.valueComments, entry, h.1, hblank, hv, h.after isLast]

/-- A new value leaves the comments up to the equals sign. -/
theorem Quiet.comments_replace (h : style.Quiet) (hv : v.comments = []) (e : Entry)
    (isLast : Bool) :
    (style.replace e v isLast).comments = commentsIn e.1 ++ Key.comments e.2.1 := by
  have hblank := is_blanks_blank.commentsIn_eq
  simp [Entry.comments, Entry.valueComments, replace, hblank, hv, h.after isLast]

/-- Binding a name among entries keeps the comments that are not lost with the old value. -/
theorem Quiet.comments_put (h : style.Quiet) (hv : v.comments = []) (above : Key) (part : KeyPart)
    (inFront : Bool) (entries : List Entry) :
    ((style.put above part v inFront entries).flatMap Entry.comments
      ++ lostAmong (Key.names above ++ [part.name]) entries).Perm
        (entries.flatMap Entry.comments) := by
  generalize hnames : Key.names above ++ [part.name] = names
  unfold put
  simp only [hnames]
  split
  next hnone =>
    have hfresh := h.comments_entry hv (above ++ [part])
    rw [lostAmong_eq_nil (List.findIdx?_eq_none_iff.1 hnone), List.append_nil]
    split
    next => rw [List.flatMap_cons, hfresh, List.nil_append]
    next =>
      rw [List.flatMap_append, List.flatMap_cons, hfresh, List.nil_append, List.flatMap_nil,
        List.append_nil]
  next i hsome =>
    obtain ⟨before, o, after, rfl, rfl, ho, hbefore⟩ := split_of_findIdx? hsome
    have htake : (before ++ o :: after).take before.length = before := List.take_left
    have hdrop : (before ++ o :: after).drop before.length = o :: after := List.drop_left
    have hdrop' : (before ++ o :: after).drop (before.length + 1) = after := by
      rw [← List.drop_drop, hdrop]
      rfl
    have hfilter : (before ++ o :: after).filter (sameGroup names)
        = o :: after.filter (sameGroup names) := by
      rw [List.filter_append, filter_sameGroup_eq_nil hbefore, List.filter_cons_of_pos ho]
      rfl
    have hafter := (List.filter_append_perm (sameGroup names) after).flatMap_right Entry.comments
    rw [List.flatMap_append] at hafter
    rw [htake, hdrop, hdrop', lostAmong, hfilter]
    dsimp only
    generalize (after.filter (!sameGroup names ·)).isEmpty = isLast
    generalize hchanged : (if Key.names o.2.1 = names then style.replace o v isLast
      else style.entry (o.2.1.take names.length) v isLast) = changed
    -- The first entry keeps what it does not lose.
    have hfirst : changed.comments ++ (if Key.names o.2.1 = names then o.valueComments
        else o.comments) = o.comments := by
      rw [← hchanged]
      split
      next => rw [h.comments_replace hv, Entry.comments]
      next => rw [h.comments_entry hv, List.nil_append]
    generalize (if Key.names o.2.1 = names then o.valueComments else o.comments) = lost at hfirst ⊢
    simp only [List.take_succ_cons, List.take_zero, List.map_cons, List.map_nil, hchanged,
      List.flatMap_append, List.flatMap_cons, List.flatMap_nil, List.append_nil]
    rw [← hfirst]
    refine List.perm_iff_count.2 fun c => ?_
    have hcount := List.perm_iff_count.1 hafter c
    simp only [List.count_append] at hcount ⊢
    omega

end EntryStyle

/-! ## Binding a name in a table -/

/-- An entry for a name in a table, or for one below it, is under the table. -/
theorem under_of_sameGroup (h : sameGroup [table, name] e = true) :
    e.statement.under table = true := by
  rw [under_eq_sameGroup]
  refine List.isPrefixOf_iff_prefix.2 ?_
  exact (List.prefix_append [table] [name]).trans (List.isPrefixOf_iff_prefix.1 h)

/-- An entry that is not under a table loses nothing. -/
theorem lost_root_eq_nil (name : String) (h : ∀ e ∈ entries, e.statement.under table = false) :
    lostAmong [table, name] entries = [] ∧
      entries.flatMap (Entry.lostInBraces table name) = [] := by
  constructor
  · refine lostAmong_eq_nil fun e he => Bool.eq_false_iff.2 fun hgroup => ?_
    exact Bool.eq_false_iff.1 (h e he) (under_of_sameGroup hgroup)
  · refine List.flatMap_eq_nil_iff.2 fun e he => if_neg fun hkey => ?_
    have hunder : e.statement.under table = true :=
      under_head (show e.statement.names = [table] from hkey)
    rw [h e he] at hunder
    cases hunder

/-- A section that is not under a table loses nothing. -/
theorem Section.lost_eq_nil (h : s.statement.under table = false) : s.lost table name = [] := by
  have hhead : ∀ rest, Key.names s.header.key ≠ table :: rest := by
    intro rest hkey
    have hunder := under_head (show s.statement.names = table :: rest from hkey)
    rw [h] at hunder
    cases hunder
  have hwithin : s.isWithin [table, name] = false := by
    rw [Bool.eq_false_iff]
    intro hwithin
    obtain ⟨rest, hrest⟩ := List.isPrefixOf_iff_prefix.1 hwithin
    exact hhead (name :: rest) hrest.symm
  rw [Section.lost, if_neg (Bool.eq_false_iff.1 hwithin), if_neg (hhead [])]

/-- An entry keeps the comments that are not lost in its braces. -/
theorem comments_rebrace (hv : v.comments = []) (e : Entry) :
    ((rebrace table name v e).comments ++ e.lostInBraces table name).Perm e.comments := by
  unfold rebrace Entry.lostInBraces
  split
  next =>
    obtain ⟨lead, key, before, w, after⟩ := e
    cases w with
    | scalar spelling s => exact .of_eq (List.append_nil _)
    | array items comma gap => exact .of_eq (List.append_nil _)
    | table entries comma gap =>
        have hput := EntryStyle.quiet_braces.comments_put hv [] (.plain name) false entries
        refine List.perm_iff_count.2 fun c => ?_
        have hcount := List.perm_iff_count.1 hput c
        simp only [Document.putInBraces, Entry.comments, Entry.valueComments, Value.comments,
          entryComments_eq, List.count_append] at hcount ⊢
        simp only [Key.names, List.map_nil, List.nil_append, KeyPart.plain] at hcount ⊢
        omega
  next => exact .of_eq (List.append_nil _)

/-- Sections keep the comments that are not lost, when those for a name go and the others change. -/
theorem comments_dropSections (table name : String) (change : Section → Section)
    {sections : List Section}
    (h : ∀ s ∈ sections, s.isWithin [table, name] = false →
      ((change s).comments ++ s.lost table name).Perm s.comments) :
    (((sections.filter (!·.isWithin [table, name])).map change).flatMap Section.comments
      ++ sections.flatMap (Section.lost table name)).Perm (sections.flatMap Section.comments) := by
  rw [List.flatMap_map, filter_eq_flatMap, List.flatMap_assoc]
  refine perm_flatMap_append fun s hs => ?_
  cases hwithin : s.isWithin [table, name] with
  | true =>
      rw [Section.lost, if_pos hwithin]
      exact .refl _
  | false =>
      have hkept := h s hs hwithin
      simpa using hkept

/-- Sections that stay as they are lose nothing, unless one is the section of the table. -/
theorem comments_section_kept (hkey : Key.names s.header.key ≠ [table])
    (hwithin : s.isWithin [table, name] = false) :
    (s.comments ++ s.lost table name).Perm s.comments := by
  rw [Section.lost, if_neg (Bool.eq_false_iff.1 hwithin), if_neg hkey, List.append_nil]

/-- A new section has no comments. -/
theorem comments_insertSection (d : Document) (hv : v.comments = []) (place : Option Nat) (key : Key)
    (part : KeyPart) :
    ∃ before s after, d.sections = before ++ after ∧ s.header.key = key ∧ s.comments = [] ∧
      d.insertSection place key (EntryStyle.line.put [] part v false [])
        = { d with sections := before ++ s :: after } := by
  obtain ⟨before, after, lead, hsplit, hlead, hinsert⟩ := insertSection_eq d place key
    (EntryStyle.line.put [] part v false [])
  refine ⟨before, _, after, hsplit, rfl, ?_, hinsert⟩
  have hput := EntryStyle.quiet_line.comments_put hv [] part false []
  have hnone : commentsIn lead = [] := by
    rcases hlead with rfl | rfl
    · exact commentsIn_nil
    · exact (commentsIn_cons (by decide) []).trans commentsIn_nil
  have hentries : (EntryStyle.line.put [] part v false []).flatMap Entry.comments = [] :=
    (List.append_eq_nil_iff.1 (List.perm_nil.1 hput)).1
  rw [Section.comments, hnone, hentries, commentsIn_nil]
  rfl

/-- A document keeps what its entries in front of all sections and its sections keep. -/
theorem comments_of_parts {root' : List Entry} {sections' : List Section}
    (hroot : (root'.flatMap Entry.comments ++ (lostAmong [table, name] d.root
      ++ d.root.flatMap (Entry.lostInBraces table name))).Perm (d.root.flatMap Entry.comments))
    (hsections : (sections'.flatMap Section.comments
      ++ d.sections.flatMap (Section.lost table name)).Perm (d.sections.flatMap Section.comments)) :
    (Document.comments { d with root := root', sections := sections' } ++ d.lost table name).Perm
      d.comments := by
  refine List.perm_iff_count.2 fun c => ?_
  have hcountRoot := List.perm_iff_count.1 hroot c
  have hcountSections := List.perm_iff_count.1 hsections c
  simp only [Document.comments, Document.lost, List.count_append] at hcountRoot hcountSections ⊢
  omega

/-- Entries in front of all sections that are not under a table lose nothing. -/
theorem comments_root_kept (h : ∀ e ∈ entries, e.statement.under table = false) :
    (entries.flatMap Entry.comments ++ (lostAmong [table, name] entries
      ++ entries.flatMap (Entry.lostInBraces table name))).Perm
        (entries.flatMap Entry.comments) := by
  obtain ⟨hamong, hbraces⟩ := lost_root_eq_nil name h
  rw [hamong, hbraces, List.append_nil, List.append_nil]

/-- A document keeps the comments that are not lost when a name is bound in a table that it has,
other than in braces. -/
theorem comments_of_table {o : Origin} {inner : Fields}
    (htable : fields.lookup table = some (.table o inner)) (hchange : d.canChange fields = true)
    (hbecome : becomeAll (d.statements.filter (Statement.under table)) none
      = some (some o.unplaced))
    (hv : v.comments = []) (h : d.put? fields table name v = some d') :
    (d'.comments ++ d.lost table name).Perm d.comments := by
  have hpart := name_newPart d [table] name
  have hkinds := becomeAll_statements hbecome
  have hcleared : (∀ s ∈ d.sections, Key.names s.header.key ≠ [table]) →
      ((d.sections.filter (!·.isWithin [table, name])).flatMap Section.comments
        ++ d.sections.flatMap (Section.lost table name)).Perm
          (d.sections.flatMap Section.comments) := by
    intro hhead
    have hkept := comments_dropSections table name id fun s hs hwithin =>
      comments_section_kept (hhead s hs) hwithin
    rwa [List.map_id] at hkept
  cases o with
  | «section» place =>
      simp only [Document.put?, htable, Option.some.injEq] at h
      rcases hkinds with ⟨hdotted, -⟩ | ⟨hroot, -⟩
      · cases hdotted
      · rw [← h]
        refine comments_of_parts (comments_root_kept hroot) (comments_dropSections table name _ ?_)
        intro s hs hwithin
        split
        next hkey =>
          have hput := EntryStyle.quiet_line.comments_put hv [] (d.newPart [table] name)
            (d.startsBefore [table, name] place) s.entries
          rw [hpart] at hput
          rw [Section.lost, if_neg (Bool.eq_false_iff.1 hwithin), if_pos hkey,
            Section.comments, Section.comments, List.append_assoc]
          exact hput.append_left _
        next hkey => exact comments_section_kept hkey hwithin
  | implied =>
      simp only [Document.put?, htable, Option.some.injEq] at h
      rcases hkinds with ⟨hdotted, -⟩ | ⟨hroot, ⟨-, hhead⟩ | ⟨hsection, -⟩⟩
      · cases hdotted
      · obtain ⟨before, s, after, hsplit, hkey, hnone, hinsert⟩ := comments_insertSection d hv
          (Fields.places (fields.takeWhile (·.1 ≠ table))).getLast? [d.newPart [] table]
          (d.newPart [table] name)
        have hname : Key.names s.header.key = [table] := by
          rw [hkey]
          exact congrArg (fun n => [n]) (name_newPart d [] table)
        rw [← h, hinsert]
        refine comments_of_parts (comments_root_kept hroot) ?_
        have hkept := hcleared hhead
        rw [hsplit, List.filter_append, List.flatMap_append] at hkept
        rw [List.filter_append, List.filter_cons_of_pos (by rw [not_isWithin hname]; rfl),
          List.flatMap_append, List.flatMap_cons, hnone, List.nil_append, hsplit]
        exact hkept
      · cases hsection
  | extended =>
      -- Such a document can not be changed.
      simp only [Document.canChange, Bool.and_eq_true, Bool.not_eq_true'] at hchange
      have hmem := List.contains_iff_mem.2 (origin_mem htable)
      rw [hchange.2] at hmem
      cases hmem
  | dotted =>
      simp only [Document.put?, htable, Option.some.injEq] at h
      rcases hkinds with ⟨-, hexists, hroot, hhead⟩ | ⟨-, ⟨himplied, -⟩ | ⟨hsection, -⟩⟩
      · obtain ⟨p, habove, hp⟩ := first_dotted hexists
        rw [← h, habove]
        refine comments_of_parts ?_ (hcleared hhead)
        have hput := EntryStyle.quiet_line.comments_put hv [p] (d.newPart [table] name) false d.root
        have hnames : Key.names [p] ++ [(d.newPart [table] name).name] = [table, name] := by
          rw [hpart]
          show [p.name, name] = [table, name]
          rw [hp]
        rw [hnames] at hput
        have hbraces : d.root.flatMap (Entry.lostInBraces table name) = [] :=
          List.flatMap_eq_nil_iff.2 fun e he => if_neg (hroot e he)
        rwa [hbraces, List.append_nil]
      · cases himplied
      · cases hsection

/-- A document keeps the comments that are not lost when a name is bound in a table in braces. -/
theorem comments_of_braces {first : String} {x? : Option Data} (hv : v.comments = [])
    (h : d.statements.filter (Statement.under table) = [.entry [first] x?]) :
    (Document.comments { d with root := d.root.map (rebrace table name v) }
      ++ d.lost table name).Perm d.comments := by
  -- The entry for the table is the only statement under it.
  have honly : ∀ s ∈ d.statements, s.under table = true → s = .entry [first] x? := by
    intro s hs hunder
    have hmem : s ∈ d.statements.filter (Statement.under table) :=
      List.mem_filter.2 ⟨hs, hunder⟩
    rw [h] at hmem
    exact List.mem_singleton.1 hmem
  have hamong : lostAmong [table, name] d.root = [] := by
    refine lostAmong_eq_nil fun e he => Bool.eq_false_iff.2 fun hgroup => ?_
    have honlyEntry := honly _ (List.mem_append_left _ (List.mem_map_of_mem he))
      (under_of_sameGroup hgroup)
    have hnames : Key.names e.2.1 = [first] := congrArg Statement.names honlyEntry
    have hprefix := List.isPrefixOf_iff_prefix.1 hgroup
    rw [hnames] at hprefix
    exact absurd hprefix.length_le (show ¬ 2 ≤ 1 by decide)
  have hsections : d.sections.flatMap (Section.lost table name) = [] := by
    refine List.flatMap_eq_nil_iff.2 fun s hs => Section.lost_eq_nil (Bool.eq_false_iff.2 ?_)
    intro hunder
    cases honly _ (List.mem_append_right _ (List.mem_map_of_mem hs)) hunder
  refine comments_of_parts ?_ (by rw [hsections, List.append_nil])
  rw [hamong, List.nil_append, List.flatMap_map]
  exact perm_flatMap_append fun e _ => comments_rebrace hv e

/-- A document keeps the comments that are not lost when a name is bound in one of its tables. -/
theorem comments_put? (hd : d.fields? = some fields) (hchange : d.canChange fields = true)
    (hv : v.comments = []) (h : d.put? fields table name v = some d') :
    (d'.comments ++ d.lost table name).Perm d.comments := by
  have hat : runAt (d.statements.filter (Statement.under table)) none
      = some ((fields.lookup table).map Node.unplaced) := by
    have hrun : runAll d.statements [] = some (unplacedFields fields) := by
      rw [runAll_statements, hd]
      rfl
    exact (lookup_runAll hrun table).trans (congrArg some (lookup_unplaced fields table))
  cases htable : fields.lookup table with
  | none =>
      rw [htable] at hat
      have hnil := eq_nil_of_runAt hat
      rw [List.filter_eq_nil_iff] at hnil
      have hroot : ∀ e ∈ d.root, e.statement.under table = false := fun e he =>
        Bool.eq_false_iff.2 (hnil _ (List.mem_append_left _ (List.mem_map_of_mem he)))
      have hlost : d.sections.flatMap (Section.lost table name) = [] :=
        List.flatMap_eq_nil_iff.2 fun s hs => Section.lost_eq_nil
          (Bool.eq_false_iff.2 (hnil _ (List.mem_append_right _ (List.mem_map_of_mem hs))))
      simp only [Document.put?, htable, Option.some.injEq] at h
      obtain ⟨before, s, after, hsplit, -, hnone, hinsert⟩ := comments_insertSection d hv
        fields.places.getLast? [.plain table] (.plain name)
      rw [← h, hinsert]
      refine comments_of_parts (comments_root_kept hroot) ?_
      rw [hlost, List.append_nil, hsplit, List.flatMap_append, List.flatMap_append,
        List.flatMap_cons, hnone, List.nil_append]
  | some node =>
      rw [htable] at hat
      cases node with
      | table o inner =>
          exact comments_of_table htable hchange ((runAt_under table).1 hat).1 hv h
      | tables elements => simp only [Document.put?, htable, reduceCtorEq] at h
      | value w =>
          cases w with
          | table old =>
              obtain ⟨first, hsingle⟩ := eq_singleton_of_runAt hat
              simp only [Document.put?, htable, Option.some.injEq] at h
              rw [← h]
              exact comments_of_braces hv hsingle
          | text _ => simp only [Document.put?, htable, reduceCtorEq] at h
          | integer _ => simp only [Document.put?, htable, reduceCtorEq] at h
          | real => simp only [Document.put?, htable, reduceCtorEq] at h
          | bool _ => simp only [Document.put?, htable, reduceCtorEq] at h
          | moment => simp only [Document.put?, htable, reduceCtorEq] at h
          | list _ => simp only [Document.put?, htable, reduceCtorEq] at h

end LintWatch.Toml
