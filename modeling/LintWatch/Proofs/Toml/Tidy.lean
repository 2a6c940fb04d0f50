import LintWatch.Proofs.Toml.Fields
import LintWatch.Proofs.Toml.Layout

/-!
# Bringing dotted keys together

A tidy document means what the document meant (`fields?_tidy`) and is laid out if the document was
(`laid_tidy`). Entries of one table may come in front of entries outside of it as soon as the table
is there: `bind_exchange`.
-/

namespace LintWatch.Toml

variable {fs fs₁ fs₂ r : Fields} {v w : Node} {a b path : List String} {depth fuel : Nat}
  {e : Entry} {entries : List Entry}

/-- Tables stand along a path. -/
def Bound : List String → Fields → Prop
  | [], _ => True
  | name :: path, fs => ∃ o inner, fs.lookup name = some (.table o inner) ∧ Bound path inner

/-! ## One key -/

/-- A table to which a dotted key adds a value has a section of its own only if it had one. -/
theorem extend_ne_section {o : Origin} (h : ∀ place, o ≠ .section place) (place : Nat) :
    o.extend ≠ .section place := by
  cases o with
  | «section» p => exact absurd rfl (h p)
  | implied => exact Origin.noConfusion
  | extended => exact Origin.noConfusion
  | dotted => exact Origin.noConfusion

/-- Tables along a path stay there. -/
theorem Bound.bind (hpath : Bound path fs) (h : bind v a fs = some r) : Bound path r := by
  induction path generalizing fs a r with
  | nil => trivial
  | cons name path ih =>
      obtain ⟨o, inner, hlookup, hinner⟩ := hpath
      cases a with
      | nil => cases h
      | cons first a =>
          rcases bind_cases h with
            ⟨hnone, node, rfl⟩ | ⟨o', inner₁, inner', -, hlookup', -, hbind, rfl⟩
          · refine ⟨o, inner, ?_, hinner⟩
            have hne : name ≠ first := by
              rintro rfl
              rw [hnone] at hlookup
              cases hlookup
            rw [Fields.lookup_concat hnone, if_neg hne]
            exact hlookup
          · by_cases heq : name = first
            · subst heq
              rw [hlookup] at hlookup'
              cases hlookup'
              refine ⟨if a.length = 1 then o.extend else o, inner', ?_, ih hinner hbind⟩
              rw [Fields.lookup_put, if_pos rfl]
            · refine ⟨o, inner, ?_, hinner⟩
              rw [Fields.lookup_put, if_neg heq]
              exact hlookup

/-- A dotted key brings about the tables on its way. -/
theorem bound_of_bind (hpath : path <+: a) (hlength : path.length < a.length)
    (h : bind v a fs = some r) : Bound path r := by
  induction path generalizing fs a r with
  | nil => trivial
  | cons name path ih =>
      obtain ⟨more, rfl⟩ := hpath
      have hmore : more ≠ [] := by
        rintro rfl
        simp at hlength
      have hlength' : path.length < (path ++ more).length := by
        have hpos := List.length_pos_iff.2 hmore
        rw [List.length_append]
        omega
      rw [List.cons_append] at h
      obtain ⟨next, rest, hrest⟩ :=
        List.exists_cons_of_ne_nil (List.append_ne_nil_of_right_ne_nil path hmore)
      cases hlookup : fs.lookup name with
      | none =>
          rw [hrest] at h
          simp only [Toml.bind, hlookup, Option.map_eq_some_iff] at h
          obtain ⟨inner, hinner, rfl⟩ := h
          rw [← hrest] at hinner
          refine ⟨.dotted, inner, ?_, ih (List.prefix_append path more) hlength' hinner⟩
          rw [Fields.lookup_concat hlookup, if_pos rfl]
      | some node =>
          rcases bind_cases h with ⟨hnone, -⟩ | ⟨o, inner, inner', -, -, -, hinner, rfl⟩
          · rw [hlookup] at hnone
            cases hnone
          · refine ⟨if (path ++ more).length = 1 then o.extend else o, inner', ?_,
              ih (List.prefix_append path more) hlength' hinner⟩
            rw [Fields.lookup_put, if_pos rfl]

/-- A field that is there is put in place, whatever key is bound elsewhere. -/
theorem bind_put {name : String} {node : Node} (hne : a.head? ≠ some name)
    (hname : (fs.lookup name).isSome) (h : bind v a fs = some r) :
    bind v a (fs.put name node) = some (r.put name node) := by
  cases a with
  | nil => cases h
  | cons first a =>
      have hfirst : first ≠ name := fun heq => hne (congrArg some heq)
      have hlookup : (fs.put name node).lookup first = fs.lookup first := by
        rw [Fields.lookup_put, if_neg hfirst]
      rcases bind_cases h with ⟨hnone, new, rfl⟩ | ⟨o, inner, inner', ha, htable, ho, hinner, rfl⟩
      · rw [Fields.put_append hname]
        cases a with
        | nil =>
            simp only [bind, hnone, hlookup, Option.isNone_none, if_true, Option.some.injEq] at h ⊢
            rw [List.append_cancel_left h]
        | cons next a =>
            simp only [bind, hnone, hlookup, Option.map_eq_some_iff] at h ⊢
            obtain ⟨inner, hinner, heq⟩ := h
            exact ⟨inner, hinner, congrArg _ (List.append_cancel_left heq)⟩
      · rw [bind_below ha (hlookup.trans htable) ho, hinner,
          Fields.put_comm (Ne.symm hfirst) (by rw [htable]; rfl) hname]
        rfl

/-- A key inside of a table that is there may be bound in front of a key outside of it. -/
theorem bind_exchange (hpath : Bound path fs) (hb : path <+: b) (ha : ¬ path <+: a)
    (h₁ : bind v a fs = some fs₁) (h₂ : bind w b fs₁ = some fs₂) :
    ∃ fs', bind w b fs = some fs' ∧ bind v a fs' = some fs₂ := by
  induction path generalizing fs a b fs₁ fs₂ with
  | nil => exact absurd List.nil_prefix ha
  | cons name path ih =>
      obtain ⟨o, inner, hlookup, hinner⟩ := hpath
      obtain ⟨b, rfl⟩ : ∃ b', b = name :: b' := by
        obtain ⟨more, rfl⟩ := hb
        exact ⟨path ++ more, rfl⟩
      have hb' : path <+: b := (List.prefix_cons_inj name).1 hb
      cases a with
      | nil => cases h₁
      | cons first a =>
          by_cases heq : first = name
          · subst heq
            have ha' : ¬ path <+: a := fun h => ha ((List.prefix_cons_inj first).2 h)
            rcases bind_cases h₁ with ⟨hnone, -⟩ | ⟨_, _, inner₁, hane, htable, ho, hinner₁, rfl⟩
            · rw [hlookup] at hnone
              cases hnone
            rw [hlookup] at htable
            cases htable
            have hput : (fs.put first (.table (if a.length = 1 then o.extend else o) inner₁)).lookup
                first = some (.table (if a.length = 1 then o.extend else o) inner₁) := by
              rw [Fields.lookup_put, if_pos rfl]
            rcases bind_cases h₂ with ⟨hnone, -⟩ | ⟨_, _, inner₂, hbne, htable, -, hinner₂, rfl⟩
            · rw [hput] at hnone
              cases hnone
            rw [hput] at htable
            cases htable
            obtain ⟨inner', hw, hv⟩ := ih hinner hb' ha' hinner₁ hinner₂
            refine ⟨_, by rw [bind_below hbne hlookup ho, hw]; rfl, ?_⟩
            have ho' : ∀ place, (if b.length = 1 then o.extend else o) ≠ .section place := by
              intro place
              split
              next => exact extend_ne_section ho place
              next => exact ho place
            have hput' :
                (fs.put first (.table (if b.length = 1 then o.extend else o) inner')).lookup first
                  = some (.table (if b.length = 1 then o.extend else o) inner') := by
              rw [Fields.lookup_put, if_pos rfl]
            rw [bind_below hane hput' ho', hv, Option.map_some, Fields.put_put, Fields.put_put]
            -- Both keys may extend the table, in either order.
            have hextend : (if a.length = 1 then (if b.length = 1 then o.extend else o).extend
                  else if b.length = 1 then o.extend else o)
                = if b.length = 1 then (if a.length = 1 then o.extend else o).extend
                  else if a.length = 1 then o.extend else o := by
              split <;> split <;> rfl
            rw [hextend]
          · have hname : (fs.lookup name).isSome := by rw [hlookup]; rfl
            have hlookup₁ : fs₁.lookup name = some (.table o inner) := by
              rcases bind_cases h₁ with ⟨hnone, node, rfl⟩ | ⟨_, _, _, -, -, -, -, rfl⟩
              · rw [Fields.lookup_concat hnone, if_neg (Ne.symm heq), hlookup]
              · rw [Fields.lookup_put, if_neg (Ne.symm heq), hlookup]
            rcases bind_cases h₂ with ⟨hnone, -⟩ | ⟨_, _, inner₂, hbne, htable, ho, hinner₂, rfl⟩
            · rw [hlookup₁] at hnone
              cases hnone
            rw [hlookup₁] at htable
            cases htable
            refine ⟨_, by rw [bind_below hbne hlookup ho, hinner₂]; rfl, ?_⟩
            exact bind_put (fun h => heq (Option.some.inj h)) hname h₁

/-! ## Entries -/

/-- Entries behind entries are bound behind them. -/
theorem bindEntries?_append (fs : Fields) (entries more : List Entry) :
    bindEntries? fs (entries ++ more) = (bindEntries? fs entries).bind (bindEntries? · more) := by
  induction entries generalizing fs with
  | nil => rfl
  | cons e entries ih =>
      obtain ⟨lead, key, before, v, after⟩ := e
      simp only [List.cons_append, bindEntries?]
      split
      next => rfl
      next =>
        split
        next => rfl
        next => exact ih _

/-- An entry binds its key to what its value means. -/
theorem bindEntries?_cons :
    bindEntries? fs (e :: entries) = some r ↔
      ∃ d fs₁, e.2.2.2.1.data? = some d ∧ bind (.value d) (Key.names e.2.1) fs = some fs₁ ∧
        bindEntries? fs₁ entries = some r := by
  obtain ⟨lead, key, before, v, after⟩ := e
  simp only [bindEntries?, Key.names]
  constructor
  · intro h
    split at h
    next => cases h
    next d hd =>
      split at h
      next => cases h
      next fs₁ hbind => exact ⟨d, fs₁, hd, hbind, h⟩
  · rintro ⟨d, fs₁, hd, hbind, h⟩
    simp only [hd, hbind, h]

/-- An entry outside of a table that is there may come behind entries in it. -/
theorem bindEntries?_exchange {mine : List Entry} (hpath : Bound path fs)
    (he : sameGroup path e = false) (hmine : ∀ m ∈ mine, sameGroup path m = true)
    (h : bindEntries? fs (e :: mine) = some r) : bindEntries? fs (mine ++ [e]) = some r := by
  induction mine generalizing fs with
  | nil => exact h
  | cons m mine ih =>
      obtain ⟨hm, hmine⟩ := List.forall_mem_cons.1 hmine
      obtain ⟨d, fs₁, hd, hbind, h⟩ := bindEntries?_cons.1 h
      obtain ⟨d', fs₂, hd', hbind', h⟩ := bindEntries?_cons.1 h
      have hout : ¬ path <+: Key.names e.2.1 := by
        rw [← List.isPrefixOf_iff_prefix]
        exact ne_true_of_eq_false he
      obtain ⟨fs', hfirst, hsecond⟩ :=
        bind_exchange hpath (List.isPrefixOf_iff_prefix.1 hm) hout hbind hbind'
      have hrest : Toml.bindEntries? fs' (e :: mine) = some r :=
        bindEntries?_cons.2 ⟨d, fs₂, hd, hsecond, h⟩
      exact bindEntries?_cons.2 ⟨d', fs', hd', hfirst, ih (hpath.bind hfirst) hmine hrest⟩

/-- The entries of a table that is there may come in front of all others. -/
theorem bindEntries?_partition (hpath : Bound path fs) (h : bindEntries? fs entries = some r) :
    bindEntries? fs (entries.filter (sameGroup path) ++ entries.filter (!sameGroup path ·))
      = some r := by
  induction entries generalizing fs with
  | nil => exact h
  | cons e entries ih =>
      obtain ⟨d, fs₁, hd, hbind, h⟩ := bindEntries?_cons.1 h
      have hrest := ih (hpath.bind hbind) h
      cases he : sameGroup path e with
      | true =>
          rw [List.filter_cons_of_pos he, List.filter_cons_of_neg (by simp [he])]
          exact bindEntries?_cons.2 ⟨d, fs₁, hd, hbind, hrest⟩
      | false =>
          rw [List.filter_cons_of_neg (by simp [he]), List.filter_cons_of_pos (by simp [he])]
          rw [bindEntries?_append] at hrest
          obtain ⟨fs₂, hmine, hothers⟩ := Option.bind_eq_some_iff.1 hrest
          have hexchange := bindEntries?_exchange hpath he (fun m hm => (List.mem_filter.1 hm).2)
            (bindEntries?_cons.2 ⟨d, fs₁, hd, hbind, hmine⟩)
          rw [List.append_cons, bindEntries?_append, hexchange]
          exact hothers

/-- A key that is spelled like another one names the same. -/
theorem names_respell (key first : List KeyPart) :
    Key.names (respell key first) = Key.names key := by
  fun_induction respell key first with
  | case1 p q rest f first h ih =>
      show f.name :: Key.names (respell (q :: rest) first) = p.name :: Key.names (q :: rest)
      rw [ih, h.1]
  | case2 => rfl
  | case3 => rfl

/-- Entries that are grouped mean what they meant. -/
theorem bindEntries?_group (h : bindEntries? fs entries = some r) :
    bindEntries? fs (group depth fuel entries) = some r := by
  induction fuel generalizing depth entries fs r with
  | zero => exact h
  | succ fuel ih =>
      cases entries with
      | nil => exact h
      | cons e rest =>
          obtain ⟨d, fs₁, hd, hbind, hrest⟩ := bindEntries?_cons.1 h
          unfold group
          split
          next => exact bindEntries?_cons.2 ⟨d, fs₁, hd, hbind, ih hrest⟩
          next hlong =>
            have hlength : ((Key.names e.2.1).take (depth + 1)).length
                < (Key.names e.2.1).length := by
              simp only [List.length_take, Key.names, List.length_map]
              omega
            have hpath : Bound ((Key.names e.2.1).take (depth + 1)) fs₁ :=
              bound_of_bind (List.take_prefix _ _) hlength hbind
            have hpartition := bindEntries?_partition hpath hrest
            rw [bindEntries?_append] at hpartition
            obtain ⟨fs₂, hmine, hothers⟩ := Option.bind_eq_some_iff.1 hpartition
            have hspelled : bindEntries? fs₁ ((rest.filter
                (sameGroup ((Key.names e.2.1).take (depth + 1)))).map
                fun o => (o.1, respell o.2.1 e.2.1, o.2.2)) = some fs₂ := by
              rw [← hmine]
              refine bindEntries?_congr ?_ fs₁
              rw [List.map_map]
              refine List.map_congr_left fun o _ => ?_
              simp only [Function.comp_apply, Entry.said, names_respell]
            rw [bindEntries?_append, ih (bindEntries?_cons.2 ⟨d, fs₁, hd, hbind, hspelled⟩)]
            exact ih hothers

/-! ## Values and documents -/

mutual

/-- A tidy value means what the value meant. -/
theorem data?_tidy (v : Value) {d : Data} (h : v.data? = some d) : v.tidy.data? = some d := by
  cases v with
  | scalar spelling s => exact h
  | array items comma gap =>
      simp only [Value.tidy, Value.data?, Option.map_eq_some_iff] at h ⊢
      obtain ⟨ds, hds, rfl⟩ := h
      exact ⟨ds, dataOfItems?_tidy items hds, rfl⟩
  | table entries comma gap =>
      simp only [Value.tidy, Value.data?, Option.map_eq_some_iff] at h ⊢
      obtain ⟨fs, hfs, rfl⟩ := h
      exact ⟨fs, bindEntries?_group (bindEntries?_tidyValues entries hfs), rfl⟩

/-- Elements with tidy values mean what they meant. -/
theorem dataOfItems?_tidy (items : List (List Char × Value × List Char)) {ds : List Data}
    (h : dataOfItems? items = some ds) : dataOfItems? (tidyItems items) = some ds := by
  cases items with
  | nil => exact h
  | cons i items =>
      obtain ⟨before, v, after⟩ := i
      simp only [tidyItems, dataOfItems?, Option.bind_eq_bind, Option.bind_eq_some_iff] at h ⊢
      obtain ⟨d, hd, ds', hds, hlist⟩ := h
      exact ⟨d, data?_tidy v hd, ds', dataOfItems?_tidy items hds, hlist⟩

/-- Entries with tidy values mean what they meant. -/
theorem bindEntries?_tidyValues (entries : List Entry) {fs r : Fields}
    (h : bindEntries? fs entries = some r) : bindEntries? fs (tidyValues entries) = some r := by
  cases entries with
  | nil => exact h
  | cons e entries =>
      obtain ⟨lead, key, before, v, after⟩ := e
      obtain ⟨d, fs₁, hd, hbind, hrest⟩ := bindEntries?_cons.1 h
      exact bindEntries?_cons.2
        ⟨d, fs₁, data?_tidy v hd, hbind, bindEntries?_tidyValues entries hrest⟩

end

/-- What can be done to a table can be done to it within other tables. -/
theorem within_mono {f g : Fields → Option Fields} (hfg : ∀ fs r, f fs = some r → g fs = some r)
    (path : List String) (h : within f path fs = some r) : within g path fs = some r := by
  induction path generalizing fs r with
  | nil => exact hfg fs r h
  | cons name path ih =>
      unfold within at h ⊢
      split at h
      next =>
        obtain ⟨inner, hinner, rfl⟩ := Option.map_eq_some_iff.1 h
        rw [ih hinner]
        rfl
      next =>
        obtain ⟨inner, hinner, rfl⟩ := Option.map_eq_some_iff.1 h
        rw [ih hinner]
        rfl
      next =>
        obtain ⟨inner, hinner, rfl⟩ := Option.map_eq_some_iff.1 h
        rw [ih hinner]
        rfl
      next => cases h

/-- Sections whose entries are brought together mean what they meant. -/
theorem foldlM_bindSection_tidy {sections : List Section} {place : Nat}
    (h : (sections.zipIdx place).foldlM bindSection fs = some r) :
    ((sections.map fun s => { s with entries := tidyEntries (tidyValues s.entries) }).zipIdx
      place).foldlM bindSection fs = some r := by
  induction sections generalizing fs place with
  | nil => exact h
  | cons s sections ih =>
      simp only [List.map_cons, List.zipIdx_cons, List.foldlM_cons, Option.bind_eq_bind,
        Option.bind_eq_some_iff, bindSection] at h ⊢
      obtain ⟨fs₂, ⟨fs₁, hbegin, hentries⟩, hrest⟩ := h
      refine ⟨fs₂, ⟨fs₁, hbegin, ?_⟩, ih hrest⟩
      refine within_mono (fun fs r hfs => ?_) _ hentries
      exact bindEntries?_group (bindEntries?_tidyValues s.entries hfs)

/-- A tidy document means what the document meant. -/
theorem fields?_tidy {d : Document} (h : d.fields? = some r) : d.tidy.fields? = some r := by
  obtain ⟨fs, hroot, hsections⟩ := Option.bind_eq_some_iff.1 h
  refine Option.bind_eq_some_iff.2 ⟨fs, ?_, foldlM_bindSection_tidy hsections⟩
  exact bindEntries?_group (bindEntries?_tidyValues d.root hroot)

/-! ## Layout -/

/-- A key that is spelled like another one is laid out if both are. -/
theorem LaidKey.respell {IsLast : List Char → Prop} {key first : List KeyPart}
    (h : LaidKey IsLast key) (hfirst : LaidKey IsLast first) :
    LaidKey IsLast (respell key first) := by
  fun_induction Toml.respell key first with
  | case1 p q rest f first hsame ih =>
      obtain ⟨-, -, hrest⟩ := h.cons
      cases first with
      | nil => exact absurd rfl hsame.2
      | cons f' first =>
          obtain ⟨hf, htail, hmore⟩ := hfirst.cons
          have hlaid := ih hrest hmore
          have hlength : (Toml.respell (q :: rest) (f' :: first)).length = (q :: rest).length := by
            have := congrArg List.length (names_respell (q :: rest) (f' :: first))
            simpa only [Key.names, List.length_map] using this
          cases hkey : Toml.respell (q :: rest) (f' :: first) with
          | nil =>
              rw [hkey] at hlaid
              exact absurd rfl hlaid.ne_nil
          | cons r more =>
              rw [hkey] at hlaid hlength
              refine laid_key_cons hf htail hlaid ?_
              have := h.length_le
              simp only [List.length_cons] at this hlength ⊢
              omega
  | case2 => exact h
  | case3 => exact h

/-- Grouping brings nothing but entries, spelled like other ones. -/
theorem forall_mem_group {P : Entry → Prop}
    (hP : ∀ e o : Entry, P e → P o → P (o.1, respell o.2.1 e.2.1, o.2.2))
    (h : ∀ e ∈ entries, P e) : ∀ e ∈ group depth fuel entries, P e := by
  induction fuel generalizing depth entries with
  | zero => exact h
  | succ fuel ih =>
      cases entries with
      | nil => exact h
      | cons e rest =>
          obtain ⟨he, hrest⟩ := List.forall_mem_cons.1 h
          unfold group
          split
          next => exact List.forall_mem_cons.2 ⟨he, ih hrest⟩
          next =>
            refine List.forall_mem_append.2 ⟨ih (List.forall_mem_cons.2 ⟨he, ?_⟩), ih ?_⟩
            · intro o ho
              obtain ⟨o, hmem, rfl⟩ := List.mem_map.1 ho
              exact hP e o he (hrest o (List.mem_filter.1 hmem).1)
            · intro o ho
              exact hrest o (List.mem_filter.1 ho).1

/-- Grouping leaves no entries only where there were none. -/
theorem group_ne_nil (depth fuel : Nat) (h : entries ≠ []) : group depth fuel entries ≠ [] := by
  induction fuel generalizing depth entries with
  | zero => exact h
  | succ fuel ih =>
      cases entries with
      | nil => exact absurd rfl h
      | cons e rest =>
          unfold group
          split
          next => exact List.cons_ne_nil _ _
          next => exact List.append_ne_nil_of_left_ne_nil (ih _ (List.cons_ne_nil _ _)) _

mutual

/-- A tidy value is laid out if the value was. -/
theorem LaidValue.tidy {depth : Nat} {v : Value} (h : LaidValue depth v) :
    LaidValue depth v.tidy := by
  cases h with
  | scalar hspells => exact .scalar hspells
  | @array depth items comma gap hitems hcomma hgap =>
      refine .array hitems.tidy ?_ hgap
      intro hnil
      cases items with
      | nil => exact hcomma rfl
      | cons i items => cases hnil
  | @table depth entries comma gap hentries hcomma hgap =>
      have hlaid : ∀ e ∈ tidyEntries (tidyValues entries), LaidEntry depth e := by
        refine forall_mem_group ?_ (laid_entries_iff.1 hentries.tidy)
        intro e o he ho
        exact ⟨ho.lead, ho.key.respell he.key, ho.before, ho.value, ho.after⟩
      refine .table (laid_entries_iff.2 hlaid) ?_ hgap
      intro hnil
      cases entries with
      | nil => exact hcomma rfl
      | cons e entries => exact absurd hnil (group_ne_nil _ _ (List.cons_ne_nil _ _))

/-- Elements with tidy values are laid out if they were. -/
theorem LaidItems.tidy {depth : Nat} {items : List (List Char × Value × List Char)}
    (h : LaidItems depth items) : LaidItems depth (tidyItems items) := by
  cases h with
  | nil => exact .nil
  | cons hbefore hv hafter hmore => exact .cons hbefore hv.tidy hafter hmore.tidy

/-- Entries with tidy values are laid out if they were. -/
theorem LaidEntries.tidy {depth : Nat} {entries : List Entry} (h : LaidEntries depth entries) :
    LaidEntries depth (tidyValues entries) := by
  cases h with
  | nil => exact .nil
  | cons hlead hkey hbefore hv hafter hmore =>
      exact .cons hlead hkey hbefore hv.tidy hafter hmore.tidy

end

/-- The lines of one table are laid out when they are brought together. -/
theorem laid_tidyEntries (h : ∀ e ∈ entries, LaidLine e) :
    ∀ e ∈ tidyEntries (tidyValues entries), LaidLine e := by
  refine forall_mem_group ?_ ?_
  · intro e o he ho
    exact ⟨ho.lead, ho.key.respell he.key, ho.before, ho.value, ho.after⟩
  · induction entries with
    | nil => exact h
    | cons e entries ih =>
        obtain ⟨he, hentries⟩ := List.forall_mem_cons.1 h
        refine List.forall_mem_cons.2 ⟨?_, ih hentries⟩
        exact ⟨he.lead, he.key, he.before, he.value.tidy, he.after⟩

/-- A tidy document is laid out if the document was. -/
theorem laid_tidy {d : Document} (h : d.Laid) : d.tidy.Laid := by
  refine ⟨laid_tidyEntries h.root, ?_, h.trailing⟩
  intro s hs
  obtain ⟨s, hmem, rfl⟩ := List.mem_map.1 hs
  exact ⟨(h.sections s hmem).header, laid_tidyEntries (h.sections s hmem).entries⟩

end LintWatch.Toml
