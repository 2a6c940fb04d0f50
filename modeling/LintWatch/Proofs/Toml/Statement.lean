import LintWatch.Proofs.Toml.Layout
import LintWatch.Proofs.Toml.Places

/-!
# Statements by their first names

What stands under a name of the table that a document means depends only on the statements whose
keys start with that name, in their order (`lookup_runAll`, `exists_runAll`). So a document in which
only the statements under one name are changed means the same under all other names:
`runAll_change`.
-/

namespace LintWatch.Toml

/-- What an entry or a section with its entries says. -/
inductive Statement where
  | entry (names : List String) (v : Option Data)
  | «section» (isArray : Bool) (path : List String) (entries : List (List String × Option Data))

/-- Binds the names of an entry to what its value means. -/
def bindSaid (fs : Fields) (said : List String × Option Data) : Option Fields :=
  said.2.bind fun d => bind (.value d) said.1 fs

namespace Statement

/-- The names of the key. -/
def names : Statement → List String
  | entry names _ => names
  | «section» _ path _ => path

/-- Whether the key starts with a name. -/
def under (name : String) (s : Statement) : Bool :=
  s.names.head? = some name

/-- What a statement does to fields, wherever it stands. -/
def run : Statement → Fields → Option Fields
  | entry names v, fs => bindSaid fs (names, v)
  | «section» isArray path entries, fs =>
    (beginSection 0 isArray path fs).bind (within (entries.foldlM bindSaid ·) path)

/-- What entries say, as statements. -/
def ofSaid (said : List (List String × Option Data)) : List Statement :=
  said.map fun e => entry e.1 e.2

end Statement

/-- What statements do to fields, one after the other. -/
def runAll (statements : List Statement) (fs : Fields) : Option Fields :=
  statements.foldlM (fun fs s => s.run fs) fs

/-- What an entry says, as a statement. -/
def Entry.statement (e : Entry) : Statement :=
  .entry e.said.1 e.said.2

/-- What a section says, as a statement. -/
def Section.statement (s : Section) : Statement :=
  .section s.said.1 s.said.2.1 s.said.2.2

/-- The statements of a document. -/
def Document.statements (d : Document) : List Statement :=
  d.root.map Entry.statement ++ d.sections.map Section.statement

variable {fs r : Fields} {name : String} {s : Statement} {statements : List Statement}

/-! ## The statements of a document -/

/-- One statement is run, and then those behind it. -/
theorem runAll_cons (s : Statement) (statements : List Statement) (fs : Fields) :
    runAll (s :: statements) fs = (s.run fs).bind (runAll statements) :=
  rfl

/-- A statement alone. -/
theorem runAll_singleton (s : Statement) (fs : Fields) : runAll [s] fs = s.run fs :=
  Option.bind_fun_some (s.run fs)

/-- Statements behind statements are run behind them. -/
theorem runAll_append (statements more : List Statement) (fs : Fields) :
    runAll (statements ++ more) fs = (runAll statements fs).bind (runAll more) := by
  unfold runAll
  rw [List.foldlM_append]
  rfl

/-- The statements that entries say bind the entries. -/
theorem runAll_ofSaid (said : List (List String × Option Data)) (fs : Fields) :
    runAll (Statement.ofSaid said) fs = said.foldlM bindSaid fs := by
  induction said generalizing fs with
  | nil => rfl
  | cons e said ih =>
      show runAll (.entry e.1 e.2 :: Statement.ofSaid said) fs = _
      rw [runAll_cons, List.foldlM_cons]
      exact Option.bind_congr fun fs' _ => ih fs'

/-- Entries are bound to what they say. -/
theorem bindEntries?_eq (entries : List Entry) (fs : Fields) :
    bindEntries? fs entries = (entries.map Entry.said).foldlM bindSaid fs := by
  induction entries generalizing fs with
  | nil => rfl
  | cons e entries ih =>
      obtain ⟨lead, key, before, v, after⟩ := e
      simp only [bindEntries?, List.map_cons, List.foldlM_cons, Entry.said, bindSaid, Key.names]
      cases v.data? with
      | none => rfl
      | some d =>
          dsimp only
          show _ = (bind (.value d) (key.map KeyPart.name) fs).bind _
          cases bind (.value d) (key.map KeyPart.name) fs with
          | none => rfl
          | some fs' => exact ih fs'

/-- The statements of entries bind the entries. -/
theorem runAll_entries (entries : List Entry) (fs : Fields) :
    runAll (entries.map Entry.statement) fs = bindEntries? fs entries := by
  have hentries : entries.map Entry.statement = Statement.ofSaid (entries.map Entry.said) := by
    simp only [Statement.ofSaid, List.map_map]
    rfl
  rw [hentries, runAll_ofSaid, bindEntries?_eq]

/-- The statements of a document make up its fields, without the places of sections. -/
theorem runAll_statements (d : Document) :
    runAll d.statements [] = d.fields?.map unplacedFields := by
  have hsections : ∀ (sections : List Section) (fs : Fields),
      runAll (sections.map Section.statement) fs
        = sections.foldlM (fun fs s => bindSection fs (s, 0)) fs := by
    intro sections fs
    induction sections generalizing fs with
    | nil => rfl
    | cons s sections ih =>
        have hrun : s.statement.run fs = bindSection fs (s, 0) := by
          have hbind : (bindEntries? · s.entries)
              = fun fs => (s.entries.map Entry.said).foldlM bindSaid fs :=
            funext (bindEntries?_eq s.entries)
          simp only [Section.statement, Statement.run, bindSection, Section.said, hbind]
          rfl
        rw [List.map_cons, runAll_cons, hrun, List.foldlM_cons]
        exact Option.bind_congr fun fs' _ => ih fs'
  have hroot := bindEntries?_unplaced d.root []
  rw [Document.statements, runAll_append, runAll_entries]
  rw [unplacedFields] at hroot
  rw [hroot, Document.fields?, Option.bind_map, Option.bind_eq_bind, Option.map_bind]
  refine Option.bind_congr fun fs _ => ?_
  exact (hsections d.sections _).trans (foldlM_bindSection_unplaced d.sections 0 fs)

/-! ## What a statement does under its first name -/

/-- What a key makes of what stands under its first name. -/
def bindAt (v : Node) : List String → Option Node → Option Node
  | [], none => some v
  | [], some _ => none
  | names, none => (bind v names []).map (.table .dotted)
  | _, some (.table (.section _) _) => none
  | names, some (.table o fs) =>
    (bind v names fs).map (.table (if names.length = 1 then o.extend else o))
  | _, some _ => none

/-- What is done to the table under a name, or to the last one of its array. -/
def descend (f : Fields → Option Fields) : Option Node → Option Node
  | none => (f []).map (.table .implied)
  | some (.table o fs) => (f fs).map (.table o)
  | some (.tables ((place, last) :: before)) =>
    (f last).map fun fs => .tables ((place, fs) :: before)
  | some _ => none

/-- What the head of a section makes of what stands under its name. -/
def beginAt : Bool → Option Node → Option Node
  | false, none => some (.table (.section 0) [])
  | false, some (.table .implied fs) => some (.table (.section 0) fs)
  | true, none => some (.tables [(0, [])])
  | true, some (.tables elements) => some (.tables ((0, []) :: elements))
  | _, _ => none

/-- What a statement makes of what stands under its first name. -/
def Statement.at? : Statement → Option Node → Option Node
  | entry (_ :: names) v, x => v.bind fun d => bindAt (.value d) names x
  | «section» isArray [_] entries, x =>
    (beginAt isArray x).bind fun v => descend (entries.foldlM bindSaid ·) (some v)
  | «section» isArray (_ :: path) entries, x => descend (run (.section isArray path entries)) x
  | _, _ => none

/-- A change to fields that puts something under a name and leaves the others alone. -/
abbrev Writes (name : String) (fs : Fields) : Option Node → Option Fields → Prop :=
  Option.Rel fun v r => ∀ n, r.lookup n = if n = name then some v else fs.lookup n

/-- What is made of the same table under a name. -/
theorem writes_map {F : Fields → Node} {G : Fields → Fields} (x : Option Fields)
    (h : ∀ inner n, (G inner).lookup n = if n = name then some (F inner) else fs.lookup n) :
    Writes name fs (x.map F) (x.map G) := by
  cases x with
  | none => exact .none
  | some inner => exact .some (h inner)

/-- One change under a name behind another. -/
theorem Writes.bind {x : Option Node} {y : Option Fields} {g : Node → Option Node}
    {f : Fields → Option Fields} (h : Writes name fs x y)
    (hg : ∀ v fs, fs.lookup name = some v → Writes name fs (g v) (f fs)) :
    Writes name fs (x.bind g) (y.bind f) := by
  cases h with
  | none => exact .none
  | @some v fs' hlookup =>
      have hv : fs'.lookup name = some v := by rw [hlookup, if_pos rfl]
      have hstep := hg v fs' hv
      show Writes name fs (g v) (f fs')
      generalize g v = v', f fs' = r at hstep ⊢
      cases hstep with
      | none => exact .none
      | some hlookup' =>
          refine .some fun n => ?_
          rw [hlookup', hlookup]
          split <;> rfl

/-- A key writes under its first name. -/
theorem writes_bind (v : Node) (names : List String) (fs : Fields) :
    Writes name fs (bindAt v names (fs.lookup name)) (bind v (name :: names) fs) := by
  cases hlookup : fs.lookup name with
  | none =>
      cases names with
      | nil =>
          simp only [bindAt, Toml.bind, hlookup, Option.isNone_none, if_true]
          exact .some (Fields.lookup_concat hlookup)
      | cons next names =>
          simp only [bindAt, Toml.bind, hlookup]
          exact writes_map _ fun inner => Fields.lookup_concat hlookup
  | some node =>
      cases names with
      | nil =>
          simp only [bindAt, Toml.bind, hlookup, Option.isNone_some, Bool.false_eq_true, if_false]
          exact .none
      | cons next names =>
          cases node with
          | value d =>
              simp only [bindAt, Toml.bind, hlookup]
              exact .none
          | tables elements =>
              simp only [bindAt, Toml.bind, hlookup]
              exact .none
          | table o inner =>
              cases o with
              | «section» place =>
                  simp only [bindAt, Toml.bind, hlookup]
                  exact .none
              | implied =>
                  simp only [bindAt, Toml.bind, hlookup]
                  exact writes_map _ fun inner => Fields.lookup_put
              | extended =>
                  simp only [bindAt, Toml.bind, hlookup]
                  exact writes_map _ fun inner => Fields.lookup_put
              | dotted =>
                  simp only [bindAt, Toml.bind, hlookup]
                  exact writes_map _ fun inner => Fields.lookup_put

/-- What is done within the table under a name is written under that name. -/
theorem writes_within (f : Fields → Option Fields) (path : List String) (fs : Fields) :
    Writes name fs (descend (within f path) (fs.lookup name)) (within f (name :: path) fs) := by
  cases hlookup : fs.lookup name with
  | none =>
      simp only [descend, within, hlookup]
      exact writes_map _ fun inner => Fields.lookup_concat hlookup
  | some node =>
      cases node with
      | value d =>
          simp only [descend, within, hlookup]
          exact .none
      | table o inner =>
          simp only [descend, within, hlookup]
          exact writes_map _ fun inner => Fields.lookup_put
      | tables elements =>
          cases elements with
          | nil =>
              simp only [descend, within, hlookup]
              exact .none
          | cons element before =>
              simp only [descend, within, hlookup]
              exact writes_map _ fun inner => Fields.lookup_put

/-- The head of a section writes under its name. -/
theorem writes_begin (isArray : Bool) (fs : Fields) :
    Writes name fs (beginAt isArray (fs.lookup name)) (beginSection 0 isArray [name] fs) := by
  cases isArray with
  | true =>
      show Writes name fs _ (beginElement 0 name fs)
      cases hlookup : fs.lookup name with
      | none =>
          simp only [beginAt, beginElement, hlookup]
          exact .some (Fields.lookup_concat hlookup)
      | some node =>
          cases node with
          | tables elements =>
              simp only [beginAt, beginElement, hlookup]
              exact .some Fields.lookup_put
          | value d =>
              simp only [beginAt, beginElement, hlookup]
              exact .none
          | table o inner =>
              simp only [beginAt, beginElement, hlookup]
              exact .none
  | false =>
      show Writes name fs _ (beginTable 0 name fs)
      cases hlookup : fs.lookup name with
      | none =>
          simp only [beginAt, beginTable, hlookup]
          exact .some (Fields.lookup_concat hlookup)
      | some node =>
          cases node with
          | value d =>
              simp only [beginAt, beginTable, hlookup]
              exact .none
          | tables elements =>
              simp only [beginAt, beginTable, hlookup]
              exact .none
          | table o inner =>
              cases o with
              | implied =>
                  simp only [beginAt, beginTable, hlookup]
                  exact .some Fields.lookup_move
              | «section» place =>
                  simp only [beginAt, beginTable, hlookup]
                  exact .none
              | extended =>
                  simp only [beginAt, beginTable, hlookup]
                  exact .none
              | dotted =>
                  simp only [beginAt, beginTable, hlookup]
                  exact .none

/-- What is done to the table under a name in two steps is done in one. -/
theorem descend_bind (f g : Fields → Option Fields) (x : Option Node) :
    (descend f x).bind (fun v => descend g (some v)) = descend (fun fs => (f fs).bind g) x := by
  have hmap : ∀ {F : Fields → Node} (y : Option Fields),
      (∀ fs, descend g (some (F fs)) = (g fs).map F) →
        (y.map F).bind (fun v => descend g (some v)) = (y.bind g).map F := by
    intro F y hF
    cases y with
    | none => rfl
    | some fs => exact hF fs
  match x with
  | none => exact hmap (f []) fun fs => rfl
  | some (.table o fs) => exact hmap (f fs) fun fs => rfl
  | some (.tables ((place, last) :: before)) => exact hmap (f last) fun fs => rfl
  | some (.value d) => rfl
  | some (.tables []) => rfl

/-- A statement writes under its first name. -/
theorem writes_run (hs : s.under name) (fs : Fields) :
    Writes name fs (s.at? (fs.lookup name)) (s.run fs) := by
  have hhead := of_decide_eq_true hs
  cases s with
  | entry names v =>
      cases names with
      | nil => cases hhead
      | cons first names =>
          obtain rfl := Option.some.inj hhead
          cases v with
          | none => exact .none
          | some d => exact writes_bind (.value d) names fs
  | «section» isArray path entries =>
      cases path with
      | nil => cases hhead
      | cons first path =>
          obtain rfl := Option.some.inj hhead
          cases path with
          | nil =>
              refine (writes_begin isArray fs).bind fun v fs hv => ?_
              rw [← hv]
              exact writes_within (entries.foldlM bindSaid ·) [] fs
          | cons next path =>
              have hsteps := (writes_within (if isArray
                  then beginElement 0 ((next :: path).getLast (List.cons_ne_nil _ _))
                  else beginTable 0 ((next :: path).getLast (List.cons_ne_nil _ _)))
                (next :: path).dropLast fs).bind fun v fs hv => by
                  have hwithin : Writes first fs _ _ :=
                    writes_within (entries.foldlM bindSaid ·) (next :: path) fs
                  rw [hv] at hwithin
                  exact hwithin
              rw [descend_bind] at hsteps
              exact hsteps

/-! ## Statements under one name -/

/-- What statements make of what stands under their first name, one after the other. -/
def runAt (statements : List Statement) (x : Option Node) : Option (Option Node) :=
  statements.foldlM (fun x s => (s.at? x).map some) x

/-- One statement, and those behind it. -/
theorem runAt_cons (s : Statement) (statements : List Statement) (x : Option Node) :
    runAt (s :: statements) x = (s.at? x).bind fun v => runAt statements (some v) := by
  unfold runAt
  rw [List.foldlM_cons, Option.bind_eq_bind, Option.bind_map]
  rfl

/-- A statement that does something has a first name. -/
theorem exists_under (h : s.run fs = some r) : ∃ name, s.under name := by
  have hnames : s.names ≠ [] := by
    intro hnil
    cases s with
    | entry names v =>
        obtain rfl : names = [] := hnil
        obtain ⟨d, -, hbind⟩ := Option.bind_eq_some_iff.1 h
        cases hbind
    | «section» isArray path entries =>
        obtain rfl : path = [] := hnil
        cases h
  obtain ⟨name, rest, hcons⟩ := List.exists_cons_of_ne_nil hnames
  refine ⟨name, decide_eq_true ?_⟩
  rw [hcons]
  rfl

/-- A statement stands under one name only. -/
theorem under_unique {other : String} (h : s.under name) (hother : s.under other) :
    other = name :=
  Option.some.inj ((of_decide_eq_true hother).symm.trans (of_decide_eq_true h))

/-- What stands under a name is what the statements under it make. -/
theorem lookup_runAll (h : runAll statements fs = some r) (name : String) :
    runAt (statements.filter (Statement.under name)) (fs.lookup name) = some (r.lookup name) := by
  induction statements generalizing fs with
  | nil =>
      obtain rfl := Option.some.inj h
      rfl
  | cons s statements ih =>
      rw [runAll_cons] at h
      obtain ⟨fs₁, hs, hrest⟩ := Option.bind_eq_some_iff.1 h
      obtain ⟨first, hfirst⟩ := exists_under hs
      have hwrites := writes_run hfirst fs
      rw [hs] at hwrites
      generalize hat : s.at? (fs.lookup first) = x at hwrites
      cases hwrites with
      | @some v _ hlookup =>
          have hname := hlookup name
          by_cases hunder : s.under name = true
          · obtain rfl := under_unique hfirst hunder
            rw [if_pos rfl] at hname
            rw [List.filter_cons_of_pos hunder, runAt_cons, hat, Option.bind_some, ← hname]
            exact ih hrest
          · have hne : name ≠ first := by
              rintro rfl
              exact hunder hfirst
            rw [if_neg hne] at hname
            rw [List.filter_cons_of_neg hunder, ← hname]
            exact ih hrest

/-- Statements make up fields where those under each name do. -/
theorem exists_runAll (hnames : ∀ s ∈ statements, s.names ≠ [])
    (h : ∀ name, runAt (statements.filter (Statement.under name)) (fs.lookup name) ≠ none) :
    ∃ r, runAll statements fs = some r := by
  induction statements generalizing fs with
  | nil => exact ⟨fs, rfl⟩
  | cons s statements ih =>
      obtain ⟨hs, hrest⟩ := List.forall_mem_cons.1 hnames
      obtain ⟨first, rest, hcons⟩ := List.exists_cons_of_ne_nil hs
      have hfirst : s.under first = true := by
        refine decide_eq_true ?_
        rw [hcons]
        rfl
      have hsome := h first
      rw [List.filter_cons_of_pos hfirst, runAt_cons] at hsome
      have hwrites := writes_run hfirst fs
      generalize hat : s.at? (fs.lookup first) = x at hwrites hsome
      generalize hrun : s.run fs = y at hwrites
      cases hwrites with
      | none => exact absurd rfl hsome
      | @some v fs₁ hlookup =>
          obtain ⟨r, hr⟩ : ∃ r, runAll statements fs₁ = some r := by
            refine ih hrest fun name => ?_
            rw [hlookup name]
            by_cases hname : name = first
            · subst hname
              rw [if_pos rfl]
              exact hsome
            · rw [if_neg hname]
              have hothers := h name
              rwa [List.filter_cons_of_neg fun hunder => hname (under_unique hfirst hunder)]
                at hothers
          refine ⟨r, ?_⟩
          rw [runAll_cons, hrun]
          exact hr

/-- Where only the statements under one name are changed, nothing changes under the others. -/
theorem runAll_change {changed : List Statement} {x : Option Node}
    (h : runAll statements [] = some r) (hnames : ∀ s ∈ changed, s.names ≠ [])
    (hothers : ∀ n, n ≠ name →
      changed.filter (Statement.under n) = statements.filter (Statement.under n))
    (hname : runAt (changed.filter (Statement.under name)) none = some x) :
    ∃ r', runAll changed [] = some r' ∧ r'.lookup name = x ∧
      ∀ n, n ≠ name → r'.lookup n = r.lookup n := by
  obtain ⟨r', hr'⟩ : ∃ r', runAll changed [] = some r' := by
    refine exists_runAll hnames fun n => ?_
    show runAt (changed.filter (Statement.under n)) none ≠ none
    by_cases hn : n = name
    · subst hn
      rw [hname]
      exact Option.some_ne_none x
    · rw [hothers n hn]
      have hsame := lookup_runAll h n
      rw [show List.lookup n ([] : Fields) = none from rfl] at hsame
      rw [hsame]
      exact Option.some_ne_none _
  refine ⟨r', hr', ?_, ?_⟩
  · have hfound := lookup_runAll hr' name
    rw [show List.lookup name ([] : Fields) = none from rfl, hname] at hfound
    exact (Option.some.inj hfound).symm
  · intro n hn
    have hfound := lookup_runAll hr' n
    rw [hothers n hn, lookup_runAll h n] at hfound
    exact (Option.some.inj hfound).symm

end LintWatch.Toml
