import LintWatch.Proofs.Toml.Fields

/-!
# Tables without the places of their sections

Where in a document the section of a table stands is kept with the table, but decides nothing about
the tables: `bindSection_unplaced`. So sections can be counted from anywhere, and what a table means
is the same: `dataOfFields_unplaced`.
-/

namespace LintWatch.Toml

/-- An origin without the place of the section. -/
def Origin.unplaced : Origin → Origin
  | .section _ => .section 0
  | .implied => .implied
  | .extended => .extended
  | .dotted => .dotted

mutual

/-- A node without the places of sections. -/
def Node.unplaced : Node → Node
  | .value v => .value v
  | .table o fields => .table o.unplaced (unplacedFields fields)
  | .tables elements => .tables (unplacedElements elements)

/-- Fields without the places of sections. -/
def unplacedFields : List (String × Node) → List (String × Node)
  | [] => []
  | (name, v) :: rest => (name, v.unplaced) :: unplacedFields rest

/-- Tables of an array without the places of sections. -/
def unplacedElements : List (Nat × List (String × Node)) → List (Nat × List (String × Node))
  | [] => []
  | (_, fields) :: rest => (0, unplacedFields fields) :: unplacedElements rest

end

mutual

/-- Places mean nothing. -/
theorem data_unplaced (v : Node) : v.unplaced.data = v.data := by
  cases v with
  | value d => rfl
  | table o fields =>
      simp only [Node.unplaced, Node.data, dataOfFields_unplaced fields]
  | tables elements =>
      simp only [Node.unplaced, Node.data, dataOfElements_unplaced elements]

/-- Places mean nothing. -/
theorem dataOfFields_unplaced (fields : List (String × Node)) :
    dataOfFields (unplacedFields fields) = dataOfFields fields := by
  cases fields with
  | nil => rfl
  | cons field rest =>
      obtain ⟨name, v⟩ := field
      simp only [unplacedFields, dataOfFields, data_unplaced v, dataOfFields_unplaced rest]

/-- Places mean nothing. -/
theorem dataOfElements_unplaced (elements : List (Nat × List (String × Node))) :
    dataOfElements (unplacedElements elements) = dataOfElements elements := by
  cases elements with
  | nil => rfl
  | cons element rest =>
      obtain ⟨place, fields⟩ := element
      simp only [unplacedElements, dataOfElements, dataOfFields_unplaced fields,
        dataOfElements_unplaced rest]

end

variable {fs : Fields} {name : String} {v : Node} {path : List String}

/-! ## Fields -/

/-- What stands under a name has no places. -/
theorem lookup_unplaced (fs : Fields) (n : String) :
    (unplacedFields fs).lookup n = (fs.lookup n).map Node.unplaced := by
  induction fs with
  | nil => rfl
  | cons field fs ih =>
      obtain ⟨first, old⟩ := field
      rw [unplacedFields, Fields.lookup_cons, Fields.lookup_cons, ih]
      split <;> rfl

/-- Places do not matter to fields behind each other. -/
theorem unplaced_append (fs more : Fields) :
    unplacedFields (fs ++ more) = unplacedFields fs ++ unplacedFields more := by
  induction fs with
  | nil => rfl
  | cons field fs ih =>
      obtain ⟨first, old⟩ := field
      simp only [List.cons_append, unplacedFields, ih]

/-- Places do not matter to where a field is put. -/
theorem unplaced_put (fs : Fields) :
    unplacedFields (fs.put name v) = Fields.put name v.unplaced (unplacedFields fs) := by
  induction fs with
  | nil => rfl
  | cons field fs ih =>
      obtain ⟨first, old⟩ := field
      by_cases h : first = name
      · simp only [Fields.put, if_pos h, unplacedFields]
      · simp only [Fields.put, if_neg h, unplacedFields, ih]

/-- Places do not matter to which field is taken out. -/
theorem unplaced_erase (fs : Fields) :
    unplacedFields (fs.erase name) = Fields.erase name (unplacedFields fs) := by
  induction fs with
  | nil => rfl
  | cons field fs ih =>
      obtain ⟨first, old⟩ := field
      unfold Fields.erase at ih ⊢
      by_cases h : first = name
      · rw [List.filter_cons_of_neg (by simpa using h), ih, unplacedFields,
          List.filter_cons_of_neg (by simpa using h)]
      · rw [List.filter_cons_of_pos (by simpa using h), unplacedFields, unplacedFields, ih,
          List.filter_cons_of_pos (by simpa using h)]

/-! ## Statements -/

/-- Only a table with a section of its own has one wherever sections stand. -/
theorem unplaced_ne_section {o : Origin} (h : ∀ place, o ≠ .section place) (place : Nat) :
    o.unplaced ≠ .section place := by
  cases o with
  | «section» p => exact absurd rfl (h p)
  | implied => exact Origin.noConfusion
  | extended => exact Origin.noConfusion
  | dotted => exact Origin.noConfusion

/-- A dotted key adds to a table alike wherever sections stand. -/
theorem unplaced_extend (o : Origin) : o.extend.unplaced = o.unplaced.extend := by
  cases o <;> rfl

/-- A key is bound alike wherever sections stand. -/
theorem bind_unplaced (d : Data) (path : List String) (fs : Fields) :
    bind (.value d) path (unplacedFields fs) = (bind (.value d) path fs).map unplacedFields := by
  induction path generalizing fs with
  | nil => rfl
  | cons name path ih =>
      cases path with
      | nil =>
          simp only [bind, lookup_unplaced, Option.isNone_map]
          split
          next => rw [Option.map_some, unplaced_append]; rfl
          next => rfl
      | cons next path =>
          have hnil := ih []
          simp only [unplacedFields] at hnil
          cases hlookup : fs.lookup name with
          | none =>
              simp only [bind, lookup_unplaced, hlookup, Option.map_none, Option.map_map]
              nth_rewrite 1 [hnil]
              rw [Option.map_map]
              refine Option.map_congr fun inner _ => ?_
              simp only [Function.comp_apply, unplaced_append]
              rfl
          | some node =>
              cases node with
              | value d' => simp only [bind, lookup_unplaced, hlookup, Option.map_some,
                  Node.unplaced, Option.map_none]
              | tables elements => simp only [bind, lookup_unplaced, hlookup, Option.map_some,
                  Node.unplaced, Option.map_none]
              | table o inner =>
                  have hlookup' := lookup_unplaced fs name
                  rw [hlookup] at hlookup'
                  by_cases ho : ∀ place, o ≠ .section place
                  · rw [bind_below (List.cons_ne_nil next path) hlookup ho,
                      bind_below (List.cons_ne_nil next path) hlookup' (unplaced_ne_section ho), ih,
                      Option.map_map, Option.map_map]
                    refine Option.map_congr fun inner _ => ?_
                    simp only [Function.comp_apply, unplaced_put, Node.unplaced]
                    split
                    next => rw [unplaced_extend]
                    next => rfl
                  · obtain ⟨place, hplace⟩ := not_forall.1 ho
                    obtain rfl := not_not.1 hplace
                    simp only [bind, hlookup, hlookup', Option.map_some, Node.unplaced,
                      Origin.unplaced, Option.map_none]

/-- Entries are bound alike wherever sections stand. -/
theorem bindEntries?_unplaced (entries : List Entry) (fs : Fields) :
    bindEntries? (unplacedFields fs) entries = (bindEntries? fs entries).map unplacedFields := by
  induction entries generalizing fs with
  | nil => rfl
  | cons e entries ih =>
      obtain ⟨lead, key, before, v, after⟩ := e
      simp only [bindEntries?, bind_unplaced]
      cases v.data? with
      | none => rfl
      | some d =>
          simp only
          cases bind (.value d) (key.map KeyPart.name) fs with
          | none => rfl
          | some fs' => exact ih fs'

/-- What is done alike to tables is done alike to tables within others. -/
theorem within_unplaced {f g : Fields → Option Fields}
    (hfg : ∀ fs, g (unplacedFields fs) = (f fs).map unplacedFields) (path : List String)
    (fs : Fields) : within g path (unplacedFields fs) = (within f path fs).map unplacedFields := by
  induction path generalizing fs with
  | nil => exact hfg fs
  | cons name path ih =>
      have hnil := ih []
      simp only [unplacedFields] at hnil
      cases hlookup : fs.lookup name with
      | none =>
          simp only [within, lookup_unplaced, hlookup, Option.map_none, hnil, Option.map_map]
          refine Option.map_congr fun inner _ => ?_
          simp only [Function.comp_apply, unplaced_append]
          rfl
      | some node =>
          cases node with
          | value d => simp only [within, lookup_unplaced, hlookup, Option.map_some, Node.unplaced,
              Option.map_none]
          | table o inner =>
              simp only [within, lookup_unplaced, hlookup, Option.map_some, Node.unplaced, ih,
                Option.map_map]
              refine Option.map_congr fun inner _ => ?_
              simp only [Function.comp_apply, unplaced_put, Node.unplaced]
          | tables elements =>
              cases elements with
              | nil => simp only [within, lookup_unplaced, hlookup, Option.map_some, Node.unplaced,
                  unplacedElements, Option.map_none]
              | cons element before =>
                  obtain ⟨place, last⟩ := element
                  simp only [within, lookup_unplaced, hlookup, Option.map_some, Node.unplaced,
                    unplacedElements, ih, Option.map_map]
                  refine Option.map_congr fun inner _ => ?_
                  simp only [Function.comp_apply, unplaced_put, Node.unplaced, unplacedElements]

/-- The section of a table begins alike wherever it stands. -/
theorem beginTable_unplaced (place : Nat) (name : String) (fs : Fields) :
    beginTable 0 name (unplacedFields fs) = (beginTable place name fs).map unplacedFields := by
  cases hlookup : fs.lookup name with
  | none =>
      simp only [beginTable, lookup_unplaced, hlookup, Option.map_none, Option.map_some,
        unplaced_append]
      rfl
  | some node =>
      cases node with
      | value d => simp only [beginTable, lookup_unplaced, hlookup, Option.map_some, Node.unplaced,
          Option.map_none]
      | tables elements => simp only [beginTable, lookup_unplaced, hlookup, Option.map_some,
          Node.unplaced, Option.map_none]
      | table o inner =>
          cases o with
          | implied =>
              simp only [beginTable, lookup_unplaced, hlookup, Option.map_some, Node.unplaced,
                Origin.unplaced, unplaced_append, unplaced_erase]
              rfl
          | «section» p => simp only [beginTable, lookup_unplaced, hlookup, Option.map_some,
              Node.unplaced, Origin.unplaced, Option.map_none]
          | extended => simp only [beginTable, lookup_unplaced, hlookup, Option.map_some,
              Node.unplaced, Origin.unplaced, Option.map_none]
          | dotted => simp only [beginTable, lookup_unplaced, hlookup, Option.map_some,
              Node.unplaced, Origin.unplaced, Option.map_none]

/-- The section of a table of an array begins alike wherever it stands. -/
theorem beginElement_unplaced (place : Nat) (name : String) (fs : Fields) :
    beginElement 0 name (unplacedFields fs) = (beginElement place name fs).map unplacedFields := by
  cases hlookup : fs.lookup name with
  | none =>
      simp only [beginElement, lookup_unplaced, hlookup, Option.map_none, Option.map_some,
        unplaced_append]
      rfl
  | some node =>
      cases node with
      | tables elements =>
          simp only [beginElement, lookup_unplaced, hlookup, Option.map_some, Node.unplaced,
            unplaced_put]
          rfl
      | value d => simp only [beginElement, lookup_unplaced, hlookup, Option.map_some,
          Node.unplaced, Option.map_none]
      | table o inner => simp only [beginElement, lookup_unplaced, hlookup, Option.map_some,
          Node.unplaced, Option.map_none]

/-- A section does alike wherever it stands. -/
theorem bindSection_unplaced (fs : Fields) (s : Section) (place : Nat) :
    bindSection (unplacedFields fs) (s, 0) = (bindSection fs (s, place)).map unplacedFields := by
  have hbegin : ∀ fs, beginSection 0 s.header.isArray (Key.names s.header.key) (unplacedFields fs)
      = (beginSection place s.header.isArray (Key.names s.header.key) fs).map unplacedFields := by
    intro fs
    unfold beginSection
    split
    next => rfl
    next name _ =>
      refine within_unplaced (fun fs => ?_) _ fs
      cases s.header.isArray with
      | true => exact beginElement_unplaced place name fs
      | false => exact beginTable_unplaced place name fs
  simp only [bindSection, hbegin, Option.bind_eq_bind, Option.bind_map, Option.map_bind]
  refine Option.bind_congr fun fs' _ => ?_
  exact within_unplaced (bindEntries?_unplaced s.entries) _ fs'

/-- Sections do alike wherever they stand. -/
theorem foldlM_bindSection_unplaced (sections : List Section) (place : Nat) (fs : Fields) :
    sections.foldlM (fun fs s => bindSection fs (s, 0)) (unplacedFields fs)
      = ((sections.zipIdx place).foldlM bindSection fs).map unplacedFields := by
  induction sections generalizing fs place with
  | nil => rfl
  | cons s sections ih =>
      simp only [List.foldlM_cons, List.zipIdx_cons, bindSection_unplaced fs s place,
        Option.bind_eq_bind, Option.bind_map, Option.map_bind]
      refine Option.bind_congr fun fs' _ => ?_
      exact ih (place + 1) fs'

end LintWatch.Toml
