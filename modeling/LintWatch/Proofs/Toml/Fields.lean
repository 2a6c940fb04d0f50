import LintWatch.Toml.Data
import Mathlib.Data.List.Basic

/-!
# Fields of tables

What stands under a name after a field has been added, replaced or moved, how changes to several
fields go together, and what a key does to the field of its first name.
-/

namespace LintWatch.Toml

namespace Fields

variable {fs : Fields} {n name : String} {v w : Node}

/-- The first field is found under its name, and the others under theirs. -/
theorem lookup_cons (n : String) :
    ((name, v) :: fs).lookup n = if n = name then some v else fs.lookup n := by
  by_cases h : n = name
  · subst h
    rw [if_pos rfl, List.lookup_cons_self]
  · rw [if_neg h, List.lookup_cons, beq_false_of_ne h]

/-- A field that has been put is found under its name, and the others are as before. -/
theorem lookup_put (n : String) :
    (fs.put name v).lookup n = if n = name then some v else fs.lookup n := by
  induction fs with
  | nil => exact lookup_cons n
  | cons field fs ih =>
      obtain ⟨first, old⟩ := field
      by_cases h : first = name
      · subst h
        rw [put, if_pos rfl, lookup_cons, lookup_cons]
        split <;> rfl
      · rw [put, if_neg h, lookup_cons, lookup_cons, ih]
        by_cases hn : n = first
        · rw [if_pos hn, if_pos hn, if_neg fun heq => h (hn.symm.trans heq)]
        · rw [if_neg hn, if_neg hn]

/-- A new field at the end is found under its name, and the others are as before. -/
theorem lookup_concat (h : fs.lookup name = none) (n : String) :
    (fs ++ [(name, v)]).lookup n = if n = name then some v else fs.lookup n := by
  rw [List.lookup_append, lookup_cons]
  by_cases hn : n = name
  · subst hn
    rw [if_pos rfl, if_pos rfl, h]
    rfl
  · rw [if_neg hn, if_neg hn]
    exact Option.or_none

/-- A field that has been taken out is not found, and the others are as before. -/
theorem lookup_erase (n : String) :
    (fs.erase name).lookup n = if n = name then none else fs.lookup n := by
  induction fs with
  | nil => exact (ite_self none).symm
  | cons field fs ih =>
      obtain ⟨first, old⟩ := field
      unfold erase at ih ⊢
      by_cases h : first = name
      · rw [List.filter_cons_of_neg (by simpa using h), ih, lookup_cons]
        subst h
        split <;> rfl
      · rw [List.filter_cons_of_pos (by simpa using h), lookup_cons, lookup_cons, ih]
        by_cases hn : n = first
        · rw [if_pos hn, if_pos hn, if_neg fun heq => h (hn.symm.trans heq)]
        · rw [if_neg hn, if_neg hn]

/-- A field that has been moved to the end is found under its name, and the others are as
before. -/
theorem lookup_move (n : String) :
    (fs.erase name ++ [(name, v)]).lookup n = if n = name then some v else fs.lookup n := by
  have hnone : (fs.erase name).lookup name = none := by rw [lookup_erase, if_pos rfl]
  rw [lookup_concat hnone, lookup_erase]
  split <;> rfl

/-- Of two fields with one name that are put, the first has no effect. -/
theorem put_put : (fs.put name v).put name w = fs.put name w := by
  induction fs with
  | nil => simp [put]
  | cons field fs ih =>
      obtain ⟨first, old⟩ := field
      by_cases h : first = name
      · simp [put, h]
      · simp [put, h, ih]

/-- A field that is there is put in its place, whatever comes behind. -/
theorem put_append (h : (fs.lookup name).isSome) (more : Fields) :
    Fields.put name v (fs ++ more) = fs.put name v ++ more := by
  induction fs with
  | nil => cases h
  | cons field fs ih =>
      obtain ⟨first, old⟩ := field
      by_cases heq : first = name
      · simp [put, heq]
      · rw [lookup_cons, if_neg (Ne.symm heq)] at h
        simp [put, heq, ih h]

/-- Fields that are there are put in either order. -/
theorem put_comm (hne : n ≠ name) (h : (fs.lookup name).isSome) (h' : (fs.lookup n).isSome) :
    (fs.put name v).put n w = (fs.put n w).put name v := by
  induction fs with
  | nil => cases h
  | cons field fs ih =>
      obtain ⟨first, old⟩ := field
      by_cases heq : first = name
      · subst heq
        simp [put, Ne.symm hne]
      · rw [lookup_cons, if_neg (Ne.symm heq)] at h
        by_cases heq' : first = n
        · subst heq'
          simp [put, heq]
        · rw [lookup_cons, if_neg (Ne.symm heq')] at h'
          simp [put, heq, heq', ih h h']

/-- What a field means is found under its name. -/
theorem lookup_dataOfFields (fs : Fields) (n : String) :
    (dataOfFields fs).lookup n = (fs.lookup n).map Node.data := by
  induction fs with
  | nil => rfl
  | cons field fs ih =>
      obtain ⟨first, old⟩ := field
      rw [dataOfFields, lookup_cons, List.lookup_cons]
      by_cases h : n = first
      · rw [if_pos h, beq_iff_eq.2 h]
        rfl
      · rw [if_neg h, beq_false_of_ne h]
        exact ih

end Fields

/-! ## Keys -/

variable {fs r : Fields} {name : String} {v : Node} {a : List String}

/-- What a dotted key makes of a table at its first name. -/
theorem bind_below {o : Origin} {inner : Fields} (ha : a ≠ [])
    (hlookup : fs.lookup name = some (.table o inner)) (ho : ∀ place, o ≠ .section place) :
    bind v (name :: a) fs = (bind v a inner).map fun inner =>
      fs.put name (.table (if a.length = 1 then o.extend else o) inner) := by
  cases a with
  | nil => exact absurd rfl ha
  | cons next a =>
      cases o with
      | «section» place => exact absurd rfl (ho place)
      | implied => simp only [bind, hlookup]
      | extended => simp only [bind, hlookup]
      | dotted => simp only [bind, hlookup]

/-- What a key does to fields: its first name is new, or leads into a table that is there. -/
theorem bind_cases (h : bind v (name :: a) fs = some r) :
    (fs.lookup name = none ∧ ∃ node, r = fs ++ [(name, node)]) ∨
      ∃ o inner inner', a ≠ [] ∧ fs.lookup name = some (.table o inner) ∧
        (∀ place, o ≠ .section place) ∧ bind v a inner = some inner' ∧
        r = fs.put name (.table (if a.length = 1 then o.extend else o) inner') := by
  cases a with
  | nil =>
      unfold bind at h
      split at h
      next hnone =>
        obtain rfl := Option.some.inj h
        exact Or.inl ⟨Option.isNone_iff_eq_none.1 hnone, v, rfl⟩
      next => cases h
  | cons next a =>
      cases hlookup : fs.lookup name with
      | none =>
          simp only [bind, hlookup, Option.map_eq_some_iff] at h
          obtain ⟨inner, -, rfl⟩ := h
          exact Or.inl ⟨rfl, _, rfl⟩
      | some node =>
          right
          cases node with
          | value d => simp [bind, hlookup] at h
          | tables elements => simp [bind, hlookup] at h
          | table o inner =>
              have ho : ∀ place, o ≠ .section place := by
                rintro place rfl
                simp [bind, hlookup] at h
              rw [bind_below (List.cons_ne_nil next a) hlookup ho] at h
              obtain ⟨inner', hinner, rfl⟩ := Option.map_eq_some_iff.1 h
              exact ⟨o, inner, inner', List.cons_ne_nil next a, rfl, ho, hinner, rfl⟩

end LintWatch.Toml
