import LintWatch.Diagnostic.Store

/-!
# What the store of live diagnostics holds

A store is read through `lookup`. Publishing changes what is read for one file and leaves the
others alone (`lookup_update`), and a store that was filled by publishing lists each file once and
none without diagnostics (`WellFormed`), so its files are exactly those with something to read.
-/

namespace LintWatch.DiagnosticStore

variable {s : DiagnosticStore} {path other : Path} {items : List Diagnostic}
  {files : List (Path × List Diagnostic)}

/-- Nothing is read from an empty store. -/
@[simp]
theorem lookup_empty : empty.lookup other = [] := rfl

/-- Replacing the diagnostics of a file changes what is read for it, and for no other file. -/
theorem lookup_put :
    lookup ⟨put path items files⟩ other
      = if other.same path then items else lookup ⟨files⟩ other := by
  induction files with
  | nil =>
      simp only [put, lookup, List.find?_cons, List.find?_nil, Path.same, eq_comm]
      by_cases h : path.components = other.components <;> simp [h]
  | cons f files ih =>
      obtain ⟨p, old⟩ := f
      by_cases hp : p.components = path.components
      · by_cases ho : other.components = path.components <;>
          simp [put, lookup, hp, ho, Path.same, eq_comm]
      · by_cases ho : p.components = other.components
        · have hne : ¬ other.components = path.components := fun he => hp (ho.trans he)
          simp [put, lookup, Path.same, ho, hne]
        · simpa [put, lookup, Path.same, hp, ho] using ih

/-- Taking a file out changes what is read for it, and for no other file. -/
theorem lookup_filter :
    lookup ⟨files.filter fun f => !f.1.same path⟩ other
      = if other.same path then [] else lookup ⟨files⟩ other := by
  induction files with
  | nil => simp [lookup]
  | cons f files ih =>
      obtain ⟨p, old⟩ := f
      by_cases hp : p.components = path.components
      · by_cases ho : other.components = path.components
        · simpa [lookup, Path.same, hp, ho] using ih
        · have hne : ¬ path.components = other.components := fun he => ho he.symm
          simpa [lookup, Path.same, hp, ho, hne] using ih
      · by_cases ho : p.components = other.components
        · have hne : ¬ other.components = path.components := fun he => hp (ho.trans he)
          simp [lookup, Path.same, ho, hne]
        · simpa [lookup, Path.same, hp, ho] using ih

/-- What is read after publishing. -/
@[simp]
theorem lookup_update :
    (s.update path items).lookup other = if other.same path then items else s.lookup other := by
  unfold update
  split
  next hitems => rw [lookup_filter, hitems]
  next => exact lookup_put

/-- A store lists each file once, and none without diagnostics. -/
structure WellFormed (s : DiagnosticStore) : Prop where
  distinct : s.files.Pairwise fun f g => f.1.components ≠ g.1.components
  nonempty : ∀ f ∈ s.files, f.2 ≠ []

/-- A store without diagnostics lists no file. -/
theorem well_formed_empty : WellFormed empty :=
  ⟨.nil, by simp [empty]⟩

/-- The files after replacing the diagnostics of one are those before it, and that one. -/
theorem components_of_mem_put {f : Path × List Diagnostic} (h : f ∈ put path items files) :
    f.1.components = path.components ∨ ∃ g ∈ files, g.1.components = f.1.components := by
  induction files with
  | nil =>
      obtain rfl := List.mem_singleton.1 h
      exact .inl rfl
  | cons g files ih =>
      simp only [put] at h
      split at h
      next hg =>
        rcases List.mem_cons.1 h with rfl | h
        · exact .inl (Path.same_iff.1 hg)
        · exact .inr ⟨f, .tail _ h, rfl⟩
      next =>
        rcases List.mem_cons.1 h with rfl | h
        · exact .inr ⟨_, List.mem_cons_self, rfl⟩
        · rcases ih h with h | ⟨k, hk, he⟩
          · exact .inl h
          · exact .inr ⟨k, .tail _ hk, he⟩

/-- Replacing the diagnostics of a file does not list it twice. -/
theorem distinct_put (h : files.Pairwise fun f g => f.1.components ≠ g.1.components) :
    (put path items files).Pairwise fun f g => f.1.components ≠ g.1.components := by
  induction files with
  | nil => simp [put]
  | cons f files ih =>
      obtain ⟨hf, hfiles⟩ := List.pairwise_cons.1 h
      simp only [put]
      split
      next => exact List.pairwise_cons.2 ⟨hf, hfiles⟩
      next hne =>
        refine List.pairwise_cons.2 ⟨fun g hg => ?_, ih hfiles⟩
        rcases components_of_mem_put hg with he | ⟨k, hk, he⟩
        · exact fun heq => hne (Path.same_iff.2 (heq.trans he))
        · exact fun heq => hf k hk (heq.trans he.symm)

/-- Diagnostics that are put in are there, or were before. -/
theorem items_of_mem_put {f : Path × List Diagnostic} (h : f ∈ put path items files) :
    f.2 = items ∨ f ∈ files := by
  induction files with
  | nil => exact .inl (congrArg Prod.snd (List.mem_singleton.1 h))
  | cons g files ih =>
      simp only [put] at h
      split at h
      · rcases List.mem_cons.1 h with rfl | h
        · exact .inl rfl
        · exact .inr (.tail _ h)
      · rcases List.mem_cons.1 h with rfl | h
        · exact .inr List.mem_cons_self
        · exact (ih h).imp_right (.tail _)

/-- Publishing keeps a store well-formed. -/
theorem WellFormed.update (h : WellFormed s) : WellFormed (s.update path items) := by
  unfold DiagnosticStore.update
  split
  next => exact ⟨h.distinct.filter _, fun f hf => h.nonempty f (List.mem_filter.1 hf).1⟩
  next hne =>
    refine ⟨distinct_put h.distinct, fun f hf => ?_⟩
    rcases items_of_mem_put hf with he | hf
    · rwa [he]
    · exact h.nonempty f hf

/-- A file that is listed is read with the diagnostics listed for it. -/
theorem WellFormed.lookup_of_mem (h : WellFormed s) {f : Path × List Diagnostic}
    (hf : f ∈ s.files) : s.lookup f.1 = f.2 := by
  have hfind : s.files.find? (fun g => g.1.same f.1) = some f := by
    -- No file in front of it is the same, so the search comes to this one.
    obtain ⟨before, after, hsplit⟩ := List.append_of_mem hf
    rw [List.find?_eq_some_iff_append]
    refine ⟨Path.same_iff.2 rfl, before, after, hsplit, fun g hg => ?_⟩
    have hne : g.1.components ≠ f.1.components := by
      have hd := h.distinct
      rw [hsplit, List.pairwise_append] at hd
      exact hd.2.2 g hg f List.mem_cons_self
    simpa [Path.same] using hne
  simp [lookup, hfind]

/-- A file with something to read is listed. -/
theorem exists_mem_of_lookup_ne_nil (h : s.lookup path ≠ []) :
    ∃ f ∈ s.files, f.1.components = path.components ∧ f.2 = s.lookup path := by
  cases hfind : s.files.find? fun f => f.1.same path with
  | none => simp [lookup, hfind] at h
  | some f =>
      have hsame : f.1.same path = true := by simpa using List.find?_some hfind
      exact ⟨f, List.mem_of_find?_eq_some hfind, Path.same_iff.1 hsame, by simp [lookup, hfind]⟩

/-- What is read for a file does not depend on its spelling. -/
theorem lookup_congr (h : path.components = other.components) : s.lookup path = s.lookup other := by
  simp [lookup, Path.same, h]

/-- A snapshot lists the files of the store. -/
@[simp]
theorem mem_snapshot {f : Path × List Diagnostic} : f ∈ s.snapshot ↔ f ∈ s.files :=
  (List.mergeSort_perm _ _).mem_iff

end LintWatch.DiagnosticStore
