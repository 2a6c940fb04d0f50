import LintWatch.Proofs.Path.Components
import Mathlib.Data.List.Infix

/-!
# Paths that climb out

A `..` takes away the name in front of it. A path climbs out where more `..` than names have come
(`Climbs`), and there only the root is left: resolving keeps it and normalizing takes it away, once
and for all. In nothing else do the two differ (`foldl_normalize`), so the absolute paths that are
normalized to what they mean are those that do not climb out (`resolve_eq`,
`absolute_normalize_iff`). Normalizing twice is normalizing once in any case
(`normalize_normalize`).
-/

namespace LintWatch.Path

/-! ## Climbing -/

/-- Whether a component is a name. -/
def Component.isName : Component → Bool
  | .name _ => true
  | _ => false

/-- Somewhere along components that follow `depth` names, more `..` than names have come. -/
def ClimbsFrom (depth : Nat) (cs : List Component) : Prop :=
  ∃ front, front <+: cs ∧ depth + front.countP Component.isName < front.count .parent

/-- Somewhere along a path, more `..` than names have come. -/
def Climbs (p : Path) : Prop :=
  ClimbsFrom 0 p.components

/-- Whether a path climbs out is seen from the beginnings of its components. -/
instance (p : Path) : Decidable p.Climbs :=
  decidable_of_iff
    (∃ front ∈ p.components.inits, 0 + front.countP Component.isName < front.count .parent)
    (by simp only [List.mem_inits]; exact Iff.rfl)

section Steps

variable {cs : List Component} {depth : Nat}

/-- Nothing climbs out where no component comes. -/
theorem not_climbs_from_nil : ¬ ClimbsFrom depth [] := by
  rintro ⟨front, hfront, hlt⟩
  obtain rfl := List.prefix_nil.1 hfront
  exact absurd hlt (Nat.not_lt_zero _)

/-- With one component more in front, the components climb out at the same place. -/
theorem climbs_from_cons {c : Component} : ClimbsFrom depth (c :: cs) ↔
    ∃ front, front <+: cs ∧
      depth + (c :: front).countP Component.isName < (c :: front).count .parent := by
  constructor
  · rintro ⟨front, hfront, hlt⟩
    rcases List.prefix_cons_iff.1 hfront with rfl | ⟨front, rfl, hrest⟩
    · exact absurd hlt (Nat.not_lt_zero _)
    · exact ⟨front, hrest, hlt⟩
  · rintro ⟨front, hfront, hlt⟩
    exact ⟨c :: front, (List.prefix_cons_inj c).2 hfront, hlt⟩

/-- The root does not matter to climbing out. -/
theorem climbs_from_root : ClimbsFrom depth (.root :: cs) ↔ ClimbsFrom depth cs :=
  climbs_from_cons

/-- A `.` does not matter to climbing out. -/
theorem climbs_from_current : ClimbsFrom depth (.current :: cs) ↔ ClimbsFrom depth cs :=
  climbs_from_cons

/-- A name is one more to climb out of. -/
theorem climbs_from_name {n : List UInt8} :
    ClimbsFrom depth (.name n :: cs) ↔ ClimbsFrom (depth + 1) cs := by
  rw [climbs_from_cons]
  refine exists_congr fun front => and_congr_right fun _ => ?_
  have hne : Component.name n ≠ .parent := nofun
  rw [List.countP_cons_of_pos rfl, List.count_cons_of_ne hne]
  omega

/-- A `..` takes a name back. -/
theorem climbs_from_parent :
    ClimbsFrom (depth + 1) (.parent :: cs) ↔ ClimbsFrom depth cs := by
  rw [climbs_from_cons]
  refine exists_congr fun front => and_congr_right fun _ => ?_
  rw [List.countP_cons_of_neg (by decide), List.count_cons_self]
  omega

/-- A `..` climbs out where there is no name to take back. -/
theorem climbs_from_parent_zero : ClimbsFrom 0 (.parent :: cs) :=
  climbs_from_cons.2 ⟨[], List.nil_prefix, by decide⟩

end Steps

/-! ## Normalizing and resolving -/

/-- To resolve, a `..` takes away the last name, if there is one, and never the root. -/
theorem resolve_step_parent (names : List (List UInt8)) :
    resolveStep (.root :: names.map .name) .parent = .root :: names.dropLast.map .name := by
  rcases List.eq_nil_or_concat names with rfl | ⟨init, last, rfl⟩
  · rfl
  · simp [resolveStep, List.dropLast_cons_of_ne_nil]

/-- Once the root is gone, normalizing comes to the names of what resolving comes to. -/
theorem foldl_normalize_rootless {cs : List Component} (hroot : .root ∉ cs)
    (names : List (List UInt8)) :
    .root :: cs.foldl normalizeStep (names.map .name)
      = cs.foldl resolveStep (.root :: names.map .name) := by
  induction cs generalizing names with
  | nil => rfl
  | cons c cs ih =>
      simp only [List.mem_cons, not_or] at hroot
      rw [List.foldl_cons, List.foldl_cons]
      cases c with
      | root => exact absurd rfl hroot.1
      | current => exact ih hroot.2 names
      | name n =>
          have hnext := ih hroot.2 (names ++ [n])
          rwa [List.map_append] at hnext
      | parent =>
          rw [resolve_step_parent, ← ih hroot.2, List.map_dropLast]
          rfl

/-- Normalizing comes to what resolving comes to, but that the root is gone when the components
climb out. -/
theorem foldl_normalize {cs : List Component} (hroot : .root ∉ cs) (names : List (List UInt8)) :
    (¬ ClimbsFrom names.length cs → cs.foldl normalizeStep (.root :: names.map .name)
      = cs.foldl resolveStep (.root :: names.map .name)) ∧
    (ClimbsFrom names.length cs → .root :: cs.foldl normalizeStep (.root :: names.map .name)
      = cs.foldl resolveStep (.root :: names.map .name)) := by
  induction cs generalizing names with
  | nil => exact ⟨fun _ => rfl, fun h => absurd h not_climbs_from_nil⟩
  | cons c cs ih =>
      simp only [List.mem_cons, not_or] at hroot
      rw [List.foldl_cons, List.foldl_cons]
      cases c with
      | root => exact absurd rfl hroot.1
      | current =>
          rw [climbs_from_current]
          exact ih hroot.2 names
      | name n =>
          have hnext := ih hroot.2 (names ++ [n])
          rw [List.length_append, List.length_singleton, List.map_append] at hnext
          rw [climbs_from_name]
          exact hnext
      | parent =>
          rw [resolve_step_parent]
          rcases List.eq_nil_or_concat names with rfl | ⟨init, last, rfl⟩
          -- No name is left: this `..` takes the root away.
          · exact ⟨fun h => absurd climbs_from_parent_zero h,
              fun _ => foldl_normalize_rootless hroot.2 []⟩
          · have hstep : normalizeStep (.root :: (init.concat last).map .name) .parent
                = .root :: init.map .name := by
              simp [normalizeStep, List.dropLast_cons_of_ne_nil]
            rw [hstep, List.length_concat, climbs_from_parent, List.concat_eq_append,
              List.dropLast_concat]
            exact ih hroot.2 init

/-! ## Paths -/

variable {p base : Path}

/-- A path that is not absolute has no root among its components. -/
theorem root_not_mem_of_relative (h : p.isAbsolute = false) : .root ∉ p.components := by
  intro hmem
  rw [components, List.mem_append] at hmem
  rcases hmem with hmem | hmem
  · simp only [front, h, Bool.false_eq_true, if_false] at hmem
    split at hmem <;> simp at hmem
  · obtain ⟨part, -, hmeans⟩ := List.mem_filterMap.1 hmem
    rcases parent_or_name_of_part hmeans with hparent | hname
    · cases hparent
    · cases hname

/-- A path is absolute exactly if the root is among its components. -/
theorem is_absolute_iff : p.isAbsolute = true ↔ .root ∈ p.components := by
  constructor
  · intro h
    obtain ⟨cs, hcs, -⟩ := components_of_absolute h
    rw [hcs]
    exact List.mem_cons_self
  · intro h
    by_contra hrelative
    exact root_not_mem_of_relative (Bool.eq_false_iff.2 hrelative) h

/-- Going through the components of any path, normalizing comes to the root and names, or to names
alone. -/
theorem plain_foldl_normalize (p : Path) : Plain (p.components.foldl normalizeStep []) := by
  cases habsolute : p.isAbsolute with
  | true =>
      obtain ⟨names, h⟩ := alongside_foldl_of_absolute habsolute
      exact h.plain
  | false =>
      have hstart : Alongside [] [.root] [] := ⟨rfl, Or.inr rfl, by simp⟩
      obtain ⟨names, h⟩ := hstart.foldl (root_not_mem_of_relative habsolute)
        fun n hn => is_name_of_mem_components hn
      exact h.plain

/-- The components of a normalized path are those that normalizing comes to. -/
theorem components_normalize (p : Path) :
    p.normalize.components = p.components.foldl normalizeStep [] :=
  components_of_components p.plain_foldl_normalize

/-- In a normalized path nothing is left to resolve. -/
theorem resolved_of_mem_normalize {c : Component} (h : c ∈ p.normalize.components) :
    c ≠ .current ∧ c ≠ .parent := by
  rw [components_normalize] at h
  obtain ⟨names, hnames | hnames, -⟩ := p.plain_foldl_normalize <;> rw [hnames] at h
  · obtain ⟨n, -, rfl⟩ := List.mem_map.1 h
    exact ⟨nofun, nofun⟩
  · rcases List.mem_cons.1 h with rfl | h
    · exact ⟨nofun, nofun⟩
    · obtain ⟨n, -, rfl⟩ := List.mem_map.1 h
      exact ⟨nofun, nofun⟩

/-- Normalizing again changes nothing, not even the spelling. -/
theorem normalize_normalize (p : Path) : p.normalize.normalize = p.normalize := by
  rw [normalize_eq p.normalize, components_normalize,
    foldl_normalize_of_plain p.plain_foldl_normalize, ← normalize_eq]

/-- An absolute path that does not climb out is normalized to what it means; one that does loses the
root. -/
theorem resolve_eq (h : p.isAbsolute = true) :
    (¬ p.Climbs → p.normalize.components = p.resolve) ∧
    (p.Climbs → .root :: p.normalize.components = p.resolve) := by
  obtain ⟨cs, hcs, hroot⟩ := components_of_absolute h
  rw [components_normalize, Climbs, resolve, hcs, climbs_from_root]
  exact foldl_normalize hroot []

/-- An absolute path resolves to the root and names, and is normalized to these names, with the root
in front unless it climbs out. -/
theorem exists_names (h : p.isAbsolute = true) : ∃ names : List (List UInt8),
    p.resolve = .root :: names.map .name ∧
      (p.Climbs → p.normalize.components = names.map .name) ∧
      (¬ p.Climbs → p.normalize.components = .root :: names.map .name) := by
  obtain ⟨names, hresolved, -, -⟩ := alongside_of_absolute h
  obtain ⟨hkept, hlost⟩ := resolve_eq h
  refine ⟨names, hresolved, fun hclimbs => ?_, fun hclimbs => ?_⟩
  · exact List.tail_eq_of_cons_eq ((hlost hclimbs).trans hresolved)
  · exact (hkept hclimbs).trans hresolved

/-- An absolute path stays absolute unless it climbs out. -/
theorem absolute_normalize_iff (h : p.isAbsolute = true) :
    p.normalize.isAbsolute = true ↔ ¬ p.Climbs := by
  obtain ⟨names, -, hlost, hkept⟩ := exists_names h
  rw [is_absolute_iff]
  by_cases hclimbs : p.Climbs
  · rw [hlost hclimbs]
    exact iff_of_false (by simp) (not_not_intro hclimbs)
  · rw [hkept hclimbs]
    exact iff_of_true List.mem_cons_self hclimbs

/-- A path is seen to be in a directory exactly if it is in it and both of them or none climb out, or
if the directory is the root. -/
theorem startsWith_normalize_iff (hp : p.isAbsolute = true) (hbase : base.isAbsolute = true) :
    p.normalize.startsWith base.normalize = true ↔
      base.resolve <+: p.resolve ∧ (p.Climbs → base.Climbs) ∧
        (base.Climbs → p.Climbs ∨ base.resolve = [.root]) := by
  obtain ⟨names, hresolved, hlost, hkept⟩ := exists_names hp
  obtain ⟨baseNames, hbaseResolved, hbaseLost, hbaseKept⟩ := exists_names hbase
  rw [startsWith_iff, hresolved, hbaseResolved, List.prefix_cons_inj]
  by_cases hclimbs : p.Climbs <;> by_cases hbaseClimbs : base.Climbs
  · rw [hlost hclimbs, hbaseLost hbaseClimbs]
    simp [hclimbs, hbaseClimbs]
  · -- The root of the directory is not among the names of the path.
    rw [hlost hclimbs, hbaseKept hbaseClimbs]
    refine iff_of_false (fun hprefix => ?_) fun h => hbaseClimbs (h.2.1 hclimbs)
    have hmem := hprefix.subset List.mem_cons_self
    simp at hmem
  · -- Names stand in front of the root only if there are none.
    rw [hkept hclimbs, hbaseLost hbaseClimbs]
    cases baseNames with
    | nil => simp [hclimbs]
    | cons n baseNames => simp [hclimbs, hbaseClimbs]
  · rw [hkept hclimbs, hbaseKept hbaseClimbs, List.prefix_cons_inj]
    simp [hclimbs, hbaseClimbs]

end LintWatch.Path
