import LintWatch.Path.Basic

/-!
# The order of paths

`Path.before` compares paths by their components. Each component has a key (`Component.key`), a
list of bytes, so that the order is the lexicographic one of the keys (`before_iff_key_lt`). So no
two paths come before each other, and of two paths with different components one comes before the
other (`before_or_before`).
-/

namespace LintWatch.Path

/-- The place of a component among all components: first its kind, then the bytes of a name. -/
def Component.key (c : Component) : List UInt8 :=
  match c with
  | .root => [0]
  | .current => [1]
  | .parent => [2]
  | .name bytes => 3 :: bytes

variable {a b : Component} {as bs : List Component} {p q r : Path}

/-- Different components have different keys. -/
theorem Component.key_inj : a.key = b.key ↔ a = b := by
  cases a <;> cases b <;> simp [key]

/-- Components are compared by their keys. -/
theorem Component.before_iff : a.before b = true ↔ a.key < b.key := by
  cases a <;> cases b <;> simp [before, rank, key, List.cons_lt_cons_iff]

/-- Lists of components are compared by their keys. -/
theorem components_before_iff :
    componentsBefore as bs = true ↔ as.map Component.key < bs.map Component.key := by
  induction as generalizing bs with
  | nil => cases bs <;> simp [componentsBefore]
  | cons a as ih =>
      cases bs with
      | nil => simp [componentsBefore]
      | cons b bs =>
          simp only [componentsBefore, List.map_cons, List.cons_lt_cons_iff]
          by_cases h : a = b
          · subst h
            rw [if_pos rfl, ih]
            simp [List.lt_irrefl]
          · have hkey : a.key ≠ b.key := fun he => h (Component.key_inj.1 he)
            rw [if_neg h, Component.before_iff]
            simp [hkey]

/-- The place of a path among all paths. -/
def key (p : Path) : List (List UInt8) :=
  p.components.map Component.key

/-- Paths have the same place if they have the same components. -/
theorem key_inj : p.key = q.key ↔ p.components = q.components :=
  List.map_inj_right fun _ _ h => Component.key_inj.1 h

/-- Paths are compared by their keys. -/
theorem before_iff_key_lt : p.before q = true ↔ p.key < q.key :=
  components_before_iff

/-- A path does not come before those that come before it. -/
theorem before_asymm (h : p.before q = true) : q.before p = false := by
  rw [before_iff_key_lt] at h
  rw [Bool.eq_false_iff, ne_eq, before_iff_key_lt]
  exact List.lt_asymm h

/-- A path does not come before those that it does not come before step by step. -/
theorem not_before_trans (hqp : q.before p = false) (hrq : r.before q = false) :
    r.before p = false := by
  rw [Bool.eq_false_iff, ne_eq, before_iff_key_lt, List.not_lt] at *
  exact List.le_trans hqp hrq

/-- Of two paths with different components, one comes before the other. -/
theorem before_or_before (h : p.components ≠ q.components) :
    p.before q = true ∨ q.before p = true := by
  rw [before_iff_key_lt, before_iff_key_lt]
  by_cases hlt : p.key < q.key
  · exact .inl hlt
  · refine .inr (Classical.byContradiction fun hgt => h (key_inj.1 ?_))
    exact List.le_antisymm (List.not_lt.1 hgt) (List.not_lt.1 hlt)

end LintWatch.Path
