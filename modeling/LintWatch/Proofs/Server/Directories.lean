import LintWatch.Proofs.Files.Above
import Mathlib.Data.List.Forall2

/-!
# The directories of a workspace

Servers are set up for the directories that stand for the roots of a project: `stand_for_roots` says
that there is always one, that no directory is listed twice, however it is spelled, and that they come
in the order in which the roots call for them first, none of which is lost. A file always has a
directory above it (`exists_parent_of_is_file`), so what stands for it is found by its path alone.
-/

namespace LintWatch

/-! ## Paths by their first occurrence -/

namespace Path

variable {paths firsts : List Path} {p q : Path}

/-- The place of the first path of a list with the components of `p`. -/
def firstPlace (paths : List Path) (p : Path) : Nat :=
  paths.findIdx p.same

/-- The different paths of a list, each as it is spelled first, in the order in which they occur
first. -/
structure AreFirsts (paths firsts : List Path) : Prop where
  ordered : firsts.Pairwise fun p q => firstPlace paths p < firstPlace paths q
  spelled : ∀ p ∈ firsts, paths[firstPlace paths p]? = some p
  covers : ∀ p ∈ paths, ∃ q ∈ firsts, q.components = p.components

/-- The paths, with one more unless it is among them. -/
def withNew (firsts : List Path) (p : Path) : List Path :=
  if firsts.any p.same then firsts else firsts ++ [p]

/-- One path more does not change where those before it occur first. -/
theorem firstPlace_concat (h : firstPlace paths q < paths.length) :
    firstPlace (paths ++ [p]) q = firstPlace paths q := by
  rw [firstPlace, List.findIdx_append]
  exact if_pos h

/-- A path that is not among others occurs first behind them. -/
theorem firstPlace_concat_self (h : ∀ q ∈ paths, q.components ≠ p.components) :
    firstPlace (paths ++ [p]) p = paths.length := by
  have hnone : paths.findIdx p.same = paths.length := by
    rw [List.findIdx_eq_length]
    intro q hq
    rw [Bool.eq_false_iff, ne_eq, same_iff]
    exact fun heq => h q hq heq.symm
  have hself : p.same p = true := same_iff.2 rfl
  rw [firstPlace, List.findIdx_append, hnone, if_neg (Nat.lt_irrefl _), List.findIdx_cons, hself]
  exact Nat.zero_add _

namespace AreFirsts

/-- Where a path occurs first, it occurs. -/
theorem lt_length (h : AreFirsts paths firsts) (hp : p ∈ firsts) :
    firstPlace paths p < paths.length :=
  (List.getElem?_eq_some_iff.1 (h.spelled p hp)).1

/-- The first occurrences are among the paths. -/
theorem mem (h : AreFirsts paths firsts) (hp : p ∈ firsts) : p ∈ paths :=
  List.mem_of_getElem? (h.spelled p hp)

/-- There is a first occurrence where there is a path. -/
theorem ne_nil (h : AreFirsts paths firsts) (hne : paths ≠ []) : firsts ≠ [] := by
  obtain ⟨p, paths, rfl⟩ := List.exists_cons_of_ne_nil hne
  obtain ⟨first, hfirst, -⟩ := h.covers p List.mem_cons_self
  exact List.ne_nil_of_mem hfirst

/-- No two of them have the same components. -/
theorem distinct (h : AreFirsts paths firsts) :
    firsts.Pairwise fun p q => p.components ≠ q.components := by
  refine h.ordered.imp fun {p q} hlt heq => ?_
  have hplace : firstPlace paths p = firstPlace paths q := by
    have hsame : p.same = q.same := funext fun r => by rw [same, same, heq]
    rw [firstPlace, firstPlace, hsame]
  exact absurd (hplace ▸ hlt) (Nat.lt_irrefl _)

/-- One path more is a first occurrence unless it is among those there are. -/
theorem step (h : AreFirsts paths firsts) (p : Path) :
    AreFirsts (paths ++ [p]) (withNew firsts p) := by
  have hkept : ∀ q ∈ firsts, firstPlace (paths ++ [p]) q = firstPlace paths q :=
    fun q hq => firstPlace_concat (h.lt_length hq)
  have hordered : firsts.Pairwise fun q r =>
      firstPlace (paths ++ [p]) q < firstPlace (paths ++ [p]) r := by
    refine h.ordered.imp_of_mem fun hq hr hlt => ?_
    rwa [hkept _ hq, hkept _ hr]
  have hspelled : ∀ q ∈ firsts, (paths ++ [p])[firstPlace (paths ++ [p]) q]? = some q := by
    intro q hq
    rw [hkept q hq, List.getElem?_append_left (h.lt_length hq)]
    exact h.spelled q hq
  unfold withNew
  split
  next hold =>
    obtain ⟨first, hfirst, hsame⟩ := List.any_eq_true.1 hold
    refine ⟨hordered, hspelled, fun q hq => ?_⟩
    rcases List.mem_append.1 hq with hq | hq
    · exact h.covers q hq
    · obtain rfl := List.mem_singleton.1 hq
      exact ⟨first, hfirst, (same_iff.1 hsame).symm⟩
  next hnew =>
    have hother : ∀ q ∈ paths, q.components ≠ p.components := by
      intro q hq heq
      obtain ⟨first, hfirst, hsame⟩ := h.covers q hq
      exact hnew (List.any_eq_true.2 ⟨first, hfirst, same_iff.2 (hsame.trans heq).symm⟩)
    have hlast := firstPlace_concat_self hother
    constructor
    case ordered =>
      refine List.pairwise_append.2 ⟨hordered, List.pairwise_singleton _ _, fun q hq r hr => ?_⟩
      obtain rfl := List.mem_singleton.1 hr
      rw [hkept q hq, hlast]
      exact h.lt_length hq
    case spelled =>
      intro q hq
      rcases List.mem_append.1 hq with hq | hq
      · exact hspelled q hq
      · obtain rfl := List.mem_singleton.1 hq
        rw [hlast, List.getElem?_concat_length]
    case covers =>
      intro q hq
      rcases List.mem_append.1 hq with hq | hq
      · obtain ⟨first, hfirst, hsame⟩ := h.covers q hq
        exact ⟨first, List.mem_append_left [p] hfirst, hsame⟩
      · obtain rfl := List.mem_singleton.1 hq
        exact ⟨q, List.mem_append_right firsts List.mem_cons_self, rfl⟩

end AreFirsts

/-- Paths that are added one after the other unless they are there are first occurrences. -/
theorem are_firsts_foldl (paths : List Path) : AreFirsts paths (paths.foldl withNew []) := by
  induction paths using List.reverseRecOn with
  | nil => exact ⟨List.Pairwise.nil, nofun, nofun⟩
  | append_singleton paths p ih =>
      rw [List.foldl_concat]
      exact ih.step p

end Path

/-! ## What stands for the roots -/

namespace Environment

variable {env : Environment} {root dir : Path} {roots : List Path}

/-- What stands for a root: the directory above a file, which is `.` for a mere name, and any other
root for itself. -/
inductive StandsFor (env : Environment) : (root dir : Path) → Prop
  | file {root parent : Path} : env.isFile root = true → root.parent? = some parent →
      parent.components = root.components.dropLast → parent.bytes ≠ [] → StandsFor env root parent
  | name {root : Path} : env.isFile root = true → root.parent? = some ⟨[]⟩ →
      StandsFor env root (.ofString ".")
  | other {root : Path} : env.isFile root = false → StandsFor env root root

/-- The directory that stands for a root. -/
def standIn (env : Environment) (root : Path) : Path :=
  if env.isFile root then directoryOf root else root

/-- There is one for every root. -/
theorem stands_for_standIn (env : Environment) (root : Path) : env.StandsFor root (env.standIn root) := by
  unfold standIn
  split
  next hfile =>
    obtain ⟨parent, hparent⟩ := FileTree.exists_parent_of_is_file hfile
    simp only [directoryOf, hparent]
    split
    next hempty =>
      obtain rfl : parent = ⟨[]⟩ := congrArg Path.mk hempty
      exact .name hfile hparent
    next hne => exact .file hfile hparent (Path.components_parent? hparent) hne
  next hfile => exact .other (Bool.eq_false_iff.2 hfile)

/-- What stands for the roots of a project, one after the other. -/
theorem forall_stands_for (env : Environment) (roots : List Path) :
    List.Forall₂ env.StandsFor roots (roots.map env.standIn) := by
  rw [List.forall₂_map_right_iff, List.forall₂_same]
  exact fun root _ => env.stands_for_standIn root

/-- The directories of a workspace with roots are those that stand for them, each where it occurs
first. -/
theorem are_firsts_directories (env : Environment) (hne : roots ≠ []) :
    Path.AreFirsts (roots.map env.standIn) (env.workspaceDirectories roots) := by
  have hfirsts := Path.are_firsts_foldl (roots.map env.standIn)
  unfold workspaceDirectories
  dsimp only
  split
  next hnil => exact absurd hnil (hfirsts.ne_nil (mt List.map_eq_nil_iff.1 hne))
  next => exact hfirsts

/-- The directories of a workspace are one at least and all different. They are what stands for the
roots, each as it is spelled first and where it occurs first, and there is one for every root; without
roots there is just the working directory. -/
theorem stand_for_roots (env : Environment) (roots : List Path) :
    ∃ stands, List.Forall₂ env.StandsFor roots stands ∧
      env.workspaceDirectories roots ≠ [] ∧
      (env.workspaceDirectories roots).Pairwise (fun p q => p.components ≠ q.components) ∧
      (roots = [] ∧ env.workspaceDirectories roots = [.ofString "."] ∨
        roots ≠ [] ∧ Path.AreFirsts stands (env.workspaceDirectories roots)) := by
  refine ⟨roots.map env.standIn, env.forall_stands_for roots, ?_⟩
  by_cases hne : roots = []
  · subst hne
    exact ⟨List.cons_ne_nil _ _, List.pairwise_singleton _ _, Or.inl ⟨rfl, rfl⟩⟩
  · have hfirsts := env.are_firsts_directories hne
    have hdirs := hfirsts.ne_nil (mt List.map_eq_nil_iff.1 hne)
    exact ⟨hdirs, hfirsts.distinct, Or.inr ⟨hne, hfirsts⟩⟩

end Environment

end LintWatch
