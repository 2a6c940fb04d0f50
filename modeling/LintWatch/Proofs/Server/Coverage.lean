import LintWatch.Proofs.Path.Climbing
import LintWatch.Proofs.Server.Workspace

/-!
# Which files the workspace covers

The roots of the workspace and the path of a file are compared as they are normalized. That is right
as long as normalizing keeps what a path means (`Path.Normalizes`), and it does so exactly for the
absolute paths that do not climb out. A file that lies in a root is taken for one that does not if
only one of the two paths climbs out, and such a path is what a URI with an encoded slash behind
`..` names: `normalizes_and_covered_iff`.
-/

namespace LintWatch

/-- What normalizing is to make of a path: an absolute path in which nothing is left to resolve, which
means the same and is normalized already. -/
structure Path.Normalizes (p : Path) : Prop where
  absolute : p.normalize.isAbsolute = true
  resolved : ∀ c ∈ p.normalize.components, c ≠ .current ∧ c ≠ .parent
  meaning : p.normalize.components = p.resolve
  again : p.normalize.normalize = p.normalize

/-- An absolute path is normalized as it should be exactly if it does not climb out. -/
theorem Path.normalizes_iff {p : Path} (h : p.isAbsolute = true) : p.Normalizes ↔ ¬ p.Climbs := by
  constructor
  · intro hp
    exact (absolute_normalize_iff h).1 hp.absolute
  · intro hclimbs
    exact ⟨(absolute_normalize_iff h).2 hclimbs, fun _ => resolved_of_mem_normalize,
      (resolve_eq h).1 hclimbs, p.normalize_normalize⟩

namespace Server.Router

variable {r : Router} {roots : List Path} {path : Path}

/-- A path is covered exactly if it lies in a root of which it is seen that it does: both climb out
or none does, or the root is that of the file system. -/
theorem covers_iff_of_roots (hroots : r.roots = roots.map Path.normalize)
    (habsolute : ∀ root ∈ roots, root.isAbsolute = true) (hpath : path.isAbsolute = true) :
    r.covers path = true ↔ ∃ root ∈ roots, root.resolve <+: path.resolve ∧
      (path.Climbs → root.Climbs) ∧ (root.Climbs → path.Climbs ∨ root.resolve = [.root]) := by
  rw [covers, hroots, List.any_map, List.any_eq_true]
  refine exists_congr fun root => and_congr_right fun hroot => ?_
  exact Path.startsWith_normalize_iff hpath (habsolute root hroot)

/-- Without layers, what is published for a path that is not covered is noted only. -/
theorem publish_of_not_covers {p : Publication} (hchain : r.chain = [])
    (huri : FileUri.path? p.uri = some path) (hcovers : r.covers path = false) :
    r.publish p = .warn (r.server.display ++ " reported diagnostics for path outside workspace: "
      ++ path.toText) := by
  have happly : r.chain.apply p = p := by
    rw [hchain]
    rfl
  simp only [publish, happly, huri, hcovers, Bool.false_eq_true, if_false]

/-- An absolute path is normalized as it should be exactly if it does not climb out. If it does, it
loses the root and nothing else; in any case nothing is left to resolve, and normalizing again
changes nothing. A file in a root is taken for one in it unless only one of the two paths climbs
out, the root of the file system apart. -/
theorem normalizes_and_covered_iff (hpath : path.isAbsolute = true)
    (hroots : r.roots = roots.map Path.normalize)
    (habsolute : ∀ root ∈ roots, root.isAbsolute = true) :
    (path.Normalizes ↔ ¬ path.Climbs) ∧
      (∀ c ∈ path.normalize.components, c ≠ .current ∧ c ≠ .parent) ∧
      path.normalize.normalize = path.normalize ∧
      (path.Climbs → .root :: path.normalize.components = path.resolve) ∧
      (r.covers path = true ↔ ∃ root ∈ roots, root.resolve <+: path.resolve ∧
        (path.Climbs → root.Climbs) ∧
        (root.Climbs → path.Climbs ∨ root.resolve = [.root])) :=
  ⟨Path.normalizes_iff hpath, fun _ => Path.resolved_of_mem_normalize, path.normalize_normalize,
    (Path.resolve_eq hpath).2, covers_iff_of_roots hroots habsolute hpath⟩

/-- A path with all that can be resolved, in the only root. -/
theorem normalizes_and_covered_winding :
    (Path.ofString "/project//lib/.././app.py").Normalizes ∧
      projectRouter.covers (.ofString "/project//lib/.././app.py") = true := by
  have habsolute : ∀ root ∈ [projectRoot], root.isAbsolute = true := by
    intro root hroot
    obtain rfl := List.mem_singleton.1 hroot
    decide +kernel
  have hpath : (Path.ofString "/project//lib/.././app.py").isAbsolute = true := by decide +kernel
  have hclimbs : ¬ (Path.ofString "/project//lib/.././app.py").Climbs := by decide +kernel
  have hroot : ¬ projectRoot.Climbs := by decide +kernel
  obtain ⟨hnormalizes, -, -, -, hcovers⟩ :=
    @normalizes_and_covered_iff projectRouter [projectRoot] _ hpath rfl habsolute
  refine ⟨hnormalizes.2 hclimbs, hcovers.2 ⟨projectRoot, List.mem_singleton_self _, ?_, ?_, ?_⟩⟩
  · decide +kernel
  · exact fun h => absurd h hclimbs
  · exact fun h => absurd h hroot

/-- A file in the only root, named by a path that climbs out, is not covered. -/
theorem not_covered_above_root :
    projectRouter.dispatch (publishing "file:///..%2Fproject/app.py")
        = .warn "ruff#1 reported diagnostics for path outside workspace: /../project/app.py" ∧
      projectRoot.resolve <+: (Path.ofString "/../project/app.py").resolve ∧
      ¬ (Path.ofString "/../project/app.py").Normalizes := by
  have huri : FileUri.path? "file:///..%2Fproject/app.py"
      = some (.ofString "/../project/app.py") := by
    decide +kernel
  have hcovers : projectRouter.covers (.ofString "/../project/app.py") = false := by
    decide +kernel
  refine ⟨?_, by decide +kernel, fun h => ?_⟩
  · rw [dispatch_publishing, publish_of_not_covers (p := ⟨_, none, []⟩) rfl huri hcovers]
    exact congrArg Effect.warn (by decide +kernel)
  · have hrelative : (Path.ofString "/../project/app.py").normalize.isAbsolute = false := by
      decide +kernel
    rw [h.absolute] at hrelative
    cases hrelative

end Server.Router

end LintWatch
