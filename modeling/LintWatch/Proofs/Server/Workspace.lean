import LintWatch.Proofs.Path.Components
import LintWatch.Proofs.Path.FileUri
import LintWatch.Proofs.Server.Incoming

/-!
# Diagnostics stay within the workspace

A server may report on any file. What it publishes about a file goes on only if the file lies in a
workspace root, whatever its URI looks like: `published_within_root` judges this by the paths with
`.` and `..` resolved, one component after the other.
-/

namespace LintWatch.Server.Router

variable {r : Router} {frame : Json} {path : Path} {items : List LintWatch.Diagnostic}

/-- A frame that publishes diagnostics names the path by a URI, and the path is covered. -/
theorem covers_of_dispatch (h : r.dispatch frame = .publish path items) :
    (∃ uri, FileUri.path? uri = some path) ∧ r.covers path = true := by
  obtain ⟨-, -, params, p, -, -, hpublish⟩ := dispatch_publish_iff.1 h
  obtain ⟨huri, hcovers, -⟩ := publish_iff.1 hpublish
  exact ⟨⟨_, huri⟩, hcovers⟩

/-- Without layers, what is published for a path that is covered goes on as it is. -/
theorem publish_of_covers {p : Publication} (hchain : r.chain = [])
    (huri : FileUri.path? p.uri = some path) (hcovers : r.covers path = true) :
    r.publish p = .publish path (p.diagnostics.map (Diagnostic.shown path)) := by
  rw [publish_iff, hchain]
  exact ⟨huri, hcovers, rfl⟩

/-- Whatever a server reports, diagnostics are published only for a path that lies in one of the
absolute workspace roots, both resolved. -/
theorem published_within_root {roots : List Path} (hroots : r.roots = roots.map Path.normalize)
    (habsolute : ∀ root ∈ roots, root.isAbsolute = true)
    (h : r.dispatch frame = .publish path items) :
    path.isAbsolute = true ∧ ∃ root ∈ roots, root.resolve <+: path.resolve := by
  obtain ⟨⟨uri, huri⟩, hcovers⟩ := covers_of_dispatch h
  have hpath : path.isAbsolute = true := FileUri.absolute_of_path? huri
  rw [covers, hroots, List.any_map] at hcovers
  obtain ⟨root, hroot, hstarts⟩ := List.any_eq_true.1 hcovers
  exact ⟨hpath, root, hroot, Path.resolve_prefix_of_normalize hpath (habsolute root hroot) hstarts⟩

/-- The root `/project`. -/
def projectRoot : Path :=
  .ofString "/project"

/-- A router for a workspace with one root. -/
def projectRouter : Router :=
  ⟨⟨1⟩, [projectRoot.normalize], .empty, []⟩

/-- A frame that publishes that a file has no diagnostics. -/
def publishing (uri : String) : Json :=
  .object [("method", .str "textDocument/publishDiagnostics"),
    ("params", .object [("uri", .str uri), ("diagnostics", .arr [])])]

/-- Such a frame leads to what its URI is published with. -/
theorem dispatch_publishing (r : Router) (uri : String) :
    r.dispatch (publishing uri) = r.publish ⟨uri, none, []⟩ := by
  rfl

/-- Encoded slashes and dots that stay within the root are let through. -/
theorem published_within_project :
    projectRouter.dispatch (publishing "file:///project/lib%2F%2E%2E%2Fapp.py")
        = .publish (.ofString "/project/lib/../app.py") [] ∧
      projectRoot.resolve <+: (Path.ofString "/project/lib/../app.py").resolve := by
  have huri : FileUri.path? "file:///project/lib%2F%2E%2E%2Fapp.py"
      = some (.ofString "/project/lib/../app.py") := by
    decide +kernel
  have hcovers : projectRouter.covers (.ofString "/project/lib/../app.py") = true := by
    decide +kernel
  have hdispatch : projectRouter.dispatch (publishing "file:///project/lib%2F%2E%2E%2Fapp.py")
      = .publish (.ofString "/project/lib/../app.py") [] := by
    rw [dispatch_publishing]
    exact publish_of_covers (p := ⟨_, none, []⟩) rfl huri hcovers
  have habsolute : ∀ root ∈ [projectRoot], root.isAbsolute = true := by
    intro root hroot
    obtain rfl := List.mem_singleton.1 hroot
    decide +kernel
  obtain ⟨-, root, hroot, hprefix⟩ := published_within_root rfl habsolute hdispatch
  obtain rfl := List.mem_singleton.1 hroot
  exact ⟨hdispatch, hprefix⟩

end LintWatch.Server.Router
