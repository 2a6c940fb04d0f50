import LintWatch.Proofs.Server.Directories
import LintWatch.Rehearsal.Servers

/-!
# Announcing the directories of a workspace

A server is set up only if every directory of the workspace can be announced to it, which takes an
absolute path. What stands for a root is absolute exactly if the root is, so a server can be set up
exactly where there are roots and all are absolute: `announced_iff`. A relative root is not made
absolute on the way, and the working directory, which stands for no roots and for a file that is
given by its mere name, cannot be announced either.
-/

namespace LintWatch

/-- What stands for a root is absolute if the root is, and only then. -/
theorem Environment.StandsFor.is_absolute_eq {env : Environment} {root dir : Path}
    (h : env.StandsFor root dir) : dir.isAbsolute = root.isAbsolute := by
  cases h with
  | file _ hparent => exact Path.is_absolute_parent? hparent
  | name _ hparent =>
      have hrelative : (Path.ofString ".").isAbsolute = Path.isAbsolute ⟨[]⟩ := rfl
      exact hrelative.trans (Path.is_absolute_parent? hparent)
  | other => rfl

namespace Server

/-- A directory can be announced exactly if its path is absolute. -/
theorem Folder.exists_of_path_iff {dir : Path} :
    (∃ folder, ofPath dir = .ok folder) ↔ dir.isAbsolute = true := by
  unfold ofPath FileUri.ofPath?
  cases dir.isAbsolute with
  | true => exact iff_of_true ⟨_, rfl⟩ rfl
  | false => exact iff_of_false (fun ⟨_, h⟩ => nomatch h) nofun

/-- The path of a directory that cannot be announced is named. -/
theorem Folder.of_path_of_relative {dir : Path} (h : dir.isAbsolute = false) :
    ofPath dir = .error ⟨dir⟩ := by
  rw [ofPath, FileUri.ofPath?, h]
  rfl

/-- All directories can be announced. -/
def Announced (dirs : List Path) : Prop :=
  ∀ dir ∈ dirs, ∃ folder, Folder.ofPath dir = .ok folder

/-- Directories are announced together, or the first that cannot be announced is named. -/
theorem announce_cases (dirs : List Path) :
    (Announced dirs ∧ ∃ folders, dirs.mapM Folder.ofPath = .ok folders) ∨
      ∃ dir ∈ dirs, dir.isAbsolute = false ∧ dirs.mapM Folder.ofPath = .error ⟨dir⟩ := by
  induction dirs with
  | nil => exact Or.inl ⟨nofun, [], rfl⟩
  | cons dir dirs ih =>
      rw [List.mapM_cons]
      cases habsolute : dir.isAbsolute with
      | false =>
          refine Or.inr ⟨dir, List.mem_cons_self, habsolute, ?_⟩
          rw [Folder.of_path_of_relative habsolute]
          rfl
      | true =>
          obtain ⟨folder, hfolder⟩ := Folder.exists_of_path_iff.2 habsolute
          rw [hfolder]
          rcases ih with ⟨hall, folders, hfolders⟩ | ⟨other, hother, hrelative, herror⟩
          · refine Or.inl ⟨List.forall_mem_cons.2 ⟨⟨folder, hfolder⟩, hall⟩, folder :: folders, ?_⟩
            rw [hfolders]
            rfl
          · refine Or.inr ⟨other, List.mem_cons_of_mem dir hother, hrelative, ?_⟩
            rw [herror]
            rfl

/-- The directories of a workspace can be announced exactly if there are roots and all of them are
absolute. -/
theorem announced_directories_iff (env : Environment) (roots : List Path) :
    Announced (env.workspaceDirectories roots) ↔
      roots ≠ [] ∧ ∀ root ∈ roots, root.isAbsolute = true := by
  by_cases hne : roots = []
  · subst hne
    refine iff_of_false (fun h => ?_) fun h => h.1 rfl
    have habsolute := Folder.exists_of_path_iff.1 (h (.ofString ".") List.mem_cons_self)
    exact absurd habsolute (by decide)
  have hfirsts := env.are_firsts_directories hne
  have hsame (root : Path) := (env.stands_for_standIn root).is_absolute_eq
  constructor
  · intro h
    refine ⟨hne, fun root hroot => ?_⟩
    obtain ⟨dir, hdir, hcomponents⟩ := hfirsts.covers _ (List.mem_map_of_mem hroot)
    rw [← hsame, ← Path.is_absolute_congr hcomponents]
    exact Folder.exists_of_path_iff.1 (h dir hdir)
  · rintro ⟨-, habsolute⟩ dir hdir
    obtain ⟨root, hroot, rfl⟩ := List.mem_map.1 (hfirsts.mem hdir)
    exact Folder.exists_of_path_iff.2 ((hsame root).trans (habsolute root hroot))

end Server

/-- A server is not set up for a directory that cannot be announced. -/
theorem Rehearsal.Site.set_up_of_error {site : Rehearsal.Site} {supervisor : Server.Supervisor}
    {e : Server.NoUri} (h : supervisor.directories.mapM Server.Folder.ofPath = .error e)
    (id : Server.ServerId) (r : Rehearsal.Running) :
    (site.setUp supervisor id r).1 = .failed (.setup e.message) := by
  rw [setUp, h]

namespace Server

/-- The directories of a workspace can be announced to a server exactly if there are roots and all of
them are absolute. Where they cannot, no server is set up for them, and the error names one that is
not absolute. -/
theorem announced_iff (env : Environment) (roots : List Path) :
    (Announced (env.workspaceDirectories roots) ↔
      roots ≠ [] ∧ ∀ root ∈ roots, root.isAbsolute = true) ∧
    (Announced (env.workspaceDirectories roots) →
      ∃ folders, (env.workspaceDirectories roots).mapM Folder.ofPath = .ok folders) ∧
    (¬ Announced (env.workspaceDirectories roots) →
      ∃ dir ∈ env.workspaceDirectories roots, dir.isAbsolute = false ∧
        ∀ (site : Rehearsal.Site) (supervisor : Supervisor) (id : ServerId) (r : Rehearsal.Running),
          supervisor.directories = env.workspaceDirectories roots →
          (site.setUp supervisor id r).1
            = .failed (.setup ("cannot convert path to file URI: " ++ dir.toText))) := by
  refine ⟨announced_directories_iff env roots, ?_⟩
  rcases announce_cases (env.workspaceDirectories roots) with
    ⟨hall, hfolders⟩ | ⟨dir, hdir, hrelative, herror⟩
  · exact ⟨fun _ => hfolders, fun h => absurd hall h⟩
  · refine ⟨fun hall => ?_, fun _ => ⟨dir, hdir, hrelative, fun site supervisor id r hdirs => ?_⟩⟩
    · have habsolute := Folder.exists_of_path_iff.1 (hall dir hdir)
      rw [hrelative] at habsolute
      cases habsolute
    · exact Rehearsal.Site.set_up_of_error (hdirs ▸ herror) id r

/-- A file in the working directory. -/
def fileInPlace : Path :=
  .ofString "app.py"

/-- The environment with this file and nothing else. -/
def besideFile : Environment :=
  ⟨⟨[([fileInPlace.bytes], .file [] false)]⟩, [], []⟩

/-- The directory of a file is announced, when the file is given by its absolute path. -/
theorem announced_above_absolute :
    Announced (besideFile.workspaceDirectories [.ofString "/app.py"]) :=
  (announced_iff besideFile [.ofString "/app.py"]).1.2
    ⟨List.cons_ne_nil _ _, List.forall_mem_singleton.2 rfl⟩

/-- The directory of a file that is given by its mere name is the working directory, and as such it is
not announced; nor is it where there are no roots. -/
theorem not_announced_in_place :
    besideFile.isFile fileInPlace = true ∧
      besideFile.workspaceDirectories [fileInPlace] = [.ofString "."] ∧
      ¬ Announced (besideFile.workspaceDirectories [fileInPlace]) ∧
      ¬ Announced (besideFile.workspaceDirectories []) := by
  have hname : FileTree.IsName fileInPlace.bytes := by
    unfold FileTree.IsName
    decide
  have hroot : besideFile.files.Passable [] := ⟨.directory, rfl, nofun⟩
  have hlocate : besideFile.files.locate true [] fileInPlace = .ok [fileInPlace.bytes] :=
    FileTree.walk_eq_ok_iff.2 ⟨FileTree.linkLimit, .enter hroot hname nofun .done⟩
  have hfind : besideFile.files.find [] fileInPlace
      = .ok ([fileInPlace.bytes], .file [] false) :=
    FileTree.find_eq_ok_iff.2 ⟨hlocate, rfl⟩
  have hfile : besideFile.isFile fileInPlace = true := by
    show besideFile.files.isFile [] fileInPlace = true
    rw [FileTree.isFile, hfind]
  have hdirs : besideFile.workspaceDirectories [fileInPlace] = [.ofString "."] := by
    simp only [Environment.workspaceDirectories, List.map_cons, List.map_nil, hfile]
    rfl
  refine ⟨hfile, hdirs, fun h => ?_, fun h => ?_⟩
  · have habsolute := ((announced_directories_iff _ _).1 h).2 fileInPlace List.mem_cons_self
    exact absurd habsolute (by decide)
  · exact ((announced_directories_iff _ _).1 h).1 rfl

end Server

end LintWatch
