import LintWatch.Proofs.Files.Course
import LintWatch.Proofs.Text.Utf8
import LintWatch.Scan.Scanner

/-!
# Roots as a check is told of them

A check runs in a directory of its own and is told of its root by the path at the end of its
arguments. An absolute path names the root from there, too. A relative one is not made to fit the
directory of the check, so that it names the root only if it leads from that directory to where it
leads from the working directory (`names_root_iff`). For the mere name of a file it does
(`names_file_in_place`), and for a directory only if the path leads nowhere else
(`names_directory_iff`).
-/

namespace LintWatch.Scan

open LintWatch.Execution (Invocation)

/-- What a program that is run like this finds at the last of its arguments. -/
def foundAtLastArgument (env : Environment) (i : Invocation) :
    Except IoError (Place × FileEntry) := do
  match ← env.files.find env.directory i.directory with
  | (dir, .directory) => env.files.find dir (.ofString (i.arguments.getLastD ""))
  | _ => .error .notDirectory

/-- The last argument of a check names the root that is checked. -/
def NamesRoot (env : Environment) (i : Invocation) (root : Path) : Prop :=
  foundAtLastArgument env i = env.files.find env.directory root

variable {env : Environment} {root executable : Path} {flags : List String} {dir : Place}
  {text : String}

/-- A root that is there is checked in a directory that is there. -/
theorem find_check_directory (hsolid : env.files.Solid env.directory)
    (hroot : env.isFile root = true ∨ env.isDirectory root = true) :
    ∃ dir, env.files.find env.directory (env.checkDirectory root) = .ok (dir, .directory) := by
  unfold Environment.checkDirectory
  split
  next hdirectory => exact FileTree.isDirectory_iff.1 hdirectory
  next hfile => exact FileTree.find_directoryOf hsolid (hroot.resolve_right hfile)

/-- The path of a root that is a text is the last argument as it is. -/
theorem found_at_last_argument (htext : Text.Utf8.decode? root.bytes = some text)
    (hdir : env.files.find env.directory (env.checkDirectory root) = .ok (dir, .directory)) :
    foundAtLastArgument env (Run.invocation env executable flags root) = env.files.find dir root := by
  have hargument : (checkArguments flags root).getLastD "" = text := by
    rw [checkArguments, List.getLastD_concat, Path.toText, Text.Utf8.decodeLossy, htext]
  have hpath : Path.ofString text = root :=
    congrArg Path.mk (Text.Utf8.encode_of_decode? htext)
  rw [foundAtLastArgument]
  show (do match ← env.files.find env.directory (env.checkDirectory root) with
    | (dir, .directory) =>
      env.files.find dir (.ofString ((checkArguments flags root).getLastD ""))
    | _ => .error .notDirectory) = _
  rw [hdir, hargument, hpath]
  rfl

/-- An absolute path leads to the same place from everywhere. -/
theorem find_of_absolute (h : root.isAbsolute = true) (dir dir' : Place) (t : FileTree) :
    t.find dir root = t.find dir' root := by
  rw [FileTree.find, FileTree.find, FileTree.locate, FileTree.locate, if_pos h, if_pos h]

/-- A root is named exactly if its path leads from the directory of its check to where it leads from
the working directory. -/
theorem names_root_iff_find_eq (htext : Text.Utf8.decode? root.bytes = some text)
    (hdir : env.files.find env.directory (env.checkDirectory root) = .ok (dir, .directory)) :
    NamesRoot env (Run.invocation env executable flags root) root ↔
      env.files.find dir root = env.files.find env.directory root := by
  rw [NamesRoot, found_at_last_argument htext hdir]

/-- A file that is checked in the working directory itself is named, as one is that is given by its
mere name. -/
theorem names_file_in_place (hsolid : env.files.Solid env.directory)
    (hfile : env.isFile root = true) (hcheck : env.checkDirectory root = .ofString ".")
    (htext : Text.Utf8.decode? root.bytes = some text) :
    NamesRoot env (Run.invocation env executable flags root) root := by
  obtain ⟨dir, hdir⟩ := find_check_directory hsolid (Or.inl hfile)
  have hplace : dir = env.directory := FileTree.eq_of_find_dot (hcheck ▸ hdir)
  rw [names_root_iff_find_eq htext hdir, hplace]

/-- Without links, a relative path of a directory that does not go up names it only if it goes down
nowhere either, since the check is run in that directory. -/
theorem names_directory_iff (hlinkless : env.files.Linkless)
    (hdirectory : env.isDirectory root = true) (hrelative : root.isAbsolute = false)
    (hup : root.course.up = 0) (htext : Text.Utf8.decode? root.bytes = some text) :
    NamesRoot env (Run.invocation env executable flags root) root ↔ root.course.down = [] := by
  obtain ⟨dir, hfind⟩ := FileTree.isDirectory_iff.1 hdirectory
  have hdir : env.files.find env.directory (env.checkDirectory root) = .ok (dir, .directory) := by
    rw [Environment.checkDirectory, if_pos hdirectory]
    exact hfind
  have hbelow : dir = env.directory ++ root.course.down := by
    rw [FileTree.eq_follow_of_find hlinkless hrelative hfind, Course.follow, hup,
      Course.ancestor_zero]
  rw [names_root_iff_find_eq htext hdir,
    FileTree.find_eq_iff_ancestor_eq hlinkless hrelative hfind, hup, Course.ancestor_zero,
    Course.ancestor_zero]
  constructor
  · rintro ⟨-, hsame⟩
    exact List.append_right_eq_self.1 (hbelow.symm.trans hsame)
  · intro hdown
    rw [hdown, List.append_nil] at hbelow
    refine ⟨?_, hbelow⟩
    rw [hbelow] at hfind
    rw [hbelow, FileTree.isPresent, hfind]
    rfl

/-- The check of a root that is there can be run, and the last argument names the root exactly if it is
an absolute path or leads from the directory of the check to the same place as from the working
directory. Without links a relative root does that exactly if it names something from the directory of
the check, and this and the working directory agree as far up as the path goes. -/
theorem names_root_iff (hsolid : env.files.Solid env.directory)
    (hroot : env.isFile root = true ∨ env.isDirectory root = true)
    (htext : Text.Utf8.decode? root.bytes = some text) (executable : Path) (flags : List String) :
    ∃ dir, env.files.find env.directory (env.checkDirectory root) = .ok (dir, .directory) ∧
      (NamesRoot env (Run.invocation env executable flags root) root ↔
        root.isAbsolute = true ∨
          env.files.find dir root = env.files.find env.directory root) ∧
      (env.files.Linkless → root.isAbsolute = false →
        (NamesRoot env (Run.invocation env executable flags root) root ↔
          env.files.isPresent dir root = true ∧
            Course.ancestor root.course.up dir
              = Course.ancestor root.course.up env.directory)) := by
  obtain ⟨dir, hdir⟩ := find_check_directory hsolid hroot
  have hnames : NamesRoot env (Run.invocation env executable flags root) root ↔
      env.files.find dir root = env.files.find env.directory root :=
    names_root_iff_find_eq htext hdir
  refine ⟨dir, hdir, ?_, fun hlinkless hrelative => ?_⟩
  · rw [hnames]
    exact ⟨Or.inr, fun h => h.elim (fun habsolute => find_of_absolute habsolute _ _ _) id⟩
  · have hfound : ∃ q e, env.files.find env.directory root = .ok (q, e) := by
      rcases hroot with hfile | hdirectory
      · obtain ⟨q, content, executable, hfind⟩ := FileTree.isFile_iff.1 hfile
        exact ⟨q, _, hfind⟩
      · obtain ⟨q, hfind⟩ := FileTree.isDirectory_iff.1 hdirectory
        exact ⟨q, _, hfind⟩
    obtain ⟨q, e, hfind⟩ := hfound
    rw [hnames]
    exact FileTree.find_eq_iff_ancestor_eq hlinkless hrelative hfind

/-- A working directory with a file and a directory in it. -/
def filledDirectory : Environment :=
  ⟨⟨[([(Path.ofString "app.py").bytes], .file [] false),
    ([(Path.ofString "src").bytes], .directory)]⟩, [], []⟩

/-- A file in the working directory is named by its mere name: its check is run where it stands. -/
theorem names_root_in_place :
    filledDirectory.files.Solid [] ∧ filledDirectory.isFile (.ofString "app.py") = true ∧
      NamesRoot filledDirectory
        (Run.invocation filledDirectory (.ofString "ruff") [] (.ofString "app.py"))
        (.ofString "app.py") := by
  have hsolid : filledDirectory.files.Solid [] := filledDirectory.files.solid_nil
  have hname : Path.IsName (Path.ofString "app.py").bytes := ⟨by decide, by decide⟩
  have hfind : filledDirectory.files.find [] (.ofString "app.py")
      = .ok ([(Path.ofString "app.py").bytes], .file [] false) :=
    FileTree.find_name hname rfl rfl nofun
  have hfile : filledDirectory.isFile (.ofString "app.py") = true :=
    FileTree.isFile_iff.2 ⟨_, _, _, hfind⟩
  have hnot : filledDirectory.isDirectory (.ofString "app.py") = false := by
    show filledDirectory.files.isDirectory [] _ = false
    rw [FileTree.isDirectory, hfind]
  have hcheck : filledDirectory.checkDirectory (.ofString "app.py") = .ofString "." := by
    rw [Environment.checkDirectory, hnot]
    decide
  obtain ⟨dir, hdir, hnames, -⟩ := names_root_iff hsolid (Or.inl hfile)
    (Text.Utf8.decode?_encode "app.py") (.ofString "ruff") []
  obtain rfl : dir = [] := FileTree.eq_of_find_dot (hcheck ▸ hdir)
  exact ⟨hsolid, hfile, hnames.2 (Or.inr rfl)⟩

/-- A directory in the working directory is not named by its name: its check is run inside of it, and
there is nothing of that name there. -/
theorem not_names_root_directory :
    filledDirectory.isDirectory (.ofString "src") = true ∧
      filledDirectory.checkDirectory (.ofString "src") = .ofString "src" ∧
      ¬ NamesRoot filledDirectory
        (Run.invocation filledDirectory (.ofString "ruff") [] (.ofString "src")) (.ofString "src") := by
  have hname : Path.IsName (Path.ofString "src").bytes := ⟨by decide, by decide⟩
  have hfind : filledDirectory.files.find [] (.ofString "src")
      = .ok ([(Path.ofString "src").bytes], .directory) :=
    FileTree.find_name hname rfl rfl nofun
  have hdirectory : filledDirectory.isDirectory (.ofString "src") = true :=
    FileTree.isDirectory_iff.2 ⟨_, hfind⟩
  have hlinkless : filledDirectory.files.Linkless := by
    refine FileTree.linkless_of_entries (List.forall_mem_cons.2 ⟨nofun, ?_⟩)
    exact List.forall_mem_singleton.2 nofun
  refine ⟨hdirectory, if_pos hdirectory, fun h => ?_⟩
  have hdown : (Path.ofString "src").course.down = [] :=
    (names_directory_iff hlinkless hdirectory (by decide) (by decide)
      (Text.Utf8.decode?_encode "src")).1 h
  exact absurd hdown (by decide)

end LintWatch.Scan
