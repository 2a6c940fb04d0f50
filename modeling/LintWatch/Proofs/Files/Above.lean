import LintWatch.Environment
import LintWatch.Proofs.Files.Replace
import LintWatch.Proofs.Path.Parent

/-!
# The directory above a file

Where a file is found, its path has a path above it (`exists_parent_of_is_file`), and there a directory
is found, in which the last name of the path is looked up: `find_directoryOf`. For a mere name that is
the directory in which the path starts.
-/

namespace LintWatch

namespace FileTree

variable {t : FileTree} {dir place q : Place} {p : Path} {links left : Nat}
  {parts : List (List UInt8)}

/-! ## Parts that mean nothing -/

/-- Parts that mean nothing lead nowhere else from the root. -/
theorem walk_of_meaning_eq_nil {links : Nat} {parts : List (List UInt8)}
    (h : Path.meaning parts = []) : t.walk true links [] parts = .ok [] := by
  have hroot : t.Passable [] := ⟨.directory, rfl, nofun⟩
  induction parts with
  | nil => rw [walk]
  | cons part parts ih =>
      have hall := List.filterMap_eq_nil_iff.1 h
      have hpart := Path.componentOfPart?_eq_none_iff.1 (hall part List.mem_cons_self)
      have hrest := List.filterMap_eq_nil_iff.2 fun part h => hall part (List.mem_cons_of_mem _ h)
      rw [walk_skip hroot hpart]
      exact ih hrest

/-- What a name means. -/
theorem componentOfPart?_of_is_name {part : List UInt8} (h : IsName part) :
    Path.componentOfPart? part = some (.name part) := by
  rw [Path.componentOfPart?, if_neg h.1, if_neg h.2]

/-- Parts that mean nothing lead nowhere else. -/
theorem Leads.of_meaning_eq_nil (h : t.Leads true links place parts left q)
    (hparts : Path.meaning parts = []) : q = place := by
  induction h with
  | done => rfl
  | skip _ hpart _ ih =>
      rw [Path.meaning, List.filterMap_cons_none (Path.componentOfPart?_eq_none_iff.2 hpart)] at hparts
      exact ih hparts
  | up => cases hparts
  | stop _ hpart _ _ =>
      rw [Path.meaning, List.filterMap_cons_some (componentOfPart?_of_is_name hpart)] at hparts
      cases hparts
  | link _ hpart _ _ _ _ =>
      rw [Path.meaning, List.filterMap_cons_some (componentOfPart?_of_is_name hpart)] at hparts
      cases hparts
  | enter _ hpart _ _ _ =>
      rw [Path.meaning, List.filterMap_cons_some (componentOfPart?_of_is_name hpart)] at hparts
      cases hparts

/-! ## Directories -/

/-- A place at which a path can go on, and on the way to which no link stands, is a directory. -/
theorem Solid.entry?_eq (h : t.Solid place) (hpass : t.Passable place) :
    t.entry? place = some .directory := by
  obtain ⟨e, he, hfile⟩ := hpass
  cases e with
  | file content executable => exact absurd rfl (hfile content executable)
  | directory => exact he
  | link target => exact absurd he (h.not_link target)

/-- What is found at a path stands where the parts of the path lead. -/
theorem find_eq_ok_iff_leads {e : FileEntry} : t.find dir p = .ok (place, e) ↔
    p.bytes ≠ [] ∧ (∃ left, t.Leads true linkLimit (startOf dir p) (Path.split p.bytes) left place) ∧
      t.entry? place = some e := by
  rw [find_eq_ok_iff, locate_eq_ok_iff, and_assoc]

/-- A path names a file exactly if one is found at it. -/
theorem isFile_iff : t.isFile dir p = true ↔
    ∃ place content executable, t.find dir p = .ok (place, .file content executable) := by
  constructor
  · intro h
    unfold isFile at h
    split at h
    next place content executable hfind => exact ⟨place, content, executable, hfind⟩
    next => cases h
  · rintro ⟨place, content, executable, hfind⟩
    rw [isFile, hfind]

/-- A path names a directory exactly if one is found at it. -/
theorem isDirectory_iff : t.isDirectory dir p = true ↔
    ∃ place, t.find dir p = .ok (place, .directory) := by
  constructor
  · intro h
    unfold isDirectory at h
    split at h
    next place hfind => exact ⟨place, hfind⟩
    next => cases h
  · rintro ⟨place, hfind⟩
    rw [isDirectory, hfind]

/-- A dot names the directory in which it is looked up. -/
theorem find_dot (h : t.entry? dir = some .directory) :
    t.find dir (.ofString ".") = .ok (dir, .directory) := by
  have hpass : t.Passable dir := ⟨.directory, h, nofun⟩
  exact find_eq_ok_iff_leads.2 ⟨by decide, ⟨_, .skip hpass (Or.inr rfl) .done⟩, h⟩

/-- A dot names nothing else. -/
theorem eq_of_find_dot {e : FileEntry} (h : t.find dir (.ofString ".") = .ok (place, e)) :
    place = dir := by
  obtain ⟨-, ⟨left, hleads⟩, -⟩ := find_eq_ok_iff_leads.1 h
  exact hleads.of_meaning_eq_nil rfl

/-- A slash names the root. -/
theorem find_slash (t : FileTree) (dir : Place) : t.find dir ⟨[Path.slash]⟩ = .ok ([], .directory) := by
  have hpass : t.Passable [] := ⟨.directory, rfl, nofun⟩
  exact find_eq_ok_iff_leads.2
    ⟨by decide, ⟨_, .skip hpass (Or.inl rfl) (.skip hpass (Or.inl rfl) .done)⟩, rfl⟩

/-- A mere name names what stands there in the directory in which it is looked up. -/
theorem find_name {name : List UInt8} {e : FileEntry} (hname : Path.IsName name)
    (hdir : t.entry? dir = some .directory) (hentry : t.entry? (dir ++ [name]) = some e)
    (hlink : ∀ target, e ≠ .link target) : t.find dir ⟨name⟩ = .ok (dir ++ [name], e) := by
  have hpass : t.Passable dir := ⟨.directory, hdir, nofun⟩
  have hpart : IsName name := ⟨fun h => h.elim hname.ne_nil hname.ne_dot, hname.ne_dots⟩
  have hstart : startOf dir ⟨name⟩ = dir := by
    rw [FileTree.startOf, hname.not_absolute, if_neg Bool.false_ne_true]
  have hstay : ∀ target, t.entry? (dir ++ [name]) ≠ some (.link target) := by
    intro target h
    exact hlink target (Option.some.inj (hentry.symm.trans h))
  refine find_eq_ok_iff_leads.2 ⟨hname.ne_nil, ⟨linkLimit, ?_⟩, hentry⟩
  rw [hstart, Path.split_of_not_mem hname.slash_not_mem]
  exact .enter hpass hpart hstay .done

/-! ## Above a file -/

/-- There is a path above that of a file. -/
theorem exists_parent_of_is_file (h : t.isFile dir p = true) : ∃ q, p.parent? = some q := by
  rw [← Option.isSome_iff_exists, Option.isSome_iff_ne_none]
  intro hnone
  have hfind : (∃ e, t.find dir p = .error e) ∨ ∃ place, t.find dir p = .ok (place, .directory) := by
    rcases Path.parent?_eq_none_iff.1 hnone with hnil | hroot
    · have hbytes := Path.bytes_eq_nil_of_components_eq_nil hnil
      exact Or.inl ⟨.noSuchFile, by rw [find, locate, if_pos hbytes]; rfl⟩
    · have habsolute : p.isAbsolute = true := Path.is_absolute_iff.2 (hroot ▸ List.mem_cons_self)
      have hbytes : p.bytes ≠ [] := by
        intro hempty
        rw [Path.isAbsolute, hempty] at habsolute
        cases habsolute
      have hlocate : t.locate true dir p = .ok [] := by
        rw [locate, if_neg hbytes, if_pos habsolute,
          walk_of_meaning_eq_nil (Path.meaning_of_root hroot)]
      exact Or.inr ⟨[], find_eq_ok_iff.2 ⟨hlocate, rfl⟩⟩
  obtain ⟨place, content, executable, hfile⟩ := isFile_iff.1 h
  rcases hfind with ⟨e, he⟩ | ⟨place, he⟩ <;> rw [he] at hfile <;> cases hfile

/-- Where a file is found, a directory is found at the directory of its path. -/
theorem find_directoryOf (hsolid : t.Solid dir) (h : t.isFile dir p = true) :
    ∃ above, t.find dir (Environment.directoryOf p) = .ok (above, .directory) := by
  obtain ⟨q, hq⟩ := exists_parent_of_is_file h
  obtain ⟨place, content, executable, hfind⟩ := isFile_iff.1 h
  obtain ⟨hbytes, ⟨left, hleads⟩, hentry⟩ := find_eq_ok_iff_leads.1 hfind
  have hstart : t.Solid (startOf dir p) := hsolid.startOf p
  have hmeaning : Path.meaning (Path.split p.bytes) ≠ [] := by
    -- Otherwise the file would stand where the path starts, and nothing could be looked up there.
    intro hnil
    obtain ⟨part, rest, hparts⟩ := List.exists_cons_of_ne_nil (Path.split_ne_nil p.bytes)
    have hdirectory := hstart.entry?_eq (hparts ▸ hleads).passable
    rw [← hleads.of_meaning_eq_nil hnil, hentry] at hdirectory
    cases hdirectory
  obtain ⟨kept, rest, hsplit, hrest, hspelled⟩ := Path.split_parent? hq hmeaning
  obtain ⟨m, above, hkept, hlast⟩ := (hsplit ▸ hleads).split_append hrest
  have habove : t.entry? above = some .directory := by
    obtain ⟨part, parts, rfl⟩ := List.exists_cons_of_ne_nil hrest
    exact (hkept.solid hstart).entry?_eq hlast.passable
  rcases hspelled with ⟨hnothing, rfl⟩ | ⟨hparts, hne⟩
  · obtain rfl := hkept.of_meaning_eq_nil hnothing
    cases habsolute : p.isAbsolute with
    | true =>
        have hdirectory : Environment.directoryOf p = ⟨[Path.slash]⟩ := by
          rw [Environment.directoryOf, hq, Path.front, if_pos habsolute]
          rfl
        exact ⟨[], hdirectory ▸ find_slash t dir⟩
    | false =>
        have hdirectory : Environment.directoryOf p = .ofString "." := by
          rw [Environment.directoryOf, hq, Path.front, habsolute, if_neg Bool.false_ne_true]
          by_cases hdot : (Path.split p.bytes).head? = some [Path.dot]
          · rw [if_pos hdot]
            rfl
          · rw [if_neg hdot]
            rfl
        rw [FileTree.startOf, habsolute, if_neg Bool.false_ne_true] at habove
        exact ⟨dir, hdirectory ▸ find_dot habove⟩
  · refine ⟨above, ?_⟩
    have hdirectory : Environment.directoryOf p = q := by
      rw [Environment.directoryOf, hq]
      exact if_neg hne
    have hbegin : startOf dir q = startOf dir p := by
      rw [FileTree.startOf, FileTree.startOf, Path.is_absolute_parent? hq]
    rw [hdirectory]
    exact find_eq_ok_iff_leads.2 ⟨hne, ⟨m, by rw [hbegin, hparts]; exact hkept⟩, habove⟩

end FileTree

end LintWatch
