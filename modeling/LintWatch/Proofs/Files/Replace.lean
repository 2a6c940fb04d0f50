import LintWatch.Proofs.Files.Walk

/-!
# Files in the place of others

Making directories only adds some (`extends_createDirectories`), so whatever could be found before
can still be found. A file that is put in the place of another one, or where nothing was, is what
its path names from then on if that leads there straight, and else the path leads nowhere any more:
`find_replaceFile_iff`. A path that names a file, or nothing, leads straight (`NamesFile.straight`).
-/

namespace LintWatch.FileTree

variable {t t' : FileTree} {dir place : Place} {p : Path} {content : List UInt8}

/-! ## What a path names -/

/-- Where a path starts. -/
def startOf (dir : Place) (p : Path) : Place :=
  if p.isAbsolute then [] else dir

/-- A path starts where no link stands on the way, if it is looked up from such a place. -/
theorem Solid.startOf (h : t.Solid dir) (p : Path) : t.Solid (startOf dir p) := by
  unfold FileTree.startOf
  split
  next => exact t.solid_nil
  next => exact h

/-- Where the parts of a path lead it leads, if it has any. -/
theorem locate_eq_ok_iff {follow : Bool} : t.locate follow dir p = .ok place ↔
    p.bytes ≠ [] ∧
      ∃ left, t.Leads follow linkLimit (startOf dir p) (Path.split p.bytes) left place := by
  unfold locate
  split
  next hp => exact iff_of_false nofun fun h => h.1 hp
  next hp => exact walk_eq_ok_iff.trans (and_iff_right hp).symm

/-- What is found at a path that leads to a place. -/
theorem find_of_locate (h : t.locate true dir p = .ok place) :
    t.find dir p =
      match t.entry? place with
      | none => .error .noSuchFile
      | some e => .ok (place, e) := by
  unfold find
  rw [h]
  rfl

/-- What is found at a path is what stands where it leads. -/
theorem find_eq_ok_iff {e : FileEntry} :
    t.find dir p = .ok (place, e) ↔ t.locate true dir p = .ok place ∧ t.entry? place = some e := by
  cases hlocate : t.locate true dir p with
  | error failed =>
      unfold find
      rw [hlocate]
      constructor
      · intro h
        cases h
      · rintro ⟨h, -⟩
        cases h
  | ok q =>
      rw [find_of_locate hlocate]
      constructor
      · intro h
        split at h
        next => cases h
        next found hfound =>
          obtain ⟨rfl, rfl⟩ := Prod.mk.inj (Except.ok.inj h)
          exact ⟨rfl, hfound⟩
      · rintro ⟨h, hentry⟩
        obtain rfl := Except.ok.inj h
        rw [hentry]

/-- A path names something exactly if something is found at it. -/
theorem isPresent_iff : t.isPresent dir p = true ↔ ∃ q e, t.find dir p = .ok (q, e) := by
  unfold isPresent
  cases t.find dir p with
  | ok found => exact iff_of_true rfl ⟨found.1, found.2, rfl⟩
  | error e => exact iff_of_false nofun nofun

/-- The path names a file, or nothing. -/
def NamesFile (t : FileTree) (dir : Place) (p : Path) : Prop :=
  t.FindsFile (t.locate true dir p)

/-- A path at which a file is found names a file. -/
theorem namesFile_of_find {executable : Bool}
    (h : t.find dir p = .ok (place, .file content executable)) : t.NamesFile dir p := by
  obtain ⟨hlocate, hentry⟩ := find_eq_ok_iff.1 h
  unfold NamesFile
  rw [hlocate]
  refine ⟨(fun heq => nomatch heq), fun q hq => ?_⟩
  obtain rfl := Except.ok.inj hq
  rintro ⟨e, he, hfile⟩
  exact hfile content executable (Option.some.inj (he.symm.trans hentry))

/-- A path at which nothing is found names nothing, unless it leads along too many links. -/
theorem namesFile_of_missing {failed : IoError} (h : t.find dir p = .error failed)
    (hfailed : failed ≠ tooManyLinks) : t.NamesFile dir p := by
  refine ⟨fun hlocate => ?_, fun q hlocate => ?_⟩
  · unfold find at h
    rw [hlocate] at h
    exact hfailed (Except.error.inj h).symm
  · rintro ⟨e, he, -⟩
    rw [find_eq_ok_iff.2 ⟨hlocate, he⟩] at h
    cases h

/-- The path leads to the place that it names also when nothing stands there, so it does not pass
through that place on its way. -/
def LeadsStraight (t : FileTree) (dir : Place) (p : Path) : Prop :=
  ∀ q, t.locate false dir p = .ok q → (t.erase q).locate true dir p = .ok q

/-- A path that names a file, or nothing, leads straight. -/
theorem NamesFile.straight (h : t.NamesFile dir p) (hdir : t.Solid dir) :
    t.LeadsStraight dir p := by
  intro q hlocate
  obtain ⟨hp, left, hleads⟩ := locate_eq_ok_iff.1 hlocate
  have hdirectory : t.entry? q ≠ some .directory := fun hentry =>
    h.2 q (locate_eq_ok_iff.2 ⟨hp, left, hleads.following (by simp [hentry])⟩)
      ⟨.directory, hentry, nofun⟩
  have hq : q ≠ [] := by
    rintro rfl
    exact hdirectory rfl
  have hfinds : t.FindsFile (t.walk true linkLimit (startOf dir p) (Path.split p.bytes)) := by
    unfold NamesFile locate at h
    rwa [if_neg hp] at h
  exact locate_eq_ok_iff.2
    ⟨hp, walk_eq_ok_iff.1 (walk_erase hleads (hdir.startOf p) hq hdirectory hfinds)⟩

/-! ## More directories -/

/-- Where a path led it leads still. -/
theorem locate_extends {follow : Bool} (hmore : t.Extends t')
    (h : t.locate follow dir p = .ok place) :
    t'.locate follow dir p = .ok place := by
  obtain ⟨hp, left, hleads⟩ := locate_eq_ok_iff.1 h
  exact locate_eq_ok_iff.2 ⟨hp, left, hleads.extends hmore⟩

/-- What was found is found still. -/
theorem find_extends {found : Place × FileEntry} (hmore : t.Extends t')
    (h : t.find dir p = .ok found) : t'.find dir p = .ok found := by
  obtain ⟨hlocate, hentry⟩ := find_eq_ok_iff.1 h
  exact find_eq_ok_iff.2 ⟨locate_extends hmore hlocate, hmore.kept hentry⟩

/-- What was read is read still. -/
theorem read_extends (hmore : t.Extends t') (h : t.read dir p = .ok content) :
    t'.read dir p = .ok content := by
  unfold read at h ⊢
  cases hfind : t.find dir p with
  | error failed =>
      rw [hfind] at h
      cases h
  | ok found =>
      rw [find_extends hmore hfind]
      rw [hfind] at h
      exact h

/-- The text that was read is read still. -/
theorem readText_extends {text : String} (hmore : t.Extends t') (h : t.readText dir p = .ok text) :
    t'.readText dir p = .ok text := by
  unfold readText at h ⊢
  cases hread : t.read dir p with
  | error failed =>
      rw [hread] at h
      cases h
  | ok bytes =>
      rw [read_extends hmore hread]
      rwa [hread] at h

/-- No link turns up on the way to a place. -/
theorem Solid.extends (hmore : t.Extends t') (h : t.Solid place) : t'.Solid place := by
  intro n target hlink
  cases he : t.entry? (place.take n) with
  | none =>
      rcases hmore.new he with hnew | hnew
      · rw [hnew] at hlink
        cases hlink
      · rw [hnew] at hlink
        cases hlink
  | some e =>
      rw [hmore.kept he, ← he] at hlink
      exact h n target hlink

/-- One directory is added where nothing stood. -/
theorem extends_makeDirectory (h : t.makeDirectory dir p = .ok t') : t.Extends t' := by
  unfold makeDirectory at h
  cases hlocate : t.locate false dir
      (if p.bytes.all (· = Path.slash) then p else withoutSlashes p) with
  | error failed =>
      rw [hlocate] at h
      cases h
  | ok q =>
      rw [hlocate] at h
      dsimp only [bind, Except.bind] at h
      split at h
      next => cases h
      next hnone =>
        obtain rfl := Except.ok.inj h
        exact extends_insert hnone

/-- Directories are added where nothing stood, also when not all of them can be made. -/
theorem extends_makeDirectories (fuel : Nat) (dir : Place) (p : Path) (t : FileTree) :
    t.Extends (makeDirectories fuel dir p t).1 := by
  induction fuel generalizing p t with
  | zero => exact .refl t
  | succ fuel ih =>
      unfold makeDirectories
      dsimp only
      split
      next => exact .refl t
      split
      next t' hmade => exact extends_makeDirectory hmade
      next failed _ =>
      split
      next => exact .refl t
      split
      next => exact .refl t
      next above _ =>
      split
      next t' failed habove =>
        have h := ih above t
        rwa [habove] at h
      next t' habove =>
        have h := ih above t
        rw [habove] at h
        split
        next t'' hmade => exact h.trans (extends_makeDirectory hmade)
        next => exact h

/-- The directories above a file are added where nothing stood. -/
theorem extends_createDirectories (t : FileTree) (dir : Place) (p : Path) :
    t.Extends (t.createDirectories dir p).1 :=
  extends_makeDirectories _ dir p t

/-! ## Another file -/

/-- A file is put where its path leads, unless a directory stands there. -/
theorem exists_of_replaceFile (h : t.replaceFile dir p content = .ok t') :
    ∃ place, t.locate false dir p = .ok place ∧ t.entry? place ≠ some .directory ∧
      t' = t.insert place (.file content false) := by
  unfold replaceFile at h
  cases hlocate : t.locate false dir p with
  | error failed =>
      rw [hlocate] at h
      cases h
  | ok q =>
      rw [hlocate] at h
      dsimp only [bind, Except.bind] at h
      split at h
      next => cases h
      next hdirectory => exact ⟨q, rfl, hdirectory, (Except.ok.inj h).symm⟩

/-- The root is a directory, so no file is put there. -/
theorem ne_nil_of_not_directory (h : t.entry? place ≠ some .directory) : place ≠ [] := by
  rintro rfl
  exact h rfl

/-- A file is no link on the way to a place. -/
theorem solid_replaceFile (hdir : t.Solid dir) (h : t.replaceFile dir p content = .ok t') :
    t'.Solid dir := by
  obtain ⟨q, -, hq, rfl⟩ := exists_of_replaceFile h
  intro n target
  rw [entry?_insert (ne_nil_of_not_directory hq)]
  split
  next =>
    intro hfile
    cases hfile
  next => exact hdir n target

/-- A file in the place of another one, or of nothing, is found at its path if that leads there
straight. Otherwise nothing is found there. -/
theorem find_replaceFile_iff (h : t.replaceFile dir p content = .ok t') {found : Place × FileEntry} :
    t'.find dir p = .ok found ↔ t.LeadsStraight dir p ∧
      ∃ q, t.locate false dir p = .ok q ∧ found = (q, .file content false) := by
  obtain ⟨q, hlocate, hq, rfl⟩ := exists_of_replaceFile h
  have hroot := ne_nil_of_not_directory hq
  have hinsert : ∀ {r}, (t.insert q (.file content false)).locate true dir p = .ok r ↔
      (t.erase q).locate true dir p = .ok r := fun {r} => by
    simp only [locate_eq_ok_iff, leads_insert_iff hroot]
  have hfile : entry? (t.insert q (.file content false)) q = some (.file content false) :=
    (entry?_insert hroot q).trans (if_pos rfl)
  obtain ⟨r, e⟩ := found
  rw [find_eq_ok_iff, hinsert]
  constructor
  · rintro ⟨herased, hentry⟩
    have hr : r = q := by
      obtain ⟨-, left, hleads⟩ := locate_eq_ok_iff.1 hlocate
      obtain ⟨-, hwalk⟩ := locate_eq_ok_iff.1 herased
      exact hleads.eq_of_walk_erase hroot (walk_eq_ok_iff.2 hwalk)
    subst hr
    refine ⟨fun q' hlocate' => ?_, r, hlocate, ?_⟩
    · obtain rfl := Except.ok.inj (hlocate.symm.trans hlocate')
      exact herased
    · rw [Option.some.inj (hentry.symm.trans hfile)]
  · rintro ⟨hstraight, q', hlocate', hfound⟩
    obtain rfl := Except.ok.inj (hlocate.symm.trans hlocate')
    obtain ⟨rfl, rfl⟩ := Prod.mk.inj hfound
    exact ⟨hstraight _ hlocate, hfile⟩

/-- The text of a file is read where the file is found. -/
theorem readText_of_find {text : String} {executable : Bool}
    (h : t.find dir p = .ok (place, .file (Text.Utf8.encode text) executable)) :
    t.readText dir p = .ok text := by
  unfold readText read
  rw [h]
  dsimp only [bind, Except.bind]
  rw [Text.Utf8.decode?_encode]

/-- A text is read from a file only. -/
theorem find_of_readText {text : String} (h : t.readText dir p = .ok text) :
    ∃ place content executable, t.find dir p = .ok (place, .file content executable) := by
  unfold readText read at h
  cases hfind : t.find dir p with
  | error failed =>
      rw [hfind] at h
      cases h
  | ok found =>
      obtain ⟨place, e⟩ := found
      rw [hfind] at h
      cases e with
      | file content executable => exact ⟨place, content, executable, rfl⟩
      | directory => cases h
      | link target => cases h

end LintWatch.FileTree
