import LintWatch.Proofs.Files.Replace
import LintWatch.Proofs.Settings.UseNoqa
import Mathlib

/-!
# The configuration file

`persistUseNoqa` changes one file, and what it saves is loaded back: after any run of saved values
the settings in the file are those it held before, with the last of the values (`load_saved`). It
makes the directories above the file before it looks for it, so what a missing file counts as is
said with them made: `CountsAs`. It fails without touching a file, and it crashes only on a file in
which something else than a table is bound to `lint` (`persistUseNoqa_returns_iff`).
-/

namespace LintWatch.Settings

open Toml (Document Fields)

variable {env env' : Environment} {file : Path} {value : Bool} {s : Settings}

/-! ## Outcomes -/

/-- The environment with the directories above a file. -/
def prepared (env : Environment) (file : Path) : Environment :=
  { env with
    files := (env.files.createDirectories env.directory ((file.parent?).getD ⟨[]⟩)).1 }

/-- The text that is edited: that of the file, or none when there is no file. -/
def currentText (env : Environment) (file : Path) : Except IoError String :=
  if env.isPresent file then env.readText file else .ok ""

/-- Directories are all that is added before the file is touched. -/
theorem extends_prepared (env : Environment) (file : Path) :
    env.files.Extends (prepared env file).files :=
  FileTree.extends_createDirectories _ _ _

/-- A path at which something is found names it. -/
theorem isPresent_of_find {found : Place × FileEntry}
    (h : env.files.find env.directory file = .ok found) : env.isPresent file = true :=
  FileTree.isPresent_iff.2 ⟨_, _, h⟩

/-- Whether something else than a table is bound to the name of the lint settings. -/
def isBlocked (fields : Fields) : Bool :=
  match (Toml.dataOfFields fields).lookup "lint" with
  | none | some (.table _) => false
  | some _ => true

/-- The directories above a file are there, or can be made. -/
def HasDirectories (env : Environment) (file : Path) : Prop :=
  (env.files.createDirectories env.directory ((file.parent?).getD ⟨[]⟩)).2 = .ok ()

/-- What saving a value takes, and what it leaves. -/
structure Saves (env : Environment) (file : Path) (value : Bool) (env' : Environment) : Prop where
  directories : HasDirectories env file
  edits : ∃ text document fields text' files,
    currentText (prepared env file) file = .ok text ∧
    changeable? text = some (document, fields) ∧ setUseNoqa? document fields value = some text' ∧
    (prepared env file).files.replaceFile env.directory file (Text.Utf8.encode text') = .ok files ∧
    env' = { env with files }

/-- What a failure leaves: directories may have been made, and the error names the file. -/
structure Fails (env : Environment) (file : Path) (env' : Environment) (e : ConfigError) :
    Prop where
  env_eq : env' = prepared env file
  reason : (∃ cause, e = .read file cause) ∨ e = .edit file ∨ ∃ cause, e = .write file cause

/-- What a crash takes: a text that could be changed, but for what is bound to `lint`. -/
structure Crashes (env : Environment) (file : Path) : Prop where
  directories : HasDirectories env file
  blocked : ∃ text document fields, currentText (prepared env file) file = .ok text ∧
    changeable? text = some (document, fields) ∧ isBlocked fields = true

/-- The text has a place for the value unless something else is bound to `lint`. -/
theorem setUseNoqa?_eq_none_iff {document : Document} {fields : Fields} :
    setUseNoqa? document fields value = none ↔ isBlocked fields = true := by
  unfold setUseNoqa? isBlocked
  rw [Option.map_eq_none_iff, Toml.put?_eq_none_iff]
  split
  next hlookup =>
    refine iff_of_false ?_ Bool.false_ne_true
    rintro ⟨x, hx, -⟩
    rw [hlookup] at hx
    cases hx
  next inner hlookup =>
    refine iff_of_false ?_ Bool.false_ne_true
    rintro ⟨x, hx, hother⟩
    rw [hlookup] at hx
    exact hother inner (Option.some.inj hx).symm
  next x hother hlookup =>
    exact iff_of_true ⟨x, hlookup, hother⟩ rfl

/-- What each outcome of writing a value into the file says. -/
def Explains (env : Environment) (file : Path) (value : Bool) : Persisted → Prop
  | .saved env' => Saves env file value env'
  | .failed env' e => Fails env file env' e
  | .crashed => Crashes env file

/-- Every outcome of writing a value into the file is explained. -/
theorem explains_persistUseNoqa (env : Environment) (file : Path) (value : Bool) :
    Explains env file value (persistUseNoqa env file value) := by
  unfold persistUseNoqa
  dsimp only
  split
  next files e hmade =>
    refine ⟨?_, Or.inr (Or.inr ⟨e, rfl⟩)⟩
    unfold prepared
    rw [hmade]
  next files hmade =>
  have hdirectories : HasDirectories env file := by
    unfold HasDirectories
    rw [hmade]
  have hfiles : files = (prepared env file).files := by
    unfold prepared
    rw [hmade]
  have hprepared : { env with files := (prepared env file).files } = prepared env file := rfl
  rw [hfiles, hprepared]
  split
  next e _ => exact ⟨rfl, Or.inl ⟨e, rfl⟩⟩
  next text htext =>
  split
  next => exact ⟨rfl, Or.inr (Or.inl rfl)⟩
  next document fields hchange =>
  split
  next hset =>
    exact ⟨hdirectories, text, document, fields, htext, hchange, setUseNoqa?_eq_none_iff.1 hset⟩
  next text' hset =>
  split
  next e _ => exact ⟨rfl, Or.inr (Or.inr ⟨e, rfl⟩)⟩
  next files' hreplace =>
    exact ⟨hdirectories, text, document, fields, text', files', htext, hchange, hset, hreplace, rfl⟩

/-- What comes of a new text for the file, when there is one. -/
def replaced (env : Environment) (file : Path) : Option String → Persisted
  | none => .crashed
  | some text =>
    match (prepared env file).files.replaceFile env.directory file (Text.Utf8.encode text) with
    | .error e => .failed (prepared env file) (.write file e)
    | .ok files => .saved { env with files }

/-- What has been written, given the text that is edited. -/
theorem persistUseNoqa_eq (hdirectories : HasDirectories env file) {text : String}
    {document : Document} {fields : Fields}
    (htext : currentText (prepared env file) file = .ok text)
    (hchange : changeable? text = some (document, fields)) :
    persistUseNoqa env file value = replaced env file (setUseNoqa? document fields value) := by
  have hmade : env.files.createDirectories env.directory ((file.parent?).getD ⟨[]⟩)
      = ((prepared env file).files, .ok ()) := Prod.ext rfl hdirectories
  have hprepared : { env with files := (prepared env file).files } = prepared env file := rfl
  unfold currentText at htext
  unfold persistUseNoqa
  dsimp only
  rw [hmade]
  dsimp only
  rw [hprepared, htext]
  dsimp only
  rw [hchange]
  rfl

/-- A value is saved by an edit of the text, and only by that. -/
theorem persistUseNoqa_eq_saved_iff :
    persistUseNoqa env file value = .saved env' ↔ Saves env file value env' := by
  constructor
  · intro h
    have hexplains := explains_persistUseNoqa env file value
    rwa [h] at hexplains
  · rintro ⟨hdirectories, text, document, fields, text', files, htext, hchange, hset, hreplace, rfl⟩
    rw [persistUseNoqa_eq hdirectories htext hchange, hset]
    unfold replaced
    dsimp only
    rw [hreplace]

/-- A value is saved when it has been set in the text that is edited and the new text has been put in
the place of the file. -/
theorem saved_of_edit {text text' : String} {files : FileTree}
    (hdirectories : HasDirectories env file)
    (htext : currentText (prepared env file) file = .ok text)
    (hset : ((changeable? text).bind fun x => setUseNoqa? x.1 x.2 value) = some text')
    (hreplace : (prepared env file).files.replaceFile env.directory file (Text.Utf8.encode text')
      = .ok files) :
    persistUseNoqa env file value = .saved { env with files } := by
  obtain ⟨⟨document, fields⟩, hchange, hset⟩ := Option.bind_eq_some_iff.1 hset
  exact persistUseNoqa_eq_saved_iff.2
    ⟨hdirectories, text, document, fields, text', files, htext, hchange, hset, hreplace, rfl⟩

/-- What a failure has left. -/
theorem fails_of_persistUseNoqa {e : ConfigError}
    (h : persistUseNoqa env file value = .failed env' e) : Fails env file env' e := by
  have hexplains := explains_persistUseNoqa env file value
  rwa [h] at hexplains

/-- A crash comes of a blocked text, and only of that. -/
theorem persistUseNoqa_eq_crashed_iff :
    persistUseNoqa env file value = .crashed ↔ Crashes env file := by
  constructor
  · intro h
    have hexplains := explains_persistUseNoqa env file value
    rwa [h] at hexplains
  · rintro ⟨hdirectories, text, document, fields, htext, hchange, hblocked⟩
    rw [persistUseNoqa_eq hdirectories htext hchange, setUseNoqa?_eq_none_iff.2 hblocked, replaced]

/-! ## A file alone in its directory -/

/-- The name of a configuration file. -/
def fileName : Path :=
  .ofString "config.toml"

/-- An environment with a configuration file and nothing else. -/
def aloneWith (text : String) : Environment :=
  ⟨⟨[([fileName.bytes], .file (Text.Utf8.encode text) false)]⟩, [], []⟩

/-- The name leads to the file. -/
theorem locate_aloneWith (follow : Bool) (text : String) :
    (aloneWith text).files.locate follow [] fileName = .ok [fileName.bytes] := by
  have hname : FileTree.IsName fileName.bytes := by
    unfold FileTree.IsName
    decide
  have hroot : (aloneWith text).files.Passable [] :=
    ⟨.directory, rfl, fun _ _ h => nomatch h⟩
  exact FileTree.walk_eq_ok_iff.2
    ⟨FileTree.linkLimit, .enter hroot hname (fun _ h => nomatch h) .done⟩

/-- The file is found under its name. -/
theorem readText_aloneWith (text : String) : (aloneWith text).readText fileName = .ok text :=
  FileTree.readText_of_find (FileTree.find_eq_ok_iff.2 ⟨locate_aloneWith true text, rfl⟩)

/-- Nothing has to be made before the file is edited. -/
theorem currentText_aloneWith (text : String) :
    HasDirectories (aloneWith text) fileName ∧
      currentText (prepared (aloneWith text) fileName) fileName = .ok text := by
  have hmade : (aloneWith text).files.createDirectories [] ((fileName.parent?).getD ⟨[]⟩)
      = ((aloneWith text).files, .ok ()) := rfl
  refine ⟨congrArg Prod.snd hmade, ?_⟩
  have hprepared : prepared (aloneWith text) fileName = aloneWith text := rfl
  have hfind : (aloneWith text).files.find [] fileName = .ok ([fileName.bytes], _) :=
    FileTree.find_eq_ok_iff.2 ⟨locate_aloneWith true text, rfl⟩
  unfold currentText
  rw [hprepared, isPresent_of_find hfind]
  exact readText_aloneWith text

/-- The file gets a text of its own when a value has been set in its text. -/
theorem persist_aloneWith {text text' : String}
    (h : ((changeable? text).bind fun x => setUseNoqa? x.1 x.2 value) = some text') :
    persistUseNoqa (aloneWith text) fileName value = .saved (aloneWith text') := by
  obtain ⟨hdirectories, htext⟩ := currentText_aloneWith text
  have hreplace : (aloneWith text).files.replaceFile [] fileName (Text.Utf8.encode text')
      = .ok (aloneWith text').files := by
    unfold FileTree.replaceFile
    rw [locate_aloneWith]
    rfl
  exact saved_of_edit hdirectories htext h hreplace

/-- Writing a value ends with the value saved, or with an error of the file, unless something else
than a table is bound to `lint` in a text that could be changed. -/
theorem persistUseNoqa_returns_iff (env : Environment) (file : Path) (value : Bool) :
    ((∃ env', persistUseNoqa env file value = .saved env') ∨
        ∃ env' e, persistUseNoqa env file value = .failed env' e ∧ Fails env file env' e) ↔
      ¬ Crashes env file := by
  constructor
  · intro h hcrashes
    rw [persistUseNoqa_eq_crashed_iff.2 hcrashes] at h
    rcases h with ⟨env', h⟩ | ⟨env', e, h, -⟩
    · cases h
    · cases h
  · intro hcrashes
    cases h : persistUseNoqa env file value with
    | saved env' => exact Or.inl ⟨env', rfl⟩
    | failed env' e => exact Or.inr ⟨env', e, rfl, fails_of_persistUseNoqa h⟩
    | crashed => exact absurd (persistUseNoqa_eq_crashed_iff.1 h) hcrashes

/-- A file in which a number is bound to `lint` brings a crash. -/
theorem not_returns_lint_number :
    ¬ ((∃ env', persistUseNoqa (aloneWith "lint = 5\n") fileName false = .saved env') ∨
        ∃ env' e, persistUseNoqa (aloneWith "lint = 5\n") fileName false = .failed env' e ∧
          Fails (aloneWith "lint = 5\n") fileName env' e) := by
  have hcrashes : Crashes (aloneWith "lint = 5\n") fileName := by
    have hblocked : (changeable? "lint = 5\n").any (isBlocked ·.2) = true := by decide +kernel
    obtain ⟨⟨document, fields⟩, hchange, hfields⟩ := (Option.any_eq_true _ _).1 hblocked
    obtain ⟨hdirectories, htext⟩ := currentText_aloneWith "lint = 5\n"
    exact ⟨hdirectories, _, document, fields, htext, hchange, hfields⟩
  rw [persistUseNoqa_eq_crashed_iff.2 hcrashes]
  rintro (⟨_, h⟩ | ⟨_, _, h, -⟩)
  · cases h
  · cases h

/-! ## What is loaded back -/

/-- A file is loaded when its text is read as settings. -/
theorem load_eq_ok_iff :
    load env file = .ok (some s) ↔
      ∃ text, env.readText file = .ok text ∧ ofToml? text = some s := by
  unfold load
  constructor
  · intro h
    split at h
    next => cases h
    split at h
    next => cases h
    next text htext =>
    split at h
    next => cases h
    next found hfound =>
      obtain rfl := Option.some.inj (Except.ok.inj h)
      exact ⟨text, htext, hfound⟩
  · rintro ⟨text, htext, hs⟩
    obtain ⟨place, content, executable, hfind⟩ := FileTree.find_of_readText htext
    rw [isPresent_of_find hfind, htext]
    dsimp only
    rw [hs]
    rfl

/-- No settings are loaded where no file is found. -/
theorem load_eq_none_iff : load env file = .ok none ↔ env.isPresent file = false := by
  unfold load
  cases env.isPresent file with
  | false => exact iff_of_true rfl rfl
  | true =>
      refine iff_of_false (fun h => ?_) nofun
      rw [if_neg (by decide)] at h
      split at h
      next => cases h
      next =>
      split at h
      next => cases h
      next => cases h

/-- What a missing file counts as: the settings that are loaded from it once the directories above
it have been made, or, if it is missing still, the default ones. In that case its path has to lead
straight to where it will be. -/
def CountsAs (env : Environment) (file : Path) (s : Settings) : Prop :=
  load (prepared env file) file = .ok (some s) ∨
    load (prepared env file) file = .ok none ∧ s = .empty ∧
      (prepared env file).files.LeadsStraight env.directory file

/-- The file holds settings: they are loaded, or it is missing and counts as them. No link stands on
the way to the working directory. -/
structure Holds (env : Environment) (file : Path) (s : Settings) : Prop where
  directory : env.files.Solid env.directory
  loads : load env file = .ok (some s) ∨ load env file = .ok none ∧ CountsAs env file s

/-- A path that names a file, or nothing, when its directories have been made leads straight. -/
theorem straight_of_namesFile (hdirectory : env.files.Solid env.directory)
    (h : (prepared env file).files.NamesFile env.directory file) :
    (prepared env file).files.LeadsStraight env.directory file :=
  h.straight (hdirectory.extends (extends_prepared env file))

/-- The text of a file that is there is the one that is edited, and the path names the file. -/
theorem currentText_eq_of_readText {text : String} (h : env.readText file = .ok text) :
    currentText env file = .ok text ∧ env.files.NamesFile env.directory file := by
  obtain ⟨place, content, executable, hfind⟩ := FileTree.find_of_readText h
  exact ⟨(if_pos (isPresent_of_find hfind)).trans h, FileTree.namesFile_of_find hfind⟩

/-- The text of a file that is there is still the one that is edited when its directories have been
made. -/
theorem currentText_of_readText {text : String} (h : env.readText file = .ok text) :
    currentText (prepared env file) file = .ok text ∧
      (prepared env file).files.NamesFile env.directory file :=
  currentText_eq_of_readText (FileTree.readText_extends (extends_prepared env file) h)

/-- Settings that are loaded are still loaded when the directories of the file have been made, so a
file that is there counts as them, too. -/
theorem Holds.countsAs (h : Holds env file s) : CountsAs env file s := by
  rcases h.loads with hloads | ⟨-, hcounts⟩
  · obtain ⟨text, htext, hs⟩ := load_eq_ok_iff.1 hloads
    have hstill := FileTree.readText_extends (extends_prepared env file) htext
    exact .inl (load_eq_ok_iff.2 ⟨text, hstill, hs⟩)
  · exact hcounts

/-- What the file holds is in the text that is edited, and its path leads straight. -/
theorem Holds.currentText (h : Holds env file s) {text : String}
    (htext : currentText (prepared env file) file = .ok text) :
    (prepared env file).files.LeadsStraight env.directory file ∧ ofToml? text = some s := by
  rcases h.countsAs with hloads | ⟨hnone, rfl, hstraight⟩
  · obtain ⟨old, hold, hs⟩ := load_eq_ok_iff.1 hloads
    obtain ⟨hcurrent, hnames⟩ := currentText_eq_of_readText hold
    obtain rfl := Except.ok.inj (htext.symm.trans hcurrent)
    exact ⟨straight_of_namesFile h.directory hnames, hs⟩
  · have hcurrent : Settings.currentText (prepared env file) file = .ok "" := by
      rw [Settings.currentText, load_eq_none_iff.1 hnone]
      rfl
    obtain rfl := Except.ok.inj (htext.symm.trans hcurrent)
    exact ⟨hstraight, ofToml?_empty⟩

/-- A text that has been put in the place of the file is read from it. -/
theorem readText_replaced {text' : String} {files : FileTree}
    (hdirectory : env.files.Solid env.directory)
    (hstraight : (prepared env file).files.LeadsStraight env.directory file)
    (h : (prepared env file).files.replaceFile env.directory file (Text.Utf8.encode text')
      = .ok files) :
    files.Solid env.directory ∧ files.readText env.directory file = .ok text' := by
  have hsolid := hdirectory.extends (extends_prepared env file)
  obtain ⟨q, hlocate, -⟩ := FileTree.exists_of_replaceFile h
  have hfind := (FileTree.find_replaceFile_iff h).2 ⟨hstraight, q, hlocate, rfl⟩
  exact ⟨FileTree.solid_replaceFile hsolid h, FileTree.readText_of_find hfind⟩

/-- After a value has been saved the file holds the same settings with the value. -/
theorem Holds.saved (h : Holds env file s) (hsaved : persistUseNoqa env file value = .saved env') :
    env'.files.Solid env'.directory ∧ load env' file = .ok (some (s.withUseNoqa value)) := by
  obtain ⟨text, document, fields, text', files, htext, hchange, hset, hreplace, rfl⟩ :=
    (persistUseNoqa_eq_saved_iff.1 hsaved).edits
  obtain ⟨hstraight, hs⟩ := h.currentText htext
  obtain ⟨hsolid, hread⟩ := readText_replaced h.directory hstraight hreplace
  exact ⟨hsolid, load_eq_ok_iff.2 ⟨text', hread, ofToml?_setUseNoqa? hchange hset hs⟩⟩

/-- A file that is missing once its directories have been made counts as the default settings, unless
it is missing for too many links. -/
theorem countsAs_of_missing {failed : IoError} (hdirectory : env.files.Solid env.directory)
    (hfind : (prepared env file).files.find env.directory file = .error failed)
    (hfailed : failed ≠ FileTree.tooManyLinks) : CountsAs env file .empty := by
  have habsent : (prepared env file).isPresent file = false := by
    refine Bool.eq_false_iff.2 fun hpresent => ?_
    obtain ⟨_, _, hfound⟩ := FileTree.isPresent_iff.1 hpresent
    cases hfind.symm.trans hfound
  have hnames := FileTree.namesFile_of_missing hfind hfailed
  exact .inr ⟨load_eq_none_iff.2 habsent, rfl, straight_of_namesFile hdirectory hnames⟩

/-- What has been saved in the place of a file that was missing with its directories made is loaded
back exactly if the file counts as the default settings. -/
theorem load_missing_saved_iff (hdirectory : env.files.Solid env.directory)
    (hmissing : load (prepared env file) file = .ok none)
    (hsaved : persistUseNoqa env file value = .saved env') :
    load env' file = .ok (some (empty.withUseNoqa value)) ↔ CountsAs env file .empty := by
  constructor
  · intro hload
    obtain ⟨_, _, _, _, files, _, _, _, hreplace, rfl⟩ :=
      (persistUseNoqa_eq_saved_iff.1 hsaved).edits
    obtain ⟨text, htext, -⟩ := load_eq_ok_iff.1 hload
    obtain ⟨_, _, _, hfind⟩ := FileTree.find_of_readText htext
    exact .inr ⟨hmissing, rfl, ((FileTree.find_replaceFile_iff hreplace).1 hfind).1⟩
  · intro hcounts
    have hfirst : load env file = .ok none := by
      refine load_eq_none_iff.2 (Bool.eq_false_iff.2 fun hpresent => ?_)
      obtain ⟨_, _, hfind⟩ := FileTree.isPresent_iff.1 hpresent
      have hstill := FileTree.find_extends (extends_prepared env file) hfind
      exact Bool.false_ne_true ((load_eq_none_iff.1 hmissing).symm.trans (isPresent_of_find hstill))
    exact (Holds.saved ⟨hdirectory, .inr ⟨hfirst, hcounts⟩⟩ hsaved).2

/-- The value has been written: the file has a text that binds it, and if the file held settings
before, it holds them with the value. -/
structure Writes (env : Environment) (file : Path) (value : Bool) (env' : Environment) :
    Prop where
  text : ∃ text, Binds text value ∧
    (prepared env file).files.replaceFile env.directory file (Text.Utf8.encode text)
      = .ok env'.files ∧
    (env.files.Solid env.directory → (prepared env file).files.NamesFile env.directory file →
      env'.readText file = .ok text)
  settings (s : Settings) : Holds env file s →
    load env' file = .ok (some (s.withUseNoqa value))

/-- A value that has been saved has been written. -/
theorem writes_of_saved (h : persistUseNoqa env file value = .saved env') :
    Writes env file value env' := by
  refine ⟨?_, fun s hs => (hs.saved h).2⟩
  obtain ⟨text, document, fields, text', files, htext, hchange, hset, hreplace, rfl⟩ :=
    (persistUseNoqa_eq_saved_iff.1 h).edits
  exact ⟨text', binds_of_setUseNoqa? hchange hset, hreplace,
    fun hdirectory hnames =>
      (readText_replaced hdirectory (straight_of_namesFile hdirectory hnames) hreplace).2⟩

/-- Values that are all saved, one after the other. -/
inductive Saved (file : Path) : Environment → List Bool → Environment → Prop where
  | nil {env : Environment} : Saved file env [] env
  | cons {env next env' : Environment} {value : Bool} {values : List Bool} :
      persistUseNoqa env file value = .saved next → Saved file next values env' →
      Saved file env (value :: values) env'

/-- After every value that is saved, the file holds the settings it held at first with that
value. -/
theorem load_saved {values : List Bool} (h : Holds env file s)
    (hsaved : Saved file env (values ++ [value]) env') :
    load env' file = .ok (some (s.withUseNoqa value)) := by
  induction values generalizing env s with
  | nil =>
      cases hsaved with
      | cons hfirst hrest =>
          cases hrest
          exact (h.saved hfirst).2
  | cons first values ih =>
      cases hsaved with
      | cons hfirst hrest =>
          obtain ⟨hsolid, hload⟩ := h.saved hfirst
          have hnext : Holds _ file (s.withUseNoqa first) := ⟨hsolid, Or.inl hload⟩
          have hlast := ih hnext hrest
          exact hlast

/-- Two values in a file in which the table is only implied by a section below it. -/
theorem load_saved_implied :
    load (aloneWith "fix_all = true\n\n[lint]\nuse_noqa = true\n[lint.a]\n") fileName
      = .ok (some ({ empty with fixAll := some true }.withUseNoqa true)) := by
  generalize htext : "fix_all = true\n[lint.a]\n" = text
  have hs : ofToml? text = some { empty with fixAll := some true } := by
    rw [← htext]
    decide +kernel
  have hfirst : persistUseNoqa (aloneWith text) fileName false
      = .saved (aloneWith "fix_all = true\n\n[lint]\nuse_noqa = false\n[lint.a]\n") := by
    refine persist_aloneWith ?_
    rw [← htext]
    decide +kernel
  have hsecond : persistUseNoqa
      (aloneWith "fix_all = true\n\n[lint]\nuse_noqa = false\n[lint.a]\n") fileName true
      = .saved (aloneWith "fix_all = true\n\n[lint]\nuse_noqa = true\n[lint.a]\n") :=
    persist_aloneWith (by decide +kernel)
  have hholds : Holds (aloneWith text) fileName { empty with fixAll := some true } :=
    ⟨FileTree.solid_nil _, Or.inl (load_eq_ok_iff.2 ⟨text, readText_aloneWith text, hs⟩)⟩
  have hsaved : Saved fileName _ ([false] ++ [true]) _ := .cons hfirst (.cons hsecond .nil)
  exact load_saved hholds hsaved

/-- A path to the configuration file that leads nowhere until a directory has been made. -/
def roundabout : Path :=
  .ofString "a/../config.toml"

/-- A configuration file that says how long lines may be. -/
def withLineLength : Environment :=
  aloneWith "line_length = 100\n"

/-- A file that is missing until a directory has been made does not count as the default settings:
the value is put into the text that is found then. -/
theorem not_load_saved_roundabout : load withLineLength roundabout = .ok none ∧
    ∃ env', Saved roundabout withLineLength [false] env' ∧
      load env' roundabout = .ok (some ({ empty with lineLength := some 100 }.withUseNoqa false)) ∧
      load env' roundabout ≠ .ok (some (empty.withUseNoqa false)) := by
  have hmissing : load withLineLength roundabout = .ok none := by cbv
  have hdirectories : HasDirectories withLineLength roundabout := by cbv
  have hread : (prepared withLineLength roundabout).readText roundabout
      = .ok "line_length = 100\n" := by
    cbv
  have hedit : ((changeable? "line_length = 100\n").bind fun x => setUseNoqa? x.1 x.2 false)
      = some "line_length = 100\n\n[lint]\nuse_noqa = false\n" := by
    decide +kernel
  have hreplace : (prepared withLineLength roundabout).files.replaceFile [] roundabout
      (Text.Utf8.encode "line_length = 100\n\n[lint]\nuse_noqa = false\n")
        = .ok ((prepared withLineLength roundabout).files.insert [fileName.bytes]
          (.file (Text.Utf8.encode "line_length = 100\n\n[lint]\nuse_noqa = false\n") false)) := by
    cbv
  have hsaved := saved_of_edit hdirectories (currentText_eq_of_readText hread).1 hedit hreplace
  have hcounts : CountsAs withLineLength roundabout { empty with lineLength := some 100 } :=
    .inl (load_eq_ok_iff.2 ⟨_, hread, by decide +kernel⟩)
  have hload := (Holds.saved ⟨FileTree.solid_nil _, .inr ⟨hmissing, hcounts⟩⟩ hsaved).2
  refine ⟨hmissing, _, .cons hsaved .nil, hload, ?_⟩
  rw [hload]
  intro heq
  have hlength := congrArg lineLength (Option.some.inj (Except.ok.inj heq))
  cases hlength

end LintWatch.Settings
