import LintWatch.Proofs.Settings.Persist
import LintWatch.Proofs.Toml.LostComments

/-!
# The comments of the configuration file

Saving a value keeps the comments of the configuration file, wherever they stand, but for those that
go with the old value: `keepsComments_iff`.
-/

namespace LintWatch.Settings

open Toml (Document Fields commentsIn)

variable {env env' : Environment} {file : Path} {value : Bool} {text text' : String}

/-- Each comment of a file is still in it, as often as it was. -/
def KeepsComments (env env' : Environment) (file : Path) : Prop :=
  ∀ text, env.readText file = .ok text →
    ∃ text', env'.readText file = .ok text' ∧
      (commentsIn text.toList).Subperm (commentsIn text'.toList)

/-- The text after the value has been set has the comments of the text, but for those that go with
the old value. -/
theorem comments_setUseNoqa? {d : Document} {fields : Fields}
    (h : changeable? text = some (d, fields)) (hset : setUseNoqa? d fields value = some text') :
    (commentsIn text'.toList ++ d.lost "lint" "use_noqa").Perm (commentsIn text.toList) := by
  obtain ⟨hread, hfields, hchange⟩ := exists_of_changeable? h
  unfold setUseNoqa? at hset
  obtain ⟨changed, hput, rfl⟩ := Option.map_eq_some_iff.1 hset
  have hlaid : changed.Laid :=
    Toml.laid_put? (Toml.laid_of_read? hread) (laid_plain (by decide)) (laid_plain (by decide))
      (laid_ofBool value) hput
  rw [String.toList_ofList, Toml.commentsIn_render (Toml.laid_tidy hlaid),
    Toml.commentsIn_of_read? hread]
  exact ((Toml.comments_tidy changed).append_right _).trans
    (Toml.comments_put? hfields hchange rfl hput)

/-- A saved value leaves the comments of the file but for those that go with the old value, so it
keeps all of them when none goes with it, and only then. -/
theorem keepsComments_iff (hdirectory : env.files.Solid env.directory)
    (htext : env.readText file = .ok text) (hsaved : persistUseNoqa env file value = .saved env') :
    ∃ document text', Document.read? text.toList = some document ∧
      env'.readText file = .ok text' ∧
      (commentsIn text'.toList ++ document.lost "lint" "use_noqa").Perm (commentsIn text.toList) ∧
      (KeepsComments env env' file ↔ document.lost "lint" "use_noqa" = []) := by
  obtain ⟨edited, document, fields, text', files, hedited, hchange, hset, hreplace, rfl⟩ :=
    (persistUseNoqa_eq_saved_iff.1 hsaved).edits
  obtain ⟨hcurrent, hnames⟩ := currentText_of_readText htext
  obtain rfl : edited = text := Except.ok.inj (hedited.symm.trans hcurrent)
  have hread : Environment.readText { env with files } file = .ok text' :=
    (readText_replaced hdirectory (straight_of_namesFile hdirectory hnames) hreplace).2
  have hperm := comments_setUseNoqa? hchange hset
  refine ⟨document, text', (exists_of_changeable? hchange).1, hread, hperm, ?_⟩
  constructor
  · intro hkeeps
    obtain ⟨new, hnew, hsub⟩ := hkeeps edited htext
    obtain rfl : new = text' := Except.ok.inj (hnew.symm.trans hread)
    have hlength := hperm.length_eq
    rw [List.length_append] at hlength
    have hle := hsub.length_le
    exact List.eq_nil_of_length_eq_zero (by omega)
  · intro hnil old hold
    obtain rfl : old = edited := Except.ok.inj (hold.symm.trans htext)
    rw [hnil, List.append_nil] at hperm
    exact ⟨text', hread, hperm.symm.subperm⟩

/-- A value that is saved beside comments on lines of their own and behind a head. -/
theorem keepsComments_above : ∃ document text',
    Document.read? "# all\n[lint] # head\n# why\nuse_noqa = true\n".toList = some document ∧
      (aloneWith "# all\n[lint] # head\n# why\nuse_noqa = false\n").readText fileName
        = .ok text' ∧
      (commentsIn text'.toList ++ document.lost "lint" "use_noqa").Perm
        (commentsIn "# all\n[lint] # head\n# why\nuse_noqa = true\n".toList) ∧
      (KeepsComments (aloneWith "# all\n[lint] # head\n# why\nuse_noqa = true\n")
        (aloneWith "# all\n[lint] # head\n# why\nuse_noqa = false\n") fileName ↔
          document.lost "lint" "use_noqa" = []) :=
  have hsaved : persistUseNoqa (aloneWith "# all\n[lint] # head\n# why\nuse_noqa = true\n") fileName
      false = .saved (aloneWith "# all\n[lint] # head\n# why\nuse_noqa = false\n") :=
    persist_aloneWith (by decide +kernel)
  keepsComments_iff (FileTree.solid_nil _) (readText_aloneWith _) hsaved

/-- A comment beside the old value is lost. -/
theorem not_keepsComments_beside : ∃ env',
    persistUseNoqa (aloneWith "[lint]\nuse_noqa = true # why\n") fileName false = .saved env' ∧
      ¬ KeepsComments (aloneWith "[lint]\nuse_noqa = true # why\n") env' fileName := by
  refine ⟨aloneWith "[lint]\nuse_noqa = false\n", persist_aloneWith (by decide +kernel), ?_⟩
  intro hkeeps
  obtain ⟨text', htext', hsub⟩ := hkeeps _ (readText_aloneWith _)
  obtain rfl := Except.ok.inj (htext'.symm.trans (readText_aloneWith _))
  have hlength : (commentsIn "[lint]\nuse_noqa = true # why\n".toList).length = 1 ∧
      (commentsIn "[lint]\nuse_noqa = false\n".toList).length = 0 := by
    decide +kernel
  have hle := hsub.length_le
  omega

end LintWatch.Settings
