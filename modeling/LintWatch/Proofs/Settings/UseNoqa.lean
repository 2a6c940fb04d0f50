import LintWatch.Proofs.Toml.Edit
import LintWatch.Proofs.Toml.Tidy
import LintWatch.Settings.File

/-!
# Setting one value in a text

The text that `setUseNoqa?` gives for a document reads as settings that differ from those of the
document in `use_noqa` only: `ofToml?_setUseNoqa?`. Settings are read field by field, so it is
enough that the document binds every other name as before.
-/

namespace LintWatch.Settings

open Toml (Data Document Fields KeyPart LaidValue Puts Spells)

variable {old new : List (String × Data)} {value : Bool} {s : Settings}

/-! ## Fields -/

/-- A table is read as a record with its fields by name. -/
theorem record?_table (names : List String) (fields : List (String × Data)) :
    Data.source.record? names (.table fields) = some ⟨fields, true⟩ :=
  rfl

/-- A field that may be left out is read from what is bound to its name. -/
theorem optional?_congr {β : Type} (name : String) (read : Data → Option (Option β))
    (h : new.lookup name = old.lookup name) :
    (Record.mk new true).optional? name read = (Record.mk old true).optional? name read := by
  unfold Record.optional? Record.find?
  rw [h]

/-- A field with a default is read from what is bound to its name. -/
theorem withDefault?_congr {β : Type} (name : String) (default : β) (read : Data → Option β)
    (h : new.lookup name = old.lookup name) :
    (Record.mk new true).withDefault? name default read
      = (Record.mk old true).withDefault? name default read := by
  unfold Record.withDefault? Record.find?
  rw [h]

/-- Lint settings with `use_noqa` bound to a value are read as before, but for it. -/
theorem readLint?_put {l : LintSettings} (hname : new.lookup "use_noqa" = some (.bool value))
    (hothers : ∀ n, n ≠ "use_noqa" → new.lookup n = old.lookup n)
    (h : readLint? Data.source (.table old) = some l) :
    readLint? Data.source (.table new) = some { l with useNoqa := some value } := by
  have hnoqa : (Record.mk new true).optional? "use_noqa"
      (Data.source.orNull? Data.source.bool?) = some (some value) := by
    unfold Record.optional? Record.find?
    rw [hname]
    rfl
  have hflag := fun name hne => optional?_congr name
    (Data.source.orNull? Data.source.bool?) (hothers name hne)
  have hlist := fun name hne => withDefault?_congr name []
    (Data.source.listOf? Data.source.text?) (hothers name hne)
  simp only [readLint?, record?_table, Option.bind_eq_bind, Option.bind_some, Option.pure_def,
    Option.bind_eq_some_iff, Option.some.injEq] at h ⊢
  obtain ⟨enable, henable, preview, hpreview, -, -, select, hselect, ignore, hignore,
    extendSelect, hextendSelect, extendIgnore, hextendIgnore, fixable, hfixable,
    unfixable, hunfixable, rfl⟩ := h
  exact ⟨enable, (hflag _ (by decide)).trans henable, preview,
    (hflag _ (by decide)).trans hpreview, some value, hnoqa, select,
    (hlist _ (by decide)).trans hselect, ignore, (hlist _ (by decide)).trans hignore,
    extendSelect, (hlist _ (by decide)).trans hextendSelect, extendIgnore,
    (hlist _ (by decide)).trans hextendIgnore, fixable, (hlist _ (by decide)).trans hfixable,
    unfixable, (hlist _ (by decide)).trans hunfixable, rfl⟩

/-- No lint settings are read from a table with nothing in it. -/
theorem readLint?_nil : readLint? Data.source (.table []) = some .empty :=
  rfl

/-- Settings with `use_noqa` bound to a value are read as before, but for it. -/
theorem read?_puts (hputs : Puts "lint" "use_noqa" (.bool value) old new)
    (h : read? Data.source (.table old) = some s) :
    read? Data.source (.table new) = some (s.withUseNoqa value) := by
  obtain ⟨before, after, hnew, hold, hname, hothers⟩ := hputs.isTable
  have hflag := fun name hne => optional?_congr name
    (Data.source.orNull? Data.source.bool?) (hputs.others name hne)
  have htext := fun name hne => optional?_congr name
    (Data.source.orNull? Data.source.text?) (hputs.others name hne)
  have hcount := optional?_congr "line_length" (Data.source.orNull? Data.source.count?)
    (hputs.others _ (by decide))
  have hexclude := withDefault?_congr "exclude" [] (Data.source.listOf? Data.source.text?)
    (hputs.others _ (by decide))
  have hformat := withDefault?_congr "format" .empty (readFormat? Data.source)
    (hputs.others _ (by decide))
  have hcodeAction := withDefault?_congr "code_action" .empty (readCodeAction? Data.source)
    (hputs.others _ (by decide))
  simp only [read?, record?_table, Option.bind_eq_bind, Option.bind_some, Option.pure_def,
    Option.bind_eq_some_iff, Option.some.injEq] at h ⊢
  obtain ⟨executable, hexecutable, configuration, hconfiguration, length, hlength, target, htarget,
    excluded, hexcluded, syntaxErrors, hsyntaxErrors, organize, horganize, fixAll, hfixAll, lint,
    hlint, format, hformatted, codeAction, hcodeActions, rfl⟩ := h
  -- What was read as lint settings before stood in the table that is changed, or nothing did.
  have hbefore : readLint? Data.source (.table before) = some lint := by
    unfold Record.withDefault? Record.find? at hlint
    rcases hold with ⟨hmissing, rfl⟩ | hold
    · rw [hmissing] at hlint
      exact readLint?_nil.trans hlint
    · rw [hold] at hlint
      exact hlint
  have hafter : (Record.mk new true).withDefault? "lint" .empty (readLint? Data.source)
      = some { lint with useNoqa := some value } := by
    unfold Record.withDefault? Record.find?
    rw [hnew]
    exact readLint?_put hname hothers hbefore
  exact ⟨executable, (htext _ (by decide)).trans hexecutable, configuration,
    (htext _ (by decide)).trans hconfiguration, length, hcount.trans hlength, target,
    (htext _ (by decide)).trans htarget, excluded, hexclude.trans hexcluded, syntaxErrors,
    (hflag _ (by decide)).trans hsyntaxErrors, organize, (hflag _ (by decide)).trans horganize,
    fixAll, (hflag _ (by decide)).trans hfixAll, _, hafter, format, hformat.trans hformatted,
    codeAction, hcodeAction.trans hcodeActions, rfl⟩

/-! ## Texts -/

/-- A name that is a bare key is laid out as one. -/
theorem laid_plain {name : String} (h : Toml.keyName? name.toList = some (name, [])) :
    (KeyPart.plain name).Laid := by
  refine ⟨Toml.is_blanks_nil, ?_⟩
  have hspells := Toml.spells_of_keyName? h
  rwa [List.length_nil, Nat.sub_zero, List.take_length] at hspells

/-- A truth value is laid out wherever it stands. -/
theorem laid_ofBool (value : Bool) (depth : Nat) : LaidValue depth (.ofBool value) := by
  have hread : Toml.scalar? (if value then "true".toList else "false".toList)
      = some (.ofBool value, []) := by
    cases value <;> rfl
  obtain ⟨spelling, v, heq, hspells⟩ := Toml.spells_of_scalar? hread
  rw [heq]
  exact .scalar hspells

/-- What a text that can be changed means. -/
theorem exists_of_changeable? {text : String} {d : Document} {fields : Fields}
    (h : changeable? text = some (d, fields)) :
    Document.read? text.toList = some d ∧ d.fields? = some fields ∧ d.canChange fields = true := by
  simp only [changeable?, Option.bind_eq_bind, Option.bind_eq_some_iff,
    Option.ite_none_right_eq_some, Option.some.injEq, Prod.mk.injEq] at h
  obtain ⟨document, hread, fields', hfields, hchange, rfl, rfl⟩ := h
  exact ⟨hread, hfields, hchange⟩

/-- A text that binds `use_noqa` in its lint settings to a value. -/
def Binds (text : String) (value : Bool) : Prop :=
  ∃ document fields inner, Document.read? text.toList = some document ∧
    document.fields? = some fields ∧
    (Toml.dataOfFields fields).lookup "lint" = some (.table inner) ∧
    inner.lookup "use_noqa" = some (.bool value)

/-- The text after the value has been set means what the text meant, but for it. -/
theorem puts_of_setUseNoqa? {text text' : String} {d : Document} {fields : Fields}
    (h : changeable? text = some (d, fields)) (hset : setUseNoqa? d fields value = some text') :
    ∃ d' fields', Document.read? text'.toList = some d' ∧ d'.fields? = some fields' ∧
      Puts "lint" "use_noqa" (.bool value) (Toml.dataOfFields fields)
        (Toml.dataOfFields fields') := by
  obtain ⟨hread, hfields, hchange⟩ := exists_of_changeable? h
  unfold setUseNoqa? at hset
  obtain ⟨changed, hput, rfl⟩ := Option.map_eq_some_iff.1 hset
  have hlaid : changed.Laid :=
    Toml.laid_put? (Toml.laid_of_read? hread) (laid_plain (by decide)) (laid_plain (by decide))
      (laid_ofBool value) hput
  obtain ⟨fields', hfields', hputs⟩ := Toml.puts_of_put? hfields hchange rfl hlaid hput
  obtain ⟨d', hd', hsaid⟩ := Toml.read?_render (Toml.laid_tidy hlaid)
  refine ⟨d', fields', ?_, ?_, hputs⟩
  · rw [String.toList_ofList]
    exact hd'
  · exact (Toml.fields?_congr hsaid).trans (Toml.fields?_tidy hfields')

/-- The text after the value has been set binds the value. -/
theorem binds_of_setUseNoqa? {text text' : String} {d : Document} {fields : Fields}
    (h : changeable? text = some (d, fields)) (hset : setUseNoqa? d fields value = some text') :
    Binds text' value := by
  obtain ⟨d', fields', hread, hfields, hputs⟩ := puts_of_setUseNoqa? h hset
  obtain ⟨-, inner, hlint, -, hname, -⟩ := hputs.isTable
  exact ⟨d', fields', inner, hread, hfields, hlint, hname⟩

/-- The settings of a text are those that its fields are read as. -/
theorem ofToml?_eq {text : String} {d : Document} {fields : Fields}
    (hread : Document.read? text.toList = some d) (hfields : d.fields? = some fields) :
    ofToml? text = read? Data.source (.table (Toml.dataOfFields fields)) := by
  simp only [ofToml?, hread, Document.data?, hfields, Option.bind_eq_bind, Option.bind_some,
    Option.map_some]

/-- The text after the value has been set reads as the same settings with the value. -/
theorem ofToml?_setUseNoqa? {text text' : String} {d : Document} {fields : Fields}
    (h : changeable? text = some (d, fields)) (hset : setUseNoqa? d fields value = some text')
    (hs : ofToml? text = some s) : ofToml? text' = some (s.withUseNoqa value) := by
  obtain ⟨hread, hfields, -⟩ := exists_of_changeable? h
  obtain ⟨d', fields', hread', hfields', hputs⟩ := puts_of_setUseNoqa? h hset
  rw [ofToml?_eq hread hfields] at hs
  rw [ofToml?_eq hread' hfields']
  exact read?_puts hputs hs

/-- A text with nothing in it holds no settings. -/
theorem ofToml?_empty : ofToml? "" = some .empty := by
  decide

end LintWatch.Settings
