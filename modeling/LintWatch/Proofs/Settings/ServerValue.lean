import LintWatch.Proofs.Json.Access
import LintWatch.Proofs.Json.Canonical
import LintWatch.Settings.Forms
import Mathlib.Data.List.Basic
import Mathlib.Data.Option.Basic

/-!
# What the server is told

The settings for the server are one object of objects. `placed` lists its places with what stands
there, and what stands there says what the settings are up to blanks and the executable. So the
object tells settings apart that are not the same in this way, and no blank is sent, at any depth:
`server_value_exact`.
-/

namespace LintWatch

namespace Json

/-- A number is zero, whatever its sign. -/
def Number.IsZero : Number → Prop
  | .int n => n = 0
  | .real bits => bits = 0 ∨ bits = 0x8000000000000000

/-- A value says nothing: it is null, an empty text, zero, or a list or an object of nothing. -/
def IsBlank : Json → Prop
  | .null => True
  | .bool _ => False
  | .num n => n.IsZero
  | .str s => s = ""
  | .arr items => items = []
  | .obj members => members = []

end Json

namespace Settings

open Json (Everywhere EverywhereMembers)

/-! ## What stands where -/

/-- What stands below a name in an object that is left out when nothing is bound. -/
theorem at_object_value (k : String) (names : List String)
    {bindings : List (String × Option Json)} (hdistinct : (bindings.map (·.1)).Nodup) :
    (objectValue? bindings).bind (·.at? (k :: names))
      = (bindings.lookup k).join.bind (·.at? names) := by
  unfold objectValue?
  split
  next hnone =>
    cases hlookup : bindings.lookup k with
    | none => rfl
    | some v =>
        obtain ⟨early, late, rfl, -⟩ := List.lookup_eq_some_iff.1 hlookup
        obtain rfl : v = none := by simpa using List.all_eq_true.1 hnone (k, v) (by simp)
        rfl
  next => exact Json.at_object_of_some k names hdistinct

/-- The places in the settings for the server, each with what stands there. -/
def placed (s : Settings) : List (List String × Option Json) := [
  (["configuration"], (nonEmpty? s.configuration).map .str),
  (["lineLength"], (positive? s.lineLength).map fun n => .ofNat n.toNat),
  (["targetVersion"], (nonEmpty? s.targetVersion).map .str),
  (["exclude"], listValue? s.exclude),
  (["lint", "enable"], s.lint.enable.map .bool),
  (["lint", "preview"], s.lint.preview.map .bool),
  (["lint", "ignoreNoqa"], if s.lint.useNoqa = some false then some (.bool true) else none),
  (["lint", "select"], listValue? s.lint.select),
  (["lint", "ignore"], listValue? s.lint.ignore),
  (["lint", "extendSelect"], listValue? s.lint.extendSelect),
  (["lint", "extendIgnore"], listValue? s.lint.extendIgnore),
  (["lint", "fixable"], listValue? s.lint.fixable),
  (["lint", "unfixable"], listValue? s.lint.unfixable),
  (["showSyntaxErrors"], s.showSyntaxErrors.map .bool),
  (["format", "preview"], s.format.preview.map .bool),
  (["format", "indentStyle"], s.format.indentStyle.map fun i => .str i.word),
  (["format", "indentWidth"], (positive? s.format.indentWidth).map fun n => .ofNat n.toNat),
  (["format", "quoteStyle"], s.format.quoteStyle.map fun q => .str q.word),
  (["codeAction", "fixViolation", "enable"], s.codeAction.fixViolation.map .bool),
  (["codeAction", "disableRuleComment", "enable"], s.codeAction.disableRuleComment.map .bool),
  (["organizeImports"], s.organizeImports.map .bool),
  (["fixAll"], s.fixAll.map .bool)]

/-- What stands at each place. -/
theorem at_server_value (s : Settings) : ∀ p ∈ s.placed, s.serverValue.at? p.1 = p.2 := by
  have hserver : ∀ k names, s.serverValue.at? (k :: names) = _ :=
    fun k names => Json.at_object_of_some k names (by simp)
  have hlint : ∀ k names, (lintValue? s.lint).bind (·.at? (k :: names)) = _ :=
    fun k names => at_object_value k names (by simp)
  have hformat : ∀ k names, (formatValue? s.format).bind (·.at? (k :: names)) = _ :=
    fun k names => at_object_value k names (by simp)
  have haction : ∀ k names, (codeActionValue? s.codeAction).bind (·.at? (k :: names)) = _ :=
    fun k names => at_object_value k names (by simp)
  have hswitch : ∀ enable : Option Bool,
      (enable.map switchValue).bind (·.at? ["enable"]) = enable.map .bool := by
    intro enable
    cases enable <;> rfl
  have hend : ∀ v : Option Json, v.bind (·.at? []) = v := Option.bind_fun_some
  simp [placed, hserver, hlint, hformat, haction, hswitch, hend, List.lookup_cons]

/-! ## What is left out -/

/-- The settings without blanks: empty texts and zeros count as nothing, empty entries of lists are
dropped, and to respect `noqa` comments need not be said. -/
def withoutBlanks (s : Settings) : Settings where
  executablePath := s.executablePath
  configuration := s.configuration.filter (· ≠ "")
  lineLength := s.lineLength.filter (· ≠ 0)
  targetVersion := s.targetVersion.filter (· ≠ "")
  exclude := s.exclude.filter (· ≠ "")
  showSyntaxErrors := s.showSyntaxErrors
  organizeImports := s.organizeImports
  fixAll := s.fixAll
  lint := {
    enable := s.lint.enable
    preview := s.lint.preview
    useNoqa := s.lint.useNoqa.filter (· ≠ true)
    select := s.lint.select.filter (· ≠ "")
    ignore := s.lint.ignore.filter (· ≠ "")
    extendSelect := s.lint.extendSelect.filter (· ≠ "")
    extendIgnore := s.lint.extendIgnore.filter (· ≠ "")
    fixable := s.lint.fixable.filter (· ≠ "")
    unfixable := s.lint.unfixable.filter (· ≠ "") }
  format := {
    preview := s.format.preview
    indentStyle := s.format.indentStyle
    indentWidth := s.format.indentWidth.filter (· ≠ 0)
    quoteStyle := s.format.quoteStyle }
  codeAction := s.codeAction

/-- A count is set and not zero. -/
theorem positive_eq_filter (n : Option UInt32) : positive? n = n.filter (· ≠ 0) := by
  unfold positive?
  congr 1
  funext m
  exact decide_eq_decide.2 ⟨fun h heq => by simp [heq] at h, fun h => UInt32.pos_iff_ne_zero.2 h⟩

/-- The settings with another executable. -/
def withExecutable (s : Settings) (executable : Option Path) : Settings :=
  { s with executablePath := executable }

/-- The server is told the same when blanks are taken out, and whatever the executable is. -/
theorem server_value_without_blanks (s : Settings) (executable : Option Path) :
    (s.withoutBlanks.withExecutable executable).serverValue = s.serverValue := by
  simp [withoutBlanks, withExecutable, serverValue, lintValue?, formatValue?, positive_eq_filter,
    nonEmpty?, listValue?, entries, Option.filter_filter, List.filter_filter]

/-- A list is told up to its empty entries. -/
theorem list_value_eq_iff {ss ts : List String} :
    listValue? ss = listValue? ts ↔ ss.filter (· ≠ "") = ts.filter (· ≠ "") := by
  have htexts : Json.texts (entries ss) = Json.texts (entries ts) ↔ entries ss = entries ts := by
    refine ⟨fun h => ?_, congrArg Json.texts⟩
    exact List.map_injective_iff.2 (fun a b => Json.str.inj) (Json.arr.inj h)
  show _ ↔ entries ss = entries ts
  unfold listValue?
  by_cases hs : entries ss = []
  · by_cases ht : entries ts = [] <;> simp [hs, ht]
  · by_cases ht : entries ts = [] <;> simp [hs, ht, htexts]

/-- Whether `noqa` comments are ignored is told, and that they are respected is not. -/
theorem ignore_noqa_eq_iff {a b : Option Bool} :
    (if a = some false then some (Json.bool true) else none)
        = (if b = some false then some (Json.bool true) else none)
      ↔ a.filter (· ≠ true) = b.filter (· ≠ true) := by
  have hfilter : ∀ o : Option Bool, o.filter (· ≠ true) = if o = some false then o else none := by
    intro o
    cases o with
    | none => rfl
    | some b => cases b <;> rfl
  rw [hfilter, hfilter]
  by_cases ha : a = some false <;> by_cases hb : b = some false <;> simp [ha, hb]

/-- Settings that tell the same at each place are the same but for blanks and the executable. -/
theorem without_blanks_eq_of_placed {s t : Settings} (h : s.placed = t.placed) :
    s.withoutBlanks.withExecutable none = t.withoutBlanks.withExecutable none := by
  have hbool : ∀ a b : Option Bool, a.map Json.bool = b.map .bool ↔ a = b := fun a b =>
    (Option.map_injective fun _ _ => Json.bool.inj).eq_iff
  have htext : ∀ a b : Option String, a.map Json.str = b.map .str ↔ a = b := fun a b =>
    (Option.map_injective fun _ _ => Json.str.inj).eq_iff
  have hcount : ∀ a b : Option UInt32,
      (a.map fun n => Json.ofNat n.toNat) = b.map (fun n => Json.ofNat n.toNat) ↔ a = b :=
    fun a b => (Option.map_injective fun m n h =>
      UInt32.toNat_inj.1 (Int.ofNat_inj.1 (Json.Number.int.inj (Json.num.inj h)))).eq_iff
  have hindent : ∀ a b : Option IndentStyle,
      (a.map fun i => Json.str i.word) = b.map (fun i => Json.str i.word) ↔ a = b :=
    fun a b => (Option.map_injective fun i j h => by
      cases i <;> cases j <;> first | rfl | simp [IndentStyle.word] at h).eq_iff
  have hquote : ∀ a b : Option QuoteStyle,
      (a.map fun q => Json.str q.word) = b.map (fun q => Json.str q.word) ↔ a = b :=
    fun a b => (Option.map_injective fun q r h => by
      cases q <;> cases r <;> first | rfl | simp [QuoteStyle.word] at h).eq_iff
  simp only [placed, List.cons.injEq, Prod.mk.injEq, true_and, and_true, list_value_eq_iff, hbool,
    htext, hcount, hindent, hquote, ignore_noqa_eq_iff, positive_eq_filter, nonEmpty?] at h
  obtain ⟨hconfiguration, hlength, hversion, hexclude, henable, hpreview, hnoqa, hselect, hignore,
    hextendSelect, hextendIgnore, hfixable, hunfixable, hsyntax, hformatPreview, hstyle, hwidth,
    hquotes, hfix, hdisable, hsort, hfixAll⟩ := h
  have hactions : s.codeAction = t.codeAction := by
    cases hs : s.codeAction
    cases ht : t.codeAction
    simp_all
  simp only [withoutBlanks, withExecutable, *]

/-! ## Nothing blank is sent -/

/-- A value that is left out unless it says something, at every depth. -/
def IsTerse (v : Option Json) : Prop :=
  ∀ w, v = some w → Everywhere (fun u => ¬ u.IsBlank) w

/-- What is made of what is set is terse if it says something. -/
theorem terse_map {α : Type} {o : Option α} {f : α → Json}
    (h : ∀ a, o = some a → Everywhere (fun u => ¬ u.IsBlank) (f a)) : IsTerse (o.map f) := by
  intro w hw
  obtain ⟨a, ha, rfl⟩ := Option.map_eq_some_iff.1 hw
  exact h a ha

/-- A truth value says something. -/
theorem terse_bool (o : Option Bool) : IsTerse (o.map .bool) :=
  terse_map fun _ _ => not_false

/-- A text is left out when it is empty. -/
theorem terse_text (o : Option String) : IsTerse ((nonEmpty? o).map .str) := by
  refine terse_map fun s hs => ?_
  obtain ⟨-, hne⟩ := Option.filter_eq_some_iff.1 hs
  show s ≠ ""
  exact of_decide_eq_true hne

/-- A count is left out when it is zero. -/
theorem terse_count (o : Option UInt32) :
    IsTerse ((positive? o).map fun n => .ofNat n.toNat) := by
  refine terse_map fun n hn => ?_
  obtain ⟨-, hpositive⟩ := Option.filter_eq_some_iff.1 hn
  have hlt : 0 < n.toNat := UInt32.lt_iff_toNat_lt.1 (of_decide_eq_true hpositive)
  show (n.toNat : Int) ≠ 0
  omega

/-- A list is left out when it has no entries, and none of them is empty. -/
theorem terse_list (ss : List String) : IsTerse (listValue? ss) := by
  intro w hw
  unfold listValue? at hw
  split at hw
  next => cases hw
  next hne =>
    obtain rfl := Option.some.inj hw
    have hitems : ∀ ts : List String, (∀ t ∈ ts, t ≠ "") →
        Json.EverywhereItems (fun u => ¬ u.IsBlank) (ts.map .str) := by
      intro ts
      induction ts with
      | nil => exact fun _ => trivial
      | cons t ts ih => exact fun h => ⟨h t (by simp), ih fun s hs => h s (by simp [hs])⟩
    exact ⟨fun hblank => hne (List.map_eq_nil_iff.1 hblank),
      hitems _ fun t ht => by simpa using (List.mem_filter.1 ht).2⟩

/-- An object is left out when nothing is bound in it. -/
theorem terse_object {bindings : List (String × Option Json)}
    (h : ∀ b ∈ bindings, IsTerse b.2) : IsTerse (objectValue? bindings) := by
  intro w hw
  unfold objectValue? at hw
  split at hw
  next => cases hw
  next hbound =>
    obtain rfl := Option.some.inj hw
    refine ⟨fun hblank => hbound ?_, Json.everywhere_members_of_some h⟩
    have hnone := List.filterMap_eq_nil_iff.1 (Json.members_of_list_eq_nil_iff.1 hblank)
    exact List.all_eq_true.2 fun b hb => by simpa using hnone b hb

/-- Nothing blank is bound in the settings for the server. -/
theorem terse_server_value (s : Settings) : ∃ members, s.serverValue = .obj members ∧
    EverywhereMembers (fun u => ¬ u.IsBlank) members := by
  have hswitch : ∀ o : Option Bool, IsTerse (o.map switchValue) := fun o =>
    terse_map fun enable _ => ⟨List.cons_ne_nil _ _, not_false, trivial⟩
  have hnoqa : IsTerse (if s.lint.useNoqa = some false then some (.bool true) else none) := by
    intro w hw
    split at hw
    · obtain rfl := Option.some.inj hw
      exact not_false
    · cases hw
  have hstyle : IsTerse (s.format.indentStyle.map fun i => .str i.word) :=
    terse_map fun i _ => by cases i <;> simp [Everywhere, Json.IsBlank, IndentStyle.word]
  have hquote : IsTerse (s.format.quoteStyle.map fun q => .str q.word) :=
    terse_map fun q _ => by cases q <;> simp [Everywhere, Json.IsBlank, QuoteStyle.word]
  have hlint : IsTerse (lintValue? s.lint) := terse_object (by
    simp [terse_bool, terse_list, hnoqa])
  have hformat : IsTerse (formatValue? s.format) := terse_object (by
    simp [terse_bool, terse_count, hstyle, hquote])
  have hactions : IsTerse (codeActionValue? s.codeAction) := terse_object (by simp [hswitch])
  refine ⟨_, rfl, Json.everywhere_members_of_some (fun b (hb : b ∈ _) => (?_ : IsTerse b.2))⟩
  revert b
  simp [terse_bool, terse_text, terse_count, terse_list, hlint, hformat, hactions]

/-- The server is told the same exactly by settings that agree on everything but the executable once
blanks are taken out, and nothing blank is sent to it at any depth. -/
theorem server_value_exact :
    (∀ s t : Settings, s.serverValue = t.serverValue ↔
      s.withoutBlanks.withExecutable none = t.withoutBlanks.withExecutable none) ∧
    ∀ s : Settings, ∃ members, s.serverValue = .obj members ∧
      EverywhereMembers (fun v => ¬ v.IsBlank) members := by
  refine ⟨fun s t => ⟨fun h => without_blanks_eq_of_placed ?_, fun h => ?_⟩, terse_server_value⟩
  · have hplaced : ∀ u : Settings, u.placed
        = (u.placed.map (·.1)).map fun place => (place, u.serverValue.at? place) := by
      intro u
      rw [List.map_map]
      conv_lhs => rw [← List.map_id u.placed]
      exact List.map_congr_left fun p hp => Prod.ext rfl (u.at_server_value p hp).symm
    rw [hplaced s, hplaced t, h]
    rfl
  · rw [← s.server_value_without_blanks none, h, t.server_value_without_blanks none]

end Settings

end LintWatch
