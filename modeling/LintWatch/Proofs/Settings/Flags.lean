import LintWatch.Proofs.Settings.ServerValue

/-!
# What a check is told

The flags of a project check say part of what the server is told, and nothing else. `flagTable`
has a row for each flag with the place in the object for the server that it says; the flags are
those of the rows, in their order, and one is there exactly if there is something to say:
`check_flags_say_server_value`.
-/

namespace LintWatch.Settings

/-- How a flag says what stands at a place: the value, each element of a list in a flag of its own,
all elements with commas between them, or, without a value, that a switch is on. -/
inductive FlagForm where
  | value
  | each
  | joined
  | switch
  deriving DecidableEq, Repr

/-- A text or an integer as it is written in a flag. -/
def flagText : Json → String
  | .str s => s
  | .num (.int n) => toString n
  | _ => ""

/-- The flags of a name that say what stands at a place. -/
def FlagForm.flags (name : String) : FlagForm → Option Json → List String
  | .value, some v => [name ++ "=" ++ flagText v]
  | .each, some (.arr items) => items.map fun v => name ++ "=" ++ flagText v
  | .joined, some (.arr items) => [name ++ "=" ++ ",".intercalate (items.map flagText)]
  | .switch, some (.bool true) => [name]
  | _, _ => []

/-- There is something to say: a switch that is on, or any other value. -/
def FlagForm.Says : FlagForm → Option Json → Prop
  | .switch, v => v = some (.bool true)
  | _, v => v.isSome = true

/-- A flag, and the place in the object for the server that it says. -/
structure FlagRow where
  name : String
  form : FlagForm
  place : List String
  deriving DecidableEq, Repr

/-- All flags, in their order. -/
def flagTable : List FlagRow := [
  ⟨"--config", .value, ["configuration"]⟩,
  ⟨"--line-length", .value, ["lineLength"]⟩,
  ⟨"--target-version", .value, ["targetVersion"]⟩,
  ⟨"--exclude", .each, ["exclude"]⟩,
  ⟨"--preview", .switch, ["lint", "preview"]⟩,
  ⟨"--ignore-noqa", .switch, ["lint", "ignoreNoqa"]⟩,
  ⟨"--select", .joined, ["lint", "select"]⟩,
  ⟨"--ignore", .joined, ["lint", "ignore"]⟩,
  ⟨"--extend-select", .joined, ["lint", "extendSelect"]⟩,
  ⟨"--extend-ignore", .joined, ["lint", "extendIgnore"]⟩,
  ⟨"--fixable", .joined, ["lint", "fixable"]⟩,
  ⟨"--unfixable", .joined, ["lint", "unfixable"]⟩]

/-- The flags that say what the server is told with this object. -/
def flagsOf (v : Json) : List String :=
  flagTable.flatMap fun row => row.form.flags row.name (v.at? row.place)

/-- The name of a flag, which is what stands before its value. -/
def flagName (flag : String) : String :=
  .ofList (flag.toList.takeWhile (· ≠ '='))

variable {name flag : String} {form : FlagForm} {v : Option Json}

/-! ## The same values -/

/-- A text is said as it is. -/
theorem flags_text (o : Option String) :
    FlagForm.value.flags name (o.map .str) = (o.map (name ++ "=" ++ ·)).toList := by
  cases o <;> rfl

/-- A count is said in decimal digits. -/
theorem flags_count (o : Option UInt32) :
    FlagForm.value.flags name (o.map fun n => .ofNat n.toNat)
      = (o.map fun n => name ++ "=" ++ toString n.toNat).toList := by
  cases o <;> rfl

/-- A truth value is said when it is true. -/
theorem flags_switch (o : Option Bool) :
    FlagForm.switch.flags name (o.map .bool) = if o = some true then [name] else [] := by
  cases o with
  | none => rfl
  | some b => cases b <;> rfl

/-- The texts of a list are written as they are. -/
theorem map_flag_text (ss : List String) : (ss.map Json.str).map flagText = ss := by
  rw [List.map_map]
  exact List.map_id ss

/-- A list is said entry by entry. -/
theorem flags_each (ss : List String) :
    FlagForm.each.flags name (listValue? ss) = (entries ss).map (name ++ "=" ++ ·) := by
  unfold listValue?
  split
  next h => rw [h]; rfl
  next => exact List.map_map

/-- A list is said with commas between its entries. -/
theorem flags_joined (ss : List String) :
    FlagForm.joined.flags name (listValue? ss) = listFlag name ss := by
  unfold listValue? listFlag
  split
  next => rfl
  next =>
    show [name ++ "=" ++ ",".intercalate (((entries ss).map Json.str).map flagText)] = _
    rw [map_flag_text]

/-- The flags of a check say what the server is told. -/
theorem check_flags_eq (s : Settings) : s.checkFlags = flagsOf s.serverValue := by
  have hplaces := s.at_server_value
  simp only [placed, List.forall_mem_cons] at hplaces
  obtain ⟨hconfiguration, hlength, hversion, hexclude, -, hpreview, hnoqa, hselect, hignore,
    hextendSelect, hextendIgnore, hfixable, hunfixable, -⟩ := hplaces
  have hswitch : FlagForm.switch.flags "--ignore-noqa"
      (if s.lint.useNoqa = some false then some (.bool true) else none)
        = if s.lint.useNoqa = some false then ["--ignore-noqa"] else [] := by
    split <;> rfl
  simp only [flagsOf, flagTable, List.flatMap_cons, List.flatMap_nil, hconfiguration, hlength,
    hversion, hexclude, hpreview, hnoqa, hselect, hignore, hextendSelect, hextendIgnore, hfixable,
    hunfixable, flags_text, flags_count, flags_switch, flags_each, flags_joined, hswitch]
  simp [checkFlags]

/-! ## Which flags there are -/

/-- A name that is followed by nothing, or by an equals sign, is the name of the flag. -/
theorem flag_name_append (hname : '=' ∉ name.toList) (rest : String)
    (hrest : rest.toList.takeWhile (· ≠ '=') = []) : flagName (name ++ rest) = name := by
  have hbefore : ∀ c ∈ name.toList, decide (c ≠ '=') = true := fun c hc =>
    decide_eq_true fun heq => hname (heq ▸ hc)
  unfold flagName
  rw [String.toList_append, List.takeWhile_append_of_pos hbefore, hrest, List.append_nil,
    String.ofList_toList]

/-- The name of a flag is what stands before its value. -/
theorem flag_name_eq (hname : '=' ∉ name.toList) (value : String) :
    flagName (name ++ "=" ++ value) = name := by
  rw [String.append_assoc]
  exact flag_name_append hname _ (by simp)

/-- The flags of a name have that name. -/
theorem flag_name_of_mem (hname : '=' ∉ name.toList) (h : flag ∈ form.flags name v) :
    flagName flag = name := by
  unfold FlagForm.flags at h
  split at h
  next =>
    obtain rfl := List.mem_singleton.1 h
    exact flag_name_eq hname _
  next =>
    obtain ⟨item, -, rfl⟩ := List.mem_map.1 h
    exact flag_name_eq hname _
  next =>
    obtain rfl := List.mem_singleton.1 h
    exact flag_name_eq hname _
  next =>
    obtain rfl := List.mem_singleton.1 h
    simpa using flag_name_append hname "" rfl
  next => exact absurd h List.not_mem_nil

/-- What may stand at the place that flags of a form say: a list has elements. -/
def FlagForm.Fits : FlagForm → Option Json → Prop
  | .each, v | .joined, v => ∀ w, v = some w → ∃ first rest, w = .arr (first :: rest)
  | _, _ => True

/-- There are flags exactly if there is something to say. -/
theorem flags_ne_nil_iff (name : String) (hfits : form.Fits v) :
    form.flags name v ≠ [] ↔ form.Says v := by
  cases form with
  | value => cases v <;> simp [FlagForm.flags, FlagForm.Says]
  | each | joined =>
      cases v with
      | none => simp [FlagForm.flags, FlagForm.Says]
      | some w =>
          obtain ⟨first, rest, rfl⟩ := hfits w rfl
          simp [FlagForm.flags, FlagForm.Says]
  | switch =>
      unfold FlagForm.flags FlagForm.Says
      split <;> simp_all

/-- A list that is told has elements. -/
theorem fits_list_value (ss : List String) (w : Json) (h : listValue? ss = some w) :
    ∃ first rest, w = .arr (first :: rest) := by
  unfold listValue? at h
  split at h
  next => cases h
  next hne =>
    obtain rfl := Option.some.inj h
    obtain ⟨first, rest, hentries⟩ := List.exists_cons_of_ne_nil hne
    exact ⟨.str first, rest.map .str, by rw [hentries]; rfl⟩

/-- What stands at the places of the table fits the forms of the flags. -/
theorem fits_of_mem_table (s : Settings) :
    ∀ row ∈ flagTable, row.form.Fits (s.serverValue.at? row.place) := by
  have hplaces := s.at_server_value
  simp only [placed, List.forall_mem_cons] at hplaces
  obtain ⟨-, -, -, hexclude, -, -, -, hselect, hignore, hextendSelect, hextendIgnore, hfixable,
    hunfixable, -⟩ := hplaces
  simp only [flagTable, List.forall_mem_cons, hexclude, hselect, hignore, hextendSelect,
    hextendIgnore, hfixable, hunfixable, FlagForm.Fits, true_and]
  exact ⟨fits_list_value _, fits_list_value _, fits_list_value _, fits_list_value _,
    fits_list_value _, fits_list_value _, fits_list_value _, by simp⟩

/-- The flags of a check are those that say what the server is told, row by row. There is one of a
row exactly if there is something to say at its place, and no flag is of no row. -/
theorem check_flags_say_server_value (s : Settings) :
    s.checkFlags = flagsOf s.serverValue ∧
      (∀ row ∈ flagTable, (∃ flag ∈ s.checkFlags, flagName flag = row.name)
        ↔ row.form.Says (s.serverValue.at? row.place)) ∧
      ∀ flag ∈ s.checkFlags, ∃ row ∈ flagTable, flagName flag = row.name := by
  have hname : ∀ row ∈ flagTable, '=' ∉ row.name.toList := by decide
  have hrows : ∀ row ∈ flagTable, ∀ other ∈ flagTable, row.name = other.name → row = other := by
    decide
  rw [s.check_flags_eq]
  refine ⟨rfl, fun row hrow => ?_, fun flag hflag => ?_⟩
  · rw [← flags_ne_nil_iff row.name (s.fits_of_mem_table row hrow)]
    constructor
    · rintro ⟨flag, hflag, heq⟩
      obtain ⟨other, hother, hmem⟩ := List.mem_flatMap.1 hflag
      have hsame : other.name = row.name :=
        (flag_name_of_mem (hname other hother) hmem).symm.trans heq
      obtain rfl := hrows other hother row hrow hsame
      exact List.ne_nil_of_mem hmem
    · intro hne
      obtain ⟨flag, hflag⟩ := List.exists_mem_of_ne_nil _ hne
      exact ⟨flag, List.mem_flatMap.2 ⟨row, hrow, hflag⟩, flag_name_of_mem (hname row hrow) hflag⟩
  · obtain ⟨row, hrow, hmem⟩ := List.mem_flatMap.1 hflag
    exact ⟨row, hrow, flag_name_of_mem (hname row hrow) hmem⟩

end LintWatch.Settings
