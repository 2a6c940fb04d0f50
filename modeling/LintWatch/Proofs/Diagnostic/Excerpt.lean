import LintWatch.Finding
import LintWatch.Server.Publication

/-!
# One excerpt on two ways

What a project check finds and what a server publishes with the same code and message are shown with
the same excerpt, except under a code that is empty: a finding has it in front of its message, and a
published diagnostic counts as one without a code. So they differ exactly for an empty code that the
message does not carry already: `excerpt_eq_iff`.
-/

namespace LintWatch

namespace Rule

/-- A message stays as it is exactly if it starts with the code in front. -/
theorem withCode_eq_self_iff {code message : String} :
    withCode code message = message ↔ startsWith message (lead code) = true := by
  constructor
  · intro h
    have hstarts := startsWith_withCode code message
    rwa [h] at hstarts
  · exact withCode_of_startsWith

end Rule

/-- A finding is shown by its message, with the code in front if it has one. -/
def Finding.excerpt (f : Finding) : String :=
  match f.code with
  | some code => Rule.withCode code f.message
  | none => f.message

/-- A finding with a location is shown where syntax errors are. -/
theorem Finding.diagnostic_of_location {f : Finding} {location : Location} (file : Path)
    (h : f.location = some location) :
    ∃ shown, f.diagnostic? file true = some shown ∧ shown.excerpt = f.excerpt := by
  unfold diagnostic?
  rw [h, Option.bind_some, Bool.not_true]
  dsimp only
  rw [Bool.and_false, if_neg Bool.false_ne_true]
  exact ⟨_, rfl, rfl⟩

namespace Server

variable {f : Finding} {d : Diagnostic} {p : Publication} {i : Nat}

/-- The standard chain puts the code in front of the message of each diagnostic. -/
theorem getElem_standard (h : p.diagnostics[i]? = some d) :
    (Chain.standard.apply p).diagnostics[i]? = some { d with message := d.codedMessage } := by
  show (p.diagnostics.map fun d => { d with message := d.codedMessage })[i]? = _
  rw [List.getElem?_map, h]
  rfl

/-- A message of a server with a text as its code is worded as that of a finding with this code,
unless the code is empty. -/
theorem excerpt_eq_codedMessage_iff (hcode : d.code = f.code.map Json.str)
    (hmessage : d.message = f.message) :
    f.excerpt = d.codedMessage ↔
      (f.code = some "" → Rule.startsWith f.message (Rule.lead "") = true) := by
  unfold Finding.excerpt Diagnostic.codedMessage Diagnostic.codeText?
  rw [hcode, hmessage]
  cases f.code with
  | none => exact iff_of_true rfl nofun
  | some code =>
      by_cases hempty : code = ""
      · subst hempty
        exact Rule.withCode_eq_self_iff.trans ⟨fun h _ => h, fun h => h rfl⟩
      · simp only [Option.map_some, if_neg hempty]
        exact iff_of_true trivial fun h => absurd (Option.some.inj h) hempty

/-- A finding with a location and a published diagnostic with the same code and message are both
shown, with the same excerpt exactly unless the code is empty and the message does not start as if
it had it in front. -/
theorem excerpt_eq_iff {location : Location} (hlocation : f.location = some location)
    (hcode : d.code = f.code.map Json.str) (hmessage : d.message = f.message)
    (hpublished : p.diagnostics[i]? = some d) (file path : Path) :
    ∃ found published, f.diagnostic? file true = some found ∧
      (Chain.standard.apply p).diagnostics[i]? = some published ∧
      (found.excerpt = (published.shown path).excerpt ↔
        (f.code = some "" → Rule.startsWith f.message " — " = true)) := by
  obtain ⟨found, hfound, hexcerpt⟩ := Finding.diagnostic_of_location file hlocation
  refine ⟨found, _, hfound, getElem_standard hpublished, ?_⟩
  rw [hexcerpt]
  exact excerpt_eq_codedMessage_iff hcode hmessage

/-- A finding in the first line of a file. -/
def findingWith (code : Option String) (message : String) : Finding :=
  ⟨.ofString "a.py", code, message, some ⟨1, 1⟩, none, none⟩

/-- A diagnostic of a server at the same place. -/
def publishedWith (code : Option String) (message : String) : Publication :=
  ⟨"file:///a.py", none, [⟨⟨⟨0, 0⟩, ⟨0, 0⟩⟩, none, code.map Json.str, none, message, []⟩]⟩

/-- An unused import on both ways. -/
theorem excerpt_eq_unused : ∃ found published,
    (findingWith (some "F401") "unused").diagnostic? (.ofString "/a.py") true = some found ∧
      (Chain.standard.apply (publishedWith (some "F401") "unused")).diagnostics[0]?
        = some published ∧
      (found.excerpt = (published.shown (.ofString "/a.py")).excerpt ↔
        (some "F401" = some "" → Rule.startsWith "unused" " — " = true)) :=
  excerpt_eq_iff (f := findingWith (some "F401") "unused") rfl rfl rfl
    (p := publishedWith (some "F401") "unused") rfl (.ofString "/a.py") (.ofString "/a.py")

/-- An empty code is in front of the message of a finding, and not in front of that of a published
diagnostic. -/
theorem excerpt_ne_empty_code : ∃ found published,
    (findingWith (some "") "m").diagnostic? (.ofString "/a.py") true = some found ∧
      (Chain.standard.apply (publishedWith (some "") "m")).diagnostics[0]? = some published ∧
      found.excerpt = " — m" ∧ (published.shown (.ofString "/a.py")).excerpt = "m" :=
  ⟨_, _, rfl, rfl, by decide, by decide⟩

end Server

end LintWatch
