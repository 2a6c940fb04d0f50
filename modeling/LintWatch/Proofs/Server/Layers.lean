import LintWatch.Server.Publication
import Mathlib.Data.List.Forall2

/-!
# Layers that put codes in front of messages

Once the rule-code layer has been passed, each message starts with the code of its rule, and it goes
on doing so however many texts are put behind it (`Publication.Coded`). So a second rule-code layer
changes nothing, wherever it stands: `apply_once` for chains of any length that else only put texts
behind messages. Whatever such a chain does, it does to messages alone.
-/

namespace LintWatch

namespace Rule

variable {code message text : String}

/-- A message that starts with something still does when a text is put behind it. -/
theorem startsWith_append {front : String} (h : startsWith message front = true) :
    startsWith (message ++ text) front = true := by
  rw [startsWith, List.isPrefixOf_iff_prefix] at h ⊢
  rw [String.toList_append]
  exact h.trans (List.prefix_append _ _)

end Rule

namespace Server

/-- A diagnostic without its message. -/
def Diagnostic.bare (d : Diagnostic) : Diagnostic :=
  { d with message := "" }

/-- A diagnostic whose message starts with the code of its rule, if it has one. -/
def Diagnostic.Carries (d : Diagnostic) : Prop :=
  ∀ code, d.codeText? = some code → Rule.startsWith d.message (Rule.lead code) = true

namespace Diagnostic

variable {d : Diagnostic}

/-- The rule-code layer puts the code in front, or finds it there. -/
theorem carries_coded_message (d : Diagnostic) :
    Carries { d with message := d.codedMessage } := by
  intro code hcode
  have hd : d.codeText? = some code := hcode
  rw [codedMessage, hd]
  exact Rule.startsWith_withCode code d.message

/-- A message that starts with the code is not changed. -/
theorem Carries.coded_message (h : Carries d) : d.codedMessage = d.message := by
  unfold codedMessage
  split
  next code hcode => exact Rule.withCode_of_startsWith (h code hcode)
  next => rfl

/-- A text behind the message does not touch what it starts with. -/
theorem Carries.append (h : Carries d) (text : String) :
    Carries { d with message := d.message ++ text } := by
  intro code hcode
  exact Rule.startsWith_append (h code hcode)

end Diagnostic

namespace Publication

/-- The same publication but for messages: of the same file in the same version, with the same
diagnostics in the same order, each with a message of its own. -/
structure Reworded (p q : Publication) : Prop where
  uri : q.uri = p.uri
  version : q.version = p.version
  diagnostics : q.diagnostics.map Diagnostic.bare = p.diagnostics.map Diagnostic.bare

/-- Each message starts with the code of its rule. -/
def Coded (p : Publication) : Prop :=
  ∀ d ∈ p.diagnostics, d.Carries

variable {p q r : Publication}

/-- A publication has its own messages. -/
theorem Reworded.refl (p : Publication) : Reworded p p :=
  ⟨rfl, rfl, rfl⟩

/-- Messages may change more than once. -/
theorem Reworded.trans (hpq : Reworded p q) (hqr : Reworded q r) : Reworded p r :=
  ⟨hqr.uri.trans hpq.uri, hqr.version.trans hpq.version,
    hqr.diagnostics.trans hpq.diagnostics⟩

/-- Other messages are all that changes when messages are changed. -/
theorem reworded_reword (p : Publication) (message : Diagnostic → String) :
    Reworded p (p.reword message) := by
  refine ⟨rfl, rfl, ?_⟩
  simp only [reword, List.map_map]
  rfl

end Publication

namespace Layer

open Publication (Reworded Coded)

/-- A layer that puts texts behind messages and does nothing else. What it puts there may depend on
anything in the publication. -/
structure Appends (l : Layer) : Prop where
  uri : ∀ p, (l.apply p).uri = p.uri
  version : ∀ p, (l.apply p).version = p.version
  diagnostics : ∀ p, List.Forall₂ (fun d e => ∃ text, e = { d with message := d.message ++ text })
    p.diagnostics (l.apply p).diagnostics

/-- Whether a layer is the one that puts codes in front. -/
def isRuleCode : Layer → Bool
  | .ruleCode => true
  | .other _ _ => false

variable {l : Layer} {p : Publication}

/-- A layer that puts the same text behind all messages. -/
theorem appends_suffix (text : String) : Appends (suffix text) := by
  refine ⟨fun p => rfl, fun p => rfl, fun p => ?_⟩
  show List.Forall₂ _ p.diagnostics (p.reword fun d => d.message ++ text).diagnostics
  refine List.forall₂_map_right_iff.2 (List.forall₂_same.2 fun d _ => ?_)
  exact ⟨text, rfl⟩

/-- A layer that puts texts behind messages changes nothing but messages. -/
theorem Appends.reworded (h : Appends l) (p : Publication) : Reworded p (l.apply p) := by
  refine ⟨h.uri p, h.version p, ?_⟩
  have hall := h.diagnostics p
  generalize (l.apply p).diagnostics = changed at hall ⊢
  generalize p.diagnostics = given at hall ⊢
  induction hall with
  | nil => rfl
  | cons hd _ ih =>
      obtain ⟨text, rfl⟩ := hd
      exact congrArg (_ :: ·) ih

/-- The rule-code layer puts each code in front. -/
theorem coded_rule_code (p : Publication) : Coded (ruleCode.apply p) := by
  intro e he
  obtain ⟨d, -, rfl⟩ := List.mem_map.1 he
  exact d.carries_coded_message

/-- Where each code is in front, the rule-code layer changes nothing. -/
theorem rule_code_of_coded (h : Coded p) : ruleCode.apply p = p := by
  have hmap : p.diagnostics.map (fun d => { d with message := d.codedMessage })
      = p.diagnostics := by
    refine (List.map_congr_left fun d hd => ?_).trans (List.map_id _)
    rw [(h d hd).coded_message]
    rfl
  show ({ p with diagnostics := p.diagnostics.map _ } : Publication) = p
  rw [hmap]

/-- Texts behind messages leave each code in front. -/
theorem Appends.coded (hl : Appends l) (h : Coded p) : Coded (l.apply p) := by
  have hall := hl.diagnostics p
  unfold Coded at h ⊢
  generalize (l.apply p).diagnostics = changed at hall ⊢
  generalize p.diagnostics = given at h hall
  induction hall with
  | nil => exact h
  | cons hd _ ih =>
      obtain ⟨text, rfl⟩ := hd
      intro e he
      rcases List.mem_cons.1 he with rfl | he
      · exact (h _ List.mem_cons_self).append text
      · exact ih (fun d hd => h d (List.mem_cons_of_mem _ hd)) e he

end Layer

namespace Chain

open Publication (Reworded Coded)

/-- A chain without those rule-code layers that come after another one. -/
def once : Chain → Chain
  | [] => []
  | .ruleCode :: c => .ruleCode :: c.filter fun l => !l.isRuleCode
  | l :: c => l :: once c

/-- A chain of rule-code layers and layers that put texts behind messages. -/
def Lengthening (c : Chain) : Prop :=
  ∀ l ∈ c, l = .ruleCode ∨ l.Appends

variable {c : Chain} {l : Layer} {p : Publication}

/-- The layers are passed one after the other. -/
theorem apply_cons (l : Layer) (c : Chain) (p : Publication) :
    apply (l :: c) p = apply c (l.apply p) :=
  rfl

/-- Such a chain changes nothing but messages. -/
theorem Lengthening.reworded (h : Lengthening c) (p : Publication) : Reworded p (c.apply p) := by
  induction c generalizing p with
  | nil => exact .refl p
  | cons l c ih =>
      obtain ⟨hl, hc⟩ := List.forall_mem_cons.1 h
      have hfirst : Reworded p (l.apply p) := by
        rcases hl with rfl | happends
        · exact p.reworded_reword _
        · exact happends.reworded p
      exact hfirst.trans (ih hc _)

/-- Where each code is in front, the rule-code layers of such a chain do nothing. -/
theorem Lengthening.apply_filter (h : Lengthening c) (hp : Coded p) :
    apply (c.filter fun l => !l.isRuleCode) p = c.apply p := by
  induction c generalizing p with
  | nil => rfl
  | cons l c ih =>
      obtain ⟨hl, hc⟩ := List.forall_mem_cons.1 h
      cases l with
      | ruleCode =>
          rw [apply_cons, Layer.rule_code_of_coded hp]
          exact ih hc hp
      | other name process =>
          have happends : Layer.Appends (.other name process) := by
            rcases hl with heq | happends
            · cases heq
            · exact happends
          exact ih hc (happends.coded hp)

/-- The rule-code layers after the first one do nothing. -/
theorem Lengthening.apply_once_eq (h : Lengthening c) (p : Publication) :
    c.once.apply p = c.apply p := by
  induction c generalizing p with
  | nil => rfl
  | cons l c ih =>
      obtain ⟨-, hc⟩ := List.forall_mem_cons.1 h
      cases l with
      | ruleCode =>
          show apply (c.filter fun l => !l.isRuleCode) (Layer.ruleCode.apply p) = _
          rw [Lengthening.apply_filter hc (Layer.coded_rule_code p)]
          rfl
      | other name process => exact ih hc _

/-- A chain of rule-code layers and of layers that put texts behind messages changes nothing but
messages, and its rule-code layers after the first one could be left out. The standard chain may be
passed twice as well as once. -/
theorem apply_once (h : Lengthening c) (p : Publication) :
    Reworded p (c.apply p) ∧ c.once.apply p = c.apply p ∧
      standard.apply (standard.apply p) = standard.apply p := by
  refine ⟨h.reworded p, h.apply_once_eq p, ?_⟩
  exact Layer.rule_code_of_coded (Layer.coded_rule_code p)

/-- Diagnostics with a code each: a text with which the message is cut short, a number likewise, a
value that stands for no code, and a text that the message does not start with. -/
def cutShort : Publication :=
  let span : Span := ⟨⟨0, 0⟩, ⟨0, 1⟩⟩
  ⟨"file:///a.py", none,
    [⟨span, none, some (.str "F401"), none, "F401", []⟩,
      ⟨span, none, some (.ofNat 7), none, "7", []⟩,
      ⟨span, none, some .null, none, "null", []⟩,
      ⟨span, none, some (.str "E501"), none, "line", []⟩]⟩

/-- A chain with two rule-code layers, each behind a text. -/
def coveredTwice : Chain :=
  [.suffix " — unused", .ruleCode, .suffix " import", .ruleCode]

/-- The first text completes what stands in front of two messages, so that even the first of the two
rule-code layers has nothing to do there. It puts the code in front of the last message, and the
second one finds it there. -/
theorem apply_once_covered_twice :
    coveredTwice.once = [.suffix " — unused", .ruleCode, .suffix " import"] ∧
      coveredTwice.once.apply cutShort = coveredTwice.apply cutShort ∧
      (coveredTwice.once.apply cutShort).diagnostics.map (·.message)
        = ["F401 — unused import", "7 — unused import", "null — unused import",
          "E501 — line — unused import"] := by
  have h : Lengthening coveredTwice := by
    intro l hl
    simp only [coveredTwice, List.mem_cons, List.not_mem_nil, or_false] at hl
    rcases hl with rfl | rfl | rfl | rfl
    · exact .inr (Layer.appends_suffix _)
    · exact .inl rfl
    · exact .inr (Layer.appends_suffix _)
    · exact .inl rfl
  obtain ⟨-, honce, -⟩ := apply_once h cutShort
  exact ⟨rfl, honce, by decide +kernel⟩

end Chain

end Server

end LintWatch
