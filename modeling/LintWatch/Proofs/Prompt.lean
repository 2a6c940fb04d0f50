import LintWatch.Prompt
import LintWatch.Proofs.Text.Blank
import Mathlib.Data.List.Basic

/-!
# What is typed at the prompt

`Asks` says what a typed line asks for by its first word and what follows that word, and knows
nothing of how a line is read. Every line asks for one thing, and that is what it is read as:
`parse_typed`.
-/

namespace LintWatch

/-- A command is found by its name and by nothing else. -/
theorem Command.ofName?_eq_some_iff {name : String} {c : Command} :
    ofName? name = some c ↔ name = c.name := by
  constructor
  · intro h
    have hname := List.find?_some (p := fun c : Command => decide (c.name = name)) h
    exact (of_decide_eq_true hname).symm
  · intro h
    rw [h]
    exact ofName?_name c

namespace Prompt

open LintWatch.Text

variable {line : String} {word : List Char} {rest : List Char} {i : Input}

/-- The words that end the program. -/
def quitWords : List String :=
  ["q", "quit", "exit"]

/-- What a line asks for. It is its first word that counts, and for a file also what follows it. -/
inductive Asks (line : String) : Input → Prop where
  | empty : (∀ c ∈ line.toList, isBlank c = true) → Asks line .empty
  | quit {word : String} {rest : List Char} : IsFirstWord line.toList word.toList rest →
      word ∈ quitWords → Asks line .quit
  | help {rest : List Char} : IsFirstWord line.toList "help".toList rest → Asks line .help
  | status {rest : List Char} : IsFirstWord line.toList "status".toList rest → Asks line .status
  | command {c : Command} {rest : List Char} : IsFirstWord line.toList c.name.toList rest →
      Asks line (.command c)
  | file {path : String} {rest : List Char} : IsFirstWord line.toList "file".toList rest →
      Trims rest path.toList → path ≠ "" → Asks line (.file path)
  | unknown {word : String} {rest : List Char} : IsFirstWord line.toList word.toList rest →
      word ∉ quitWords → word ≠ "help" → word ≠ "status" → (∀ c : Command, word ≠ c.name) →
      (word = "file" → ∀ c ∈ rest, isBlank c = true) → Asks line (.unknown word)

/-- A line is read by its first word and what follows it. -/
theorem parse_of_first_word (h : IsFirstWord line.toList word rest) :
    Input.parse line = .ofWords (String.ofList word) (String.ofList (trim rest)) := by
  rw [Input.parse, firstWord_trim h]
  show Input.ofWords _ (String.ofList (trim (trimEnd rest))) = _
  rw [trim_trimEnd]

/-- In a word there is nothing to trim. -/
theorem trimText_of_unbroken {word : String} (h : ∀ c ∈ word.toList, isBlank c = false) :
    trimText word = word := by
  have htrims : Trims word.toList word.toList :=
    ⟨[], [], by simp, nofun, nofun, fun c hc => h c (List.mem_of_mem_head? hc),
      fun c hc => h c (List.mem_of_getLast? hc)⟩
  rw [trimText, trim_eq_iff.2 htrims, String.ofList_toList]

/-- A word that has no meaning of its own at the prompt is a command or unknown. -/
theorem ofWords_of_other {word rest : String} (hne : word ≠ "") (hquit : word ∉ quitWords)
    (hhelp : word ≠ "help") (hstatus : word ≠ "status") (hfile : word = "file" → rest = "") :
    Input.ofWords word rest = ((Command.ofText? word).map .command).getD (.unknown word) := by
  have hnotQuit : ¬ (word = "q" ∨ word = "quit" ∨ word = "exit") := by
    simpa [quitWords] using hquit
  have hnotFile : ¬ (word = "file" ∧ rest ≠ "") := fun h => h.2 (hfile h.1)
  rw [Input.ofWords, if_neg hne, if_neg hnotQuit, if_neg hhelp, if_neg hstatus, if_neg hnotFile]
  cases Command.ofText? word <;> rfl

/-- A line is read as what it asks for. -/
theorem Asks.parse_eq (h : Asks line i) : Input.parse line = i := by
  cases h with
  | empty hblank =>
      rw [Input.parse, trim_eq_nil_iff.2 hblank]
      rfl
  | @quit word rest hfirst hword =>
      rw [parse_of_first_word hfirst, String.ofList_toList, Input.ofWords]
      simp only [quitWords, List.mem_cons, List.not_mem_nil, or_false] at hword
      rw [if_neg, if_pos hword]
      rcases hword with rfl | rfl | rfl <;> decide
  | help hfirst =>
      rw [parse_of_first_word hfirst]
      rfl
  | status hfirst =>
      rw [parse_of_first_word hfirst]
      rfl
  | @command c rest hfirst =>
      rw [parse_of_first_word hfirst, String.ofList_toList]
      cases c <;> rfl
  | @file path rest hfirst htrims hne =>
      rw [parse_of_first_word hfirst, trim_eq_iff.2 htrims, String.ofList_toList,
        String.ofList_toList, Input.ofWords, if_neg (by decide), if_neg (by decide),
        if_neg (by decide), if_neg (by decide), if_pos ⟨rfl, hne⟩]
  | @unknown word rest hfirst hquit hhelp hstatus hcommand hfile =>
      have hnone : Command.ofText? word = none := by
        rw [Command.ofText?, trimText_of_unbroken hfirst.unbroken, Option.eq_none_iff_forall_ne_some]
        exact fun c hc => hcommand c (Command.ofName?_eq_some_iff.1 hc)
      have hne : word ≠ "" := fun h => hfirst.ne_nil (by rw [h]; rfl)
      have hrest : word = "file" → String.ofList (trim rest) = "" := fun h =>
        String.ofList_eq_empty_iff.2 (trim_eq_nil_iff.2 (hfile h))
      rw [parse_of_first_word hfirst, String.ofList_toList,
        ofWords_of_other hne hquit hhelp hstatus hrest, hnone]
      rfl

/-- Every line asks for something. -/
theorem exists_asks (line : String) : ∃ i, Asks line i := by
  by_cases hblank : ∀ c ∈ line.toList, isBlank c = true
  · exact ⟨_, .empty hblank⟩
  obtain ⟨cs, rest, hcs⟩ := exists_first_word hblank
  generalize hword : String.ofList cs = word
  have hfirst : IsFirstWord line.toList word.toList rest := by
    rw [← hword, String.toList_ofList]
    exact hcs
  by_cases hquit : word ∈ quitWords
  · exact ⟨_, .quit hfirst hquit⟩
  by_cases hhelp : word = "help"
  · exact ⟨_, .help (hhelp ▸ hfirst)⟩
  by_cases hstatus : word = "status"
  · exact ⟨_, .status (hstatus ▸ hfirst)⟩
  by_cases hcommand : ∃ c : Command, word = c.name
  · obtain ⟨c, hc⟩ := hcommand
    exact ⟨_, .command (hc ▸ hfirst)⟩
  by_cases hfile : word = "file" ∧ ¬ ∀ c ∈ rest, isBlank c = true
  · obtain ⟨hfile, hrest⟩ := hfile
    have htrims : Trims rest (String.ofList (trim rest)).toList := by
      rw [String.toList_ofList]
      exact trim_eq_iff.1 rfl
    have hne : String.ofList (trim rest) ≠ "" := fun h =>
      hrest (trim_eq_nil_iff.1 (String.ofList_eq_empty_iff.1 h))
    exact ⟨_, .file (hfile ▸ hfirst) htrims hne⟩
  · refine ⟨_, .unknown hfirst hquit hhelp hstatus (not_exists.1 hcommand) fun h => ?_⟩
    exact not_not.1 fun hrest => hfile ⟨h, hrest⟩

/-- A line is read as what it asks for, which is one thing only. The blanks around it do not count, and
behind the word for a file and any blanks every text that is trimmed is read as it stands. -/
theorem parse_typed :
    (∀ (line : String) (i : Input), Input.parse line = i ↔ Asks line i) ∧
      (∀ starts line ends : String, (∀ c ∈ starts.toList, isBlank c = true) →
        (∀ c ∈ ends.toList, isBlank c = true) →
        Input.parse (starts ++ line ++ ends) = Input.parse line) ∧
      ∀ blanks path : String, blanks ≠ "" → (∀ c ∈ blanks.toList, isBlank c = true) →
        path ≠ "" → IsTrimmed path.toList →
        Input.parse ("file" ++ blanks ++ path) = .file path := by
  refine ⟨fun line i => ⟨fun h => ?_, Asks.parse_eq⟩, fun starts line ends hstarts hends => ?_,
    fun blanks path hblanks hblank hpath htrimmed => ?_⟩
  · obtain ⟨j, hj⟩ := exists_asks line
    rwa [← h, hj.parse_eq]
  · have htrim : trim (starts ++ line ++ ends).toList = trim line.toList := by
      rw [String.toList_append, String.toList_append, trim_append_of_blank hends,
        trim_blank_append hstarts]
    rw [Input.parse, Input.parse, htrim]
  · obtain ⟨c, others, hcs⟩ := List.exists_cons_of_ne_nil (mt String.toList_eq_nil_iff.1 hblanks)
    have hunbroken : ∀ d ∈ "file".toList, isBlank d = false :=
      List.forall_iff_forall_mem.1 (by decide)
    have hfirst : IsFirstWord ("file" ++ blanks ++ path).toList "file".toList
        (blanks.toList ++ path.toList) := by
      refine ⟨⟨[], nofun, ?_⟩, by decide, hunbroken, fun d hd => ?_⟩
      · rw [String.toList_append, String.toList_append, List.append_assoc]
        rfl
      · rw [hcs] at hd
        obtain rfl := Option.some.inj hd
        exact hblank c (hcs ▸ List.mem_cons_self)
    have htrims : Trims (blanks.toList ++ path.toList) path.toList :=
      ⟨blanks.toList, [], (List.append_nil _).symm, hblank, nofun, htrimmed⟩
    exact (Asks.file hfirst htrims hpath).parse_eq

/-- A path with a blank in it, which stands behind wide blanks, is read as it is. -/
theorem parse_typed_blank_path :
    Input.parse "file 　my notes/a.py" = .file "my notes/a.py" := by
  have hblank : ∀ c ∈ " 　".toList, isBlank c = true := List.forall_iff_forall_mem.1 (by decide)
  have htrimmed : IsTrimmed "my notes/a.py".toList :=
    ⟨fun _ h => Option.some.inj h ▸ rfl, fun _ h => Option.some.inj h ▸ rfl⟩
  exact parse_typed.2.2 " 　" "my notes/a.py" (by decide) hblank (by decide) htrimmed

end Prompt

end LintWatch
