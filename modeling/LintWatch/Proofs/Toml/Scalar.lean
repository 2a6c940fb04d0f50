import LintWatch.Proofs.Toml.Gap
import LintWatch.Proofs.Toml.Quoted

/-!
# Scalars as they are written

A scalar is read the same in front of whatever may follow a value: `spells_of_scalar?`. What may
follow is a separator, a bracket, a line end, a comment or a blank, but no blank with a digit behind
it, for a time may stand behind a date.
-/

namespace LintWatch.Toml

open Quoted (NoQuote)

/-- A text with which a value has come to its end. -/
def EndsValue (cs : List Char) : Prop :=
  ∃ c more, cs = c :: more ∧
    (c ∈ ['\n', '\t', ',', ']', '\x7d', '#'] ∨
      c = ' ' ∧ ∀ d, more.head? = some d → d.isDigit = false)

/-- A character with which a scalar starts. -/
def startsScalar (c : Char) : Bool :=
  !endsWord c || c = '"' || c = '\''

/-- A spelling that reads as a scalar, whatever follows. -/
structure SpellsScalar (spelling : List Char) (v : Scalar) : Prop where
  starts : ∃ c more, spelling = c :: more ∧ startsScalar c = true
  reads : ∀ rest, EndsValue rest → scalar? (spelling ++ rest) = some (.scalar spelling v, rest)

variable {c : Char} {cs rest : List Char}

/-! ## What follows a value -/

/-- What follows a value ends a word and is no quote. -/
theorem EndsValue.head (h : EndsValue rest) :
    ∃ c more, rest = c :: more ∧ endsWord c = true ∧ c ≠ '"' ∧ c ≠ '\'' := by
  obtain ⟨c, more, rfl, hc⟩ := h
  refine ⟨c, more, rfl, ?_⟩
  rcases hc with hc | ⟨rfl, -⟩
  · simp only [List.mem_cons, List.not_mem_nil, or_false] at hc
    rcases hc with rfl | rfl | rfl | rfl | rfl | rfl <;> decide
  · decide

/-- What follows a value is no quote. -/
theorem EndsValue.noQuote (h : EndsValue rest) : NoQuote rest := by
  obtain ⟨c, more, rfl, -, hquotes⟩ := h.head
  intro d hd
  obtain rfl := Option.some.inj hd
  exact hquotes

/-- What can follow a value is no digit. -/
theorem not_digit_of_gap {g : List Char} (h : IsGap g)
    (hrest : ∀ d, rest.head? = some d → d.isDigit = false) :
    ∀ d, (g ++ rest).head? = some d → d.isDigit = false := by
  intro d hd
  rcases h.head_append hd with hgap | hd
  · simp only [isGapChar, Bool.or_eq_true, decide_eq_true_eq] at hgap
    rcases hgap with (((rfl | rfl) | rfl) | rfl) | rfl <;> rfl
  · exact hrest d hd

/-- A gap in front of a separator or a bracket ends a value. -/
theorem ends_value_gap {g : List Char} (h : IsGap g) (hc : c ∈ [',', ']', '\x7d'])
    (rest : List Char) : EndsValue (g ++ c :: rest) := by
  have hdigit : ∀ d, (c :: rest).head? = some d → d.isDigit = false := by
    intro d hd
    obtain rfl := Option.some.inj hd
    simp only [List.mem_cons, List.not_mem_nil, or_false] at hc
    rcases hc with rfl | rfl | rfl <;> rfl
  cases h with
  | nil =>
      have hc' := hc
      simp only [List.mem_cons, List.not_mem_nil, or_false] at hc'
      refine ⟨c, rest, rfl, Or.inl ?_⟩
      rcases hc' with rfl | rfl | rfl <;> decide
  | @blank b g hb hg =>
      refine ⟨b, g ++ c :: rest, rfl, ?_⟩
      rcases hb with rfl | rfl | rfl
      · exact Or.inr ⟨rfl, not_digit_of_gap hg hdigit⟩
      · exact Or.inl (by decide)
      · exact Or.inl (by decide)
  | @comment text g htext hg =>
      exact ⟨'#', text ++ '\n' :: g ++ c :: rest, rfl, Or.inl (by decide)⟩

/-- The end of a line ends a value, with what may stand in front of it. -/
theorem ends_value_line {t : List Char} (h : IsTail t) (rest : List Char) :
    EndsValue (t ++ '\n' :: rest) := by
  obtain ⟨blanks, tail, rfl, hblanks, htail⟩ := h
  have hdigit : ∀ d, (tail ++ '\n' :: rest).head? = some d → d.isDigit = false := by
    intro d hd
    rcases htail with rfl | ⟨text, rfl, -⟩
    · obtain rfl := Option.some.inj hd
      rfl
    · obtain rfl := Option.some.inj hd
      rfl
  cases blanks with
  | nil =>
      rcases htail with rfl | ⟨text, rfl, -⟩
      · exact ⟨'\n', rest, rfl, Or.inl (by decide)⟩
      · exact ⟨'#', text ++ '\n' :: rest, rfl, Or.inl (by decide)⟩
  | cons b blanks =>
      rw [List.append_assoc]
      refine ⟨b, blanks ++ (tail ++ '\n' :: rest), rfl, ?_⟩
      rcases hblanks b List.mem_cons_self with rfl | rfl
      · have hgap : IsGap blanks :=
          IsBlanks.isGap fun d hd => hblanks d (List.mem_cons_of_mem _ hd)
        exact Or.inr ⟨rfl, not_digit_of_gap hgap hdigit⟩
      · exact Or.inl (by decide)

/-! ## Unquoted words -/

/-- Up to what ends words, all of it is one word. -/
theorem takeWhile_word (rest : List Char) {first : List Char}
    (hfirst : ∀ d ∈ first, (!endsWord d) = true)
    (hc : endsWord c = true) :
    (first ++ c :: rest).takeWhile (!endsWord ·) = first ∧
      (first ++ c :: rest).dropWhile (!endsWord ·) = c :: rest := by
  rw [List.takeWhile_append_of_pos hfirst, List.dropWhile_append_of_pos hfirst,
    List.takeWhile_cons, List.dropWhile_cons, hc]
  exact ⟨List.append_nil first, rfl⟩

/-- What follows a value belongs to no word. -/
theorem word_eq {first : List Char} (hfirst : ∀ d ∈ first, (!endsWord d) = true)
    (h : EndsValue rest) : word (first ++ rest) = first := by
  obtain ⟨c, more, rfl, hchar⟩ := id h
  obtain ⟨_, _, heq, hc, -⟩ := h.head
  obtain rfl := (List.cons.inj heq).1
  obtain ⟨htake, hdrop⟩ := takeWhile_word more hfirst hc
  simp only [word, htake, hdrop]
  split
  next d rest heq =>
    obtain ⟨rfl, rfl⟩ := List.cons.inj heq
    have hdigit : d.isDigit = false := by
      rcases hchar with hchar | ⟨-, hdigit⟩
      · exact absurd hchar (by decide)
      · exact hdigit d rfl
    rw [if_neg fun h => Bool.false_ne_true (hdigit.symm.trans h.2)]
  next => rfl

/-- A digit ends no word. -/
theorem not_endsWord_of_digit {d : Char} (h : d.isDigit = true) : (!endsWord d) = true := by
  have hne : ∀ e : Char, e.isDigit = false → d ≠ e := by
    rintro e he rfl
    rw [h] at he
    cases he
  simp [endsWord, hne ' ' rfl, hne '\t' rfl, hne '\n' rfl, hne '\r' rfl, hne ',' rfl, hne '#' rfl,
    hne '=' rfl, hne '"' rfl, hne '\'' rfl, hne '[' rfl, hne ']' rfl, hne '\x7b' rfl,
    hne '\x7d' rfl]

/-- A word is the same word in front of what may follow a value. -/
theorem word_append (cs : List Char) (h : EndsValue rest) : word (word cs ++ rest) = word cs := by
  have hfirst : ∀ d ∈ cs.takeWhile (!endsWord ·), (!endsWord d) = true :=
    List.all_eq_true.1 List.all_takeWhile
  generalize hword : word cs = w
  simp only [word] at hword
  split at hword
  next d time heq =>
    split at hword
    next hdate =>
      -- A date and a time: the blank between them is followed by a digit again.
      have htime : ∀ e ∈ (d :: time).takeWhile (!endsWord ·), (!endsWord e) = true :=
        List.all_eq_true.1 List.all_takeWhile
      have hcons : (d :: time).takeWhile (!endsWord ·) = d :: time.takeWhile (!endsWord ·) :=
        List.takeWhile_cons_of_pos (p := (!endsWord ·)) (not_endsWord_of_digit hdate.2)
      rw [hcons] at hword htime
      subst hword
      obtain ⟨c, more, rfl, hc, -⟩ := h.head
      obtain ⟨htake, hdrop⟩ := takeWhile_word (d :: time.takeWhile (!endsWord ·) ++ c :: more)
        hfirst (show endsWord ' ' = true from rfl)
      have hlast := (takeWhile_word more htime hc).1
      rw [List.append_assoc, List.cons_append]
      simp only [word, htake, hdrop]
      simp only [List.cons_append]
      rw [if_pos hdate, ← List.cons_append, hlast]
    next =>
      subst hword
      exact word_eq hfirst h
  next =>
    subst hword
    exact word_eq hfirst h

/-- A word starts with none of the characters that end words. -/
theorem head_word (h : word cs = c :: rest) : endsWord c = false := by
  have hfirst : ∀ d ∈ cs.takeWhile (!endsWord ·), (!endsWord d) = true :=
    List.all_eq_true.1 List.all_takeWhile
  have hhead : ∀ more, cs.takeWhile (!endsWord ·) ++ more = c :: rest →
      cs.takeWhile (!endsWord ·) ≠ [] → endsWord c = false := by
    intro more heq hne
    cases hcs : cs.takeWhile (!endsWord ·) with
    | nil => exact absurd hcs hne
    | cons d first =>
        rw [hcs] at heq hfirst
        obtain rfl := (List.cons.inj heq).1
        simpa using hfirst d List.mem_cons_self
  simp only [word] at h
  split at h
  next d time heq =>
    split at h
    next hdate =>
      refine hhead _ h fun hnil => ?_
      rw [hnil] at hdate
      exact absurd hdate.1 (by decide)
    next =>
      refine hhead [] ((List.append_nil _).trans h) fun hnil => ?_
      rw [hnil] at h
      cases h
  next =>
    refine hhead [] ((List.append_nil _).trans h) fun hnil => ?_
    rw [hnil] at h
    cases h

/-! ## Scalars -/

/-- What has been read as a scalar spells it. -/
theorem spells_of_scalar? {v : Value} (h : scalar? cs = some (v, rest)) :
    ∃ spelling s, v = .scalar spelling s ∧ SpellsScalar spelling s := by
  unfold scalar? at h
  split at h
  next hquote =>
    simp only [Option.bind_eq_bind, Option.bind_eq_some_iff, Option.pure_def, Option.some.injEq,
      Prod.mk.injEq] at h
    obtain ⟨⟨text, after⟩, hread, rfl, rfl⟩ := h
    obtain ⟨front, rfl, hfront⟩ := Quoted.local_read? cs text after hread
    have htake : ∀ rest', (front ++ rest').take ((front ++ rest').length - rest'.length) = front :=
      fun rest' => List.take_left' (by simp)
    refine ⟨front, .text text, by rw [htake], ?_⟩
    cases front with
    | nil =>
        have hnil := hfront [] fun d hd => nomatch hd
        cases hnil
    | cons c front =>
        have hc : c = '"' ∨ c = '\'' := by
          rcases hquote with hquote | hquote
          · exact Or.inl (Option.some.inj hquote)
          · exact Or.inr (Option.some.inj hquote)
        refine ⟨⟨c, front, rfl, ?_⟩, fun rest' hrest' => ?_⟩
        · rcases hc with rfl | rfl <;> rfl
        · have hhead : ((c :: front) ++ rest').head? = some '"' ∨
              ((c :: front) ++ rest').head? = some '\'' :=
            hc.imp (congrArg some) (congrArg some)
          rw [scalar?, if_pos hhead, hfront rest' hrest'.noQuote]
          simp only [Option.bind_eq_bind, Option.bind_some, htake]
          rfl
  next hquote =>
    simp only [Option.bind_eq_bind, Option.bind_eq_some_iff, Option.pure_def, Option.some.injEq,
      Prod.mk.injEq] at h
    obtain ⟨s, hread, rfl, rfl⟩ := h
    refine ⟨word cs, s, rfl, ?_⟩
    cases hword : word cs with
    | nil =>
        have hnone : Bare.read? [] = none := by decide
        rw [hword, hnone] at hread
        cases hread
    | cons c more =>
        have hc : endsWord c = false := head_word hword
        refine ⟨⟨c, more, rfl, by simp [startsScalar, hc]⟩, fun rest' hrest' => ?_⟩
        have hhead : ¬ ((c :: more ++ rest').head? = some '"' ∨
            (c :: more ++ rest').head? = some '\'') := by
          rintro (hd | hd)
          · obtain rfl := Option.some.inj hd
            exact absurd hc (by decide)
          · obtain rfl := Option.some.inj hd
            exact absurd hc (by decide)
        have hsame : word (c :: more ++ rest') = c :: more := by
          rw [← hword]
          exact word_append cs hrest'
        rw [hword] at hread
        rw [scalar?, if_neg hhead, hsame]
        simp only [hread, Option.bind_eq_bind, Option.bind_some, List.drop_left]
        rfl

end LintWatch.Toml
