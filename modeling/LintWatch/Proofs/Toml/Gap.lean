import LintWatch.Toml.Reader

/-!
# What stands between the statements of a document

Blanks, line ends and comments mean nothing, and the reader of a document takes them off in three
ways: over several lines, up to the end of a line, and blanks only. Each way reads off what was
written, whatever follows it: `gap?_append`, `gap?_line` and `splitBlanks_append`. What a reader has
taken off is of this form again: `gap?_eq_some`, `is_tail_of_gap?`.
-/

namespace LintWatch.Toml

/-- A character with which a gap can start. -/
def isGapChar (c : Char) : Bool :=
  c = ' ' || c = '\t' || c = '\n' || c = '\r' || c = '#'

/-- Blanks and tabs. -/
def IsBlanks (cs : List Char) : Prop :=
  ∀ c ∈ cs, c = ' ' ∨ c = '\t'

/-- What stands in a comment, which is no control character. -/
def IsComment (cs : List Char) : Prop :=
  ∀ c ∈ cs, Quoted.isControl c = false

/-- Blanks, line ends and comments, each of which ends with its line. -/
inductive IsGap : List Char → Prop where
  | nil : IsGap []
  | blank {c : Char} {g : List Char} : c = ' ' ∨ c = '\t' ∨ c = '\n' → IsGap g → IsGap (c :: g)
  | comment {text g : List Char} : IsComment text → IsGap g → IsGap ('#' :: text ++ '\n' :: g)

/-- What may stand between a statement and the end of its line: blanks and a comment. -/
def IsTail (t : List Char) : Prop :=
  ∃ blanks rest, t = blanks ++ rest ∧ IsBlanks blanks ∧
    (rest = [] ∨ ∃ text, rest = '#' :: text ∧ IsComment text)

/-- What may stand behind the last statement of a document. -/
def IsTrailing (t : List Char) : Prop :=
  ∃ g tail, t = g ++ tail ∧ IsGap g ∧ IsTail tail

/-- A text that does not go on with a gap. -/
def Stops (cs : List Char) : Prop :=
  ∀ c, cs.head? = some c → isGapChar c = false

variable {cs found rest g g' : List Char} {c : Char}

/-- Blanks are a gap. -/
theorem IsBlanks.isGap (h : IsBlanks g) : IsGap g := by
  induction g with
  | nil => exact .nil
  | cons c g ih =>
      have hc : c = ' ' ∨ c = '\t' ∨ c = '\n' := by
        rcases h c List.mem_cons_self with hc | hc
        · exact Or.inl hc
        · exact Or.inr (Or.inl hc)
      exact .blank hc (ih fun d hd => h d (List.mem_cons_of_mem c hd))

/-- Blanks may stand behind a statement. -/
theorem IsBlanks.isTail (h : IsBlanks g) : IsTail g :=
  ⟨g, [], (List.append_nil g).symm, h, Or.inl rfl⟩

/-- A blank is blanks. -/
theorem is_blanks_blank : IsBlanks [' '] := by
  intro c hc
  exact Or.inl (List.mem_singleton.1 hc)

/-- Nothing is blanks. -/
theorem is_blanks_nil : IsBlanks [] := by
  intro c hc
  cases hc

/-- A gap with a gap behind it is a gap. -/
theorem IsGap.append (h : IsGap g) (h' : IsGap g') : IsGap (g ++ g') := by
  induction h with
  | nil => exact h'
  | blank hc _ ih => exact .blank hc ih
  | @comment text g htext _ ih =>
      rw [List.append_assoc, List.cons_append]
      exact .comment htext ih

/-- What starts with a gap starts with a character of one, or with what comes behind it. -/
theorem IsGap.head_append (h : IsGap g) (hhead : (g ++ rest).head? = some c) :
    isGapChar c = true ∨ rest.head? = some c := by
  cases h with
  | nil => exact Or.inr hhead
  | blank hc _ =>
      left
      obtain rfl := Option.some.inj hhead
      rcases hc with rfl | rfl | rfl <;> rfl
  | comment _ _ =>
      left
      obtain rfl := Option.some.inj hhead
      rfl

/-- A character of a comment is neither of the two that can end a line. -/
theorem ne_line_end (h : Quoted.isControl c = false) : c ≠ '\n' ∧ c ≠ '\r' := by
  constructor
  · rintro rfl
    exact absurd h (by decide)
  · rintro rfl
    exact absurd h (by decide)

/-- In a comment one character after the other is taken off. -/
theorem gap?_comment_cons (lines : Bool) (h : Quoted.isControl c = false) (found cs : List Char) :
    gap? lines true found (c :: cs) = gap? lines true (c :: found) cs := by
  obtain ⟨hline, hreturn⟩ := ne_line_end h
  rw [gap?, if_neg hline, if_neg fun h => hreturn h.1, if_pos rfl, h, if_neg Bool.false_ne_true]

/-- A comment is taken off to its end. -/
theorem gap?_comment (lines : Bool) {text : List Char} (h : IsComment text) (found rest) :
    gap? lines true found (text ++ rest) = gap? lines true (text.reverse ++ found) rest := by
  induction text generalizing found with
  | nil => rfl
  | cons c text ih =>
      rw [List.cons_append, gap?_comment_cons lines (h c List.mem_cons_self),
        ih fun d hd => h d (List.mem_cons_of_mem c hd)]
      simp

/-- A gap is taken off whatever it stands in front of. -/
theorem gap?_append (h : IsGap g) (found rest : List Char) :
    gap? true false found (g ++ rest) = gap? true false (g.reverse ++ found) rest := by
  induction h generalizing found with
  | nil => rfl
  | @blank c g hc _ ih =>
      have hstep : gap? true false found (c :: (g ++ rest))
          = gap? true false (c :: found) (g ++ rest) := by
        rcases hc with rfl | rfl | rfl <;> rfl
      rw [List.cons_append, hstep, ih]
      simp
  | @comment text g htext _ ih =>
      have hstart : gap? true false found ('#' :: (text ++ '\n' :: (g ++ rest)))
          = gap? true true ('#' :: found) (text ++ '\n' :: (g ++ rest)) := rfl
      have hend : gap? true true (text.reverse ++ '#' :: found) ('\n' :: (g ++ rest))
          = gap? true false ('\n' :: (text.reverse ++ '#' :: found)) (g ++ rest) := rfl
      rw [List.append_assoc, List.cons_append, List.cons_append, hstart, gap?_comment true htext,
        hend, ih]
      simp

/-- Nothing is taken off where no gap stands. -/
theorem gap?_of_stops (lines : Bool) (h : Stops rest) (found : List Char) :
    gap? lines false found rest = some (found.reverse, rest) := by
  cases rest with
  | nil => rfl
  | cons c rest =>
      have hc : isGapChar c = false := h c rfl
      simp only [isGapChar, Bool.or_eq_false_iff, decide_eq_false_iff_not] at hc
      obtain ⟨⟨⟨⟨hblank, htab⟩, hline⟩, hreturn⟩, hhash⟩ := hc
      rw [gap?, if_neg hline, if_neg fun h => hreturn h.1, if_neg Bool.false_ne_true,
        if_neg (not_or.2 ⟨hblank, htab⟩), if_neg hhash]

/-- A gap is read as it was written. -/
theorem gap?_of_gap (h : IsGap g) (hrest : Stops rest) :
    gap? true false [] (g ++ rest) = some (g, rest) := by
  rw [gap?_append h, gap?_of_stops true hrest]
  simp

/-- Blanks are taken off within a line. -/
theorem gap?_blanks (lines : Bool) (h : IsBlanks g) (found rest : List Char) :
    gap? lines false found (g ++ rest) = gap? lines false (g.reverse ++ found) rest := by
  induction g generalizing found with
  | nil => rfl
  | cons c g ih =>
      have hstep : gap? lines false found (c :: (g ++ rest))
          = gap? lines false (c :: found) (g ++ rest) := by
        rcases h c List.mem_cons_self with rfl | rfl <;> rfl
      rw [List.cons_append, hstep, ih fun d hd => h d (List.mem_cons_of_mem c hd)]
      simp

/-- What stands behind a statement is read up to the end of its line. -/
theorem gap?_line {t : List Char} (h : IsTail t) (rest : List Char) :
    gap? false false [] (t ++ '\n' :: rest) = some (t, '\n' :: rest) := by
  obtain ⟨blanks, tail, rfl, hblanks, rfl | ⟨text, rfl, htext⟩⟩ := h
  · have hend : gap? false false (blanks.reverse ++ []) ('\n' :: rest)
        = some ((blanks.reverse ++ []).reverse, '\n' :: rest) := rfl
    rw [List.append_nil, gap?_blanks false hblanks, hend]
    simp
  · have hstart : ∀ found more, gap? false false found ('#' :: more)
        = gap? false true ('#' :: found) more := fun _ _ => rfl
    have hend : ∀ found,
        gap? false true found ('\n' :: rest) = some (found.reverse, '\n' :: rest) :=
      fun _ => rfl
    rw [List.append_assoc, gap?_blanks false hblanks, List.cons_append, hstart,
      gap?_comment false htext, hend]
    simp

/-- What stands behind the last statement is read to its end. -/
theorem gap?_trailing {t : List Char} (h : IsTrailing t) :
    gap? true false [] t = some (t, []) := by
  obtain ⟨g, tail, rfl, hg, blanks, rest, rfl, hblanks, hrest⟩ := h
  rw [gap?_append hg, gap?_blanks true hblanks]
  rcases hrest with rfl | ⟨text, rfl, htext⟩
  · simp [gap?]
  · have hstart : gap? true false (blanks.reverse ++ (g.reverse ++ [])) ('#' :: text)
        = gap? true true ('#' :: (blanks.reverse ++ (g.reverse ++ []))) (text ++ []) := by
      rw [List.append_nil text]
      rfl
    rw [hstart, gap?_comment true htext]
    simp [gap?]

/-! ## What a reader has taken off -/

/-- A comment that ends with its line may have one more character. -/
theorem IsGap.comment_cons (hc : Quoted.isControl c = false) (h : IsGap ('#' :: g)) :
    IsGap ('#' :: c :: g) := by
  generalize hcomment : '#' :: g = piece at h
  cases h with
  | nil => cases hcomment
  | blank hblank _ =>
      obtain rfl := (List.cons.inj hcomment).1
      exact absurd hblank (by decide)
  | @comment text g' htext hg' =>
      obtain rfl := (List.cons.inj hcomment).2
      refine @IsGap.comment (c :: text) _ ?_ hg'
      intro d hd
      rcases List.mem_cons.1 hd with rfl | hd
      · exact hc
      · exact htext d hd

/-- A comment at the end of a line may have one more character. -/
theorem IsTail.comment_cons (hc : Quoted.isControl c = false) (h : IsTail ('#' :: g)) :
    IsTail ('#' :: c :: g) := by
  obtain ⟨blanks, rest, heq, hblanks, hrest⟩ := h
  cases blanks with
  | cons b blanks =>
      obtain rfl := (List.cons.inj heq).1
      exact absurd (hblanks '#' List.mem_cons_self) (by decide)
  | nil =>
      rw [List.nil_append] at heq
      rcases hrest with rfl | ⟨text, rfl, htext⟩
      · cases heq
      · obtain rfl := (List.cons.inj heq).2
        refine ⟨[], '#' :: c :: g, rfl, is_blanks_nil, Or.inr ⟨_, rfl, ?_⟩⟩
        intro d hd
        rcases List.mem_cons.1 hd with rfl | hd
        · exact hc
        · exact htext d hd

/-- A comment at the end of a document may have one more character. -/
theorem IsTrailing.comment_cons (hc : Quoted.isControl c = false) (h : IsTrailing ('#' :: g)) :
    IsTrailing ('#' :: c :: g) := by
  obtain ⟨gap, tail, heq, hgap, htail⟩ := h
  cases gap with
  | nil =>
      rw [List.nil_append] at heq
      subst heq
      exact ⟨[], _, rfl, .nil, htail.comment_cons hc⟩
  | cons d gap =>
      obtain ⟨rfl, rfl⟩ := List.cons.inj heq
      exact ⟨'#' :: c :: gap, tail, rfl, hgap.comment_cons hc, htail⟩

/-- What a reader of gaps can do with one more character, in a comment or not. -/
inductive GapStep (lines : Bool) (found cs g rest : List Char) : Bool → Char → Prop
  | stop {inComment : Bool} {c : Char} : found.reverse = g → c :: cs = rest →
      (inComment = true → lines = false ∧ (c = '\n' ∨ c = '\r')) →
        GapStep lines found cs g rest inComment c
  | line {inComment : Bool} : lines = true →
      gap? lines false ('\n' :: found) cs = some (g, rest) →
        GapStep lines found cs g rest inComment '\n'
  | skip {inComment : Bool} : lines = true → cs.head? = some '\n' →
      gap? lines inComment found cs = some (g, rest) →
        GapStep lines found cs g rest inComment '\r'
  | comment {c : Char} : Quoted.isControl c = false →
      gap? lines true (c :: found) cs = some (g, rest) → GapStep lines found cs g rest true c
  | blank {c : Char} : c = ' ' ∨ c = '\t' →
      gap? lines false (c :: found) cs = some (g, rest) → GapStep lines found cs g rest false c
  | hash : gap? lines true ('#' :: found) cs = some (g, rest) →
      GapStep lines found cs g rest false '#'

/-- A reader of gaps does no more than that. -/
theorem gapStep_of_gap? {lines inComment : Bool}
    (h : gap? lines inComment found (c :: cs) = some (g, rest)) :
    GapStep lines found cs g rest inComment c := by
  have hstop : some (found.reverse, c :: cs) = some (g, rest) →
      (inComment = true → lines = false ∧ (c = '\n' ∨ c = '\r')) →
        GapStep lines found cs g rest inComment c := by
    intro h hline
    obtain ⟨hg, hrest⟩ := Prod.mk.inj (Option.some.inj h)
    exact .stop hg hrest hline
  rw [gap?] at h
  split at h
  next hline =>
    cases lines with
    | false => exact hstop h fun _ => ⟨rfl, Or.inl hline⟩
    | true =>
        subst hline
        exact .line rfl h
  next =>
    split at h
    next hreturn =>
      obtain ⟨rfl, hnext⟩ := hreturn
      cases lines with
      | false => exact hstop h fun _ => ⟨rfl, Or.inr rfl⟩
      | true => exact .skip rfl hnext h
    next =>
      split at h
      next hin =>
        subst hin
        split at h
        next => cases h
        next hcontrol => exact .comment (Bool.eq_false_iff.2 hcontrol) h
      next hin =>
        obtain rfl := Bool.eq_false_iff.2 hin
        split at h
        next hblank => exact .blank hblank h
        next =>
          split at h
          next hhash =>
            subst hhash
            exact .hash h
          next => exact hstop h fun hin => absurd hin Bool.false_ne_true

/-- A way to judge what has been taken off, one character after the other: what is left of a comment
is judged with the start of a comment in front. -/
structure Judges (lines : Bool) (rest : List Char) (P : List Char → Prop) : Prop where
  nil : P []
  blank {c : Char} {g : List Char} : c = ' ' ∨ c = '\t' → P g → P (c :: g)
  line {g : List Char} : lines = true → P g → P ('\n' :: g) ∧ P ('#' :: '\n' :: g)
  comment {c : Char} {g : List Char} : Quoted.isControl c = false → P ('#' :: g) → P ('#' :: c :: g)
  last : lines = false ∨ rest = [] → P ['#']

/-- What has been taken off is as judged. -/
theorem Judges.of_gap? {lines inComment : Bool} {P : List Char → Prop} (hP : Judges lines rest P)
    (h : gap? lines inComment found cs = some (g, rest)) :
    ∃ piece, g = found.reverse ++ piece ∧ P (if inComment then '#' :: piece else piece) := by
  induction cs generalizing inComment found with
  | nil =>
      rw [gap?] at h
      obtain ⟨rfl, rfl⟩ := Prod.mk.inj (Option.some.inj h)
      refine ⟨[], by simp, ?_⟩
      cases inComment with
      | false => exact hP.nil
      | true => exact hP.last (Or.inr rfl)
  | cons c cs ih =>
      -- One more character has been taken off in front of what the rest of the text gives.
      have hcons : ∀ {c : Char} {next : Bool}, gap? lines next (c :: found) cs = some (g, rest) →
          ∃ piece, g = found.reverse ++ (c :: piece) ∧
            P (if next then '#' :: piece else piece) := by
        intro c next h
        obtain ⟨piece, rfl, hpiece⟩ := ih h
        exact ⟨piece, by simp, hpiece⟩
      cases gapStep_of_gap? h with
      | stop hg _ hline =>
          refine ⟨[], by rw [List.append_nil, hg], ?_⟩
          cases inComment with
          | false => exact hP.nil
          | true => exact hP.last (Or.inl (hline rfl).1)
      | line hlines hmore =>
          obtain ⟨piece, rfl, hpiece⟩ := hcons hmore
          refine ⟨'\n' :: piece, rfl, ?_⟩
          cases inComment with
          | false => exact (hP.line hlines hpiece).1
          | true => exact (hP.line hlines hpiece).2
      | skip _ _ hmore => exact ih hmore
      | comment hcontrol hmore =>
          obtain ⟨piece, rfl, hpiece⟩ := hcons hmore
          exact ⟨c :: piece, rfl, hP.comment hcontrol hpiece⟩
      | blank hblank hmore =>
          obtain ⟨piece, rfl, hpiece⟩ := hcons hmore
          exact ⟨c :: piece, rfl, hP.blank hblank hpiece⟩
      | hash hmore =>
          obtain ⟨piece, rfl, hpiece⟩ := hcons hmore
          exact ⟨'#' :: piece, rfl, hpiece⟩

/-- What is taken off in front of something is a gap. -/
theorem is_gap_of_gap? (h : gap? true false [] cs = some (g, rest)) (hrest : rest ≠ []) :
    IsGap g := by
  have hjudges : Judges true rest IsGap := by
    refine ⟨.nil, ?_, ?_, IsGap.comment_cons, ?_⟩
    · intro c g hc hg
      exact .blank (hc.imp_right Or.inl) hg
    · intro g _ hg
      exact ⟨.blank (Or.inr (Or.inr rfl)) hg, @IsGap.comment [] _ (fun d hd => nomatch hd) hg⟩
    · rintro (hlines | hlast)
      · cases hlines
      · exact absurd hlast hrest
  obtain ⟨piece, rfl, hpiece⟩ := hjudges.of_gap? h
  exact hpiece

/-- What is taken off in front of a character is a gap. -/
theorem is_gap_of_gap?_cons {more : List Char} (h : gap? true false [] cs = some (g, rest))
    (hrest : rest = c :: more) : IsGap g := by
  refine is_gap_of_gap? h ?_
  rw [hrest]
  exact List.cons_ne_nil c more

/-- What is taken off at the end of a document may stand there. -/
theorem is_trailing_of_gap? (h : gap? true false [] cs = some (g, rest)) : IsTrailing g := by
  have hjudges : Judges true rest IsTrailing := by
    refine ⟨⟨[], [], rfl, .nil, is_blanks_nil.isTail⟩, ?_, ?_, IsTrailing.comment_cons, ?_⟩
    · rintro c _ hc ⟨gap, tail, rfl, hgap, htail⟩
      exact ⟨c :: gap, tail, rfl, .blank (hc.imp_right Or.inl) hgap, htail⟩
    · rintro _ - ⟨gap, tail, rfl, hgap, htail⟩
      refine ⟨⟨'\n' :: gap, tail, rfl, .blank (Or.inr (Or.inr rfl)) hgap, htail⟩, ?_⟩
      exact ⟨'#' :: '\n' :: gap, tail, rfl,
        @IsGap.comment [] _ (fun d hd => nomatch hd) hgap, htail⟩
    · intro _
      exact ⟨[], ['#'], rfl, .nil, [], _, rfl, is_blanks_nil,
        Or.inr ⟨[], rfl, fun d hd => nomatch hd⟩⟩
  obtain ⟨piece, rfl, hpiece⟩ := hjudges.of_gap? h
  exact hpiece

/-- What is taken off within a line may stand behind a statement. -/
theorem is_tail_of_gap? (h : gap? false false [] cs = some (g, rest)) : IsTail g := by
  have hjudges : Judges false rest IsTail := by
    refine ⟨is_blanks_nil.isTail, ?_, ?_, ?_, ?_⟩
    · rintro c _ hc ⟨blanks, tail, rfl, hblanks, htail⟩
      refine ⟨c :: blanks, tail, rfl, ?_, htail⟩
      intro d hd
      rcases List.mem_cons.1 hd with rfl | hd
      · exact hc
      · exact hblanks d hd
    · intro g hlines
      cases hlines
    · intro c g hc hg
      exact hg.comment_cons hc
    · intro _
      exact ⟨[], ['#'], rfl, is_blanks_nil, Or.inr ⟨[], rfl, fun d hd => nomatch hd⟩⟩
  obtain ⟨piece, rfl, hpiece⟩ := hjudges.of_gap? h
  exact hpiece

/-! ## Blanks -/

/-- A text that does not go on with blanks. -/
def NoBlank (cs : List Char) : Prop :=
  ∀ c, cs.head? = some c → (c = ' ' || c = '\t') = false

/-- Where no gap goes on, no blanks do. -/
theorem Stops.noBlank (h : Stops rest) : NoBlank rest := by
  intro c hc
  have hgap := h c hc
  simp only [isGapChar, Bool.or_eq_false_iff] at hgap ⊢
  exact hgap.1.1.1

/-- Blanks are split off what does not go on with them. -/
theorem splitBlanks_append (h : IsBlanks g) (hrest : NoBlank rest) :
    splitBlanks (g ++ rest) = (g, rest) := by
  have hg : ∀ c ∈ g, (c = ' ' || c = '\t') = true := by
    intro c hc
    simpa using h c hc
  have htake : rest.takeWhile (fun c => c = ' ' || c = '\t') = []
      ∧ rest.dropWhile (fun c => c = ' ' || c = '\t') = rest := by
    cases rest with
    | nil => exact ⟨rfl, rfl⟩
    | cons c rest =>
        rw [List.takeWhile_cons, List.dropWhile_cons, hrest c rfl]
        exact ⟨rfl, rfl⟩
  rw [splitBlanks, Quoted.dropBlanks, List.takeWhile_append_of_pos hg,
    List.dropWhile_append_of_pos hg, htake.1, htake.2, List.append_nil]

/-- What is split off is blanks. -/
theorem is_blanks_split (cs : List Char) : IsBlanks (splitBlanks cs).1 := by
  intro c hc
  have hall := List.all_eq_true.1 (List.all_takeWhile (l := cs)) c hc
  simpa using hall

end LintWatch.Toml
