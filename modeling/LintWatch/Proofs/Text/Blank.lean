import LintWatch.Text.Blank
import Mathlib.Data.List.TakeWhile

/-!
# Texts without the blanks around them

Trimming a text leaves the one text without blanks at its front and at its end that the text is, but
for blanks around it: `trim_eq_iff`. The first word of a text and what follows it are those of the
trimmed text (`firstWord_trim`).
-/

namespace LintWatch.Text

variable {cs starts ends word rest text : List Char}

/-! ## Trimming -/

/-- The blanks around a text do not count. -/
theorem trim_append {a core b : List Char} (ha : ∀ c ∈ a, isBlank c = true)
    (hb : ∀ c ∈ b, isBlank c = true) (hhead : ∀ c ∈ core.head?, isBlank c = false)
    (hlast : ∀ c ∈ core.getLast?, isBlank c = false) : trim (a ++ core ++ b) = core := by
  rw [trim, trimStart, List.append_assoc, List.dropWhile_append_of_pos ha, trimEnd]
  cases core with
  | nil => simp [List.dropWhile_eq_nil_iff.2 hb]
  | cons c core =>
      have hstart : (c :: core ++ b).dropWhile isBlank = c :: core ++ b := by
        simp [hhead c rfl]
      have hend : ∀ d ∈ b.reverse, isBlank d = true := fun d hd => hb d (List.mem_reverse.1 hd)
      obtain ⟨last, front, hfront⟩ := List.exists_cons_of_ne_nil
        (List.reverse_ne_nil_iff.2 (List.cons_ne_nil c core))
      have hlastBlank : isBlank last = false :=
        hlast last (by rw [← List.head?_reverse, hfront]; rfl)
      rw [hstart, List.reverse_append, List.dropWhile_append_of_pos hend, hfront,
        List.dropWhile_cons_of_neg (by simp [hlastBlank]), ← hfront, List.reverse_reverse]

/-- Blanks at the end of a text do not count. -/
theorem trim_append_of_blank (hends : ∀ c ∈ ends, isBlank c = true) :
    trim (cs ++ ends) = trim cs := by
  have hreverse : ∀ c ∈ ends.reverse, isBlank c = true := fun c hc =>
    hends c (List.mem_reverse.1 hc)
  unfold trim trimStart
  rw [List.dropWhile_append]
  split
  next hnil => rw [List.isEmpty_iff.1 hnil, List.dropWhile_eq_nil_iff.2 hends]
  next => rw [trimEnd, List.reverse_append, List.dropWhile_append_of_pos hreverse, trimEnd]

/-- Nothing is left of a text exactly if all of it is blank. -/
theorem trim_eq_nil_iff : trim cs = [] ↔ ∀ c ∈ cs, isBlank c = true := by
  constructor
  · intro h
    unfold trim trimEnd at h
    rw [List.reverse_eq_nil_iff, List.dropWhile_eq_nil_iff] at h
    -- What is left at the front would start with a character that is not blank.
    cases hstart : trimStart cs with
    | nil => exact List.dropWhile_eq_nil_iff.1 hstart
    | cons c rest =>
        have hblank : isBlank c = true := h c (by simp [hstart])
        have hhead := List.head?_dropWhile_not isBlank cs
        rw [← trimStart, hstart] at hhead
        exact absurd (hblank.symm.trans hhead) Bool.noConfusion
  · intro h
    rw [← List.nil_append cs, trim_append_of_blank h]
    rfl

/-- Blanks at the front of a text do not count. -/
theorem trim_blank_append (hstarts : ∀ c ∈ starts, isBlank c = true) :
    trim (starts ++ cs) = trim cs := by
  rw [trim, trimStart, List.dropWhile_append_of_pos hstarts]
  rfl

/-- Behind what is dropped at the end of a text there are only blanks. -/
theorem exists_trimEnd (cs : List Char) :
    ∃ ends, cs = trimEnd cs ++ ends ∧ ∀ c ∈ ends, isBlank c = true := by
  refine ⟨(cs.reverse.takeWhile isBlank).reverse, ?_, fun c hc => ?_⟩
  · rw [trimEnd, ← List.reverse_append, List.takeWhile_append_dropWhile, List.reverse_reverse]
  · exact List.mem_takeWhile_imp (List.mem_reverse.1 hc)

/-- Without the blanks at its end a text trims to the same. -/
theorem trim_trimEnd (cs : List Char) : trim (trimEnd cs) = trim cs := by
  obtain ⟨ends, hcs, hends⟩ := exists_trimEnd cs
  calc trim (trimEnd cs) = trim (trimEnd cs ++ ends) := (trim_append_of_blank hends).symm
    _ = trim cs := by rw [← hcs]

/-- What is left without the blanks at the end starts as the text does. -/
theorem head?_trimEnd {c : Char} (h : (trimEnd cs).head? = some c) : cs.head? = some c := by
  obtain ⟨ends, hcs, -⟩ := exists_trimEnd cs
  rw [hcs, List.head?_append, h]
  rfl

/-- What is left without the blanks at the end does not end with one. -/
theorem getLast?_trimEnd {c : Char} (h : (trimEnd cs).getLast? = some c) : isBlank c = false := by
  rw [trimEnd, List.getLast?_reverse] at h
  have hhead := List.head?_dropWhile_not isBlank cs.reverse
  rw [h] at hhead
  exact hhead

/-- Blanks are dropped behind a text that does not end with one. -/
theorem trimEnd_append (hlast : ∀ c ∈ cs.getLast?, isBlank c = false) :
    trimEnd (cs ++ ends) = cs ++ trimEnd ends := by
  unfold trimEnd
  rw [List.reverse_append, List.dropWhile_append]
  split
  next hnil =>
    have hcs : cs.reverse.dropWhile isBlank = cs.reverse := by
      rw [← List.head?_reverse] at hlast
      cases hreverse : cs.reverse with
      | nil => rfl
      | cons c others =>
          rw [hreverse] at hlast
          exact List.dropWhile_cons_of_neg (Bool.eq_false_iff.1 (hlast c rfl))
    rw [List.isEmpty_iff.1 hnil, hcs, List.reverse_reverse]
    exact (List.append_nil cs).symm
  next => rw [List.reverse_append, List.reverse_reverse]

/-- A text with no blank at its front or at its end. -/
def IsTrimmed (text : List Char) : Prop :=
  (∀ c ∈ text.head?, isBlank c = false) ∧ ∀ c ∈ text.getLast?, isBlank c = false

/-- `text` is what is left of `cs` without the blanks around it. -/
def Trims (cs text : List Char) : Prop :=
  ∃ starts ends, cs = starts ++ text ++ ends ∧ (∀ c ∈ starts, isBlank c = true) ∧
    (∀ c ∈ ends, isBlank c = true) ∧ IsTrimmed text

/-- Trimming leaves what a text is without the blanks around it. -/
theorem trim_eq_iff : trim cs = text ↔ Trims cs text := by
  constructor
  · intro h
    subst h
    obtain ⟨ends, hstart, hends⟩ := exists_trimEnd (trimStart cs)
    refine ⟨cs.takeWhile isBlank, ends, ?_, fun c hc => List.mem_takeWhile_imp hc, hends, ?_, ?_⟩
    · calc cs = cs.takeWhile isBlank ++ trimStart cs := List.takeWhile_append_dropWhile.symm
        _ = cs.takeWhile isBlank ++ (trim cs ++ ends) := congrArg _ hstart
        _ = cs.takeWhile isBlank ++ trim cs ++ ends := (List.append_assoc _ _ _).symm
    · intro c hc
      have hhead := List.head?_dropWhile_not isBlank cs
      rw [← trimStart, head?_trimEnd hc] at hhead
      exact hhead
    · intro c hc
      exact getLast?_trimEnd hc
  · intro h
    obtain ⟨starts, ends, hcs, hstarts, hends, hhead, hlast⟩ := h
    rw [hcs]
    exact trim_append hstarts hends hhead hlast

/-! ## The first word -/

/-- `word` is the first word of a text: only blanks stand in front of it, and what follows it, if
anything does, starts with one. -/
structure IsFirstWord (cs word rest : List Char) : Prop where
  exists_starts : ∃ starts, (∀ c ∈ starts, isBlank c = true) ∧ cs = starts ++ (word ++ rest)
  ne_nil : word ≠ []
  unbroken : ∀ c ∈ word, isBlank c = false
  separated : ∀ c ∈ rest.head?, isBlank c = true

/-- A text that is not blank has a first word. -/
theorem exists_first_word (h : ¬ ∀ c ∈ cs, isBlank c = true) :
    ∃ word rest, IsFirstWord cs word rest := by
  have hhead : ∃ c others, trimStart cs = c :: others ∧ isBlank c = false := by
    obtain ⟨c, others, hstart⟩ := List.exists_cons_of_ne_nil (mt List.dropWhile_eq_nil_iff.1 h)
    have hhead := List.head?_dropWhile_not isBlank cs
    rw [hstart] at hhead
    exact ⟨c, others, hstart, hhead⟩
  obtain ⟨c, others, hstart, hc⟩ := hhead
  refine ⟨(firstWord (trimStart cs)).1, (firstWord (trimStart cs)).2, ⟨cs.takeWhile isBlank,
    fun c hc => List.mem_takeWhile_imp hc, ?_⟩, ?_, fun c hc => ?_, fun c hc => ?_⟩
  · show cs = _ ++ (List.takeWhile _ _ ++ List.dropWhile _ _)
    rw [List.takeWhile_append_dropWhile]
    exact List.takeWhile_append_dropWhile.symm
  · rw [firstWord, hstart, List.takeWhile_cons_of_pos (by simp [hc])]
    exact List.cons_ne_nil _ _
  · simpa using List.mem_takeWhile_imp hc
  · have hnot := List.head?_dropWhile_not (!isBlank ·) (trimStart cs)
    rw [show (trimStart cs).dropWhile (!isBlank ·) = (firstWord (trimStart cs)).2 from rfl,
      Option.mem_def.1 hc] at hnot
    simpa using hnot

/-- The first word of a text is that of the trimmed text, and so is what follows it but for the blanks
at the end. -/
theorem firstWord_trim (h : IsFirstWord cs word rest) :
    firstWord (trim cs) = (word, trimEnd rest) := by
  obtain ⟨⟨starts, hstarts, hcs⟩, hne, hunbroken, hseparated⟩ := h
  have hlast : ∀ c ∈ word.getLast?, isBlank c = false := fun c hc =>
    hunbroken c (List.mem_of_getLast? hc)
  have hstart : trimStart (word ++ rest) = word ++ rest := by
    obtain ⟨c, others, rfl⟩ := List.exists_cons_of_ne_nil hne
    exact List.dropWhile_cons_of_neg (Bool.eq_false_iff.1 (hunbroken c List.mem_cons_self))
  have htrim : trim cs = word ++ trimEnd rest := by
    rw [hcs, trim_blank_append hstarts, trim, hstart, trimEnd_append hlast]
  have hword : ∀ c ∈ word, (!isBlank c) = true := fun c hc => by rw [hunbroken c hc]; rfl
  have hrest : (trimEnd rest).takeWhile (!isBlank ·) = [] := by
    cases htail : trimEnd rest with
    | nil => rfl
    | cons c others =>
        have hc := hseparated c (head?_trimEnd (by rw [htail]; rfl))
        exact List.takeWhile_cons_of_neg (by simp [hc])
  have hdrop : (trimEnd rest).dropWhile (!isBlank ·) = trimEnd rest := by
    have happend := List.takeWhile_append_dropWhile (p := (!isBlank ·)) (l := trimEnd rest)
    rwa [hrest] at happend
  rw [htrim, firstWord, List.takeWhile_append_of_pos hword, List.dropWhile_append_of_pos hword,
    hrest, hdrop, List.append_nil]

end LintWatch.Text
