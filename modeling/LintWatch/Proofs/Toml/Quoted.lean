import LintWatch.Proofs.Json.Record
import LintWatch.Toml.Quoted

/-!
# Quoted texts in front of other things

What a reader of quoted texts makes of the characters in front does not depend on what follows them:
`local_read?`. Of a text between three quotes that holds only if what follows is no quote, for up to
two more quotes would belong to the text.
-/

namespace LintWatch.Toml.Quoted

/-- A reader that takes some characters off the front, and makes the same of them in front of
anything else that is as `Q` says. -/
def Local {α : Type} (Q : List Char → Prop) (read : List Char → Option (α × List Char)) : Prop :=
  ∀ cs a rest, read cs = some (a, rest) →
    ∃ front, cs = front ++ rest ∧ ∀ rest', Q rest' → read (front ++ rest') = some (a, rest')

/-- A text that does not go on with a quote. -/
def NoQuote (cs : List Char) : Prop :=
  ∀ c, cs.head? = some c → c ≠ '"' ∧ c ≠ '\''

variable {c d quote : Char} {cs front rest : List Char}

/-! ## Escapes -/

/-- Hexadecimal digits name a character whatever follows them. -/
theorem local_hexChar? (count : Nat) : Local (fun _ => True) (hexChar? count) := by
  intro cs c rest h
  simp only [hexChar?, Option.bind_eq_bind] at h
  obtain ⟨digits, hdigits, h⟩ := Option.bind_eq_some_iff.1 h
  split at h
  next hvalid =>
    obtain ⟨rfl, rfl⟩ := Prod.mk.inj (Option.some.inj h)
    refine ⟨cs.take count, (List.take_append_drop count cs).symm, fun rest' _ => ?_⟩
    have hlength : (cs.take count).length = count :=
      (Json.mapM_eq_some_iff.1 hdigits).length_eq.trans hvalid.1
    have htake : (cs.take count ++ rest').take count = cs.take count := List.take_left' hlength
    have hdrop : (cs.take count ++ rest').drop count = rest' := List.drop_left' hlength
    simp only [hexChar?, htake, hdrop, hdigits, Option.bind_eq_bind, Option.bind_some,
      if_pos hvalid]
  next => cases h

/-- An escape stands for a character whatever follows it. -/
theorem local_escape? : Local (fun _ => True) escape? := by
  intro cs d rest h
  cases cs with
  | nil => cases h
  | cons c cs =>
      -- The escapes by number and those of one letter differ only in what is read after the letter.
      have hhex : ∀ {count : Nat}, (∀ more, escape? (c :: more) = hexChar? count more) →
          ∃ front, c :: cs = front ++ rest ∧
            ∀ rest', True → escape? (front ++ rest') = some (d, rest') := by
        intro count hread
        rw [hread] at h
        obtain ⟨front, rfl, hfront⟩ := local_hexChar? count cs d rest h
        refine ⟨c :: front, rfl, fun rest' hrest' => ?_⟩
        rw [List.cons_append, hread]
        exact hfront rest' hrest'
      by_cases hx : c = 'x'
      · exact hhex fun more => by rw [escape?, if_pos hx]
      by_cases hu : c = 'u'
      · exact hhex fun more => by rw [escape?, if_neg hx, if_pos hu]
      by_cases hU : c = 'U'
      · exact hhex fun more => by rw [escape?, if_neg hx, if_neg hu, if_pos hU]
      have hread : ∀ more, escape? (c :: more) = (escaped? c).map (·, more) := by
        intro more
        rw [escape?, if_neg hx, if_neg hu, if_neg hU]
      rw [hread] at h
      obtain ⟨e, he, h⟩ := Option.map_eq_some_iff.1 h
      obtain ⟨rfl, rfl⟩ := Prod.mk.inj h
      refine ⟨[c], rfl, fun rest' _ => ?_⟩
      rw [List.cons_append, hread, he]
      rfl

/-- The letter of an escape is no blank and no line end. -/
theorem no_line_end_of_escape? (h : escape? (c :: cs) = some (d, rest)) (more : List Char) :
    startsWithLineEnd (dropBlanks (c :: more)) = false := by
  have hnone : ∀ e, e = ' ' ∨ e = '\t' ∨ e = '\n' ∨ e = '\r' → escape? (e :: cs) = none := by
    rintro e (rfl | rfl | rfl | rfl) <;> rfl
  have hc : ∀ e, e = ' ' ∨ e = '\t' ∨ e = '\n' ∨ e = '\r' → c ≠ e := by
    rintro e he rfl
    rw [hnone c he] at h
    cases h
  have hblank : (c = ' ' || c = '\t') = false := by
    simp [hc ' ' (by simp), hc '\t' (by simp)]
  rw [dropBlanks, List.dropWhile_cons_of_neg (by simp [hblank])]
  unfold startsWithLineEnd
  split
  next heq => exact absurd (List.cons.inj heq).1 (hc '\n' (by simp))
  next heq => exact absurd (List.cons.inj heq).1 (hc '\r' (by simp))
  next => rfl

/-! ## Texts on one line -/

/-- A text between double quotes ends with its closing quote. -/
theorem local_basic (found : List Char) : Local (fun _ => True) (basic found) := by
  intro cs
  fun_induction basic found cs with
  | case1 => exact fun _ _ h => nomatch h
  | case2 found cs =>
      intro text rest h
      obtain ⟨rfl, rfl⟩ := Prod.mk.inj (Option.some.inj h)
      refine ⟨['"'], rfl, fun rest' _ => ?_⟩
      rw [List.singleton_append, basic, if_pos rfl]
  | case3 found cs d more hescape _ hquote ih =>
      intro text rest h
      obtain ⟨escape, rfl, hlocal⟩ := local_escape? cs d more hescape
      obtain ⟨front, rfl, hfront⟩ := ih text rest h
      refine ⟨'\\' :: escape ++ front, by simp, fun rest' hrest' => ?_⟩
      have hescape' := hlocal (front ++ rest') trivial
      rw [List.append_assoc, List.cons_append, basic, if_neg hquote, if_pos rfl]
      split
      next e more' heq =>
        obtain ⟨rfl, rfl⟩ := Prod.mk.inj (Option.some.inj (hescape'.symm.trans heq))
        exact hfront rest' hrest'
      next heq => exact absurd (hescape'.symm.trans heq) (by simp)
  | case4 => exact fun _ _ h => nomatch h
  | case5 => exact fun _ _ h => nomatch h
  | case6 found c cs hquote hslash hcontrol ih =>
      intro text rest h
      obtain ⟨front, rfl, hfront⟩ := ih text rest h
      refine ⟨c :: front, rfl, fun rest' hrest' => ?_⟩
      rw [List.cons_append, basic, if_neg hquote, if_neg hslash, if_neg hcontrol]
      exact hfront rest' hrest'

/-- A text between single quotes ends with its closing quote. -/
theorem local_literal (found : List Char) : Local (fun _ => True) (literal found) := by
  intro cs
  fun_induction literal found cs with
  | case1 => exact fun _ _ h => nomatch h
  | case2 found cs =>
      intro text rest h
      obtain ⟨rfl, rfl⟩ := Prod.mk.inj (Option.some.inj h)
      refine ⟨['\''], rfl, fun rest' _ => ?_⟩
      rw [List.singleton_append, literal, if_pos rfl]
  | case3 => exact fun _ _ h => nomatch h
  | case4 found c cs hquote hcontrol ih =>
      intro text rest h
      obtain ⟨front, rfl, hfront⟩ := ih text rest h
      refine ⟨c :: front, rfl, fun rest' hrest' => ?_⟩
      rw [List.cons_append, literal, if_neg hquote, if_neg hcontrol]
      exact hfront rest' hrest'

/-! ## Texts of several lines -/

/-- What closes a text of several lines closes it in front of anything that is no quote. -/
theorem closing?_eq_some {count : Nat} (hquote : quote = '"' ∨ quote = '\'')
    (h : closing? quote cs = some (count, rest)) :
    ∃ front, cs = front ++ rest ∧ 3 ≤ front.length ∧
      ∀ rest', NoQuote rest' → closing? quote (front ++ rest') = some (count, rest') := by
  simp only [closing?] at h
  split at h
  next hthree =>
    obtain ⟨rfl, rfl⟩ := Prod.mk.inj (Option.some.inj h)
    generalize hquotes : cs.takeWhile (· = quote) = quotes at hthree
    have hall : ∀ c ∈ quotes, c = quote := by
      intro c hc
      rw [← hquotes] at hc
      simpa using List.all_eq_true.1 (List.all_takeWhile (l := cs)) c hc
    have hprefix : quotes <+: cs := by
      rw [← hquotes]
      exact List.takeWhile_prefix _
    have hlength : (cs.take (min quotes.length 5)).length = min quotes.length 5 := by
      have := hprefix.length_le
      rw [List.length_take]
      omega
    refine ⟨cs.take (min quotes.length 5), (List.take_append_drop _ cs).symm, by omega, ?_⟩
    intro rest' hrest'
    -- Of the quotes in front, as many as were taken stand there again, and no more follow.
    have hfront : ∀ c ∈ cs.take (min quotes.length 5), decide (c = quote) = true := by
      intro c hc
      have htake : cs.take (min quotes.length 5) = quotes.take (min quotes.length 5) := by
        obtain ⟨more, rfl⟩ := hprefix
        exact List.take_append_of_le_length (by omega)
      rw [htake] at hc
      exact decide_eq_true (hall c (List.mem_of_mem_take hc))
    have hrest : rest'.takeWhile (· = quote) = [] := by
      cases rest' with
      | nil => rfl
      | cons c rest' =>
          have hne : c ≠ quote := by
            rcases hquote with rfl | rfl
            · exact (hrest' c rfl).1
            · exact (hrest' c rfl).2
          exact List.takeWhile_cons_of_neg (by simpa using hne)
    have htaken : (cs.take (min quotes.length 5) ++ rest').takeWhile (· = quote)
        = cs.take (min quotes.length 5) := by
      rw [List.takeWhile_append_of_pos hfront, hrest, List.append_nil]
    simp only [closing?, htaken, hlength]
    rw [if_pos (by omega), List.drop_left' (by omega)]
    congr 2
    omega
  next => cases h

/-- Fewer than three quotes close nothing, whatever follows the character behind them. -/
theorem closing?_eq_none (hlength : 3 ≤ front.length)
    (h : closing? quote (c :: front ++ rest) = none) (rest' : List Char) :
    closing? quote (c :: front ++ rest') = none := by
  have hnone : ∀ cs, closing? quote cs = none ↔ (cs.takeWhile (· = quote)).length < 3 := by
    intro cs
    simp [closing?]
  rw [hnone, List.takeWhile_append] at h ⊢
  split at h
  next hall =>
    rw [List.length_append, List.length_cons] at h
    omega
  next hall =>
    rw [if_neg hall]
    exact h

/-- Whether a character may stand in a text of several lines is seen from the next one. -/
theorem isLineChar_append (hlength : 3 ≤ front.length) (rest rest' : List Char) :
    isLineChar c (front ++ rest) = isLineChar c (front ++ rest') := by
  cases front with
  | nil => cases hlength
  | cons d front => rfl

/-- A text between three single quotes ends with its closing quotes. -/
theorem literalLines_eq_some (found : List Char) {text : String}
    (h : literalLines found cs = some (text, rest)) :
    ∃ front, cs = front ++ rest ∧ 3 ≤ front.length ∧
      ∀ rest', NoQuote rest' → literalLines found (front ++ rest') = some (text, rest') := by
  fun_induction literalLines found cs with
  | case1 => cases h
  | case2 found c cs quotes more hclosing =>
      obtain ⟨rfl, rfl⟩ := Prod.mk.inj (Option.some.inj h)
      obtain ⟨front, hcs, hlength, hfront⟩ := closing?_eq_some (Or.inr rfl) hclosing
      refine ⟨front, hcs, hlength, fun rest' hrest' => ?_⟩
      cases front with
      | nil => cases hlength
      | cons d front =>
          rw [List.cons_append, literalLines, ← List.cons_append, hfront rest' hrest']
  | case3 found c cs hclosing hline ih =>
      obtain ⟨front, rfl, hlength, hfront⟩ := ih h
      refine ⟨c :: front, rfl, by simp only [List.length_cons]; omega, fun rest' hrest' => ?_⟩
      rw [List.cons_append, literalLines, ← List.cons_append, closing?_eq_none hlength hclosing]
      simp only [isLineChar_append hlength rest' rest, hline, if_true]
      exact hfront rest' hrest'
  | case4 => cases h

/-- Blank lines are dropped whatever follows them. -/
theorem dropBlankLines_eq (cs : List Char) :
    ∃ blank, cs = blank ++ dropBlankLines cs ∧
      ∀ rest, dropBlankLines (blank ++ rest) = dropBlankLines rest := by
  fun_induction dropBlankLines cs with
  | case1 cs ih | case2 cs ih | case3 cs ih =>
      obtain ⟨blank, hcs, hblank⟩ := ih
      refine ⟨_ :: blank, congrArg _ hcs, fun rest => ?_⟩
      rw [List.cons_append, dropBlankLines, hblank]
  | case4 cs ih =>
      obtain ⟨blank, hcs, hblank⟩ := ih
      refine ⟨'\r' :: '\n' :: blank, congrArg (fun cs => '\r' :: '\n' :: cs) hcs, fun rest => ?_⟩
      rw [List.cons_append, List.cons_append, dropBlankLines, hblank]
  | case5 cs => exact ⟨[], rfl, fun _ => rfl⟩

/-- What is left after dropping blank lines has none in front. -/
theorem dropBlankLines_idem (cs : List Char) :
    dropBlankLines (dropBlankLines cs) = dropBlankLines cs := by
  obtain ⟨blank, hcs, hblank⟩ := dropBlankLines_eq cs
  rw [← hblank, ← hcs]

/-- Whether there are blank lines in front is seen from the first two characters. -/
theorem dropBlankLines_append (hlength : 3 ≤ front.length)
    (h : dropBlankLines (front ++ rest) = front ++ rest) (rest' : List Char) :
    dropBlankLines (front ++ rest') = front ++ rest' := by
  match front, hlength with
  | c :: d :: more, _ =>
      have hlong : ∀ cs, cs.length < more.length + rest.length + 2 →
          dropBlankLines cs ≠ c :: d :: (more ++ rest) := by
        intro cs hcs heq
        have hle := length_dropBlankLines_le cs
        rw [heq] at hle
        simp only [List.length_cons, List.length_append] at hle
        omega
      simp only [List.cons_append] at h ⊢
      unfold dropBlankLines
      split
      next heq =>
        obtain ⟨rfl, -⟩ := List.cons.inj heq
        exact absurd h (hlong (d :: (more ++ rest)) (by simp))
      next heq =>
        obtain ⟨rfl, -⟩ := List.cons.inj heq
        exact absurd h (hlong (d :: (more ++ rest)) (by simp))
      next heq =>
        obtain ⟨rfl, -⟩ := List.cons.inj heq
        exact absurd h (hlong (d :: (more ++ rest)) (by simp))
      next heq =>
        obtain ⟨rfl, hd⟩ := List.cons.inj heq
        obtain ⟨rfl, -⟩ := List.cons.inj hd
        exact absurd h (hlong (more ++ rest) (by simp))
      next => rfl

/-- A backslash at the end of a line joins the next line that is not blank, whatever stands
there. -/
theorem dropBlankLines_of_line_end (h : startsWithLineEnd (dropBlanks cs) = true) :
    ∃ blank, cs = blank ++ dropBlankLines cs ∧
      ∀ rest, startsWithLineEnd (dropBlanks (blank ++ rest)) = true ∧
        dropBlankLines (blank ++ rest) = dropBlankLines rest := by
  induction cs with
  | nil => cases h
  | cons c cs ih =>
      by_cases hblank : (c = ' ' || c = '\t') = true
      · have hdrop : ∀ more, dropBlanks (c :: more) = dropBlanks more :=
          fun more => List.dropWhile_cons_of_pos hblank
        have hlines : ∀ more, dropBlankLines (c :: more) = dropBlankLines more := by
          intro more
          simp only [Bool.or_eq_true, decide_eq_true_eq] at hblank
          rcases hblank with rfl | rfl <;> rw [dropBlankLines]
        rw [hdrop] at h
        obtain ⟨blank, hcs, hblank⟩ := ih h
        refine ⟨c :: blank, by rw [hlines, List.cons_append, ← hcs], fun rest => ?_⟩
        rw [List.cons_append, hdrop, hlines]
        exact hblank rest
      · have hdrop : ∀ more, dropBlanks (c :: more) = c :: more :=
          fun more => List.dropWhile_cons_of_neg hblank
        rw [hdrop] at h
        unfold startsWithLineEnd at h
        split at h
        next more heq =>
          obtain ⟨rfl, rfl⟩ := List.cons.inj heq
          obtain ⟨blank, hcs, hlines⟩ := dropBlankLines_eq cs
          refine ⟨'\n' :: blank, ?_, fun rest => ⟨by rw [List.cons_append, hdrop]; rfl, ?_⟩⟩
          · rw [dropBlankLines, List.cons_append, ← hcs]
          · rw [List.cons_append, dropBlankLines, hlines]
        next more heq =>
          obtain ⟨rfl, rfl⟩ := List.cons.inj heq
          obtain ⟨blank, hcs, hlines⟩ := dropBlankLines_eq more
          refine ⟨'\r' :: '\n' :: blank, ?_, fun rest => ⟨?_, ?_⟩⟩
          · rw [dropBlankLines, List.cons_append, List.cons_append, ← hcs]
          · rw [List.cons_append, hdrop]
            rfl
          · rw [List.cons_append, List.cons_append, dropBlankLines, hlines]
        next => cases h

/-- A text between three double quotes ends with its closing quotes. -/
theorem basicLines_eq_some (found : List Char) {text : String}
    (h : basicLines found cs = some (text, rest)) :
    ∃ front, cs = front ++ rest ∧ 3 ≤ front.length ∧
      ∀ rest', NoQuote rest' → basicLines found (front ++ rest') = some (text, rest') := by
  fun_induction basicLines found cs with
  | case1 => cases h
  | case2 found c cs quotes more hclosing =>
      obtain ⟨rfl, rfl⟩ := Prod.mk.inj (Option.some.inj h)
      obtain ⟨front, hcs, hlength, hfront⟩ := closing?_eq_some (Or.inl rfl) hclosing
      refine ⟨front, hcs, hlength, fun rest' hrest' => ?_⟩
      cases front with
      | nil => cases hlength
      | cons d front =>
          rw [List.cons_append, basicLines, ← List.cons_append, hfront rest' hrest']
  | case3 found cs hend _ hclosing ih =>
      obtain ⟨front, hlines, hlength, hfront⟩ := ih h
      obtain ⟨blank, hcs, hblank⟩ := dropBlankLines_of_line_end hend
      have hfixed : ∀ rest', dropBlankLines (front ++ rest') = front ++ rest' :=
        dropBlankLines_append hlength (by rw [← hlines, dropBlankLines_idem])
      refine ⟨'\\' :: (blank ++ front), ?_, ?_, fun rest' hrest' => ?_⟩
      · rw [List.cons_append, List.append_assoc, ← hlines, ← hcs]
      · simp only [List.length_cons, List.length_append]
        omega
      · have hnone : closing? '"' ('\\' :: (blank ++ front) ++ rest') = none := rfl
        rw [List.cons_append, basicLines, ← List.cons_append, hnone]
        simp only [if_true]
        rw [List.append_assoc, if_pos (hblank _).1, (hblank _).2, hfixed]
        exact hfront rest' hrest'
  | case4 found cs hend d more hescape _ hclosing ih =>
      obtain ⟨front, rfl, hlength, hfront⟩ := ih h
      obtain ⟨escape, rfl, hlocal⟩ := local_escape? cs d _ hescape
      refine ⟨'\\' :: (escape ++ front), by simp, ?_, fun rest' hrest' => ?_⟩
      · simp only [List.length_cons, List.length_append]
        omega
      · have hescape' := hlocal (front ++ rest') trivial
        have hnone : closing? '"' ('\\' :: (escape ++ front) ++ rest') = none := rfl
        have hend' : startsWithLineEnd (dropBlanks (escape ++ (front ++ rest'))) = false := by
          cases escape with
          | nil =>
              have := length_escape?_lt hescape
              rw [List.nil_append] at this
              exact absurd this (Nat.lt_irrefl _)
          | cons e escape => exact no_line_end_of_escape? hescape' _
        rw [List.cons_append, basicLines, ← List.cons_append, hnone]
        simp only [if_true]
        rw [List.append_assoc, hend', if_neg Bool.false_ne_true]
        split
        next e more' heq =>
          obtain ⟨rfl, rfl⟩ := Prod.mk.inj (Option.some.inj (hescape'.symm.trans heq))
          exact hfront rest' hrest'
        next heq => exact absurd (hescape'.symm.trans heq) (by simp)
  | case5 => cases h
  | case6 found c cs hclosing hslash hline ih =>
      obtain ⟨front, rfl, hlength, hfront⟩ := ih h
      refine ⟨c :: front, rfl, by simp only [List.length_cons]; omega, fun rest' hrest' => ?_⟩
      rw [List.cons_append, basicLines, ← List.cons_append, closing?_eq_none hlength hclosing]
      simp only [if_neg hslash, isLineChar_append hlength rest' rest, hline, if_true]
      exact hfront rest' hrest'
  | case7 => cases h

/-- The line end behind the opening quotes is dropped whatever follows it. -/
theorem dropLineEnd_eq (h : dropLineEnd cs = front ++ rest) (hlength : 3 ≤ front.length) :
    ∃ lineEnd, cs = lineEnd ++ (front ++ rest) ∧
      ∀ rest', dropLineEnd (lineEnd ++ (front ++ rest')) = front ++ rest' := by
  unfold dropLineEnd at h
  split at h
  next => exact ⟨['\n'], by rw [h]; rfl, fun _ => rfl⟩
  next => exact ⟨['\r', '\n'], by rw [h]; rfl, fun _ => rfl⟩
  next hline hreturn =>
    subst h
    refine ⟨[], rfl, fun rest' => ?_⟩
    match front, hlength with
    | c :: d :: more, _ =>
        rw [List.nil_append, List.cons_append, List.cons_append]
        unfold dropLineEnd
        split
        next heq =>
          obtain ⟨rfl, -⟩ := List.cons.inj heq
          exact absurd rfl (hline _)
        next heq =>
          obtain ⟨rfl, hd⟩ := List.cons.inj heq
          obtain ⟨rfl, -⟩ := List.cons.inj hd
          exact absurd rfl (hreturn _)
        next => rfl

/-- A text between one quote on each side, when three quotes do not stand in front. -/
theorem local_one_quote (hquote : quote = '"' ∨ quote = '\'')
    {read : List Char → Option (String × List Char)} (hread : Local (fun _ => True) read)
    (hempty : ∀ cs, read (quote :: cs) = some ("", cs)) {text : String}
    (h : read cs = some (text, rest)) (hcs : ∀ more, cs ≠ quote :: quote :: more) :
    ∃ front, cs = front ++ rest ∧ ∀ rest', NoQuote rest' →
      read (front ++ rest') = some (text, rest') ∧
        ∀ more, front ++ rest' ≠ quote :: quote :: more := by
  obtain ⟨front, rfl, hfront⟩ := hread _ _ _ h
  refine ⟨front, rfl, fun rest' hrest' => ⟨hfront rest' trivial, ?_⟩⟩
  intro more hmore
  match front with
  | [] =>
      -- A reader that takes nothing would take the quote in front of `more`.
      have hnil := hfront [quote] trivial
      rw [List.nil_append, hempty] at hnil
      exact absurd (Prod.mk.inj (Option.some.inj hnil)).2 (by simp)
  | [c] =>
      have hrest : rest' = quote :: more := (List.cons.inj hmore).2
      have hhead := hrest' quote (by rw [hrest]; rfl)
      rcases hquote with rfl | rfl
      · exact hhead.1 rfl
      · exact hhead.2 rfl
  | c :: d :: front =>
      obtain ⟨rfl, hd⟩ := List.cons.inj hmore
      obtain ⟨rfl, -⟩ := List.cons.inj hd
      exact hcs _ rfl

/-- A quoted text reads the same in front of anything that is no quote. -/
theorem local_read? : Local NoQuote read? := by
  intro cs text rest h
  unfold read? at h
  split at h
  next cs =>
    obtain ⟨front, hcs, hlength, hfront⟩ := basicLines_eq_some [] h
    obtain ⟨lineEnd, rfl, hline⟩ := dropLineEnd_eq hcs hlength
    refine ⟨'"' :: '"' :: '"' :: (lineEnd ++ front), by simp, fun rest' hrest' => ?_⟩
    show basicLines [] (dropLineEnd (lineEnd ++ front ++ rest')) = _
    rw [List.append_assoc, hline]
    exact hfront rest' hrest'
  next cs hthree =>
    obtain ⟨front, rfl, hfront⟩ := local_one_quote (Or.inl rfl) (local_basic [])
      (fun cs => by rw [basic, if_pos rfl]; rfl) h fun more hmore => hthree more (by rw [hmore])
    refine ⟨'"' :: front, rfl, fun rest' hrest' => ?_⟩
    obtain ⟨hread, hne⟩ := hfront rest' hrest'
    unfold read?
    split
    next heq => exact absurd (List.cons.inj heq).2 (hne _)
    next heq =>
      rw [← (List.cons.inj heq).2]
      exact hread
    next heq => cases heq
    next heq => cases heq
    next hone _ _ => exact absurd rfl (hone _)
  next cs =>
    obtain ⟨front, hcs, hlength, hfront⟩ := literalLines_eq_some [] h
    obtain ⟨lineEnd, rfl, hline⟩ := dropLineEnd_eq hcs hlength
    refine ⟨'\'' :: '\'' :: '\'' :: (lineEnd ++ front), by simp, fun rest' hrest' => ?_⟩
    show literalLines [] (dropLineEnd (lineEnd ++ front ++ rest')) = _
    rw [List.append_assoc, hline]
    exact hfront rest' hrest'
  next cs hthree =>
    obtain ⟨front, rfl, hfront⟩ := local_one_quote (Or.inr rfl) (local_literal [])
      (fun cs => by rw [literal, if_pos rfl]; rfl) h fun more hmore => hthree more (by rw [hmore])
    refine ⟨'\'' :: front, rfl, fun rest' hrest' => ?_⟩
    obtain ⟨hread, hne⟩ := hfront rest' hrest'
    unfold read?
    split
    next heq => cases heq
    next heq => cases heq
    next heq => exact absurd (List.cons.inj heq).2 (hne _)
    next heq =>
      rw [← (List.cons.inj heq).2]
      exact hread
    next hone => exact absurd rfl (hone _)
  next => cases h

end LintWatch.Toml.Quoted
