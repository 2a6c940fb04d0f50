import LintWatch.Proofs.Json.RoundTrip

/-!
# Texts that go on

Bytes may be followed by more bytes, as when a text arrives in parts. A reader of tokens makes the
same of them as long as its token ends before they do, and no token but a numeral can end later than
its own last byte (`scan_append`). So an array is over with its last bracket: what follows it can be
blanks only, and they change nothing (`of_bytes_array_append`).
-/

namespace LintWatch.Json

open LintWatch.Text
open LintWatch.Text.Utf8 (encode)

/-- A reader makes the same of bytes that go on, if what it has left of them is as `Q` says. -/
def Steady {α : Type} (Q : List UInt8 → Prop) (read : List UInt8 → Option (α × List UInt8)) :
    Prop :=
  ∀ bytes a rest, read bytes = some (a, rest) → Q rest →
    ∀ more, read (bytes ++ more) = some (a, rest ++ more)

variable {bytes rest more : List UInt8} {b : UInt8} {t : Token} {found ts us : List Token}

/-! ## Numerals -/

/-- Digits that are followed by something stay the same. -/
theorem digits_append (h : afterDigits bytes ≠ []) (more : List UInt8) :
    (bytes ++ more).takeWhile isDigit = bytes.takeWhile isDigit ∧
      afterDigits (bytes ++ more) = afterDigits bytes ++ more := by
  unfold afterDigits at h ⊢
  constructor
  · rw [List.takeWhile_append, if_neg]
    intro hall
    have hlength := length_takeWhile_add_afterDigits bytes
    exact h (List.eq_nil_of_length_eq_zero (by unfold afterDigits at hlength; omega))
  · rw [List.dropWhile_append, if_neg (by simpa using h)]

/-- A fraction stays the same if it is not at the end. -/
theorem steady_scanFraction : Steady (· ≠ []) scanFraction := by
  intro bytes digits rest h hrest more
  cases bytes with
  | nil =>
      obtain ⟨-, rfl⟩ := Prod.mk.inj (Option.some.inj h)
      exact absurd rfl hrest
  | cons b tail =>
      rw [List.cons_append]
      simp only [scanFraction] at h ⊢
      by_cases hpoint : b = 0x2E
      · rw [if_pos hpoint] at h ⊢
        obtain ⟨hdigits, h⟩ := Option.ite_none_left_eq_some.1 h
        obtain ⟨rfl, rfl⟩ := Prod.mk.inj (Option.some.inj h)
        obtain ⟨htake, hdrop⟩ := digits_append hrest more
        rw [htake, hdrop, if_neg hdigits]
      · rw [if_neg hpoint] at h ⊢
        obtain ⟨rfl, rfl⟩ := Prod.mk.inj (Option.some.inj h)
        rfl

/-- The digits of an exponent stay the same if they are not at the end. -/
theorem steady_scanExponentDigits (negative : Bool) :
    Steady (· ≠ []) (scanExponentDigits negative) := by
  intro bytes exponent rest h hrest more
  unfold scanExponentDigits at h ⊢
  obtain ⟨hdigits, h⟩ := Option.ite_none_left_eq_some.1 h
  obtain ⟨rfl, rfl⟩ := Prod.mk.inj (Option.some.inj h)
  obtain ⟨htake, hdrop⟩ := digits_append hrest more
  rw [htake, hdrop, if_neg hdigits]

/-- An exponent stays the same if it is not at the end. -/
theorem steady_scanExponent : Steady (· ≠ []) scanExponent := by
  intro bytes exponent rest h hrest more
  cases bytes with
  | nil =>
      obtain ⟨-, rfl⟩ := Prod.mk.inj (Option.some.inj h)
      exact absurd rfl hrest
  | cons b tail =>
      rw [List.cons_append]
      simp only [scanExponent] at h ⊢
      by_cases hletter : b = 0x65 ∨ b = 0x45
      · rw [if_pos hletter] at h ⊢
        cases tail with
        | nil => cases h
        | cons c after =>
            simp only [List.cons_append]
            simp only at h
            by_cases hminus : c = 0x2D
            · rw [if_pos hminus] at h ⊢
              exact steady_scanExponentDigits true _ _ _ h hrest more
            by_cases hplus : c = 0x2B
            · rw [if_neg hminus, if_pos hplus] at h ⊢
              exact steady_scanExponentDigits false _ _ _ h hrest more
            · rw [if_neg hminus, if_neg hplus] at h ⊢
              exact steady_scanExponentDigits false _ _ _ h hrest more
      · rw [if_neg hletter] at h ⊢
        obtain ⟨rfl, rfl⟩ := Prod.mk.inj (Option.some.inj h)
        rfl

/-- A numeral stays the same if it is not at the end. -/
theorem steady_scanNumeral (negative : Bool) : Steady (· ≠ []) (scanNumeral negative) := by
  intro bytes numeral rest h hrest more
  simp only [scanNumeral, Option.bind_eq_bind, Option.pure_def] at h ⊢
  obtain ⟨hwhole, h⟩ := Option.ite_none_left_eq_some.1 h
  obtain ⟨⟨fraction, behind⟩, hfraction, h⟩ := Option.bind_eq_some_iff.1 h
  obtain ⟨⟨exponent, after⟩, hexponent, h⟩ := Option.bind_eq_some_iff.1 h
  obtain ⟨rfl, rfl⟩ := Prod.mk.inj (Option.some.inj h)
  -- Where nothing follows, there is no fraction and no exponent either.
  have hbehind : behind ≠ [] := by
    rintro rfl
    obtain ⟨-, rfl⟩ := Prod.mk.inj (Option.some.inj hexponent)
    exact hrest rfl
  have hdigits : afterDigits bytes ≠ [] := by
    intro hnone
    rw [hnone] at hfraction
    obtain ⟨-, rfl⟩ := Prod.mk.inj (Option.some.inj hfraction)
    exact hbehind rfl
  obtain ⟨htake, hdrop⟩ := digits_append hdigits more
  rw [htake, hdrop, if_neg hwhole, steady_scanFraction _ _ _ hfraction hbehind more,
    Option.bind_some, steady_scanExponent _ _ _ hexponent hrest more]
  rfl

/-! ## Words and texts -/

/-- A word stays the same, whatever follows. -/
theorem after_word_append_more {word : String} (h : afterWord? word bytes = some rest)
    (more : List UInt8) : afterWord? word (bytes ++ more) = some (rest ++ more) := by
  simp only [afterWord?, Option.ite_none_right_eq_some, List.isPrefixOf_iff_prefix] at h ⊢
  obtain ⟨hfront, h⟩ := h
  obtain rfl := Option.some.inj h
  refine ⟨hfront.trans (List.prefix_append _ _), ?_⟩
  rw [List.drop_append_of_le_length hfront.length_le]

/-- An escape stays the same, whatever follows. -/
theorem steady_scanEscape : Steady (fun _ => True) scanEscape := by
  intro bytes piece rest h _ more
  unfold scanEscape at h
  split at h
  next => cases h
  next b tail =>
    split at h
    next hunit =>
      split at h
      next h₁ h₂ h₃ h₄ after =>
        obtain ⟨n, hn, heq⟩ := Option.map_eq_some_iff.1 h
        obtain ⟨rfl, rfl⟩ := Prod.mk.inj heq
        simp [scanEscape, hunit, hn]
      next => cases h
    next hletter =>
      obtain ⟨e, he, heq⟩ := Option.map_eq_some_iff.1 h
      obtain ⟨rfl, rfl⟩ := Prod.mk.inj heq
      simp [scanEscape, hletter, he]

/-- A text ends at its quote, whatever follows. -/
theorem steady_scanPieces (pieces : List Piece) : Steady (fun _ => True) (scanPieces pieces) := by
  intro bytes all rest h _ more
  fun_induction scanPieces pieces bytes with
  | case1 => cases h
  | case2 pieces tail =>
      obtain ⟨rfl, rfl⟩ := Prod.mk.inj (Option.some.inj h)
      rw [List.cons_append, scanPieces, if_pos rfl]
  | case3 => cases h
  | case4 pieces tail piece after hescape _ _ ih =>
      rw [List.cons_append]
      exact (scan_pieces_escape (steady_scanEscape _ _ _ hescape trivial more) pieces).trans (ih h)
  | case5 => cases h
  | case6 pieces b tail hquote hbackslash hlow ih =>
      rw [List.cons_append, scanPieces, if_neg hquote, if_neg hbackslash, if_neg hlow]
      exact ih h

/-! ## Tokens -/

/-- A token that is a number. -/
def IsNumeral (t : Token) : Prop :=
  ∃ n, t = .scalar (.number n)

/-- A scalar stays the same if it is not at the end or is no number. -/
theorem scanScalar_append {s : Scalar} (h : scanScalar b bytes = some (s, rest))
    (hend : rest ≠ [] ∨ ¬ IsNumeral (.scalar s)) (more : List UInt8) :
    scanScalar b (bytes ++ more) = some (s, rest ++ more) := by
  have hword : ∀ {word : String} {value : Scalar},
      (afterWord? word bytes).map (fun r => (value, r)) = some (s, rest) →
      (afterWord? word (bytes ++ more)).map (fun r => (value, r)) = some (s, rest ++ more) := by
    intro word value h
    obtain ⟨r, hr, heq⟩ := Option.map_eq_some_iff.1 h
    obtain ⟨rfl, rfl⟩ := Prod.mk.inj heq
    rw [after_word_append_more hr more]
    rfl
  have hnumeral : ∀ {negative : Bool} {input : List UInt8},
      (scanNumeral negative input).map (fun k => (Scalar.number k.1.value?, k.2))
        = some (s, rest) →
      (scanNumeral negative (input ++ more)).map (fun k => (Scalar.number k.1.value?, k.2))
        = some (s, rest ++ more) := by
    intro negative input h
    obtain ⟨⟨n, r⟩, hr, heq⟩ := Option.map_eq_some_iff.1 h
    obtain ⟨rfl, rfl⟩ := Prod.mk.inj heq
    have hrest : r ≠ [] := hend.resolve_right (not_not_intro ⟨_, rfl⟩)
    rw [steady_scanNumeral negative _ _ _ hr hrest more]
    rfl
  unfold scanScalar at h ⊢
  by_cases hquote : b = 0x22
  · rw [if_pos hquote] at h ⊢
    obtain ⟨⟨pieces, r⟩, hr, heq⟩ := Option.map_eq_some_iff.1 h
    obtain ⟨rfl, rfl⟩ := Prod.mk.inj heq
    rw [steady_scanPieces [] _ _ _ hr trivial more]
    rfl
  rw [if_neg hquote] at h ⊢
  by_cases hnull : b = 0x6E
  · rw [if_pos hnull] at h ⊢
    exact hword h
  rw [if_neg hnull] at h ⊢
  by_cases htrue : b = 0x74
  · rw [if_pos htrue] at h ⊢
    exact hword h
  rw [if_neg htrue] at h ⊢
  by_cases hfalse : b = 0x66
  · rw [if_pos hfalse] at h ⊢
    exact hword h
  rw [if_neg hfalse] at h ⊢
  by_cases hminus : b = 0x2D
  · rw [if_pos hminus] at h ⊢
    exact hnumeral h
  · rw [if_neg hminus] at h ⊢
    exact hnumeral h

/-- A token stays the same if it is not at the end or is no number. -/
theorem scan_append (h : scan b bytes = some (t, rest)) (hend : rest ≠ [] ∨ ¬ IsNumeral t)
    (more : List UInt8) : scan b (bytes ++ more) = some (t, rest ++ more) := by
  unfold scan at h ⊢
  cases hpunctuation : punctuation? b with
  | some mark =>
      rw [hpunctuation] at h
      obtain ⟨rfl, rfl⟩ := Prod.mk.inj (Option.some.inj h)
      rfl
  | none =>
      rw [hpunctuation] at h
      obtain ⟨⟨s, r⟩, hr, heq⟩ := Option.map_eq_some_iff.1 h
      obtain ⟨rfl, rfl⟩ := Prod.mk.inj heq
      rw [scanScalar_append hr hend more]
      rfl

/-- The tokens of bytes that go on are those of the bytes that come first and then those of the
others, unless a number stands where they meet. -/
theorem tokens_from_append (h : tokensFrom found bytes = some ts)
    (hlast : ∀ t ∈ ts.getLast?, ¬ IsNumeral t) (more : List UInt8) :
    tokensFrom found (bytes ++ more) = tokensFrom ts.reverse more := by
  fun_induction tokensFrom found bytes with
  | case1 found =>
      obtain rfl := Option.some.inj h
      rw [List.nil_append, List.reverse_reverse]
  | case2 found b tail hspace ih =>
      rw [List.cons_append, tokensFrom, if_pos hspace]
      exact ih h
  | case3 => cases h
  | case4 found b tail hspace t after hscan _ ih =>
      have hend : after ≠ [] ∨ ¬ IsNumeral t := by
        -- A token at the end of the bytes is the last one.
        rcases List.eq_nil_or_concat after with rfl | ⟨_, _, rfl⟩
        · rw [tokensFrom] at h
          obtain rfl := Option.some.inj h
          exact Or.inr (hlast t (by simp))
        · exact Or.inl (by simp)
      have hblank : isSpace b = false := by simpa using hspace
      rw [List.cons_append, tokens_from_cons hblank (scan_append hscan hend more)]
      exact ih h

/-- The tokens that are found come after those that were there, and only blanks have none. -/
theorem exists_of_tokens_from (h : tokensFrom found bytes = some ts) :
    ∃ us, ts = found.reverse ++ us ∧ (us = [] → ∀ b ∈ bytes, isSpace b = true) := by
  fun_induction tokensFrom found bytes with
  | case1 found =>
      obtain rfl := Option.some.inj h
      exact ⟨[], (List.append_nil _).symm, fun _ => nofun⟩
  | case2 found b tail hspace ih =>
      obtain ⟨us, hus, hblank⟩ := ih h
      exact ⟨us, hus, fun hnil => List.forall_mem_cons.2 ⟨hspace, hblank hnil⟩⟩
  | case3 => cases h
  | case4 found b tail hspace t after hscan _ ih =>
      obtain ⟨us, hus, -⟩ := ih h
      exact ⟨t :: us, by simpa using hus, nofun⟩

/-! ## Trees -/

namespace Builder

variable {b b' : Builder} {items : List Tree} {frames : List Frame} {tree : Tree}

/-- A value that is complete is the result if it stands in no bracket. -/
theorem result_complete :
    (complete tree frames).result? = if frames = [] then some tree else none := by
  cases frames with
  | nil => rfl
  | cons frame frames => cases frame <;> rfl

/-- Only the last bracket completes an array. -/
theorem eq_array_end_of_step {t : Token} (h : b.step t = some b')
    (hresult : b'.result? = some (.array items)) : t = .arrayEnd := by
  have hcomplete : ∀ tree frames, some (complete tree frames) = some b' →
      tree = .array items := by
    rintro tree frames h
    rw [← Option.some.inj h, result_complete] at hresult
    exact Option.some.inj (Option.ite_none_right_eq_some.1 hresult).2
  have hopen : ∀ frames expected, (∀ tree, expected ≠ .finished tree) →
      some ⟨frames, expected⟩ ≠ some b' := by
    rintro frames expected hexpected h
    rw [← Option.some.inj h] at hresult
    unfold result? at hresult
    split at hresult
    next heq => exact hexpected _ heq
    next => cases hresult
  have hvalue : ∀ frames, stepValue frames t ≠ some b' := by
    rintro frames h
    unfold stepValue at h
    split at h
    · cases hcomplete _ _ h
    · exact absurd h (hopen _ _ nofun)
    · exact absurd h (hopen _ _ nofun)
    · cases h
  unfold step at h
  split at h
  · exact absurd h (hvalue _)
  · rfl
  · exact absurd h (hvalue _)
  · exact absurd h (hopen _ _ nofun)
  · exact absurd h (hopen _ _ nofun)
  · cases hcomplete _ _ h
  · exact absurd h (hopen _ _ nofun)
  · exact absurd h (hopen _ _ nofun)
  · rfl
  · exact absurd h (hopen _ _ nofun)
  · cases hcomplete _ _ h
  · cases h

end Builder

namespace Tree

variable {items : List Tree} {tree tree' : Tree}

/-- The tokens of an array end with its last bracket. -/
theorem last_of_tokens_array (h : ofTokens? ts = some (.array items)) :
    ts.getLast? = some .arrayEnd := by
  obtain ⟨b, hrun, hresult⟩ := Option.bind_eq_some_iff.1 h
  rcases List.eq_nil_or_concat ts with rfl | ⟨init, last, rfl⟩
  · obtain rfl := Option.some.inj hrun
    cases hresult
  · rw [List.concat_eq_append, Builder.run_append] at hrun
    obtain ⟨b', -, hlast⟩ := Option.bind_eq_some_iff.1 hrun
    have hstep : b'.step last = some b := by
      rw [Builder.run] at hlast
      cases hnext : b'.step last with
      | none =>
          rw [hnext] at hlast
          cases hlast
      | some next =>
          rw [hnext] at hlast
          exact hlast
    rw [List.concat_eq_append, List.getLast?_concat, Builder.eq_array_end_of_step hstep hresult]

/-- No tokens follow those of a whole value. -/
theorem eq_nil_of_tokens_append (h : ofTokens? ts = some tree)
    (hmore : ofTokens? (ts ++ us) = some tree') : us = [] := by
  obtain ⟨b, hrun, hresult⟩ := Option.bind_eq_some_iff.1 h
  obtain ⟨b', hrun', -⟩ := Option.bind_eq_some_iff.1 hmore
  rw [Builder.run_append, hrun, Option.bind_some] at hrun'
  cases us with
  | nil => rfl
  | cons u us =>
      have hfinished : b.expected = .finished tree := by
        unfold Builder.result? at hresult
        split at hresult
        next heq => rw [heq, Option.some.inj hresult]
        next => cases hresult
      rw [Builder.run, Builder.step_finished hfinished] at hrun'
      cases hrun'

/-- What follows an array is blank if it is followed by anything that leaves one value, which is
then the array. -/
theorem of_bytes_array_append (h : ofBytes? bytes = some (.array items))
    (hmore : ofBytes? (bytes ++ more) = some tree) :
    tree = .array items ∧ ∀ b ∈ more, isSpace b = true := by
  obtain ⟨ts, hts, htree⟩ := Option.bind_eq_some_iff.1 h
  obtain ⟨all, hall, htree'⟩ := Option.bind_eq_some_iff.1 hmore
  have hlast : ∀ t ∈ ts.getLast?, ¬ IsNumeral t := by
    intro t ht
    obtain rfl : t = .arrayEnd := Option.some.inj (ht.symm.trans (last_of_tokens_array htree))
    rintro ⟨n, hn⟩
    cases hn
  rw [tokens?, tokens_from_append hts hlast] at hall
  obtain ⟨us, rfl, hblank⟩ := exists_of_tokens_from hall
  rw [List.reverse_reverse] at htree'
  have hnil := eq_nil_of_tokens_append htree htree'
  rw [hnil, List.append_nil, htree] at htree'
  exact ⟨(Option.some.inj htree').symm, hblank hnil⟩

end Tree

end LintWatch.Json
