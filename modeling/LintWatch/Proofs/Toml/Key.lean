import LintWatch.Proofs.Toml.Gap
import LintWatch.Proofs.Toml.Quoted

/-!
# Keys as they are written

A key is laid out when each part is spelled so that it reads as its name, with blanks around it.
Such a key is read as it was written (`key?_append`), and every key that has been read is laid out
(`laid_of_key?`). In braces there may be a whole gap behind a key.
-/

namespace LintWatch.Toml

open Quoted (Local)

/-- A character with which the spelling of a name starts. -/
def startsName (c : Char) : Bool :=
  isKeyChar c || c = '"' || c = '\''

/-- A text that does not go on with a name. -/
def NoKeyChar (cs : List Char) : Prop :=
  ∀ c, cs.head? = some c → isKeyChar c = false

/-- A text with which a key has come to its end. -/
def EndsKey (cs : List Char) : Prop :=
  ∀ c, cs.head? = some c → isKeyChar c = false ∧ (c = ' ' || c = '\t') = false ∧ c ≠ '.'

/-- A spelling that reads as a name, whatever follows. -/
structure Spells (spelling : List Char) (name : String) : Prop where
  starts : ∃ c more, spelling = c :: more ∧ startsName c = true
  reads : ∀ rest, NoKeyChar rest → keyName? (spelling ++ rest) = some (name, rest)

/-- A part of a key that reads as its name, with blanks in front. -/
structure KeyPart.Laid (p : KeyPart) : Prop where
  lead : IsBlanks p.lead
  spells : Spells p.spelling p.name

/-- A key whose parts read as their names, with blanks between them, and behind the last part what
`IsLast` says. -/
structure LaidKey (IsLast : List Char → Prop) (key : List KeyPart) : Prop where
  ne_nil : key ≠ []
  parts : ∀ p ∈ key, p.Laid
  inner : ∀ p ∈ key.dropLast, IsBlanks p.tail
  last : ∀ p, key.getLast? = some p → IsLast p.tail
  length_le : key.length ≤ depthLimit

variable {c : Char} {cs rest : List Char} {p q : KeyPart} {key : List KeyPart}
  {IsLast : List Char → Prop}

/-! ## Names -/

/-- The start of a name is no gap and opens or closes nothing. -/
theorem of_startsName (h : startsName c = true) :
    isGapChar c = false ∧ c ≠ '[' ∧ c ≠ '\x7d' ∧ (c = ' ' || c = '\t') = false := by
  have hne : ∀ d, startsName d = false → c ≠ d := by
    rintro d hd rfl
    rw [h] at hd
    cases hd
  refine ⟨?_, hne '[' (by decide), hne '\x7d' (by decide), ?_⟩
  · simp [isGapChar, hne ' ' (by decide), hne '\t' (by decide), hne '\n' (by decide),
      hne '\r' (by decide), hne '#' (by decide)]
  · simp [hne ' ' (by decide), hne '\t' (by decide)]

/-- A name reads the same in front of anything that does not go on with it. -/
theorem local_keyName? : Local NoKeyChar keyName? := by
  intro cs name rest h
  unfold keyName? at h
  split at h
  next more =>
    obtain ⟨front, rfl, hfront⟩ := Quoted.local_basic [] more name rest h
    exact ⟨'"' :: front, rfl, fun rest' _ => hfront rest' trivial⟩
  next more =>
    obtain ⟨front, rfl, hfront⟩ := Quoted.local_literal [] more name rest h
    exact ⟨'\'' :: front, rfl, fun rest' _ => hfront rest' trivial⟩
  next hdouble hsingle =>
    simp only at h
    split at h
    next => cases h
    next hne =>
      obtain ⟨rfl, rfl⟩ := Prod.mk.inj (Option.some.inj h)
      refine ⟨cs.takeWhile isKeyChar, (List.takeWhile_append_dropWhile).symm, ?_⟩
      intro rest' hrest'
      have hall : ∀ d ∈ cs.takeWhile isKeyChar, isKeyChar d = true :=
        List.all_eq_true.1 List.all_takeWhile
      have hrest : rest'.takeWhile isKeyChar = [] ∧ rest'.dropWhile isKeyChar = rest' := by
        cases rest' with
        | nil => exact ⟨rfl, rfl⟩
        | cons d rest' =>
            rw [List.takeWhile_cons, List.dropWhile_cons, hrest' d rfl]
            exact ⟨rfl, rfl⟩
      have htake : (cs.takeWhile isKeyChar ++ rest').takeWhile isKeyChar
          = cs.takeWhile isKeyChar := by
        rw [List.takeWhile_append_of_pos hall, hrest.1, List.append_nil]
      have hdrop : (cs.takeWhile isKeyChar ++ rest').dropWhile isKeyChar = rest' := by
        rw [List.dropWhile_append_of_pos hall, hrest.2]
      cases hname : cs.takeWhile isKeyChar with
      | nil => exact absurd hname hne
      | cons d name =>
          have hd : isKeyChar d = true := hall d (by rw [hname]; exact List.mem_cons_self)
          rw [hname] at htake hdrop
          unfold keyName?
          split
          next heq =>
            obtain rfl := (List.cons.inj heq).1
            exact absurd hd (by decide)
          next heq =>
            obtain rfl := (List.cons.inj heq).1
            exact absurd hd (by decide)
          next =>
            simp only [htake, hdrop]
            rfl

/-- What has been read as a name spells it. -/
theorem spells_of_keyName? {name : String} (h : keyName? cs = some (name, rest)) :
    Spells (cs.take (cs.length - rest.length)) name := by
  obtain ⟨front, rfl, hfront⟩ := local_keyName? cs name rest h
  have htake : (front ++ rest).take ((front ++ rest).length - rest.length) = front :=
    List.take_left' (by simp)
  rw [htake]
  refine ⟨?_, hfront⟩
  -- A reader that takes nothing in front of the end of the text finds no name.
  cases front with
  | nil =>
      have hnil := hfront [] fun d hd => nomatch hd
      cases hnil
  | cons d front =>
      refine ⟨d, front, rfl, ?_⟩
      unfold keyName? at h
      split at h
      next heq =>
        obtain rfl := (List.cons.inj heq).1
        rfl
      next heq =>
        obtain rfl := (List.cons.inj heq).1
        rfl
      next =>
        by_cases hd : isKeyChar d = true
        · simp [startsName, hd]
        · simp [hd] at h

/-! ## Parts -/

/-- What has been read as a part of a key is laid out, with blanks behind it. -/
theorem laid_of_keyPart? (h : keyPart? cs = some (p, rest)) : p.Laid ∧ IsBlanks p.tail := by
  simp only [keyPart?, Option.bind_eq_bind, Option.bind_eq_some_iff, Option.pure_def,
    Option.some.injEq, Prod.mk.injEq] at h
  obtain ⟨⟨name, after⟩, hname, rfl, rfl⟩ := h
  exact ⟨⟨is_blanks_split cs, spells_of_keyName? hname⟩, is_blanks_split after⟩

/-- A part of a key is read as it was written. -/
theorem keyPart?_append (h : p.Laid) (htail : IsBlanks p.tail) (hrest : NoBlank rest)
    (hend : NoKeyChar rest) : keyPart? (p.render ++ rest) = some (p, rest) := by
  obtain ⟨lead, spelling, name, tail⟩ := p
  obtain ⟨hlead, ⟨c, more, rfl, hc⟩, hreads⟩ := h
  simp only at hlead htail hreads
  have hafter : NoKeyChar (tail ++ rest) := by
    intro d hd
    cases tail with
    | nil => exact hend d hd
    | cons b tail =>
        obtain rfl := Option.some.inj hd
        rcases htail b List.mem_cons_self with rfl | rfl <;> rfl
  have hblank : NoBlank (c :: more ++ (tail ++ rest)) := by
    intro d hd
    obtain rfl := Option.some.inj hd
    exact (of_startsName hc).2.2.2
  have htake : (c :: more ++ (tail ++ rest)).take
      ((c :: more ++ (tail ++ rest)).length - (tail ++ rest).length) = c :: more :=
    List.take_left' (by simp only [List.length_append, List.length_cons]; omega)
  have hrender : KeyPart.render ⟨lead, c :: more, name, tail⟩ ++ rest
      = lead ++ (c :: more ++ (tail ++ rest)) := by
    simp [KeyPart.render]
  rw [hrender, keyPart?, splitBlanks_append hlead hblank]
  simp only [hreads _ hafter, Option.bind_eq_bind, Option.bind_some, htake,
    splitBlanks_append htail hrest]
  rfl

/-! ## Keys -/

/-- The parts of a key, one after the other. -/
theorem LaidKey.cons (h : LaidKey IsLast (p :: q :: key)) :
    p.Laid ∧ IsBlanks p.tail ∧ LaidKey IsLast (q :: key) := by
  refine ⟨h.parts p List.mem_cons_self, h.inner p ?_, ?_⟩
  · rw [List.dropLast_cons_cons]
    exact List.mem_cons_self
  · refine ⟨List.cons_ne_nil q key, ?_, ?_, ?_, ?_⟩
    · intro r hr
      exact h.parts r (List.mem_cons_of_mem p hr)
    · intro r hr
      refine h.inner r ?_
      rw [List.dropLast_cons_cons]
      exact List.mem_cons_of_mem p hr
    · intro r hr
      refine h.last r ?_
      rw [List.getLast?_cons_cons]
      exact hr
    · have := h.length_le
      simp only [List.length_cons] at this ⊢
      omega

/-- What has been read as parts of a key is laid out, with blanks behind each part. -/
theorem parts_of_parts? {limit : Nat} (h : parts? limit cs = some (key, rest)) :
    key ≠ [] ∧ key.length ≤ limit ∧ ∀ p ∈ key, p.Laid ∧ IsBlanks p.tail := by
  induction limit generalizing cs key rest with
  | zero => cases h
  | succ limit ih =>
      simp only [parts?, Option.bind_eq_bind, Option.bind_eq_some_iff] at h
      obtain ⟨⟨p, after⟩, hp, h⟩ := h
      have hlaid := laid_of_keyPart? hp
      split at h
      next more =>
        simp only [Option.bind_eq_some_iff, Option.pure_def, Option.some.injEq,
          Prod.mk.injEq] at h
        obtain ⟨⟨parts, after⟩, hparts, rfl, rfl⟩ := h
        obtain ⟨-, hlength, hall⟩ := ih hparts
        refine ⟨List.cons_ne_nil p parts, Nat.succ_le_succ hlength, ?_⟩
        intro r hr
        rcases List.mem_cons.1 hr with rfl | hr
        · exact hlaid
        · exact hall r hr
      next =>
        simp only [Option.pure_def, Option.some.injEq, Prod.mk.injEq] at h
        obtain ⟨rfl, rfl⟩ := h
        refine ⟨List.cons_ne_nil p [], Nat.succ_le_succ (Nat.zero_le limit), ?_⟩
        intro r hr
        obtain rfl := List.mem_singleton.1 hr
        exact hlaid

/-- What has been read as a key is laid out. -/
theorem laid_of_key? (h : key? cs = some (key, rest)) : LaidKey IsBlanks key := by
  obtain ⟨hne, hlength, hall⟩ := parts_of_parts? h
  refine ⟨hne, fun p hp => (hall p hp).1, ?_, ?_, hlength⟩
  · intro p hp
    exact (hall p ((List.dropLast_sublist key).mem hp)).2
  · intro p hp
    exact (hall p (List.mem_of_getLast? hp)).2

/-- Parts of a key are read as they were written. -/
theorem parts?_append {limit : Nat} (h : LaidKey IsBlanks key) (hlimit : key.length ≤ limit)
    (hrest : EndsKey rest) : parts? limit (renderKey key ++ rest) = some (key, rest) := by
  induction key generalizing limit with
  | nil => exact absurd rfl h.ne_nil
  | cons p key ih =>
      cases limit with
      | zero => cases hlimit
      | succ limit =>
          cases key with
          | nil =>
              have hpart : keyPart? (p.render ++ rest) = some (p, rest) :=
                keyPart?_append (h.parts p List.mem_cons_self) (h.last p rfl)
                  (fun d hd => (hrest d hd).2.1) fun d hd => (hrest d hd).1
              simp only [renderKey, parts?, hpart, Option.bind_eq_bind, Option.bind_some]
              split
              next more => exact absurd rfl (hrest '.' rfl).2.2
              next => rfl
          | cons q key =>
              obtain ⟨hp, htail, hkey⟩ := h.cons
              have hdot : NoBlank ('.' :: (renderKey (q :: key) ++ rest)) ∧
                  NoKeyChar ('.' :: (renderKey (q :: key) ++ rest)) := by
                constructor <;> (intro d hd; obtain rfl := Option.some.inj hd; rfl)
              have hpart := keyPart?_append hp htail hdot.1 hdot.2
              have hmore := ih hkey (Nat.le_of_succ_le_succ hlimit)
              simp only [renderKey, parts?, List.append_assoc, List.cons_append, hpart,
                Option.bind_eq_bind, Option.bind_some, hmore]
              rfl

/-- A key is read as it was written. -/
theorem key?_append (h : LaidKey IsBlanks key) (hrest : EndsKey rest) :
    key? (renderKey key ++ rest) = some (key, rest) :=
  parts?_append h h.length_le hrest

/-! ## Gaps around keys -/

/-- A key of one part. -/
theorem laid_key_singleton (hp : p.Laid) (htail : IsLast p.tail) : LaidKey IsLast [p] := by
  refine ⟨List.cons_ne_nil p [], ?_, fun r hr => (List.not_mem_nil hr).elim, ?_, ?_⟩
  · intro r hr
    obtain rfl := List.mem_singleton.1 hr
    exact hp
  · intro r hr
    obtain rfl := Option.some.inj hr
    exact htail
  · exact Nat.succ_le_succ (Nat.zero_le 79)

/-- A key of several parts. -/
theorem laid_key_cons (hp : p.Laid) (htail : IsBlanks p.tail) (hkey : LaidKey IsLast (q :: key))
    (hlength : (p :: q :: key).length ≤ depthLimit) : LaidKey IsLast (p :: q :: key) := by
  refine ⟨List.cons_ne_nil p _, ?_, ?_, ?_, hlength⟩
  · intro r hr
    rcases List.mem_cons.1 hr with rfl | hr
    · exact hp
    · exact hkey.parts r hr
  · intro r hr
    rw [List.dropLast_cons_cons] at hr
    rcases List.mem_cons.1 hr with rfl | hr
    · exact htail
    · exact hkey.inner r hr
  · intro r hr
    rw [List.getLast?_cons_cons] at hr
    exact hkey.last r hr

/-- The blanks in front of a key are not needed: what is left is the same key and starts with a
name. -/
theorem LaidKey.exists_start (h : LaidKey IsLast key) :
    ∃ lead key', IsBlanks lead ∧ LaidKey IsLast key' ∧ Key.names key' = Key.names key ∧
      renderKey key = lead ++ renderKey key' ∧
      ∃ c more, renderKey key' = c :: more ∧ startsName c = true := by
  cases key with
  | nil => exact absurd rfl h.ne_nil
  | cons p key =>
      obtain ⟨lead, spelling, name, tail⟩ := p
      obtain ⟨hlead, ⟨c, more, rfl, hc⟩, hreads⟩ := h.parts _ List.mem_cons_self
      have hp : KeyPart.Laid ⟨[], c :: more, name, tail⟩ :=
        ⟨is_blanks_nil, ⟨c, more, rfl, hc⟩, hreads⟩
      refine ⟨lead, ⟨[], c :: more, name, tail⟩ :: key, hlead, ?_, rfl, ?_, ?_⟩
      · cases key with
        | nil => exact laid_key_singleton hp (h.last ⟨lead, c :: more, name, tail⟩ rfl)
        | cons q key =>
            obtain ⟨-, htail, hkey⟩ := h.cons
            exact laid_key_cons hp htail hkey h.length_le
      · cases key <;> simp [renderKey, KeyPart.render]
      · cases key with
        | nil => exact ⟨c, more ++ tail, rfl, hc⟩
        | cons q key => exact ⟨c, more ++ tail ++ '.' :: renderKey (q :: key), rfl, hc⟩

/-- What a gap is after its blanks. -/
theorem IsGap.dropBlanks {g : List Char} (h : IsGap g) :
    ∃ blanks g', IsBlanks blanks ∧ IsGap g' ∧ NoBlank g' ∧ g = blanks ++ g' := by
  induction h with
  | nil => exact ⟨[], [], is_blanks_nil, .nil, (fun d hd => nomatch hd), rfl⟩
  | @blank c g hc hg ih =>
      by_cases hblank : c = ' ' ∨ c = '\t'
      · obtain ⟨blanks, g', hblanks, hg', hno, rfl⟩ := ih
        refine ⟨c :: blanks, g', ?_, hg', hno, rfl⟩
        intro d hd
        rcases List.mem_cons.1 hd with rfl | hd
        · exact hblank
        · exact hblanks d hd
      · refine ⟨[], c :: g, is_blanks_nil, .blank hc hg, ?_, rfl⟩
        intro d hd
        obtain rfl := Option.some.inj hd
        simpa using hblank
  | @comment text g htext hg _ =>
      refine ⟨[], _, is_blanks_nil, .comment htext hg, ?_, rfl⟩
      intro d hd
      obtain rfl := Option.some.inj hd
      rfl

/-- The gap behind a key in braces can be told from the key. -/
theorem LaidKey.exists_end (h : LaidKey IsGap key) :
    ∃ key' behind, LaidKey IsBlanks key' ∧ IsGap behind ∧ NoBlank behind ∧
      Key.names key' = Key.names key ∧ renderKey key = renderKey key' ++ behind := by
  induction key with
  | nil => exact absurd rfl h.ne_nil
  | cons p key ih =>
      cases key with
      | nil =>
          obtain ⟨lead, spelling, name, tail⟩ := p
          obtain ⟨blanks, behind, hblanks, hbehind, hno, rfl⟩ :=
            IsGap.dropBlanks (g := tail) (h.last _ rfl)
          have hp : KeyPart.Laid ⟨lead, spelling, name, blanks⟩ :=
            ⟨(h.parts _ List.mem_cons_self).lead, (h.parts _ List.mem_cons_self).spells⟩
          refine ⟨[⟨lead, spelling, name, blanks⟩], behind, laid_key_singleton hp hblanks, hbehind,
            hno, rfl, ?_⟩
          simp only [renderKey, KeyPart.render, List.append_assoc]
      | cons q key =>
          obtain ⟨hp, htail, hkey⟩ := h.cons
          obtain ⟨key', behind, hkey', hbehind, hno, hnames, hrender⟩ := ih hkey
          cases key' with
          | nil => exact absurd rfl hkey'.ne_nil
          | cons r key' =>
              have hlength : (p :: r :: key').length = (p :: q :: key).length := by
                have := congrArg List.length hnames
                simp only [Key.names, List.length_map] at this
                simp only [List.length_cons] at this ⊢
                omega
              refine ⟨p :: r :: key', behind,
                laid_key_cons hp htail hkey' (hlength ▸ h.length_le), hbehind, hno, ?_, ?_⟩
              · show p.name :: Key.names (r :: key') = p.name :: Key.names (q :: key)
                rw [hnames]
              · simp [renderKey, hrender]

/-- A gap behind a key, and the equals sign, end the key. -/
theorem ends_key_gap {behind : List Char} (h : IsGap behind) (hno : NoBlank behind)
    (rest : List Char) : EndsKey (behind ++ '=' :: rest) := by
  intro c hc
  cases h with
  | nil =>
      obtain rfl := Option.some.inj hc
      decide
  | blank hchar _ =>
      obtain rfl := Option.some.inj hc
      have hblank := hno _ rfl
      rcases hchar with rfl | rfl | rfl
      · cases hblank
      · cases hblank
      · decide
  | comment _ _ =>
      obtain rfl := Option.some.inj hc
      decide

/-- A key with a gap behind it names the same. -/
theorem names_endWith (gap : List Char) (key : List KeyPart) :
    Key.names (endWith gap key) = Key.names key := by
  fun_induction endWith gap key with
  | case1 => rfl
  | case2 => rfl
  | case3 p ps _ ih => exact congrArg (p.name :: ·) ih

/-- A key is laid out with a gap behind it. -/
theorem LaidKey.end_with {gap : List Char} (h : LaidKey IsBlanks key) (hgap : IsGap gap) :
    LaidKey IsGap (endWith gap key) := by
  induction key with
  | nil => exact absurd rfl h.ne_nil
  | cons p key ih =>
      cases key with
      | nil =>
          obtain ⟨hlead, hspells⟩ := h.parts p List.mem_cons_self
          exact laid_key_singleton (p := { p with tail := p.tail ++ gap }) ⟨hlead, hspells⟩
            ((h.last p rfl).isGap.append hgap)
      | cons q key =>
          obtain ⟨hp, htail, hkey⟩ := h.cons
          have hlaid := ih hkey
          have hlength : (endWith gap (q :: key)).length = (q :: key).length := by
            have := congrArg List.length (names_endWith gap (q :: key))
            simpa [Key.names] using this
          show LaidKey IsGap (p :: endWith gap (q :: key))
          cases hend : endWith gap (q :: key) with
          | nil =>
              rw [hend] at hlaid
              exact absurd rfl hlaid.ne_nil
          | cons r more =>
              rw [hend] at hlaid hlength
              refine laid_key_cons hp htail hlaid ?_
              have := h.length_le
              simp only [List.length_cons] at this hlength ⊢
              omega

end LintWatch.Toml
