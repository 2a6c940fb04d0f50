import LintWatch.Json.Printer
import LintWatch.Json.Token
import LintWatch.Proofs.Text.Utf8

/-!
# Reading texts that have been written

A text is written between quotes, some of its characters escaped. `Spells` says that pieces are
read from escaped characters and stand for them, whatever comes before and after; every list of
characters has such pieces, so a written text reads back: `scan_quote`.
-/

namespace LintWatch.Json

open LintWatch.Text
open LintWatch.Text.Utf8 (asciiByte encode encodeChar)

/-- The bytes of characters as they stand in a written text. -/
def escapedBytes (cs : List Char) : List UInt8 :=
  cs.flatMap fun c => (escape c).flatMap encodeChar

/-- These pieces are read from the escaped characters and stand for the characters. -/
structure Spells (cs : List Char) (pieces : List Piece) : Prop where
  scan : ∀ found rest, scanPieces found (escapedBytes cs ++ rest)
    = scanPieces (pieces.reverse ++ found) rest
  assemble : ∀ bytes more, Json.assemble bytes (pieces ++ more)
    = Json.assemble ((cs.flatMap encodeChar).reverse ++ bytes) more

/-- No characters have no pieces. -/
theorem Spells.nil : Spells [] [] :=
  ⟨fun _ _ => rfl, fun _ _ => rfl⟩

/-- The pieces of characters are those of the first and those of the others. -/
theorem Spells.append {cs ds : List Char} {ps qs : List Piece} (hcs : Spells cs ps)
    (hds : Spells ds qs) : Spells (cs ++ ds) (ps ++ qs) := by
  constructor
  · intro found rest
    rw [escapedBytes, List.flatMap_append, List.append_assoc]
    show scanPieces found (escapedBytes cs ++ (escapedBytes ds ++ rest)) = _
    rw [hcs.scan, hds.scan, List.reverse_append, List.append_assoc]
  · intro bytes more
    rw [List.append_assoc, hcs.assemble, hds.assemble, List.flatMap_append, List.reverse_append,
      List.append_assoc]

/-! ## Characters that stand for themselves -/

/-- A byte that stands for itself within a written text. -/
def IsPlain (b : UInt8) : Prop :=
  b ≠ 0x22 ∧ b ≠ 0x5C ∧ ¬ b < 0x20

/-- Plain bytes are read one by one. -/
theorem scan_pieces_plain {bytes : List UInt8} (h : ∀ b ∈ bytes, IsPlain b) (found : List Piece)
    (rest : List UInt8) :
    scanPieces found (bytes ++ rest) = scanPieces ((bytes.map .byte).reverse ++ found) rest := by
  induction bytes generalizing found with
  | nil => rfl
  | cons b bytes ih =>
      obtain ⟨hquote, hbackslash, hcontrol⟩ := h b (by simp)
      rw [List.cons_append, scanPieces, if_neg hquote, if_neg hbackslash, if_neg hcontrol,
        ih fun c hc => h c (by simp [hc])]
      simp

/-- Bytes stand for themselves. -/
theorem assemble_bytes (new : List UInt8) (bytes : List UInt8) (more : List Piece) :
    assemble bytes (new.map .byte ++ more) = assemble (new.reverse ++ bytes) more := by
  induction new generalizing bytes with
  | nil => rfl
  | cons b new ih =>
      rw [List.map_cons, List.cons_append, assemble, ih]
      simp

/-- The bytes of a character that is not escaped are plain. -/
theorem plain_of_mem_encode_char {c : Char} (hquote : c ≠ '"') (hbackslash : c ≠ '\\')
    (hlow : 0x20 ≤ c.toNat) {b : UInt8} (hb : b ∈ encodeChar c) : IsPlain b := by
  rcases Nat.lt_or_ge c.toNat 0x80 with hascii | hwide
  · rw [Utf8.encode_char_of_lt hascii, List.mem_singleton] at hb
    have hvalue : b.toNat = c.toNat := by
      rw [hb]
      exact UInt8.toNat_ofNat_of_lt' (Nat.lt_trans hascii (by decide))
    refine ⟨?_, ?_, ?_⟩
    · rintro rfl
      exact hquote (Char.toNat_inj.1 hvalue.symm)
    · rintro rfl
      exact hbackslash (Char.toNat_inj.1 hvalue.symm)
    · rw [UInt8.lt_iff_toNat_lt, hvalue]
      exact Nat.not_lt_of_le hlow
  · have hlarge := UInt8.le_iff_toNat_le.1 (Utf8.le_of_mem_encode_char hwide hb)
    refine ⟨?_, ?_, ?_⟩
    · rintro rfl
      exact absurd hlarge (by decide)
    · rintro rfl
      exact absurd hlarge (by decide)
    · intro hsmall
      have := UInt8.lt_iff_toNat_lt.1 hsmall
      simp only [UInt8.reduceToNat] at hlarge this
      omega

/-- A character that is not escaped is spelled by its bytes. -/
theorem spells_plain {c : Char} (hescape : escape c = [c]) (hquote : c ≠ '"')
    (hbackslash : c ≠ '\\') (hlow : 0x20 ≤ c.toNat) :
    Spells [c] ((encodeChar c).map .byte) := by
  have hbytes : escapedBytes [c] = encodeChar c := by
    simp [escapedBytes, hescape]
  constructor
  · intro found rest
    rw [hbytes]
    exact scan_pieces_plain (fun b => plain_of_mem_encode_char hquote hbackslash hlow) found rest
  · intro bytes more
    rw [assemble_bytes]
    simp

/-! ## Escaped characters -/

/-- An escape is read as one piece. -/
theorem scan_pieces_escape {input rest : List UInt8} {p : Piece}
    (h : scanEscape input = some (p, rest)) (found : List Piece) :
    scanPieces found (0x5C :: input) = scanPieces (p :: found) rest := by
  rw [scanPieces, if_neg (by decide), if_pos rfl]
  split
  next hnone =>
    rw [h] at hnone
    cases hnone
  next hsome =>
    rw [h] at hsome
    cases hsome
    rfl

/-- The characters that have a letter of their own, each with its letter. -/
def letters : List (Char × UInt8) :=
  [('"', 0x22), ('\\', 0x5C), ('\n', 0x6E), ('\r', 0x72), ('\t', 0x74), ('\x08', 0x62),
    ('\x0c', 0x66)]

/-- What is written for a character with a letter is read as the character. -/
theorem escape_of_mem_letters {c : Char} {letter : UInt8} (h : (c, letter) ∈ letters) :
    c.toNat < 0x80 ∧ (escape c).flatMap encodeChar = [0x5C, letter] ∧ letter ≠ 0x75 ∧
      escapedByte? letter = some (asciiByte c) := by
  have hall : letters.all (fun (c, letter) => decide (c.toNat < 0x80 ∧
      (escape c).flatMap encodeChar = [0x5C, letter] ∧ letter ≠ 0x75 ∧
      escapedByte? letter = some (asciiByte c))) = true := by
    decide
  exact of_decide_eq_true (List.all_eq_true.1 hall _ h)

/-- A character with a letter of its own is spelled by its byte. -/
theorem spells_letter {c : Char} {letter : UInt8} (h : (c, letter) ∈ letters) :
    Spells [c] [.byte (asciiByte c)] := by
  obtain ⟨hlow, hbytes, hunit, hletter⟩ := escape_of_mem_letters h
  constructor
  · intro found rest
    have hscan : scanEscape (letter :: rest) = some (.byte (asciiByte c), rest) := by
      simp [scanEscape, hunit, hletter]
    simp only [escapedBytes, List.flatMap_cons, List.flatMap_nil, List.append_nil, hbytes,
      List.cons_append, List.nil_append, List.reverse_singleton]
    exact scan_pieces_escape hscan found
  · intro bytes more
    simp [assemble, Utf8.encode_char_of_lt hlow]

/-- A hexadecimal digit that is written reads back. -/
theorem hex_digit_hex_char {n : Nat} (h : n < 16) :
    encodeChar (hexChar n) = [asciiByte (hexChar n)] ∧
      hexDigit? (asciiByte (hexChar n)) = some n := by
  have hall : ∀ m : Fin 16, encodeChar (hexChar m.val) = [asciiByte (hexChar m.val)] ∧
      hexDigit? (asciiByte (hexChar m.val)) = some m.val := by
    decide
  exact hall ⟨n, h⟩

/-- A control character without a letter of its own is spelled by its number. -/
theorem spells_control {c : Char} (hlow : c.toNat < 0x20)
    (hescape : escape c
      = ['\\', 'u', '0', '0', hexChar (c.toNat / 16), hexChar (c.toNat % 16)]) :
    Spells [c] [.unit c.toNat] := by
  obtain ⟨hhigh, hhighValue⟩ := hex_digit_hex_char (n := c.toNat / 16) (by omega)
  obtain ⟨hrest, hrestValue⟩ := hex_digit_hex_char (n := c.toNat % 16) (by omega)
  constructor
  · intro found rest
    have hbytes : escapedBytes [c] ++ rest = 0x5C :: 0x75 :: 0x30 :: 0x30 ::
        asciiByte (hexChar (c.toNat / 16)) :: asciiByte (hexChar (c.toNat % 16)) :: rest := by
      simp only [escapedBytes, List.flatMap_cons, List.flatMap_nil, hescape, hhigh, hrest]
      rfl
    have hzero : hexDigit? 0x30 = some 0 := rfl
    have hscan : scanEscape (0x75 :: 0x30 :: 0x30 :: asciiByte (hexChar (c.toNat / 16)) ::
        asciiByte (hexChar (c.toNat % 16)) :: rest) = some (.unit c.toNat, rest) := by
      have hvalue : c.toNat / 16 * 16 + c.toNat % 16 = c.toNat := by omega
      simp [scanEscape, hex4?, hzero, hhighValue, hrestValue, hvalue]
    rw [hbytes]
    exact scan_pieces_escape hscan found
  · intro bytes more
    have hunit : isHighSurrogate c.toNat = false ∧ isLowSurrogate c.toNat = false := by
      simp only [isHighSurrogate, isLowSurrogate, Bool.and_eq_false_iff, decide_eq_false_iff_not]
      omega
    rw [List.singleton_append, Json.assemble.eq_def]
    simp [hunit.1, hunit.2, Char.ofNat_toNat]

/-- Every character has pieces that spell it. -/
theorem exists_spells_char (c : Char) : ∃ pieces, Spells [c] pieces := by
  by_cases hletter : c ∈ letters.map Prod.fst
  · obtain ⟨⟨c, letter⟩, hmem, rfl⟩ := List.mem_map.1 hletter
    exact ⟨_, spells_letter hmem⟩
  · simp only [letters, List.map_cons, List.map_nil, List.mem_cons, List.not_mem_nil, or_false,
      not_or] at hletter
    have hescape : escape c = if c.toNat < 0x20 then
        ['\\', 'u', '0', '0', hexChar (c.toNat / 16), hexChar (c.toNat % 16)] else [c] := by
      simp only [escape, hletter, if_false]
    rcases Nat.lt_or_ge c.toNat 0x20 with hcontrol | hlow
    · exact ⟨_, spells_control hcontrol (by rw [hescape, if_pos hcontrol])⟩
    · exact ⟨_, spells_plain (by rw [hescape, if_neg (Nat.not_lt_of_le hlow)]) hletter.1
        hletter.2.1 hlow⟩

/-- Every list of characters has pieces that spell it. -/
theorem exists_spells (cs : List Char) : ∃ pieces, Spells cs pieces := by
  induction cs with
  | nil => exact ⟨[], .nil⟩
  | cons c cs ih =>
      obtain ⟨first, hfirst⟩ := exists_spells_char c
      obtain ⟨others, hothers⟩ := ih
      exact ⟨first ++ others, hfirst.append hothers⟩

/-! ## Texts -/

/-- The bytes of a written text. -/
theorem encode_quote (s : String) :
    encode (quote s) = 0x22 :: (escapedBytes s.toList ++ [0x22]) := by
  have hmark : encode "\"" = [0x22] := rfl
  rw [quote, Utf8.encode_append, Utf8.encode_append, hmark, Utf8.encode_of_list,
    List.flatMap_assoc]
  rfl

/-- A written text is a token that reads back. -/
theorem scan_quote (s : String) (rest : List UInt8) :
    ∃ tail, encode (quote s) ++ rest = 0x22 :: tail ∧
      scan 0x22 tail = some (.scalar (.text (some s)), rest) := by
  obtain ⟨pieces, hspells⟩ := exists_spells s.toList
  have hpieces : scanPieces [] (escapedBytes s.toList ++ 0x22 :: rest) = some (pieces, rest) := by
    rw [hspells.scan, scanPieces, if_pos rfl, List.append_nil, List.reverse_reverse]
  have htext : textOfPieces? pieces = some s := by
    have hassemble := hspells.assemble [] []
    rw [List.append_nil, List.append_nil, ← Utf8.encode_eq_flat_map] at hassemble
    rw [textOfPieces?, hassemble, Json.assemble, List.reverse_reverse, Option.bind_some,
      Utf8.decode?_encode]
  refine ⟨escapedBytes s.toList ++ 0x22 :: rest, by simp [encode_quote], ?_⟩
  simp [scan, punctuation?, scanScalar, hpieces, htext]

end LintWatch.Json
