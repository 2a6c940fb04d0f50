import LintWatch.Text.Utf8

/-!
# Bytes of written text

Text is encoded one character at a time. A character below `U+0080` is one byte of its own value,
and no byte of another character is below 128, so whoever looks for such a byte may look at the
bytes instead of the characters.
-/

namespace LintWatch.Text.Utf8

/-- The bytes of two texts, one after the other, are those of both. -/
theorem encode_append (s t : String) : encode (s ++ t) = encode s ++ encode t := by
  simp [encode, String.toByteArray_append]

/-- The bytes of a text are those of its characters. -/
theorem encode_of_list (cs : List Char) : encode (String.ofList cs) = cs.flatMap encodeChar := by
  show (String.ofList cs).toByteArray.data.toList = cs.flatMap encodeChar
  rw [String.toByteArray_ofList, List.utf8Encode, List.toList_data_toByteArray]
  rfl

/-- The bytes of a text, one character after the other. -/
theorem encode_eq_flat_map (s : String) : encode s = s.toList.flatMap encodeChar := by
  rw [← encode_of_list, String.ofList_toList]

/-- Bytes that are read as a text are the bytes of the text. -/
theorem encode_of_decode? {bytes : List UInt8} {text : String} (h : decode? bytes = some text) :
    encode text = bytes := by
  rw [decode?, String.fromUTF8?] at h
  split at h
  next hvalid =>
    obtain rfl := Option.some.inj h
    rfl
  next => cases h

/-- The byte of a character, when it has only one. -/
def asciiByte (c : Char) : UInt8 :=
  UInt8.ofNat c.toNat

/-- A character below `U+0080` is one byte. -/
theorem encode_char_of_lt {c : Char} (h : c.toNat < 0x80) : encodeChar c = [asciiByte c] := by
  have hval : c.val.toNat ≤ 0x7f := Nat.le_of_lt_succ h
  simp only [encodeChar, String.utf8EncodeChar, if_pos hval]
  rfl

/-- Characters below `U+0080` are as many bytes. -/
theorem encode_of_list_of_lt {cs : List Char} (h : ∀ c ∈ cs, c.toNat < 0x80) :
    encode (String.ofList cs) = cs.map asciiByte := by
  rw [encode_of_list]
  induction cs with
  | nil => rfl
  | cons c cs ih =>
      rw [List.flatMap_cons, encode_char_of_lt (h c (by simp)), List.map_cons,
        ih fun d hd => h d (by simp [hd])]
      rfl

/-- The bytes of characters below `U+0080` that come first are those of the characters. -/
theorem take_encode_of_lt {cs : List Char} (h : ∀ c ∈ cs, c.toNat < 0x80) (k : Nat) :
    (encode (String.ofList cs)).take k = encode (String.ofList (cs.take k)) := by
  rw [encode_of_list_of_lt h, encode_of_list_of_lt fun c hc => h c (List.mem_of_mem_take hc),
    List.map_take]

/-- The character of a byte, when it is one by itself. -/
def asciiChar (b : UInt8) : Char :=
  Char.ofNat b.toNat

/-- The number of a character of one byte is the value of the byte. -/
theorem to_nat_ascii_char (b : UInt8) : (asciiChar b).toNat = b.toNat := by
  have hvalid : b.toNat.isValidChar := Or.inl (Nat.lt_trans b.toNat_lt (by decide))
  rw [asciiChar, Char.ofNat, dif_pos hvalid]
  rfl

/-- Bytes below 128 are as many characters. -/
theorem encode_ascii_chars {bytes : List UInt8} (h : ∀ b ∈ bytes, b.toNat < 0x80) :
    encode (String.ofList (bytes.map asciiChar)) = bytes := by
  have hlt : ∀ c ∈ bytes.map asciiChar, c.toNat < 0x80 := by
    intro c hc
    obtain ⟨b, hb, rfl⟩ := List.mem_map.1 hc
    rw [to_nat_ascii_char]
    exact h b hb
  have hbyte : ∀ b, asciiByte (asciiChar b) = b := by
    intro b
    rw [asciiByte, to_nat_ascii_char, UInt8.ofNat_toNat]
  rw [encode_of_list_of_lt hlt, List.map_map]
  exact (List.map_congr_left fun b _ => hbyte b).trans (List.map_id _)

/-- The text of bytes below 128 has a character for each. -/
theorem decode_lossy_of_lt {bytes : List UInt8} (h : ∀ b ∈ bytes, b.toNat < 0x80) :
    decodeLossy bytes = String.ofList (bytes.map asciiChar) := by
  have hdecode := decode?_encode (String.ofList (bytes.map asciiChar))
  rw [encode_ascii_chars h] at hdecode
  rw [decodeLossy, hdecode]

/-- A byte with its highest bit set. -/
theorem le_of_nat {n : Nat} (hlow : 0x80 ≤ n) (hhigh : n < 0x100) :
    (0x80 : UInt8) ≤ UInt8.ofNat n := by
  rw [UInt8.le_iff_toNat_le, UInt8.toNat_ofNat_of_lt' hhigh]
  exact hlow

/-- No byte of a character from `U+0080` on is below 128. -/
theorem le_of_mem_encode_char {c : Char} (h : 0x80 ≤ c.toNat) {b : UInt8}
    (hb : b ∈ encodeChar c) : 0x80 ≤ b := by
  have hval : ¬ c.val.toNat ≤ 0x7f := Nat.not_le_of_lt h
  simp only [encodeChar, String.utf8EncodeChar, if_neg hval] at hb
  split at hb
  · simp only [List.mem_cons, List.not_mem_nil, or_false] at hb
    rcases hb with rfl | rfl <;> exact le_of_nat (by omega) (by omega)
  split at hb
  · simp only [List.mem_cons, List.not_mem_nil, or_false] at hb
    rcases hb with rfl | rfl | rfl <;> exact le_of_nat (by omega) (by omega)
  · simp only [List.mem_cons, List.not_mem_nil, or_false] at hb
    rcases hb with rfl | rfl | rfl | rfl <;> exact le_of_nat (by omega) (by omega)

end LintWatch.Text.Utf8
