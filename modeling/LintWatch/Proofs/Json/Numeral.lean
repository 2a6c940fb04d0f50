import LintWatch.Json.Printer
import LintWatch.Json.Token
import LintWatch.Proofs.Text.Utf8
import Mathlib.Algebra.Group.Int.Defs
import Mathlib.Algebra.Group.Nat.Defs
import Mathlib.Data.List.Basic

/-!
# Reading integers that have been written

An integer is written as its decimal digits, with a minus sign in front if it is negative. Such a
numeral reads back as the integer if that is in one of the 64-bit ranges and nothing follows that
could go on with the numeral: `scan_integer`.
-/

namespace LintWatch.Json

open LintWatch.Text
open LintWatch.Text.Utf8 (asciiByte encode)

/-- The decimal digits of a natural number. -/
def decimal (n : Nat) : List UInt8 :=
  encode (toString n)

/-- What stands behind a numeral does not go on with it. -/
def EndsNumeral (rest : List UInt8) : Prop :=
  ∀ b ∈ rest.head?, isDigit b = false ∧ b ≠ 0x2E ∧ b ≠ 0x65 ∧ b ≠ 0x45

/-! ## Digits -/

/-- The digits are the characters from `0` to `9`. -/
theorem bounds_of_is_digit {c : Char} (h : c.isDigit = true) :
    0x30 ≤ c.toNat ∧ c.toNat ≤ 0x39 := by
  simpa [Char.isDigit, UInt32.le_iff_toNat_le] using h

/-- The characters that a number is written in are digits. -/
theorem bounds_of_mem_to_digits {n : Nat} {c : Char} (h : c ∈ Nat.toDigits 10 n) :
    0x30 ≤ c.toNat ∧ c.toNat ≤ 0x39 :=
  bounds_of_is_digit (Nat.isDigit_of_mem_toDigits (by decide) (by decide) h)

/-- The byte of a digit has its value. -/
theorem to_nat_ascii_byte {c : Char} (h : c.toNat < 0x100) : (asciiByte c).toNat = c.toNat :=
  UInt8.toNat_ofNat_of_lt' h

/-- The digits of a number are one byte each. -/
theorem decimal_eq (n : Nat) : decimal n = (Nat.toDigits 10 n).map asciiByte := by
  have hlow : ∀ c ∈ Nat.toDigits 10 n, c.toNat < 0x80 := by
    intro c hc
    have := bounds_of_mem_to_digits hc
    omega
  rw [decimal, Nat.toString_eq_ofList_toDigits, Utf8.encode_of_list_of_lt hlow]

/-- A number is written in digits. -/
theorem is_digit_of_mem_decimal {n : Nat} {b : UInt8} (h : b ∈ decimal n) : isDigit b = true := by
  rw [decimal_eq] at h
  obtain ⟨c, hc, rfl⟩ := List.mem_map.1 h
  have hbounds := bounds_of_mem_to_digits hc
  have hvalue : (asciiByte c).toNat = c.toNat := to_nat_ascii_byte (by omega)
  simp only [isDigit, UInt8.le_iff_toNat_le, hvalue, Bool.and_eq_true, decide_eq_true_eq]
  exact hbounds

/-- A number has a digit. -/
theorem decimal_ne_nil (n : Nat) : decimal n ≠ [] := by
  simp [decimal_eq]

/-- The characters that a number is written in stand for it. -/
theorem foldl_to_digits (n : Nat) :
    (Nat.toDigits 10 n).foldl (fun m c => m * 10 + (c.toNat - 0x30)) 0 = n := by
  have hstep : ∀ (m : Nat), ∀ c ∈ Nat.toDigits 10 n,
      m * 10 + (c.toNat - 0x30) = 10 * m + (c.toNat - '0'.toNat) := by
    intro m c _
    rw [Nat.mul_comm]
    rfl
  rw [List.foldl_ext _ _ 0 hstep]
  exact Nat.ofDigitChars_ten_toDigits

/-- The digits of a number stand for it. -/
theorem nat_of_digits_decimal (n : Nat) : natOfDigits (decimal n) = n := by
  have hstep : ∀ (m : Nat), ∀ c ∈ Nat.toDigits 10 n,
      m * 10 + ((asciiByte c).toNat - 0x30) = m * 10 + (c.toNat - 0x30) := by
    intro m c hc
    have hbounds := bounds_of_mem_to_digits hc
    rw [to_nat_ascii_byte (by omega)]
  rw [natOfDigits, decimal_eq, List.foldl_map, List.foldl_ext _ _ 0 hstep]
  exact foldl_to_digits n

/-- A number other than zero does not start with a zero. -/
theorem head_to_digits_ne {n : Nat} (h : 0 < n) : (Nat.toDigits 10 n).head? ≠ some '0' := by
  -- The first digit of a larger number is that of the number without its last digit.
  induction n using Nat.strongRecOn with
  | ind n ih =>
      rw [Nat.toDigits_eq_if (by decide)]
      split
      next hsmall =>
        have hdigit : ∀ m : Fin 10, 0 < m.val → m.val.digitChar ≠ '0' := by decide
        simpa using hdigit ⟨n, hsmall⟩ h
      next hlarge =>
        rw [List.head?_append_of_ne_nil _ Nat.toDigits_ne_nil]
        exact ih (n / 10) (by omega) (by omega)

/-- No number has a zero in front of other digits. -/
theorem no_leading_zero (n : Nat) :
    ¬ ((decimal n).head? = some 0x30 ∧ 1 < (decimal n).length) := by
  rintro ⟨hhead, hlength⟩
  rcases Nat.eq_zero_or_pos n with rfl | hpos
  · rw [decimal_eq, Nat.toDigits_zero] at hlength
    simp at hlength
  · obtain ⟨c, cs, hcs⟩ := List.exists_cons_of_ne_nil (Nat.toDigits_ne_nil (n := n) (b := 10))
    have hdigit := bounds_of_mem_to_digits (hcs ▸ List.mem_cons_self : c ∈ Nat.toDigits 10 n)
    have hne := head_to_digits_ne hpos
    rw [decimal_eq, hcs] at hhead
    rw [hcs] at hne
    refine hne (congrArg some (Char.toNat_inj.1 ?_))
    have hbyte : asciiByte c = 0x30 := by simpa using hhead
    rw [← to_nat_ascii_byte (by omega), hbyte]
    rfl

/-! ## Numerals -/

/-- Reading on through digits never lowers the value, whatever the digits are worth. -/
theorem le_foldl_digits {α : Type} (worth : α → Nat) (ds : List α) (n : Nat) :
    n ≤ ds.foldl (fun n d => n * 10 + worth d) n := by
  induction ds generalizing n with
  | nil => exact Nat.le_refl n
  | cons d ds ih =>
      have := ih (n * 10 + worth d)
      rw [List.foldl_cons]
      omega

/-- Digits whose value has at most 64 bits are all read into the significand. -/
theorem accumulate_of_lt {ds : List UInt8} {n : Nat}
    (h : ds.foldl (fun n d => n * 10 + (d.toNat - 0x30)) n < UInt64.size) :
    accumulate n ds = (ds.foldl (fun n d => n * 10 + (d.toNat - 0x30)) n, 0) := by
  induction ds generalizing n with
  | nil => rfl
  | cons d ds ih =>
      -- The value only grows from digit to digit, so what has been read fits if the whole does.
      rw [List.foldl_cons] at h
      have hle := le_foldl_digits (fun d : UInt8 => d.toNat - 0x30) ds (n * 10 + (d.toNat - 0x30))
      have hgrown := Nat.lt_of_le_of_lt hle h
      simp only [accumulate, if_pos hgrown]
      exact ih h

/-- The digits of a number of at most 64 bits are all read into the significand. -/
theorem accumulate_decimal {n : Nat} (h : n < UInt64.size) :
    accumulate 0 (decimal n) = (n, 0) := by
  have hvalue := nat_of_digits_decimal n
  rw [natOfDigits] at hvalue
  rw [accumulate_of_lt (by rw [hvalue]; exact h), hvalue]

/-- The numeral of an integer. -/
def numeralOf (n : Int) : Numeral :=
  ⟨decide (n < 0), decimal n.natAbs, [], none⟩

/-- The numeral of an integer in one of the 64-bit ranges has it as its value. -/
theorem value_numeral_of {n : Int} (hlow : -2 ^ 63 ≤ n) (hhigh : n < 2 ^ 64) :
    (numeralOf n).value? = some (.int n) := by
  have hfits : n.natAbs < 0x10000000000000000 := by omega
  have hdigits : accumulate 0 (decimal n.natAbs) = (n.natAbs, 0) := accumulate_decimal hfits
  simp only [Numeral.value?, numeralOf, hdigits, true_and, if_true]
  by_cases hn : n < 0
  · have hbounds : 0 < n.natAbs ∧ n.natAbs ≤ 0x8000000000000000 := by omega
    have hvalue : -(n.natAbs : Int) = n := by omega
    simp only [decide_eq_true hn, Bool.not_true, Bool.false_eq_true, if_false, if_pos hbounds,
      hvalue]
  · have hvalue : (n.natAbs : Int) = n := by omega
    simp [hn, hvalue]

/-- The digits of a number are read up to what ends the numeral. -/
theorem scan_numeral_decimal (negative : Bool) (n : Nat) {rest : List UInt8}
    (h : EndsNumeral rest) :
    scanNumeral negative (decimal n ++ rest) = some (⟨negative, decimal n, [], none⟩, rest) := by
  have hdigits : ∀ b ∈ decimal n, isDigit b = true := fun b => is_digit_of_mem_decimal
  have hfront : (decimal n ++ rest).takeWhile isDigit = decimal n := by
    rw [List.takeWhile_append_of_pos hdigits]
    cases rest with
    | nil => simp
    | cons b rest => simp [(h b rfl).1]
  have hafter : afterDigits (decimal n ++ rest) = rest := by
    rw [afterDigits, List.dropWhile_append_of_pos hdigits]
    cases rest with
    | nil => rfl
    | cons b rest => simp [(h b rfl).1]
  have hfraction : scanFraction rest = some ([], rest) := by
    cases rest with
    | nil => rfl
    | cons b rest => simp [scanFraction, (h b rfl).2.1]
  have hexponent : scanExponent rest = some (none, rest) := by
    cases rest with
    | nil => rfl
    | cons b rest => simp [scanExponent, (h b rfl).2.2]
  have hwhole : ¬ (decimal n = [] ∨ (decimal n).head? = some 0x30 ∧ 1 < (decimal n).length) :=
    not_or.2 ⟨decimal_ne_nil n, no_leading_zero n⟩
  simp only [scanNumeral, hfront, if_neg hwhole, hafter, hfraction, hexponent,
    Option.bind_eq_bind, Option.bind_some, Option.pure_def]

/-- An integer is written as its numeral. -/
theorem encode_integer (n : Int) :
    encode (toString n)
      = if n < 0 then 0x2D :: decimal n.natAbs else decimal n.natAbs := by
  rw [Int.toString_eq_repr, Int.repr_eq_if]
  by_cases hn : n < 0
  · have habs : (-n).toNat = n.natAbs := by omega
    rw [if_neg (by omega), if_pos hn, Utf8.encode_append, habs]
    rfl
  · have habs : n.toNat = n.natAbs := by omega
    rw [if_pos (by omega), if_neg hn, habs]
    rfl

/-- A digit is none of the bytes that start another token. -/
theorem scan_of_is_digit {b : UInt8} (h : isDigit b = true) (rest : List UInt8) :
    isSpace b = false ∧ scan b rest
      = (scanNumeral false (b :: rest)).map fun (n, r) => (.scalar (.number n.value?), r) := by
  have hne : ∀ c, isDigit c = false → b ≠ c := by
    rintro c hc rfl
    rw [h] at hc
    cases hc
  have hpunctuation : punctuation? b = none := by
    simp only [punctuation?]
    rw [if_neg (hne _ rfl), if_neg (hne _ rfl), if_neg (hne _ rfl), if_neg (hne _ rfl),
      if_neg (hne _ rfl), if_neg (hne _ rfl)]
  have hscalar : scanScalar b rest
      = (scanNumeral false (b :: rest)).map fun (n, r) => (.number n.value?, r) := by
    rw [scanScalar, if_neg (hne _ rfl), if_neg (hne _ rfl), if_neg (hne _ rfl),
      if_neg (hne _ rfl), if_neg (hne _ rfl)]
  constructor
  · simp [isSpace, hne 0x20 rfl, hne 0x0A rfl, hne 0x09 rfl, hne 0x0D rfl]
  · simp only [scan, hpunctuation, hscalar, Option.map_map]
    rfl

/-- An integer in one of the 64-bit ranges that has been written is a token that reads back. -/
theorem scan_integer {n : Int} (hlow : -2 ^ 63 ≤ n) (hhigh : n < 2 ^ 64) {rest : List UInt8}
    (h : EndsNumeral rest) :
    ∃ b tail, encode (toString n) ++ rest = b :: tail ∧ isSpace b = false ∧
      scan b tail = some (.scalar (.number (some (.int n))), rest) := by
  have hvalue := value_numeral_of hlow hhigh
  have hscan : scanNumeral (decide (n < 0)) (decimal n.natAbs ++ rest)
      = some (numeralOf n, rest) := scan_numeral_decimal _ _ h
  rw [encode_integer]
  by_cases hn : n < 0
  · rw [decide_eq_true hn] at hscan
    refine ⟨0x2D, decimal n.natAbs ++ rest, by simp [hn], rfl, ?_⟩
    simp [scan, punctuation?, scanScalar, hscan, hvalue]
  · rw [decide_eq_false hn] at hscan
    obtain ⟨b, digits, hb⟩ := List.exists_cons_of_ne_nil (decimal_ne_nil n.natAbs)
    have hdigit : isDigit b = true :=
      is_digit_of_mem_decimal (hb ▸ List.mem_cons_self : b ∈ decimal n.natAbs)
    rw [hb] at hscan
    obtain ⟨hspace, hnumeral⟩ := scan_of_is_digit hdigit (digits ++ rest)
    refine ⟨b, digits ++ rest, by simp [hn, hb], hspace, ?_⟩
    rw [hnumeral, ← List.cons_append, hscan]
    simp [hvalue]

end LintWatch.Json
