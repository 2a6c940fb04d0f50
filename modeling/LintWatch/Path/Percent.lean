import LintWatch.Text.Utf8

/-!
# Percent-encoding

A byte that may not stand for itself is written as `%` and two upper-case hexadecimal digits;
reading takes digits of either case and leaves a `%` without two digits as it is. The main
statement is `decode_encode`: encoded bytes read back as themselves whenever `%` is among the
bytes that are encoded.
-/

namespace LintWatch.Percent

/-- The byte `%`. -/
def sign : UInt8 := 0x25

/-- A hexadecimal digit. -/
def digit (n : Nat) : UInt8 :=
  UInt8.ofNat (if n < 10 then 0x30 + n else 0x37 + n)

/-- The value of a hexadecimal digit. -/
def digit? (b : UInt8) : Option Nat :=
  if 0x30 ≤ b ∧ b ≤ 0x39 then some (b.toNat - 0x30)
  else if 0x41 ≤ b ∧ b ≤ 0x46 then some (b.toNat - 0x37)
  else if 0x61 ≤ b ∧ b ≤ 0x66 then some (b.toNat - 0x57)
  else none

/-- The written form of one byte, of which those in `reserved` are encoded. -/
def encodeByte (reserved : UInt8 → Bool) (b : UInt8) : List UInt8 :=
  if reserved b then [sign, digit (b.toNat / 16), digit (b.toNat % 16)] else [b]

/-- The written form of bytes, of which those in `reserved` are encoded. -/
def encode (reserved : UInt8 → Bool) (bytes : List UInt8) : List UInt8 :=
  bytes.flatMap (encodeByte reserved)

/-- The byte that an escape stands for, of which `b` is the first byte and `rest` starts with the
others. -/
def escaped? (b : UInt8) (rest : List UInt8) : Option UInt8 :=
  match rest with
  | h :: l :: _ =>
    if b = sign then do return UInt8.ofNat ((← digit? h) * 16 + (← digit? l)) else none
  | _ => none

/-- The bytes that a written form stands for. -/
def decode : List UInt8 → List UInt8
  | [] => []
  | b :: rest =>
    match escaped? b rest with
    | some c => c :: decode (rest.drop 2)
    | none => b :: decode rest
termination_by bytes => bytes.length
decreasing_by all_goals (simp only [List.length_cons, List.length_drop]; omega)

/-- A digit that is written reads back. -/
theorem digit?_digit {n : Nat} (h : n < 16) : digit? (digit n) = some n := by
  have : ∀ m : Fin 16, digit? (digit m.val) = some m.val := by decide
  exact this ⟨n, h⟩

/-- An encoded byte reads back as itself, whatever follows it. -/
theorem decode_encodeByte {reserved : UInt8 → Bool} (hs : reserved sign = true) (b : UInt8)
    (rest : List UInt8) : decode (encodeByte reserved b ++ rest) = b :: decode rest := by
  unfold encodeByte
  split
  · have hm := digit?_digit (n := b.toNat / 16) (by have := b.toNat_lt; omega)
    have hn := digit?_digit (n := b.toNat % 16) (by omega)
    have he : escaped? sign (digit (b.toNat / 16) :: digit (b.toNat % 16) :: rest) = some b := by
      simp only [escaped?, hm, hn, if_true, Option.bind_eq_bind, Option.bind_some, Option.pure_def,
        Option.some.injEq]
      rw [show b.toNat / 16 * 16 + b.toNat % 16 = b.toNat by omega]
      exact UInt8.ofNat_toNat
    simp only [List.cons_append, List.nil_append]
    rw [decode, he]
    simp
  · rename_i hb
    have hne : b ≠ sign := by rintro rfl; exact hb hs
    have he : escaped? b rest = none := by
      unfold escaped?
      split <;> simp [hne]
    rw [List.cons_append, List.nil_append, decode, he]

/-- Encoded bytes read back as themselves. -/
theorem decode_encode {reserved : UInt8 → Bool} (hs : reserved sign = true)
    (bytes : List UInt8) : decode (encode reserved bytes) = bytes := by
  induction bytes with
  | nil => simp [encode, decode]
  | cons b rest ih =>
    rw [encode, List.flatMap_cons, decode_encodeByte hs, ← encode, ih]

end LintWatch.Percent
