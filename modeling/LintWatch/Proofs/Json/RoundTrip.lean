import LintWatch.Proofs.Json.Canonical
import LintWatch.Proofs.Json.Numeral
import LintWatch.Proofs.Json.Quotation

/-!
# Reading values that have been written

A written value is the tokens of the value (`tokens_from_value`), these build its parse tree
(`run_tokens`), and the tree has the value (`of_tree_tree`). So a canonical value whose numbers are
integers, and that nests no deeper than the reader allows, reads back: `of_bytes_to_bytes`.
-/

namespace LintWatch.Json

open LintWatch.Text
open LintWatch.Text.Utf8 (encode)

/-! ## Tokens -/

mutual

/-- The tokens that a value is written in. -/
def tokens : Json → List Token
  | .null => [.scalar .null]
  | .bool b => [.scalar (.bool b)]
  | .num n => [.scalar (.number (some n))]
  | .str s => [.scalar (.text (some s))]
  | .arr items => .arrayStart :: tokensOfItems items ++ [.arrayEnd]
  | .obj members => .objectStart :: tokensOfMembers members ++ [.objectEnd]

/-- The tokens that elements are written in. -/
def tokensOfItems : List Json → List Token
  | [] => []
  | [v] => tokens v
  | v :: vs => tokens v ++ .comma :: tokensOfItems vs

/-- The tokens that members are written in. -/
def tokensOfMembers : List (String × Json) → List Token
  | [] => []
  | [(name, v)] => .scalar (.text (some name)) :: .colon :: tokens v
  | (name, v) :: ms =>
    .scalar (.text (some name)) :: .colon :: tokens v ++ .comma :: tokensOfMembers ms

end

/-- Brackets and separators are neither blanks nor part of a numeral. -/
theorem of_punctuation {b : UInt8} {t : Token} (h : punctuation? b = some t) :
    isSpace b = false ∧ isDigit b = false ∧ b ≠ 0x2E ∧ b ≠ 0x65 ∧ b ≠ 0x45 := by
  have hb : b = 0x5B ∨ b = 0x5D ∨ b = 0x7B ∨ b = 0x7D ∨ b = 0x2C ∨ b = 0x3A := by
    by_contra hnone
    simp only [not_or] at hnone
    simp [punctuation?, hnone] at h
  rcases hb with rfl | rfl | rfl | rfl | rfl | rfl <;> decide

/-- A bracket or separator ends a numeral. -/
theorem ends_numeral_cons {b : UInt8} {t : Token} (h : punctuation? b = some t)
    (rest : List UInt8) : EndsNumeral (b :: rest) := by
  intro c hc
  obtain rfl : b = c := by simpa using hc
  exact (of_punctuation h).2

/-- The end of the bytes ends a numeral. -/
theorem ends_numeral_nil : EndsNumeral [] := by
  intro b hb
  cases hb

/-- A token in front is read first. -/
theorem tokens_from_cons {b : UInt8} {tail rest : List UInt8} {t : Token}
    (hspace : isSpace b = false) (hscan : scan b tail = some (t, rest)) (found : List Token) :
    tokensFrom found (b :: tail) = tokensFrom (t :: found) rest := by
  rw [tokensFrom, hspace]
  simp only [Bool.false_eq_true, if_false]
  split
  next hnone =>
    rw [hscan] at hnone
    cases hnone
  next hsome =>
    rw [hscan] at hsome
    cases hsome
    rfl

/-- A byte that makes up a token of its own is read first. -/
theorem tokens_from_punctuation {b : UInt8} {t : Token} (h : punctuation? b = some t)
    (found : List Token) (rest : List UInt8) :
    tokensFrom found (b :: rest) = tokensFrom (t :: found) rest :=
  tokens_from_cons (of_punctuation h).1 (by rw [scan, h]) found

/-- A word is found where it has been written. -/
theorem after_word_append (word : String) (rest : List UInt8) :
    afterWord? word (encode word ++ rest) = some rest := by
  simp [afterWord?]

/-- A written text is read as one token. -/
theorem tokens_from_quote (s : String) (found : List Token) (rest : List UInt8) :
    tokensFrom found (encode (quote s) ++ rest)
      = tokensFrom (.scalar (.text (some s)) :: found) rest := by
  obtain ⟨tail, htail, hscan⟩ := scan_quote s rest
  rw [htail]
  exact tokens_from_cons rfl hscan found

/-! ## Bytes of values -/

/-- The bytes of an array. -/
theorem to_bytes_arr (items : List Json) :
    toBytes (.arr items) = 0x5B :: (encode (compressItems items) ++ [0x5D]) := by
  rw [toBytes, compress, Utf8.encode_append, Utf8.encode_append]
  rfl

/-- The bytes of an object. -/
theorem to_bytes_obj (members : Members) :
    toBytes (.obj members) = 0x7B :: (encode (compressMembers members) ++ [0x7D]) := by
  rw [toBytes, compress, Utf8.encode_append, Utf8.encode_append]
  rfl

/-- The bytes of several elements. -/
theorem encode_items_cons (v w : Json) (vs : List Json) :
    encode (compressItems (v :: w :: vs))
      = toBytes v ++ 0x2C :: encode (compressItems (w :: vs)) := by
  rw [compressItems, Utf8.encode_append, Utf8.encode_append, List.append_assoc]
  · rfl
  · simp

/-- The bytes of one member. -/
theorem encode_member (name : String) (v : Json) :
    encode (compressMembers [(name, v)]) = encode (quote name) ++ 0x3A :: toBytes v := by
  rw [compressMembers, Utf8.encode_append, Utf8.encode_append, List.append_assoc]
  rfl

/-- The bytes of several members. -/
theorem encode_members_cons (name : String) (v : Json) (m : String × Json) (ms : Members) :
    encode (compressMembers ((name, v) :: m :: ms))
      = encode (quote name)
        ++ 0x3A :: (toBytes v ++ 0x2C :: encode (compressMembers (m :: ms))) := by
  rw [compressMembers, Utf8.encode_append, Utf8.encode_append, Utf8.encode_append,
    Utf8.encode_append, List.append_assoc, List.append_assoc, List.append_assoc]
  · rfl
  · simp

/-! ## Reading the tokens of values -/

/-- The literals are read as tokens. -/
theorem tokens_from_literal {b : UInt8} {word : String} {t : Scalar}
    (hspace : isSpace b = false) (hpunctuation : punctuation? b = none)
    (hscan : ∀ rest, scanScalar b rest = (afterWord? word rest).map fun r => (t, r))
    (found : List Token) (rest : List UInt8) :
    tokensFrom found (b :: (encode word ++ rest)) = tokensFrom (.scalar t :: found) rest := by
  apply tokens_from_cons hspace
  rw [scan, hpunctuation, hscan, after_word_append]
  rfl

mutual

/-- A written value is read as its tokens. -/
theorem tokens_from_value (v : Json) (h : Integral v) (found : List Token) {rest : List UInt8}
    (hrest : EndsNumeral rest) :
    tokensFrom found (toBytes v ++ rest) = tokensFrom ((tokens v).reverse ++ found) rest := by
  cases v with
  | null => exact tokens_from_literal (b := 0x6E) rfl rfl (fun _ => rfl) found rest
  | bool b =>
      cases b with
      | true => exact tokens_from_literal (b := 0x74) rfl rfl (fun _ => rfl) found rest
      | false => exact tokens_from_literal (b := 0x66) rfl rfl (fun _ => rfl) found rest
  | num n =>
      cases n with
      | int n =>
          -- Only here it matters what follows: a digit would go on with the numeral.
          obtain ⟨b, tail, hbytes, hspace, hscan⟩ := scan_integer h.1 h.2 hrest
          show tokensFrom found (encode (toString n) ++ rest) = _
          rw [hbytes]
          exact tokens_from_cons hspace hscan found
      | real bits => exact h.elim
  | str s => exact tokens_from_quote s found rest
  | arr items =>
      have hend : punctuation? 0x5D = some .arrayEnd := rfl
      rw [to_bytes_arr, List.cons_append, List.append_assoc, List.singleton_append,
        tokens_from_punctuation (t := .arrayStart) rfl,
        tokens_from_items items h.2 _ (ends_numeral_cons hend rest), tokens_from_punctuation hend]
      simp [tokens]
  | obj members =>
      have hend : punctuation? 0x7D = some .objectEnd := rfl
      rw [to_bytes_obj, List.cons_append, List.append_assoc, List.singleton_append,
        tokens_from_punctuation (t := .objectStart) rfl,
        tokens_from_members members h.2 _ (ends_numeral_cons hend rest),
        tokens_from_punctuation hend]
      simp [tokens]

/-- Written elements are read as their tokens. -/
theorem tokens_from_items (vs : List Json) (h : EverywhereItems IsInteger64 vs)
    (found : List Token) {rest : List UInt8} (hrest : EndsNumeral rest) :
    tokensFrom found (encode (compressItems vs) ++ rest)
      = tokensFrom ((tokensOfItems vs).reverse ++ found) rest := by
  have hcomma : punctuation? 0x2C = some .comma := rfl
  match vs, h with
  | [], _ => rfl
  | [v], h => exact tokens_from_value v h.1 found hrest
  | v :: w :: vs, h =>
      rw [encode_items_cons, List.append_assoc, List.cons_append,
        tokens_from_value v h.1 _ (ends_numeral_cons hcomma _), tokens_from_punctuation hcomma,
        tokens_from_items (w :: vs) h.2 _ hrest]
      simp [tokensOfItems]

/-- Written members are read as their tokens. -/
theorem tokens_from_members (ms : Members) (h : EverywhereMembers IsInteger64 ms)
    (found : List Token) {rest : List UInt8} (hrest : EndsNumeral rest) :
    tokensFrom found (encode (compressMembers ms) ++ rest)
      = tokensFrom ((tokensOfMembers ms).reverse ++ found) rest := by
  have hcolon : punctuation? 0x3A = some .colon := rfl
  have hcomma : punctuation? 0x2C = some .comma := rfl
  match ms, h with
  | [], _ => rfl
  | [(name, v)], h =>
      rw [encode_member, List.append_assoc, List.cons_append, tokens_from_quote,
        tokens_from_punctuation hcolon, tokens_from_value v h.1 _ hrest]
      simp [tokensOfMembers]
  | (name, v) :: m :: ms, h =>
      rw [encode_members_cons, List.append_assoc, List.cons_append, List.append_assoc,
        List.cons_append, tokens_from_quote, tokens_from_punctuation hcolon,
        tokens_from_value v h.1 _ (ends_numeral_cons hcomma _), tokens_from_punctuation hcomma,
        tokens_from_members (m :: ms) h.2 _ hrest]
      simp [tokensOfMembers]

end

/-- All of a written value is its tokens. -/
theorem tokens_to_bytes {v : Json} (h : Integral v) : tokens? (toBytes v) = some (tokens v) := by
  have hread := tokens_from_value v h [] ends_numeral_nil
  rw [List.append_nil, List.append_nil, tokensFrom, List.reverse_reverse] at hread
  exact hread

/-! ## Parse trees of values -/

mutual

/-- The parse tree of a value. -/
def tree : Json → Tree
  | .null => .scalar .null
  | .bool b => .scalar (.bool b)
  | .num n => .scalar (.number (some n))
  | .str s => .scalar (.text (some s))
  | .arr items => .array (treesOfItems items)
  | .obj members => .object (treesOfMembers members)

/-- The parse trees of elements. -/
def treesOfItems : List Json → List Tree
  | [] => []
  | v :: vs => tree v :: treesOfItems vs

/-- The names and parse trees of members. -/
def treesOfMembers : List (String × Json) → List (Option String × Tree)
  | [] => []
  | (name, v) :: ms => (some name, tree v) :: treesOfMembers ms

end

/-- A token that fits is read first. -/
theorem run_cons {b b' : Builder} {t : Token} (h : b.step t = some b') (ts : List Token) :
    b.run (t :: ts) = b'.run ts := by
  rw [Builder.run, h]

/-- Where a value may stand, a token other than the end of an array begins one. -/
theorem step_value {expected : Expected}
    (hexpected : expected = .value ∨ expected = .valueOrEnd) (frames : List Frame) {t : Token}
    (ht : t ≠ .arrayEnd) :
    Builder.step ⟨frames, expected⟩ t = Builder.stepValue frames t := by
  rcases hexpected with rfl | rfl
  · rfl
  · cases t <;> first | rfl | exact absurd rfl ht

mutual

/-- The tokens of a value, where a value or the end of an array may stand, build its tree. -/
theorem run_tokens (v : Json) (frames : List Frame) {expected : Expected}
    (hexpected : expected = .value ∨ expected = .valueOrEnd) (ts : List Token) :
    Builder.run ⟨frames, expected⟩ (tokens v ++ ts)
      = (Builder.complete (tree v) frames).run ts := by
  cases v with
  | null | bool | num | str => exact run_cons (step_value hexpected frames (by simp)) ts
  | arr items =>
      rw [tokens, List.cons_append, List.cons_append, List.append_assoc, List.singleton_append,
        run_cons (step_value hexpected frames (by simp))]
      exact run_tokens_of_items items [] frames (Or.inr rfl) ts
  | obj members =>
      rw [tokens, List.cons_append, List.cons_append, List.append_assoc, List.singleton_append,
        run_cons (step_value hexpected frames (by simp))]
      exact run_tokens_of_members members [] frames (Or.inr ⟨rfl, rfl⟩) ts

/-- The tokens of elements and of the end of their array build its tree. -/
theorem run_tokens_of_items (vs : List Json) (done : List Tree) (frames : List Frame)
    {expected : Expected}
    (hexpected : expected = .value ∧ vs ≠ [] ∨ expected = .valueOrEnd) (ts : List Token) :
    Builder.run ⟨.array done :: frames, expected⟩ (tokensOfItems vs ++ .arrayEnd :: ts)
      = (Builder.complete (.array (done.reverse ++ treesOfItems vs)) frames).run ts := by
  have hvalue : expected = .value ∨ expected = .valueOrEnd := hexpected.imp_left And.left
  match vs with
  | [] =>
      rcases hexpected with ⟨-, hne⟩ | rfl
      · exact absurd rfl hne
      · rw [tokensOfItems, List.nil_append, run_cons rfl, treesOfItems, List.append_nil]
  | [v] =>
      rw [tokensOfItems, run_tokens v _ hvalue, Builder.complete, run_cons rfl]
      simp [treesOfItems]
  | v :: w :: vs =>
      rw [tokensOfItems, List.append_assoc, run_tokens v _ hvalue, Builder.complete,
        List.cons_append, run_cons rfl,
        run_tokens_of_items (w :: vs) _ frames (Or.inl ⟨rfl, by simp⟩)]
      · simp [treesOfItems]
      · simp

/-- The tokens of members and of the end of their object build its tree. -/
theorem run_tokens_of_members (ms : Members) (done : List (Option String × Tree))
    (frames : List Frame) {expected : Expected}
    (hexpected : expected = .name done ∧ ms ≠ [] ∨ expected = .nameOrEnd ∧ done = [])
    (ts : List Token) :
    Builder.run ⟨frames, expected⟩ (tokensOfMembers ms ++ .objectEnd :: ts)
      = (Builder.complete (.object (done.reverse ++ treesOfMembers ms)) frames).run ts := by
  have hname : ∀ name, Builder.step ⟨frames, expected⟩ (.scalar (.text (some name)))
      = some ⟨frames, .colon done (some name)⟩ := by
    intro name
    rcases hexpected with ⟨rfl, -⟩ | ⟨rfl, rfl⟩ <;> rfl
  match ms with
  | [] =>
      rcases hexpected with ⟨-, hne⟩ | ⟨rfl, rfl⟩
      · exact absurd rfl hne
      · rw [tokensOfMembers, List.nil_append, run_cons rfl]
        rfl
  | [(name, v)] =>
      rw [tokensOfMembers, List.cons_append, List.cons_append, run_cons (hname name),
        run_cons rfl, run_tokens v _ (Or.inl rfl), Builder.complete, run_cons rfl]
      simp [treesOfMembers]
  | (name, v) :: m :: ms =>
      rw [tokensOfMembers, List.cons_append, List.cons_append, List.cons_append,
        List.cons_append, List.append_assoc, List.cons_append, run_cons (hname name),
        run_cons rfl, run_tokens v _ (Or.inl rfl), Builder.complete, run_cons rfl,
        run_tokens_of_members (m :: ms) _ frames (Or.inl ⟨rfl, by simp⟩)]
      · simp [treesOfMembers]
      · simp

end

/-- The tokens of a value make up its parse tree. -/
theorem of_tokens_tokens (v : Json) : Tree.ofTokens? (tokens v) = some (tree v) := by
  have hrun := run_tokens v [] (Or.inl rfl) []
  rw [List.append_nil] at hrun
  rw [Tree.ofTokens?, Builder.start, hrun]
  rfl

/-! ## Values of parse trees -/

mutual

/-- The tree of a canonical value has the value, if it nests no deeper than it may. -/
theorem of_tree_tree (v : Json) (hcanonical : Canonical v) {d : Nat} (hdepth : depth v ≤ d) :
    ofTree? d (tree v) = some v := by
  cases v with
  | null | bool | num | str => simp [tree, ofTree?, ofScalar?]
  | arr items =>
      cases d with
      | zero => exact absurd hdepth (Nat.not_succ_le_zero _)
      | succ d =>
          have hitems := of_trees_items items hcanonical.2 (Nat.le_of_succ_le_succ hdepth)
          rw [tree, ofTree?, hitems, Option.map_some]
  | obj members =>
      cases d with
      | zero => exact absurd hdepth (Nat.not_succ_le_zero _)
      | succ d =>
          have hmembers := of_members_members members [] hcanonical.1 hcanonical.2
            (Nat.le_of_succ_le_succ hdepth)
          rw [tree, ofTree?, hmembers, Option.map_some, List.nil_append]

/-- The trees of canonical elements have them. -/
theorem of_trees_items (vs : List Json) (hcanonical : EverywhereItems Sorted vs) {d : Nat}
    (hdepth : depthItems vs ≤ d) : ofTrees? d (treesOfItems vs) = some vs := by
  cases vs with
  | nil => rfl
  | cons v vs =>
      obtain ⟨hfirst, hrest⟩ := Nat.max_le.1 hdepth
      rw [treesOfItems, ofTrees?, of_tree_tree v hcanonical.1 hfirst]
      simp [of_trees_items vs hcanonical.2 hrest]

/-- The trees of canonical members have them, if their names come after those found before. -/
theorem of_members_members (ms : Members) (found : Members)
    (hincreasing : Increasing (found ++ ms)) (hcanonical : EverywhereMembers Sorted ms) {d : Nat}
    (hdepth : depthMembers ms ≤ d) :
    ofMembers? d found (treesOfMembers ms) = some (found ++ ms) := by
  cases ms with
  | nil => rw [treesOfMembers, ofMembers?, List.append_nil]
  | cons m ms =>
      obtain ⟨name, v⟩ := m
      obtain ⟨hfirst, hrest⟩ := Nat.max_le.1 hdepth
      have hlast : ∀ m ∈ found, m.1 < name := fun m hm =>
        (List.pairwise_append.1 hincreasing).2.2 m hm (name, v) (by simp)
      -- Inserting the name puts it at the end, so the order in which members are read is kept.
      have happend : found ++ (name, v) :: ms = found ++ [(name, v)] ++ ms := by simp
      rw [happend] at hincreasing ⊢
      rw [treesOfMembers, ofMembers?, of_tree_tree v hcanonical.1 hfirst]
      simp only [insert_member_of_lt hlast]
      exact of_members_members ms _ hincreasing hcanonical.2 hrest

end

/-- A canonical value whose numbers are integers, and that nests no deeper than the reader allows,
reads back once it has been written. -/
theorem of_bytes_to_bytes {v : Json} (hcanonical : Canonical v) (hintegral : Integral v)
    (hdepth : depth v ≤ depthLimit) : ofBytes? (toBytes v) = some v := by
  rw [ofBytes?, Tree.ofBytes?, tokens_to_bytes hintegral, Option.bind_some, of_tokens_tokens,
    Option.bind_some, of_tree_tree v hcanonical hdepth]

end LintWatch.Json
