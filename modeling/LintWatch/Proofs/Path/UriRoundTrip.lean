import LintWatch.Path.FileUri
import LintWatch.Proofs.Path.Components
import LintWatch.Proofs.Text.Utf8
import Mathlib.Data.List.TakeWhile

/-!
# The URI of a path

The URI of an absolute path without `..` names that path, whatever bytes its names are made of
(`components_of_uri`). A written name holds nothing that ends a segment, and since the sign of an
escape is itself written as one, no name is taken for another one, for dots or for an escape. What
looks like a drive is none, because the slash behind the empty authority comes first.
-/

namespace LintWatch.FileUri

open LintWatch.Text

/-! ## Written names -/

/-- A byte that can stand where a name is written: it stands for itself or starts an escape. -/
def isWritten (b : UInt8) : Bool :=
  b = Percent.sign || !reserved b

/-- A digit of an escape stands for itself. -/
theorem reserved_digit {n : Nat} (h : n < 16) : reserved (Percent.digit n) = false := by
  have hdigit : ∀ m : Fin 16, reserved (Percent.digit m.val) = false := by decide +kernel
  exact hdigit ⟨n, h⟩

/-- A name is written in bytes that can stand there. -/
theorem is_written_of_mem_encode {name : List UInt8} {b : UInt8}
    (h : b ∈ Percent.encode reserved name) : isWritten b = true := by
  obtain ⟨a, -, hb⟩ := List.mem_flatMap.1 h
  unfold Percent.encodeByte at hb
  split at hb
  · simp only [List.mem_cons, List.not_mem_nil, or_false] at hb
    rcases hb with rfl | rfl | rfl
    · rfl
    · have hhigh : a.toNat / 16 < 16 := Nat.div_lt_of_lt_mul a.toNat_lt
      simp [isWritten, reserved_digit hhigh]
    · simp [isWritten, reserved_digit (Nat.mod_lt a.toNat (by decide))]
  next hfree =>
    obtain rfl := List.mem_singleton.1 hb
    simpa [isWritten] using Or.inr hfree

/-- A character that belongs to a segment: it is visible, and it neither separates segments nor ends
the path. -/
structure InSegment (c : Char) : Prop where
  visible : 0x20 < c.toNat
  unseparating : isSeparator .file ⟨c, false⟩ = false
  unending : endsPath ⟨c, false⟩ = false

/-- A byte that can stand where a name is written is a character of its own, in a segment. -/
theorem in_segment_of_is_written {b : UInt8} (h : isWritten b = true) :
    b.toNat < 0x80 ∧ InSegment (Utf8.asciiChar b) := by
  have hbyte : ∀ n : Fin 256, isWritten (UInt8.ofNat n.val) = true →
      n.val < 0x80 ∧ 0x20 < (Char.ofNat n.val).toNat ∧
        isSeparator .file ⟨Char.ofNat n.val, false⟩ = false ∧
          endsPath ⟨Char.ofNat n.val, false⟩ = false := by
    decide +kernel
  obtain ⟨hlt, hvisible, hseparator, hend⟩ :=
    hbyte ⟨b.toNat, b.toNat_lt⟩ (by rwa [UInt8.ofNat_toNat])
  exact ⟨hlt, hvisible, hseparator, hend⟩

/-- The characters in which a name is written. -/
def written (name : List UInt8) : List Char :=
  (Percent.encode reserved name).map Utf8.asciiChar

variable {name : List UInt8} {names : List (List UInt8)} {segment : List Char}
  {segments : List (List Char)}

/-- The characters of a written name belong to its segment. -/
theorem in_segment_of_mem_written {c : Char} (h : c ∈ written name) : InSegment c := by
  obtain ⟨b, hb, rfl⟩ := List.mem_map.1 h
  exact (in_segment_of_is_written (is_written_of_mem_encode hb)).2

/-- A written name decodes to the name. -/
theorem decode_written (name : List UInt8) :
    Percent.decode (Utf8.encode (String.ofList (written name))) = name := by
  have hlt : ∀ b ∈ Percent.encode reserved name, b.toNat < 0x80 := fun b hb =>
    (in_segment_of_is_written (is_written_of_mem_encode hb)).1
  rw [written, Utf8.encode_ascii_chars hlt]
  exact Percent.decode_encode (by decide +kernel) name

/-- A name that a component can have is not written as nothing. -/
theorem written_ne_nil (h : Path.IsName name) : written name ≠ [] := by
  intro hnil
  have hname := decode_written name
  rw [hnil] at hname
  exact h.ne_nil (hname.symm.trans (by decide +kernel))

/-! ## Dots -/

/-- A dot, plain or as an escape, whose digits may be of either case. -/
def dots : List (List Char) :=
  [".", "%2e", "%2E"].map String.toList

/-- A character is what it is in lower case or the capital of that. -/
theorem eq_of_to_lower_eq {c d : Char} (h : c.toLower = d) : c = d ∨ c = d.toUpper := by
  unfold Char.toLower at h
  split at h
  next hupper =>
    have hlow : 0x41 ≤ c.val.toNat := UInt32.le_iff_toNat_le.1 hupper.1
    have hhigh : c.val.toNat ≤ 0x5A := UInt32.le_iff_toNat_le.1 hupper.2
    have hlowered : d.val.toNat = c.val.toNat + 0x20 := by
      rw [← h]
      show (c.val + ('a'.val - 'A'.val)).toNat = _
      rw [UInt32.toNat_add]
      exact Nat.mod_eq_of_lt (show c.val.toNat + 0x20 < _ by omega)
    refine Or.inr (Char.ext (UInt32.toNat_inj.1 ?_))
    unfold Char.toUpper
    split
    · show _ = (d.val + ('A'.val - 'a'.val)).toNat
      rw [UInt32.toNat_add, hlowered]
      show _ = (c.val.toNat + 0x20 + (0x100000000 - 0x20)) % 0x100000000
      omega
    next hlower =>
      refine absurd ⟨UInt32.le_iff_toNat_le.2 ?_, UInt32.le_iff_toNat_le.2 ?_⟩ hlower
      · show 0x61 ≤ _
        omega
      · show _ ≤ 0x7A
        omega
  · exact Or.inl h

/-- What is a dot in lower case is a dot. -/
theorem mem_dots_of_lower (h : segment.map Char.toLower ∈ [".", "%2e"].map String.toList) :
    segment ∈ dots := by
  have hsame : ∀ {c d : Char}, c.toLower = d → d.toUpper = d → c = d := fun h hd =>
    (eq_of_to_lower_eq h).elim id fun hc => hc.trans hd
  have hcases : segment.map Char.toLower = ['.'] ∨
      segment.map Char.toLower = ['%', '2', 'e'] := by
    simpa using h
  rcases hcases with h | h
  · obtain ⟨c, rfl, hc⟩ := List.map_eq_singleton_iff.1 h
    rw [hsame hc rfl]
    decide
  · obtain ⟨c, _, rfl, hc, h⟩ := List.map_eq_cons_iff.1 h
    obtain ⟨d, _, rfl, hd, h⟩ := List.map_eq_cons_iff.1 h
    obtain ⟨e, rfl, he⟩ := List.map_eq_singleton_iff.1 h
    rw [hsame hc rfl, hsame hd rfl]
    have hletter : e = 'e' ∨ e = 'E' := eq_of_to_lower_eq he
    rcases hletter with rfl | rfl <;> decide

/-- A segment that is read as `.` decodes to it. -/
theorem decode_of_single_dot (h : isSingleDot segment = true) :
    Percent.decode (Utf8.encode (String.ofList segment)) = [Path.dot] := by
  have hdecode : ∀ s ∈ dots, Percent.decode (Utf8.encode (String.ofList s)) = [Path.dot] := by
    decide +kernel
  exact hdecode segment (mem_dots_of_lower (of_decide_eq_true h))

/-- A segment that is read as `..` decodes to it. -/
theorem decode_of_double_dot (h : isDoubleDot segment = true) :
    Percent.decode (Utf8.encode (String.ofList segment)) = [Path.dot, Path.dot] := by
  have hdecode : ∀ a ∈ dots, ∀ b ∈ dots,
      Percent.decode (Utf8.encode (String.ofList (a ++ b))) = [Path.dot, Path.dot] := by
    decide +kernel
  have hsplit : ∀ s ∈ ["..", "%2e.", ".%2e", "%2e%2e"].map String.toList,
      ∃ x ∈ [".", "%2e"].map String.toList, ∃ y ∈ [".", "%2e"].map String.toList, s = x ++ y := by
    decide
  obtain ⟨x, hx, y, hy, hsegment⟩ := hsplit _ (of_decide_eq_true h)
  obtain ⟨a, b, rfl, rfl, rfl⟩ := List.map_eq_append_iff.1 hsegment
  exact hdecode a (mem_dots_of_lower hx) b (mem_dots_of_lower hy)

/-! ## Reading segments -/

/-- A segment that means itself: it is read neither as `.` nor as `..`. -/
structure IsLiteral (segment : List Char) : Prop where
  ne_single_dot : isSingleDot segment = false
  ne_double_dot : isDoubleDot segment = false

/-- The name of a component is written as a segment that means itself. -/
theorem is_literal_written (h : Path.IsName name) : IsLiteral (written name) := by
  constructor
  · by_contra hdot
    have hname := decode_of_single_dot (Bool.not_eq_false _ ▸ hdot)
    rw [decode_written] at hname
    exact h.ne_dot hname
  · by_contra hdots
    have hname := decode_of_double_dot (Bool.not_eq_false _ ▸ hdots)
    rw [decode_written] at hname
    exact h.ne_dots hname

/-- Nothing that has been read so far has a meaning of its own: the segment that is being read means
itself, and it is not in the first place unless it is empty. -/
structure Segments.IsPlain (s : Segments) : Prop where
  uncut : s.isCutOff = false
  literal : IsLiteral s.current.reverse
  follows : s.complete ≠ [] ∨ s.current = []

namespace Segments

variable {s : Segments}

/-- Closing a segment that means itself completes it. -/
theorem IsPlain.close_eq (h : s.IsPlain) :
    s.close .file = ⟨s.current.reverse :: s.complete, [], false, s.hasDrive⟩ := by
  have hdrive : ¬ (s.complete = [] ∧ isDrive s.current.reverse = true) := by
    rintro ⟨hcomplete, hdrive⟩
    rw [h.follows.resolve_left (not_not_intro hcomplete)] at hdrive
    cases hdrive
  simp only [close, h.uncut, h.literal.ne_double_dot, h.literal.ne_single_dot, true_and,
    if_neg hdrive, Bool.false_eq_true, if_false]

/-- At the end the segment that is being read is the last one. -/
theorem IsPlain.finish_eq (h : s.IsPlain) :
    s.finish .file = s.complete.reverse ++ [s.current.reverse] := by
  simp only [finish, h.close_eq, h.literal.ne_double_dot, h.literal.ne_single_dot]
  simp

/-- Characters of a segment are added to the one that is being read. -/
theorem foldl_read_segment (hin : ∀ c ∈ segment, InSegment c)
    (s : Segments) :
    (segment.map (⟨·, false⟩)).foldl (read .file) s
      = { s with current := segment.reverse ++ s.current } := by
  induction segment generalizing s with
  | nil => rfl
  | cons c segment ih =>
      have hread : s.read .file ⟨c, false⟩ = { s with current := c :: s.current } := by
        simp [read, (hin c (by simp)).unseparating]
      rw [List.map_cons, List.foldl_cons, hread, ih (fun d hd => hin d (by simp [hd])) _]
      simp

end Segments

/-- The text of segments, a slash in front of each. -/
def spelled (segments : List (List Char)) : List Char :=
  segments.flatMap ('/' :: ·)

/-- Segments that mean themselves are read as they are, behind what has been read before. -/
theorem Segments.finish_foldl_read {s : Segments} (h : s.IsPlain)
    (hin : ∀ segment ∈ segments, ∀ c ∈ segment, InSegment c)
    (hliteral : ∀ segment ∈ segments, IsLiteral segment) :
    (((spelled segments).map (⟨·, false⟩)).foldl (read .file) s).finish .file
      = s.complete.reverse ++ s.current.reverse :: segments := by
  induction segments generalizing s with
  | nil => exact h.finish_eq
  | cons segment segments ih =>
      have hslash : s.read .file ⟨'/', false⟩
          = ⟨s.current.reverse :: s.complete, [], false, s.hasDrive⟩ := h.close_eq
      have hnext : IsPlain ⟨s.current.reverse :: s.complete, segment.reverse, false, s.hasDrive⟩ :=
        ⟨rfl, by simpa using hliteral segment (by simp), Or.inl (by simp)⟩
      have hspelled : spelled (segment :: segments) = '/' :: segment ++ spelled segments := rfl
      rw [hspelled, List.cons_append, List.map_cons, List.map_append, List.foldl_cons,
        List.foldl_append, hslash, foldl_read_segment (hin segment (by simp)), List.append_nil,
        ih hnext (fun t ht => hin t (by simp [ht])) fun t ht => hliteral t (by simp [ht])]
      simp

/-! ## Reading a URI -/

/-- Of a text without blanks all characters count. -/
theorem significant_eq {s : String} (h : ∀ c ∈ s.toList, 0x20 < c.toNat) :
    significant s = s.toList.map (⟨·, false⟩) := by
  have hmargin : ∀ cs : List Char, (∀ c ∈ cs, 0x20 < c.toNat) →
      cs.dropWhile (fun c => decide (c.toNat ≤ 0x20)) = cs := by
    intro cs hcs
    cases cs with
    | nil => rfl
    | cons c cs => exact List.dropWhile_cons_of_neg (by simpa using hcs c (by simp))
  have hsigns : ∀ cs : List Char, (∀ c ∈ cs, 0x20 < c.toNat) →
      signs false cs = cs.map (⟨·, false⟩) := by
    intro cs hcs
    induction cs with
    | nil => rfl
    | cons c cs ih =>
        have hc : ¬ (c = '\t' ∨ c = '\n' ∨ c = '\r') := by
          have hvisible := hcs c (by simp)
          rintro (rfl | rfl | rfl) <;> exact absurd hvisible (by decide)
        rw [signs, if_neg hc, ih fun d hd => hcs d (by simp [hd]), List.map_cons]
  show signs false ((s.toList.dropWhile _).reverse.dropWhile _).reverse = _
  rw [hmargin _ h, hmargin _ (by simpa using h), List.reverse_reverse, hsigns _ h]

/-- The path behind an empty authority has the segments that are spelled there, if they mean
themselves, but for those in front that are empty. -/
theorem read_path_spelled (hin : ∀ segment ∈ segments, ∀ c ∈ segment, InSegment c)
    (hliteral : ∀ segment ∈ segments, IsLiteral segment) :
    (readPath .file ((spelled segments).map (⟨·, false⟩))).1
      = pathOfSegments (let named := segments.dropWhile (· = [])
          if named = [] then [[]] else named) := by
  have hpath : ∀ c ∈ (spelled segments).map (Sign.mk · false), (!endsPath c) = true := by
    intro c hc
    obtain ⟨d, hd, rfl⟩ := List.mem_map.1 hc
    obtain ⟨segment, hsegment, hd⟩ := List.mem_flatMap.1 hd
    rcases List.mem_cons.1 hd with rfl | hd
    · rfl
    · simp [(hin segment hsegment d hd).unending]
  have hempty : Segments.empty.IsPlain := ⟨rfl, ⟨rfl, rfl⟩, Or.inr rfl⟩
  unfold readPath
  rw [List.takeWhile_eq_self_iff.2 hpath]
  simp only [Segments.finish_foldl_read hempty hin hliteral]
  rfl

/-- A `file` URI with an empty authority names the path that is read behind it. -/
theorem path_of_spelled (hne : segments ≠ [])
    (hin : ∀ segment ∈ segments, ∀ c ∈ segment, InSegment c) :
    path? (String.ofList ("file://".toList ++ spelled segments))
      = some (readPath .file ((spelled segments).map (⟨·, false⟩))).1 := by
  have hvisible : ∀ c ∈ (String.ofList ("file://".toList ++ spelled segments)).toList,
      0x20 < c.toNat := by
    intro c hc
    rw [String.toList_ofList, List.mem_append] at hc
    rcases hc with hc | hc
    · have hscheme : ∀ c ∈ "file://".toList, 0x20 < c.toNat := by simp
      exact hscheme c hc
    · obtain ⟨segment, hsegment, hc⟩ := List.mem_flatMap.1 hc
      rcases List.mem_cons.1 hc with rfl | hc
      · decide
      · exact (hin segment hsegment c hc).visible
  obtain ⟨segment, rest, rfl⟩ := List.exists_cons_of_ne_nil hne
  unfold path?
  rw [significant_eq hvisible, String.toList_ofList]
  rfl

/-! ## Round trip -/

/-- The names that are written for a path: for the root alone an empty one. -/
def orEmpty (names : List (List UInt8)) : List (List UInt8) :=
  if names = [] then [[]] else names

/-- Some name is always written. -/
theorem or_empty_ne_nil (names : List (List UInt8)) : orEmpty names ≠ [] := by
  cases names <;> simp [orEmpty]

/-- A name that is written is empty or one of the names. -/
theorem mem_or_empty (h : name ∈ orEmpty names) : name = [] ∨ name ∈ names := by
  cases names with
  | nil => exact Or.inl (List.mem_singleton.1 h)
  | cons n names => exact Or.inr h

/-- The URI of the root and names. -/
theorem of_path_eq {p : Path} (habsolute : p.isAbsolute = true)
    (h : p.components = .root :: names.map .name) :
    ofPath? p = some (String.ofList
      ("file://".toList ++ spelled ((orEmpty names).map written))) := by
  let encoded (n : List UInt8) : List UInt8 := Path.slash :: Percent.encode reserved n
  have hpath : (p.components.drop 1).flatMap
      (fun c => Path.slash :: Percent.encode reserved c.bytes) = names.flatMap encoded := by
    rw [h, List.drop_one, List.tail_cons, List.flatMap_map]
    rfl
  have hroot : (if names.flatMap encoded = [] then [Path.slash] else names.flatMap encoded)
      = (orEmpty names).flatMap encoded := by
    cases names with
    | nil => rfl
    | cons n names => exact if_neg (by simp [encoded])
  have hlt : ∀ b ∈ (orEmpty names).flatMap encoded, b.toNat < 0x80 := by
    intro b hb
    obtain ⟨n, -, hb⟩ := List.mem_flatMap.1 hb
    rcases List.mem_cons.1 hb with rfl | hb
    · decide
    · exact (in_segment_of_is_written (is_written_of_mem_encode hb)).1
  have hchars : ((orEmpty names).flatMap encoded).map Utf8.asciiChar
      = spelled ((orEmpty names).map written) := by
    rw [List.map_flatMap, spelled, List.flatMap_map]
    rfl
  rw [ofPath?, if_pos habsolute]
  simp only [hpath, hroot]
  rw [Utf8.decode_lossy_of_lt hlt, hchars, String.ofList_append]
  rfl

/-- The path of at least one segment spells what the segments decode to: a slash behind a drive at
its end does not matter. -/
theorem components_path_of_segments (h : segments ≠ []) :
    (pathOfSegments segments).components = Path.components ⟨segments.flatMap fun segment =>
      Path.slash :: Percent.decode (Utf8.encode (String.ofList segment))⟩ := by
  have hbytes : segments.flatMap (fun segment =>
      Path.slash :: Percent.decode (Utf8.encode (String.ofList segment))) ≠ [] := by
    obtain ⟨segment, rest, rfl⟩ := List.exists_cons_of_ne_nil h
    simp
  have hslash : ∀ (endsInDrive : Bool) (bytes : List UInt8), bytes ≠ [] →
      Path.components ⟨if endsInDrive then bytes ++ [Path.slash] else bytes⟩
        = Path.components ⟨bytes⟩ := by
    intro endsInDrive bytes hbytes
    cases endsInDrive with
    | true => exact Path.components_concat_slash hbytes
    | false => rfl
  exact hslash _ _ hbytes

/-- The path of written names spells the root and the names. -/
theorem components_path_of_names (h : ∀ n ∈ names, Path.IsName n) :
    (pathOfSegments ((orEmpty names).map written)).components = .root :: names.map .name := by
  rw [components_path_of_segments (by simpa using or_empty_ne_nil names), List.flatMap_map]
  simp only [decode_written]
  cases names with
  | nil => rfl
  | cons n names =>
      rw [orEmpty, if_neg (by simp), ← Path.components_concat_slash (by simp),
        Path.components_flat_map_slash h]

/-- Written names are read as they are. -/
theorem path_of_names (h : ∀ n ∈ names, Path.IsName n) :
    path? (String.ofList ("file://".toList ++ spelled ((orEmpty names).map written)))
      = some (pathOfSegments ((orEmpty names).map written)) := by
  have hin : ∀ segment ∈ (orEmpty names).map written, ∀ c ∈ segment, InSegment c := by
    intro segment hsegment c hc
    obtain ⟨n, -, rfl⟩ := List.mem_map.1 hsegment
    exact in_segment_of_mem_written hc
  have hliteral : ∀ segment ∈ (orEmpty names).map written, IsLiteral segment := by
    intro segment hsegment
    obtain ⟨n, hn, rfl⟩ := List.mem_map.1 hsegment
    rcases mem_or_empty hn with rfl | hn
    · exact ⟨rfl, rfl⟩
    · exact is_literal_written (h n hn)
  rw [path_of_spelled (by simpa using or_empty_ne_nil names) hin, read_path_spelled hin hliteral]
  -- An empty segment is in front only if there is no other one.
  cases names with
  | nil => rfl
  | cons n names =>
      have hnamed : (orEmpty (n :: names)).map written ≠ [] := by simp [orEmpty]
      have hfront : ((orEmpty (n :: names)).map written).dropWhile (· = [])
          = (orEmpty (n :: names)).map written :=
        List.dropWhile_cons_of_neg (by simpa using written_ne_nil (h n (by simp)))
      simp only [hfront, if_neg hnamed]

/-- The URI of an absolute path without `..` names a path with the same components. -/
theorem components_of_uri {p : Path} (habsolute : p.isAbsolute = true)
    (hparent : .parent ∉ p.components) :
    ∃ uri q, ofPath? p = some uri ∧ path? uri = some q ∧ q.components = p.components := by
  obtain ⟨names, hcomponents, hnames⟩ := Path.exists_names_of_absolute habsolute hparent
  exact ⟨_, _, of_path_eq habsolute hcomponents, path_of_names hnames,
    (components_path_of_names hnames).trans hcomponents.symm⟩

end LintWatch.FileUri
