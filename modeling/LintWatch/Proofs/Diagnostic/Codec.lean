import LintWatch.Diagnostic.Codec
import LintWatch.Proofs.Json.Record
import LintWatch.Proofs.Json.RoundTrip
import LintWatch.Proofs.Text.Utf8

/-!
# Diagnostics that are stored

A diagnostic that is stored is read as what it was, as a value and as text (`read_as_stored`), and so
is one that was read from any other form of it: a severity may be an object with its word as the only
name, a record may be an array of its fields, and the link may be null. Points and ranges have one
form only (`Point.of_json_iff`, `Range.of_json_iff`), so no two of the four numbers can be exchanged.
-/

namespace LintWatch

open LintWatch.Text

/-! ## Parts of a diagnostic -/

/-- The word of a severity stands for it. -/
theorem Severity.of_json_to_json (s : Severity) : ofJson? s.toJson = some s := by
  cases s <;> rfl

/-- The values that are read as a pair are the arrays of two. -/
theorem Json.pair_eq_some_iff {α : Type} {read : Json → Option α} {v : Json} {a b : α} :
    v.pair? read = some (a, b) ↔ ∃ x y, v = .arr [x, y] ∧ read x = some a ∧ read y = some b := by
  unfold Json.pair?
  split
  next x y =>
    simp only [Option.bind_eq_bind, Option.bind_eq_some_iff, Option.pure_def, Option.some.injEq,
      Prod.mk.injEq]
    constructor
    · rintro ⟨_, ha, _, hb, rfl, rfl⟩
      exact ⟨x, y, rfl, ha, hb⟩
    · rintro ⟨_, _, heq, ha, hb⟩
      cases heq
      exact ⟨a, ha, b, hb, rfl, rfl⟩
  next hpair =>
    refine iff_of_false nofun ?_
    rintro ⟨x, y, rfl, -⟩
    exact hpair x y rfl

/-- A point is read from the pair of its row and column, in this order, and from nothing else. -/
theorem Point.of_json_iff {v : Json} {p : Point} : ofJson? v = some p ↔ v = p.toJson := by
  rw [ofJson?, Option.map_eq_some_iff]
  constructor
  · rintro ⟨⟨row, column⟩, hpair, rfl⟩
    obtain ⟨x, y, rfl, hrow, hcolumn⟩ := Json.pair_eq_some_iff.1 hpair
    rw [Json.nat32?_eq_some_iff.1 hrow, Json.nat32?_eq_some_iff.1 hcolumn]
    rfl
  · rintro rfl
    exact ⟨(p.row, p.column), Json.pair_eq_some_iff.2
      ⟨_, _, rfl, Json.nat32?_eq_some_iff.2 rfl, Json.nat32?_eq_some_iff.2 rfl⟩, rfl⟩

/-- The numbers of a point are integers. -/
theorem Point.integral_to_json (p : Point) : p.toJson.Integral := by
  have hnumber (n : UInt32) : (Json.ofNat n.toNat).Integral := by
    have hlt : n.toNat < 2 ^ 32 := n.toNat_lt
    constructor <;> omega
  exact ⟨trivial, hnumber p.row, hnumber p.column, trivial⟩

/-- A range is read from the pair of its start and end, in this order, and from nothing else. -/
theorem Range.of_json_iff {v : Json} {r : Range} : ofJson? v = some r ↔ v = r.toJson := by
  rw [ofJson?, Option.map_eq_some_iff]
  constructor
  · rintro ⟨⟨start, stop⟩, hpair, rfl⟩
    obtain ⟨x, y, rfl, hstart, hstop⟩ := Json.pair_eq_some_iff.1 hpair
    rw [Point.of_json_iff.1 hstart, Point.of_json_iff.1 hstop]
    rfl
  · rintro rfl
    exact ⟨(r.start, r.stop), Json.pair_eq_some_iff.2
      ⟨_, _, rfl, Point.of_json_iff.2 rfl, Point.of_json_iff.2 rfl⟩, rfl⟩

namespace Diagnostic

variable {d : Diagnostic} {v : Json} {file : Path} {position : Range}

/-- A file and a range are read from a record of the file's name and the range. -/
theorem location_of_json_iff : locationOfJson? v = some (file, position) ↔
    ∃ text, file = .ofString text ∧
      Json.IsPair "file" "position" v (.str text) position.toJson := by
  simp only [locationOfJson?, Option.bind_eq_bind, Option.bind_eq_some_iff, Option.pure_def,
    Option.some.injEq, Prod.mk.injEq, Record.required?, Json.text?_eq_some_iff, Range.of_json_iff]
  constructor
  · rintro ⟨r, hr, text, ⟨_, htext, rfl⟩, _, ⟨_, hposition, rfl⟩, rfl, rfl⟩
    exact ⟨text, rfl, (Json.exists_record_iff (by decide)).1 ⟨r, hr, htext, hposition⟩⟩
  · rintro ⟨text, rfl, hpair⟩
    obtain ⟨r, hr, htext, hposition⟩ := (Json.exists_record_iff (by decide)).2 hpair
    exact ⟨r, hr, text, ⟨_, htext, rfl⟩, position, ⟨_, hposition, rfl⟩, rfl, rfl⟩

/-- The names of the fields of a diagnostic. -/
def fieldNames : List String :=
  ["severity", "excerpt", "location", "url"]

/-- What the fields of a record say when it is read as a diagnostic. -/
structure IsReadFrom (d : Diagnostic) (r : Record Json) : Prop where
  severity : ∃ x, r.find? "severity" = some x ∧ Severity.ofJson? x = some d.severity
  excerpt : r.find? "excerpt" = some (.str d.excerpt)
  location : ∃ x, r.find? "location" = some x ∧ locationOfJson? x = some (d.file, d.position)
  url : Json.IsOptional (fun x url => x = .str url) (r.find? "url") d.url

/-- A diagnostic is read from a record whose fields say what it is. -/
theorem of_json_iff : ofJson? v = some d ↔ ∃ r, v.record? fieldNames = some r ∧ d.IsReadFrom r := by
  obtain ⟨severity, excerpt, file, position, url⟩ := d
  simp only [ofJson?, Option.bind_eq_bind, Option.bind_eq_some_iff, Option.pure_def,
    Option.some.injEq, Record.required?, Json.with_default_eq_some_iff, Json.text?_eq_some_iff,
    Diagnostic.mk.injEq]
  constructor
  · rintro ⟨r, hr, _, hseverity, _, ⟨_, hexcerpt, rfl⟩, ⟨_, _⟩, hlocation, _, hurl, rfl, rfl, rfl,
      rfl, rfl⟩
    exact ⟨r, hr, hseverity, hexcerpt, hlocation, hurl⟩
  · rintro ⟨r, hr, hseverity, hexcerpt, hlocation, hurl⟩
    exact ⟨r, hr, _, hseverity, _, ⟨_, hexcerpt, rfl⟩, (_, _), hlocation, _, hurl, rfl, rfl, rfl,
      rfl, rfl⟩

/-! ## Reading back -/

/-- The file of a diagnostic that was read has a name that is text. -/
theorem exists_text_of_json (h : ofJson? v = some d) : ∃ text, d.file = .ofString text := by
  obtain ⟨_, -, hread⟩ := of_json_iff.1 h
  obtain ⟨_, -, hlocation⟩ := hread.location
  obtain ⟨text, hfile, -⟩ := location_of_json_iff.1 hlocation
  exact ⟨text, hfile⟩

/-- A path that a text spells is shown as the text. -/
theorem to_text_of_string (text : String) : (Path.ofString text).toText = text := by
  rw [Path.toText, Path.ofString, Utf8.decodeLossy, Utf8.decode?_encode]

/-- A diagnostic as an array of its fields, the location likewise. -/
def inOrder (d : Diagnostic) : Json :=
  .arr [d.severity.toJson, .str d.excerpt, .arr [.str d.file.toText, d.position.toJson],
    .orNull (d.url.map .str)]

/-- A diagnostic is read as it was stored, from the value and from its text, and from the array of its
fields just so. -/
structure IsReadBack (d : Diagnostic) : Prop where
  value : ofJson? d.toJson = some d
  text : (Json.ofBytes? d.toJson.toBytes).bind ofJson? = some d
  inOrder : ofJson? d.inOrder = some d

/-- A diagnostic is stored as an object with its members in order of their names. -/
theorem to_json_eq (d : Diagnostic) : d.toJson = .obj
    ([("excerpt", .str d.excerpt),
      ("location", .obj [("file", .str d.file.toText), ("position", d.position.toJson)]),
      ("severity", d.severity.toJson)] ++ (d.url.map fun url => ("url", .str url)).toList) := by
  obtain ⟨severity, excerpt, file, position, url⟩ := d
  cases url <;> rfl

/-- What the fields of a record say when they are those of a diagnostic in a file whose name is text,
the location in any form. -/
theorem is_read_from {r : Record Json} {text : String} {x : Json} (h : d.file = .ofString text)
    (hseverity : r.find? "severity" = some d.severity.toJson)
    (hexcerpt : r.find? "excerpt" = some (.str d.excerpt))
    (hlocation : r.find? "location" = some x)
    (hpair : Json.IsPair "file" "position" x (.str d.file.toText) d.position.toJson)
    (hurl : Json.IsOptional (fun x url => x = .str url) (r.find? "url") d.url) :
    d.IsReadFrom r := by
  rw [h, to_text_of_string] at hpair
  exact ⟨⟨_, hseverity, d.severity.of_json_to_json⟩, hexcerpt,
    ⟨x, hlocation, location_of_json_iff.2 ⟨text, h, hpair⟩⟩, hurl⟩

/-- A diagnostic in a file whose name is text is read from the object that it is stored as. -/
theorem of_json_to_json {text : String} (h : d.file = .ofString text) :
    ofJson? d.toJson = some d := by
  rw [of_json_iff, to_json_eq]
  refine ⟨_, rfl, is_read_from h rfl rfl rfl (.named rfl rfl) ?_⟩
  have hoptional : Json.IsOptional (fun x url => x = .str url) (d.url.map Json.str) d.url :=
    Json.is_optional_map (fun _ => rfl) fun _ _ => nofun
  cases hurl : d.url <;> rw [hurl] at hoptional <;> exact hoptional

/-- It is read from the array of its fields, too. -/
theorem of_json_in_order {text : String} (h : d.file = .ofString text) :
    ofJson? d.inOrder = some d := by
  rw [of_json_iff]
  refine ⟨_, rfl, is_read_from h rfl rfl rfl .ordered ?_⟩
  show Json.IsOptional _ (some (Json.orNull (d.url.map Json.str))) d.url
  cases d.url with
  | none => exact .null
  | some url => exact .given nofun rfl

/-- What a diagnostic is stored as has the members of its objects in order. -/
theorem canonical_to_json (d : Diagnostic) : d.toJson.Canonical := by
  have hposition : d.position.toJson.Canonical := by
    simp [Json.Canonical, Json.Everywhere, Json.EverywhereItems, Json.Sorted, Range.toJson,
      Point.toJson, Json.ofNat]
  have hlocation : (Json.object
      [("file", .str d.file.toText), ("position", d.position.toJson)]).Canonical := by
    refine Json.canonical_object fun m hm => ?_
    rcases List.mem_pair.1 hm with rfl | rfl
    · trivial
    · exact hposition
  refine Json.canonical_object fun m hm => ?_
  obtain ⟨⟨name, value⟩, hmem, hm⟩ := List.mem_filterMap.1 hm
  obtain ⟨v, rfl, rfl⟩ := Option.map_eq_some_iff.1 hm
  simp only [List.mem_cons, Prod.mk.injEq, Option.some.injEq, List.not_mem_nil, or_false] at hmem
  rcases hmem with ⟨-, rfl⟩ | ⟨-, rfl⟩ | ⟨-, rfl⟩ | ⟨-, hurl⟩
  · trivial
  · trivial
  · exact hlocation
  · obtain ⟨url, -, rfl⟩ := Option.map_eq_some_iff.1 hurl.symm
    trivial

/-- Its numbers are integers. -/
theorem integral_to_json (d : Diagnostic) : d.toJson.Integral := by
  have hstart := d.position.start.integral_to_json
  have hstop := d.position.stop.integral_to_json
  rw [to_json_eq]
  cases d.url <;> simpa [Json.Integral, Json.Everywhere, Json.EverywhereMembers,
    Json.EverywhereItems, Json.IsInteger64, Range.toJson, Severity.toJson] using
      And.intro hstart hstop

/-- The text of what a diagnostic is stored as is read as it. -/
theorem of_bytes_to_bytes (d : Diagnostic) : Json.ofBytes? d.toJson.toBytes = some d.toJson := by
  have hdepth : d.toJson.depth ≤ Json.depthLimit := by
    have hfour : 4 ≤ Json.depthLimit := by decide
    rw [to_json_eq]
    cases d.url <;> exact hfour
  exact Json.of_bytes_to_bytes d.canonical_to_json d.integral_to_json hdepth

/-- A diagnostic in a file whose name is text is read back. -/
theorem is_read_back {text : String} (h : d.file = .ofString text) : d.IsReadBack where
  value := of_json_to_json h
  text := by rw [of_bytes_to_bytes, Option.bind_some, of_json_to_json h]
  inOrder := of_json_in_order h

/-- A diagnostic is read back as it was if the name of its file is text, and any diagnostic that has
been read is, whatever form it was read from. -/
theorem read_as_stored (d : Diagnostic) :
    ((Utf8.decode? d.file.bytes).isSome = true → d.IsReadBack) ∧
    ∀ v, ofJson? v = some d → d.IsReadBack := by
  constructor
  · intro htext
    obtain ⟨text, htext⟩ := Option.isSome_iff_exists.1 htext
    have hfile : d.file = .ofString text := congrArg Path.mk (Utf8.encode_of_decode? htext).symm
    exact is_read_back hfile
  · intro v hv
    obtain ⟨text, htext⟩ := exists_text_of_json hv
    exact is_read_back htext

/-- A diagnostic as an array without a link, whose severity is an object and whose range goes from
one bound of the numbers to the other. -/
def oddlyStored : Json :=
  .arr [.obj [("info", .null)], .str "m", .arr [.str "\u00e9.py",
    .arr [.arr [.ofNat 4294967295, .ofNat 0], .arr [.ofNat 0, .ofNat 4294967295]]]]

/-- It is read and read back. -/
theorem read_as_stored_oddly : ∃ d, ofJson? oddlyStored = some d ∧
    d.position = ⟨⟨4294967295, 0⟩, ⟨0, 4294967295⟩⟩ ∧ d.IsReadBack :=
  ⟨_, rfl, rfl, (read_as_stored _).2 oddlyStored rfl⟩

end Diagnostic

end LintWatch
