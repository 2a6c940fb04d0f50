import LintWatch.Proofs.Json.Ordered
import LintWatch.Proofs.Server.Announcements

/-!
# Diagnostics that are written back

A server's diagnostic is read from an object, and writing it gives the object back: all members that
mean nothing to the host are kept, whatever they are, a member that may be left out is left out if
it was null, and the range is written with its four numbers and nothing else
(`Diagnostic.written_back`). What has been written is read as the same diagnostic.
-/

namespace LintWatch.Server

open Json (Increasing IsOptional is_optional_map lookupMember)

/-! ## Ranges -/

/-- A span is written as its four numbers. -/
theorem Span.to_json_eq (s : Span) : s.toJson = .obj
    [("end", .obj [("character", .ofNat s.stop.character.toNat),
        ("line", .ofNat s.stop.line.toNat)]),
      ("start", .obj [("character", .ofNat s.start.character.toNat),
        ("line", .ofNat s.start.line.toNat)])] := rfl

/-- A span that is written has its range. -/
theorem Span.is_range_to_json (s : Span) : IsRange s.toJson s.range := by
  rw [s.to_json_eq]
  exact ⟨_, _, .named rfl rfl, .named rfl rfl, .named rfl rfl⟩

namespace Diagnostic

variable {d : Diagnostic} {members : Json.Members} {name : String}

/-! ## Writing -/

/-- A diagnostic that can be read: the members that are kept are in order and have names that mean
nothing to the host, and null is no code. -/
structure WellFormed (d : Diagnostic) : Prop where
  sorted : Increasing d.extra
  apart : ∀ m ∈ d.extra, m.1 ∉ names
  code_ne : d.code ≠ some .null

/-- The members that mean something to the host, as they are written. -/
def known (d : Diagnostic) : List (String × Option Json) :=
  [("range", some d.span.toJson), ("message", some (.str d.message)),
    ("severity", d.severity.map fun n => .ofNat n.toNat), ("code", d.code),
    ("source", d.source.map .str)]

/-- A diagnostic is written as the members that mean something to the host and those that it has
kept. -/
theorem WellFormed.exists_to_json (h : d.WellFormed) : ∃ written, d.toJson = .obj written ∧
    Increasing written ∧
    ∀ name, lookupMember name written = (d.known.lookup name).join.or (lookupMember name d.extra) := by
  have hdistinct : (d.known.map (·.1)).Nodup := by
    show ["range", "message", "severity", "code", "source"].Nodup
    decide
  have hknown : [("range", d.span.toJson), ("message", Json.str d.message)]
      ++ ((d.severity.map fun n => ("severity", Json.ofNat n.toNat)).toList
        ++ (d.code.map ("code", ·)).toList
        ++ (d.source.map fun s => ("source", Json.str s)).toList)
      = d.known.filterMap fun b => b.2.map (b.1, ·) := by
    unfold known
    cases d.severity <;> cases d.code <;> cases d.source <;> rfl
  refine ⟨_, ?_, h.sorted.foldl_insert (d.known.filterMap fun b => b.2.map (b.1, ·)),
    fun name => Json.lookup_foldl_insert name hdistinct d.extra⟩
  rw [toJson, List.append_assoc, hknown, Json.object, Json.membersOfList, List.foldl_append]
  exact congrArg (fun found => Json.obj (List.foldl _ found _)) h.sorted.members_of_list

/-- None of the members that are kept has a name that means something. -/
theorem WellFormed.lookup_extra (h : d.WellFormed) (hname : name ∈ names) :
    lookupMember name d.extra = none := by
  rw [Option.eq_none_iff_forall_ne_some]
  exact fun value hvalue => h.apart _ (h.sorted.lookup_eq_some_iff.1 hvalue) hname

/-- Other names than those that mean something are not among them. -/
theorem lookup_known_of_not_mem (hname : name ∉ names) : d.known.lookup name = none := by
  have hnames : ∀ b ∈ d.known, b.1 ∈ names := by simp [known, names]
  refine List.lookup_eq_none_iff.2 fun b hb => ?_
  have hne : name ≠ b.1 := fun heq => hname (heq ▸ hnames b hb)
  simp [hne]

/-- A diagnostic that has been written is read as what it was. -/
theorem WellFormed.of_json_to_json (h : d.WellFormed) : ofJson? d.toJson = some d := by
  obtain ⟨written, heq, hsorted, hlookup⟩ := h.exists_to_json
  have hknown {name : String} (hname : name ∈ names) :
      d.toJson.get? name = (d.known.lookup name).join := by
    rw [heq]
    exact (hlookup name).trans (by rw [h.lookup_extra hname, Option.or_none])
  rw [of_json_iff]
  constructor
  case span => exact ⟨_, hknown (by decide), d.span.is_range_to_json⟩
  case message => exact hknown (by decide)
  case severity =>
    rw [hknown (by decide)]
    exact is_optional_map (fun _ => rfl) fun _ _ => nofun
  case code =>
    rw [hknown (by decide)]
    have hcode : ∀ code ∈ d.code, id code ≠ Json.null := by
      rintro code hmem rfl
      exact h.code_ne hmem
    have hoptional := is_optional_map (P := fun v code => v = code) (fun _ => rfl) hcode
    rwa [Option.map_id_fun', id] at hoptional
  case source =>
    rw [hknown (by decide)]
    exact is_optional_map (fun _ => rfl) fun _ _ => nofun
  case extra =>
    refine ⟨written, heq, h.sorted.ext (hsorted.filter _) fun name => ?_⟩
    by_cases hname : name ∈ names
    · rw [Json.lookup_filter_of_neg (by simp [hname]), h.lookup_extra hname]
    · rw [Json.lookup_filter_of_pos (by simp [hname]), hlookup, lookup_known_of_not_mem hname]
      rfl

/-! ## Writing back -/

/-- What becomes of a member when a diagnostic with this span is read and written. -/
def written? (span : Span) (name : String) (v : Json) : Option Json :=
  if name = "range" then some span.toJson
  else if ["severity", "code", "source"].contains name && v.isNull then none
  else some v

/-- The members that are left when a diagnostic with this span is read and written. -/
def writtenBack (span : Span) (members : Json.Members) : Json.Members :=
  members.filterMap fun m => (written? span m.1 m.2).map (m.1, ·)

/-- Under a name there is what has become of what was there. -/
theorem lookup_written_back (hsorted : Increasing members) (span : Span) (name : String) :
    lookupMember name (writtenBack span members)
      = (lookupMember name members).bind (written? span name) :=
  hsorted.lookup_filter_map (written? span)

/-- A member of another name is kept. -/
theorem written_of_not_mem (hname : name ∉ names) (span : Span) : written? span name = some := by
  funext v
  simp only [names, List.mem_cons, List.not_mem_nil, or_false, not_or] at hname
  simp [written?, hname]

/-- What may be left out is left out if it was null. -/
theorem bind_of_is_optional {α : Type} {P : Json → α → Prop} {write : α → Json}
    {found : Option Json} {result : Option α} (h : IsOptional P found result)
    (hP : ∀ v a, P v a → v = write a) :
    found.bind (fun v => if v.isNull then none else some v) = result.map write := by
  cases h with
  | missing => rfl
  | null => rfl
  | @given v a hne hv =>
      have hnull : v.isNull = false := by
        cases v with
        | null => exact absurd rfl hne
        | _ => rfl
      show (if v.isNull then none else some v) = some (write a)
      rw [hnull, ← hP v a hv]
      rfl

/-- The members that are kept are those of other names. -/
theorem IsRead.extra_eq (h : d.IsRead (.obj members)) :
    d.extra = members.filter fun m => !names.contains m.1 := by
  obtain ⟨_, hmembers, hextra⟩ := h.extra
  cases hmembers
  exact hextra

/-- A diagnostic that was read is one that can be read. -/
theorem IsRead.well_formed (h : d.IsRead (.obj members)) (hsorted : Increasing members) :
    d.WellFormed := by
  refine ⟨h.extra_eq ▸ hsorted.filter _, fun m hm => ?_, fun hcode => ?_⟩
  · rw [h.extra_eq, List.mem_filter] at hm
    simpa using hm.2
  · have hoptional := h.code
    rw [hcode] at hoptional
    generalize (Json.obj members).get? "code" = found at hoptional
    cases hoptional with
    | given hne heq => exact hne heq

/-- What is written for a name that means something is what has become of what was read. -/
theorem IsRead.lookup_known (h : d.IsRead (.obj members)) (hname : name ∈ names) :
    (d.known.lookup name).join = (lookupMember name members).bind (written? d.span name) := by
  simp only [names, List.mem_cons, List.not_mem_nil, or_false] at hname
  rcases hname with rfl | rfl | rfl | rfl | rfl
  · obtain ⟨v, hv, -⟩ := h.span
    have hfound : lookupMember "range" members = some v := hv
    rw [hfound]
    rfl
  · exact (bind_of_is_optional h.severity fun _ _ heq => heq).symm
  · have hcode := bind_of_is_optional h.code fun (v code : Json) heq => (heq : v = id code)
    rw [Option.map_id_fun', id] at hcode
    exact hcode.symm
  · exact (bind_of_is_optional h.source fun _ _ heq => heq).symm
  · have hfound : lookupMember "message" members = some (.str d.message) := h.message
    rw [hfound]
    rfl

/-- Writing a diagnostic that was read gives its members back. -/
theorem IsRead.to_json_eq (h : d.IsRead (.obj members)) (hsorted : Increasing members) :
    d.toJson = .obj (writtenBack d.span members) := by
  have hformed := h.well_formed hsorted
  obtain ⟨written, heq, hwritten, hlookup⟩ := hformed.exists_to_json
  rw [heq]
  refine congrArg Json.obj (hwritten.ext (hsorted.filter_map _) fun name => ?_)
  refine Eq.trans ?_ (lookup_written_back hsorted d.span name).symm
  rw [hlookup]
  by_cases hname : name ∈ names
  · rw [hformed.lookup_extra hname, Option.or_none, h.lookup_known hname]
  · rw [lookup_known_of_not_mem hname, h.extra_eq, Json.lookup_filter_of_pos (by simp [hname]),
      written_of_not_mem hname, Option.bind_fun_some]
    rfl

/-- An object that is read as a diagnostic is written as it was, but that a severity, a code and a
source that are null are left out and that the range has its four numbers and nothing else. All
members of other names are kept, and what has been written is read as the same diagnostic. -/
theorem written_back (hsorted : Increasing members) (hread : ofJson? (.obj members) = some d) :
    d.toJson = .obj (writtenBack d.span members) ∧
      (∃ range, lookupMember "range" members = some range ∧ IsRange range d.span.range) ∧
      d.span.toJson = .obj
        [("end", .obj [("character", .ofNat d.span.stop.character.toNat),
            ("line", .ofNat d.span.stop.line.toNat)]),
          ("start", .obj [("character", .ofNat d.span.start.character.toNat),
            ("line", .ofNat d.span.start.line.toNat)])] ∧
      d.extra = members.filter (fun m => !names.contains m.1) ∧
      ofJson? d.toJson = some d := by
  have hd := of_json_iff.1 hread
  exact ⟨hd.to_json_eq hsorted, hd.span, d.span.to_json_eq, hd.extra_eq,
    (hd.well_formed hsorted).of_json_to_json⟩

/-- An object with members that are null, unknown, or look like known ones, and with a range of
which one end is written in order and the other one by name. -/
def oddMembers : Json.Members :=
  [("Range", .null), ("code", .null), ("data", .obj [("code", .null), ("range", .arr [])]),
    ("message", .str ""),
    ("range", .arr [.arr [.ofNat 3, .ofNat 0],
      .obj [("character", .ofNat 1), ("line", .ofNat 4294967295), ("offset", .null)]]),
    ("severity", .ofNat 9), ("source", .null), ("tags", .null)]

/-- The code and the source are left out, and the range is written by name. -/
theorem written_back_of_odd_members : ∃ d, ofJson? (.obj oddMembers) = some d ∧
    d.toJson = .obj
      [("Range", .null), ("data", .obj [("code", .null), ("range", .arr [])]), ("message", .str ""),
        ("range", .obj
          [("end", .obj [("character", .ofNat 1), ("line", .ofNat 4294967295)]),
            ("start", .obj [("character", .ofNat 0), ("line", .ofNat 3)])]),
        ("severity", .ofNat 9), ("tags", .null)] ∧
    ofJson? d.toJson = some d := by
  have hsorted : Increasing oddMembers := by
    unfold Increasing
    decide
  have hread : ofJson? (.obj oddMembers) = some
      ⟨⟨⟨3, 0⟩, ⟨4294967295, 1⟩⟩, some 9, none, none, "",
        [("Range", .null), ("data", .obj [("code", .null), ("range", .arr [])]),
          ("tags", .null)]⟩ := rfl
  obtain ⟨hwritten, -, -, -, hagain⟩ := written_back hsorted hread
  exact ⟨_, hread, hwritten, hagain⟩

end Diagnostic

end LintWatch.Server
