import LintWatch.Proofs.Diagnostic.Excerpt

/-!
# Findings as they are shown

A finding is shown unless it has no place, or is a syntax error and those are hidden. The line that
shows it names the row and the column that the linter printed, although they are kept counted from
zero: what is taken off on the way in is put back on the way out, for every number of 32 bits, and
only a zero is shown as one (`oneBased_precedingIndex`). `shown_where_found` puts this together.
-/

namespace LintWatch

/-- The number before another is one less, and zero before zero. -/
theorem toNat_precedingIndex (n : UInt32) : (precedingIndex n).toNat = n.toNat - 1 := by
  unfold precedingIndex
  split
  next h => rw [h]; rfl
  next h =>
    have hle : (1 : UInt32) ≤ n := by
      rw [UInt32.le_iff_toNat_le]
      exact Nat.one_le_iff_ne_zero.2 fun hzero => h (UInt32.toNat.inj hzero)
    exact UInt32.toNat_sub_of_le n 1 hle

/-- A number that was moved down is shown as it was, and a zero as one. -/
theorem Diagnostic.oneBased_precedingIndex (n : UInt32) :
    oneBased? (precedingIndex n) = some (max n.toNat 1) := by
  have hlt : n.toNat < UInt32.size := n.toNat_lt
  have hfits : n.toNat - 1 + 1 < UInt32.size := by
    have hone : 1 < UInt32.size := by decide
    omega
  have hmax : n.toNat - 1 + 1 = max n.toNat 1 := by omega
  rw [oneBased?, toNat_precedingIndex, if_pos hfits, hmax]

/-- The code of a syntax error is `E999`, or there is none. -/
theorem Rule.isSyntaxError_iff {code : Option String} :
    isSyntaxError code = true ↔ code = none ∨ code = some "E999" := by
  cases code with
  | none => exact iff_of_true rfl (Or.inl rfl)
  | some c =>
      rw [isSyntaxError, decide_eq_true_iff, Option.some.injEq]
      exact ⟨Or.inr, fun h => h.resolve_left (Option.some_ne_none c)⟩

namespace Finding

variable {f : Finding} {file : Path} {shows : Bool} {d : Diagnostic}

/-- A finding of a syntax error. -/
def IsSyntaxError (f : Finding) : Prop :=
  f.code = none ∨ f.code = some "E999"

instance (f : Finding) : Decidable f.IsSyntaxError :=
  inferInstanceAs (Decidable (_ ∨ _))

/-- The diagnostic of a finding that was found at `location`. -/
def shown (f : Finding) (file : Path) (location : Location) : Diagnostic where
  severity := if f.IsSyntaxError then .error else .warning
  excerpt := f.excerpt
  file := file
  position := ⟨location.point, (f.endLocation.getD location).point⟩
  url := f.url

/-- A finding with a place is shown unless it is a syntax error and those are hidden. -/
theorem diagnostic_of_place {location : Location} (h : f.location = some location) :
    f.diagnostic? file shows =
      if f.IsSyntaxError ∧ shows = false then none else some (f.shown file location) := by
  have hsyntax : Rule.isSyntaxError f.code = decide f.IsSyntaxError := by
    rw [Bool.eq_iff_iff, Rule.isSyntaxError_iff, decide_eq_true_iff]
    rfl
  rw [diagnostic?, h, Option.bind_some, hsyntax]
  by_cases hcode : f.IsSyntaxError
  · cases shows <;> simp only [shown, hcode] <;> rfl
  · simp only [shown, hcode]
    rfl

/-- A diagnostic shows a finding of a file that was found at `location`: its line names the place as
it was printed, and its range ends where the finding does, or where it starts. -/
structure IsShownBy (f : Finding) (file : Path) (location : Location) (d : Diagnostic) : Prop where
  excerpt_eq : d.excerpt = f.excerpt
  line : d.displayLine? = some (file.toText ++ ":" ++ toString (max location.row.toNat 1) ++ ":"
    ++ toString (max location.column.toNat 1) ++ ": "
    ++ (if f.code = none ∨ f.code = some "E999" then "error" else "warning") ++ ": " ++ d.excerpt)
  stop : ∀ stop ∈ f.endLocation, d.position.stop.row.toNat = stop.row.toNat - 1 ∧
    d.position.stop.column.toNat = stop.column.toNat - 1
  stop_eq : f.endLocation = none → d.position.stop = d.position.start

/-- The diagnostic that is put together from a finding shows it. -/
theorem is_shown_by (location : Location) : f.IsShownBy file location (f.shown file location) := by
  constructor
  case excerpt_eq => rfl
  case line =>
    have hlabel : (if f.IsSyntaxError then Severity.error else .warning).label
        = if f.code = none ∨ f.code = some "E999" then "error" else "warning" :=
      apply_ite Severity.label _ _ _
    simp only [Diagnostic.displayLine?, shown, Location.point, Point.ofOneBased,
      Diagnostic.oneBased_precedingIndex, Option.bind_eq_bind, Option.bind_some, hlabel]
    rfl
  case stop =>
    intro stop hstop
    rw [shown, Option.mem_def.1 hstop]
    exact ⟨toNat_precedingIndex _, toNat_precedingIndex _⟩
  case stop_eq =>
    intro hnone
    rw [shown, hnone]
    rfl

/-- A finding is not shown exactly if it has no place, or is a syntax error and those are hidden. One
that is shown is shown where the linter found it, whatever the numbers of its place are. -/
theorem shown_where_found (f : Finding) (file : Path) (shows : Bool) :
    (f.diagnostic? file shows = none ↔
      f.location = none ∨ (f.code = none ∨ f.code = some "E999") ∧ shows = false) ∧
    ∀ d, f.diagnostic? file shows = some d →
      ∃ location, f.location = some location ∧ f.IsShownBy file location d := by
  cases hplace : f.location with
  | none =>
      have hnone : f.diagnostic? file shows = none := by rw [diagnostic?, hplace, Option.bind_none]
      rw [hnone]
      exact ⟨iff_of_true rfl (Or.inl rfl), fun d hd => nomatch hd⟩
  | some location =>
      rw [diagnostic_of_place hplace]
      split
      next hhidden => exact ⟨iff_of_true rfl (Or.inr hhidden), fun d hd => nomatch hd⟩
      next hshown =>
        refine ⟨iff_of_false nofun fun h => hshown (h.resolve_left nofun), fun d hd => ?_⟩
        obtain rfl := Option.some.inj hd
        exact ⟨location, rfl, is_shown_by location⟩

/-- A syntax error in the last row there is, in a column that no file has. -/
def atBounds : Finding :=
  ⟨.ofString "app.py", some "E999", "unexpected end", some ⟨4294967295, 0⟩, none, none⟩

/-- It is shown in that row, and in the first column. -/
theorem shown_at_bounds : ∃ d, atBounds.diagnostic? (.ofString "/app.py") true = some d ∧
    d.displayLine? = some "/app.py:4294967295:1: error: E999 — unexpected end" ∧
    d.position.stop = d.position.start := by
  obtain ⟨location, hplace, hshown⟩ :=
    (shown_where_found atBounds (.ofString "/app.py") true).2 _ rfl
  obtain rfl := Option.some.inj hplace
  refine ⟨_, rfl, ?_, hshown.stop_eq rfl⟩
  rw [hshown.line, hshown.excerpt_eq]
  decide

end Finding

end LintWatch
