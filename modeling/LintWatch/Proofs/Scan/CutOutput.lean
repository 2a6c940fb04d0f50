import LintWatch.Proofs.Json.Extension
import LintWatch.Proofs.Scan.Roots

/-!
# Output that is cut

The output of a check may be cut anywhere, because the check is killed or because there is no room
for all of it. What is left of it lists all findings or is refused (`whole_or_nothing`): a scan never
takes some of the findings for all of them.
-/

namespace LintWatch

open LintWatch.Json (isSpace)

/-- An output lists findings exactly if it is an array of them. -/
theorem Finding.parse_eq_some_iff {output : List UInt8} {fs : List Finding} :
    Finding.parse? output = some fs ↔ ∃ items, Json.Tree.ofBytes? output = some (.array items) ∧
      items.mapM (Finding.read? Json.Tree.source) = some fs := by
  simp only [Finding.parse?, Option.bind_eq_bind, Option.bind_eq_some_iff]
  constructor
  · rintro ⟨tree, htree, items, hitems, hread⟩
    cases tree with
    | array items' =>
        obtain rfl := Option.some.inj hitems
        exact ⟨_, htree, hread⟩
    | scalar | object => cases hitems
  · rintro ⟨items, htree, hread⟩
    exact ⟨_, htree, items, rfl, hread⟩

/-- Findings that are followed by more bytes are all that can be found in the whole, and then what
follows them is blank. -/
theorem Finding.parse_append {output more : List UInt8} {fs gs : List Finding}
    (h : Finding.parse? output = some fs) (hmore : Finding.parse? (output ++ more) = some gs) :
    fs = gs ∧ ∀ b ∈ more, isSpace b = true := by
  obtain ⟨items, hitems, hread⟩ := Finding.parse_eq_some_iff.1 h
  obtain ⟨items', hitems', hread'⟩ := Finding.parse_eq_some_iff.1 hmore
  obtain ⟨heq, hblank⟩ := Json.Tree.of_bytes_array_append hitems hitems'
  obtain rfl := Json.Tree.array.inj heq
  exact ⟨Option.some.inj (hread.symm.trans hread'), hblank⟩

namespace Scan

variable {printed left : List UInt8} {fs : List Finding}

/-- What comes of a program that has been started: an error, or an output that begins as what the
program prints and ends where there is no more room. -/
theorem collect_cases (limits : CheckLimits) (executable : Path) (run : Execution.Run) :
    (∃ e, collect limits executable (.ok run) = .error e) ∨
      ∃ output, collect limits executable (.ok run) = .ok output ∧
        output.stdout = run.stdout.take limits.stdout := by
  simp only [collect]
  split
  · exact Or.inr ⟨_, rfl, by simp [capture_eq]⟩
  · exact Or.inl ⟨_, rfl⟩

/-- What a check with this output contributes: nothing, or what the findings in it are shown as. -/
theorem contribution_ok (env : Environment) (showsSyntaxErrors : Bool) (root : Path)
    (output : CheckOutput) :
    Run.contribution env showsSyntaxErrors root (.ok output) = [] ∨
      ∃ fs, Finding.parse? output.stdout = some fs ∧
        Run.contribution env showsSyntaxErrors root (.ok output) = fs.filterMap fun f =>
          f.diagnostic? ((env.checkDirectory root).join f.filename) showsSyntaxErrors := by
  rw [Run.contribution_eq, contributed?, usable?]
  by_cases hstderr : output.stderr = []
  · rw [if_pos hstderr]
    cases Finding.parse? output.stdout with
    | none => exact Or.inl rfl
    | some fs => exact Or.inr ⟨fs, rfl, rfl⟩
  · rw [if_neg hstderr]
    exact Or.inl rfl

/-- If an output lists findings, what is left of it when it is cut lists the same findings or is
refused, and it is refused unless only blanks are missing. So a check that is cut short, be it that
it ended before it had printed all or that there was no room for all, contributes the whole of its
findings to a scan or nothing. -/
theorem whole_or_nothing (hprinted : Finding.parse? printed = some fs) (hleft : left <+: printed) :
    (Finding.parse? left = none ∨
        Finding.parse? left = some fs ∧
          ∃ blanks, printed = left ++ blanks ∧ ∀ b ∈ blanks, isSpace b = true) ∧
      ∀ (limits : CheckLimits) (executable : Path) (run : Execution.Run), run.stdout = left →
        ∀ (env : Environment) (showsSyntaxErrors : Bool) (root : Path),
          Run.contribution env showsSyntaxErrors root (collect limits executable (.ok run)) = [] ∨
            Run.contribution env showsSyntaxErrors root (collect limits executable (.ok run))
              = fs.filterMap fun f =>
                f.diagnostic? ((env.checkDirectory root).join f.filename) showsSyntaxErrors := by
  have hcut : ∀ part, part <+: printed → ∀ gs, Finding.parse? part = some gs →
      gs = fs ∧ ∃ blanks, printed = part ++ blanks ∧ ∀ b ∈ blanks, isSpace b = true := by
    rintro part ⟨more, rfl⟩ gs hgs
    obtain ⟨heq, hblank⟩ := Finding.parse_append hgs hprinted
    exact ⟨heq, more, rfl, hblank⟩
  constructor
  · cases hparse : Finding.parse? left with
    | none => exact Or.inl rfl
    | some gs =>
        obtain ⟨rfl, hblank⟩ := hcut left hleft gs hparse
        exact Or.inr ⟨rfl, hblank⟩
  · rintro limits executable run rfl env showsSyntaxErrors root
    rcases collect_cases limits executable run with ⟨e, he⟩ | ⟨output, houtput, hkept⟩
    · rw [he]
      exact Or.inl rfl
    · rw [houtput]
      rcases contribution_ok env showsSyntaxErrors root output with hnone | ⟨gs, hparse, hshown⟩
      · exact Or.inl hnone
      · -- What is kept of the output is a part of it from the front.
        have hpart : output.stdout <+: run.stdout := by
          rw [hkept]
          exact List.take_prefix _ _
        obtain ⟨rfl, -⟩ := hcut _ (hpart.trans hleft) gs hparse
        exact Or.inr hshown

/-- Cut right behind its first finding, an output with two findings is refused. Cut before the end
of its line it lists both of them. -/
theorem whole_or_nothing_of_two_findings :
    let printed := Scanner.twoFindings ++ [0x0A]
    let found : List Finding := [⟨.ofString "x.py", some "F401", "unused", some ⟨3, 0⟩, none, none⟩,
      ⟨.ofString "y.py", none, "odd", none, none, none⟩]
    Finding.parse? (printed.take 85) = none ∧ Finding.parse? Scanner.twoFindings = some found ∧
      ∀ (limits : CheckLimits) (executable : Path) (run : Execution.Run),
        run.stdout = printed.take 85 →
        ∀ (env : Environment) (showsSyntaxErrors : Bool) (root : Path),
          Run.contribution env showsSyntaxErrors root (collect limits executable (.ok run)) = [] ∨
            Run.contribution env showsSyntaxErrors root (collect limits executable (.ok run))
              = found.filterMap fun f =>
                f.diagnostic? ((env.checkDirectory root).join f.filename) showsSyntaxErrors := by
  intro printed found
  have hprinted : Finding.parse? printed = some found := by decide +kernel
  have hbehind : ¬ ∃ blanks, printed = printed.take 85 ++ blanks ∧ ∀ b ∈ blanks, isSpace b := by
    rintro ⟨blanks, heq, hblank⟩
    obtain rfl : blanks = printed.drop 85 :=
      List.append_cancel_left (heq.symm.trans (List.take_append_drop 85 printed).symm)
    exact absurd hblank (by decide +kernel)
  have hwhole : Finding.parse? Scanner.twoFindings ≠ none := by decide +kernel
  obtain ⟨hcut, hshown⟩ := whole_or_nothing hprinted (List.take_prefix 85 printed)
  obtain ⟨hline, -⟩ := whole_or_nothing hprinted (List.prefix_append Scanner.twoFindings [0x0A])
  exact ⟨hcut.resolve_right fun h => hbehind h.2, (hline.resolve_left hwhole).1, hshown⟩

end Scan

end LintWatch
