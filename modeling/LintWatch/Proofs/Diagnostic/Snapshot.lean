import LintWatch.Proofs.Diagnostic.Store
import LintWatch.Proofs.Path.Order
import Mathlib.Data.List.Induction

/-!
# What a snapshot shows

A store is updated and cleared in any order. `snapshot_run`: afterwards a snapshot shows, for each
file, what the last update since the store was last cleared gave to it, files with errors first and
then by path. The files of a store are listed in no particular order, and it shows nowhere: two
arrangements of the same files that both keep to the order of a snapshot are equal
(`Ordered.unique`).
-/

namespace LintWatch

namespace Snapshot

/-- Whether an error is shown for a file. -/
def HasError (f : Path × List Diagnostic) : Prop :=
  ∃ d ∈ f.2, d.severity = .error

instance (f : Path × List Diagnostic) : Decidable (HasError f) :=
  inferInstanceAs (Decidable (∃ d ∈ f.2, d.severity = .error))

/-- The files with an error come first. Among these, and among the others, the paths increase. -/
structure Ordered (s : Snapshot) : Prop where
  errors_first : s.Pairwise fun f g => HasError g → HasError f
  increasing : s.Pairwise fun f g => (HasError f ↔ HasError g) → f.1.before g.1 = true

variable {s t : Snapshot}

/-- There is one way at most to put files in order. -/
theorem Ordered.unique (hs : Ordered s) (ht : Ordered t) (h : s.Perm t) : s = t := by
  refine List.Perm.eq_of_pairwise (fun f g _ _ hfg hgf => ?_)
    (hs.errors_first.and hs.increasing) (ht.errors_first.and ht.increasing) h
  -- Files that come before each other both have errors or both have none, so their paths decide.
  have hiff : HasError f ↔ HasError g := ⟨hgf.1, hfg.1⟩
  have hbefore := Path.before_asymm (hfg.2 hiff)
  rw [hgf.2 hiff.symm] at hbefore
  cases hbefore

/-- Each diagnostic counts once. -/
theorem total_count_eq (s : Snapshot) : s.totalCount = (s.flatMap (·.2)).length := by
  rw [totalCount, ← List.sum_eq_foldl, List.length_flatMap]

/-- Each diagnostic is an error, a warning or an information. -/
theorem length_eq_counts (items : List Diagnostic) :
    items.length = items.countP (fun d => d.severity = .error)
      + items.countP (fun d => d.severity = .warning)
      + items.countP (fun d => d.severity = .info) := by
  induction items with
  | nil => rfl
  | cons d items ih =>
      cases h : d.severity <;> simp [h] <;> omega

/-- The diagnostics are the errors, the warnings and the informations. -/
theorem total_count_eq_counts (s : Snapshot) :
    s.totalCount = s.errorCount + s.warningCount + s.count .info := by
  rw [total_count_eq, length_eq_counts]
  rfl

/-- Nothing is shown exactly if no diagnostics are, as long as no file is shown without any. -/
theorem is_empty_iff_total_count (h : ∀ f ∈ s, f.2 ≠ []) :
    s.isEmpty = true ↔ s.totalCount = 0 := by
  rw [total_count_eq, List.length_eq_zero_iff, List.flatMap_eq_nil_iff, List.isEmpty_iff]
  constructor
  · rintro rfl f hf
    cases hf
  · intro hall
    refine List.eq_nil_iff_forall_not_mem.2 fun f hf => ?_
    exact h f hf (hall f hf)

end Snapshot

namespace DiagnosticStore

open Snapshot (HasError Ordered)

variable {s t : DiagnosticStore} {path p q : Path} {items x y : List Diagnostic}
  {files other : List (Path × List Diagnostic)}

/-! ## The order of a snapshot -/

/-- A file has an error if one of its diagnostics is. -/
theorem has_error_iff {f : Path × List Diagnostic} : hasError f.2 = true ↔ HasError f := by
  simp [hasError, Severity.isError, HasError]

/-- Files are put in order one after the other. -/
theorem in_order_trans (f g k : Path × List Diagnostic) (hfg : inOrder f g = true)
    (hgk : inOrder g k = true) : inOrder f k = true := by
  unfold inOrder at *
  cases hf : hasError f.2 <;> cases hg : hasError g.2 <;> cases hk : hasError k.2 <;>
    simp only [hf, hg, hk, Bool.not_eq_true', Bool.false_eq_true] at hfg hgk ⊢
  · exact Path.not_before_trans hfg hgk
  · exact Path.not_before_trans hfg hgk

/-- Of two files, one may come before the other. -/
theorem in_order_total (f g : Path × List Diagnostic) :
    (inOrder f g || inOrder g f) = true := by
  unfold inOrder
  cases hf : hasError f.2 <;> cases hg : hasError g.2 <;> simp only [Bool.or_true, Bool.true_or]
  · cases h : g.1.before f.1 with
    | false => rfl
    | true => simp [Path.before_asymm h]
  · cases h : g.1.before f.1 with
    | false => rfl
    | true => simp [Path.before_asymm h]

/-- A snapshot of a well-formed store is in order. -/
theorem WellFormed.ordered_snapshot (h : WellFormed s) : Ordered s.snapshot := by
  have hsorted : s.snapshot.Pairwise fun f g => inOrder f g = true :=
    List.pairwise_mergeSort in_order_trans in_order_total _
  have hdistinct : s.snapshot.Pairwise fun f g => f.1.components ≠ g.1.components :=
    h.distinct.perm (List.mergeSort_perm _ _).symm Ne.symm
  constructor
  · refine hsorted.imp fun {f g} hfg hg => ?_
    rw [← has_error_iff] at hg ⊢
    cases hf : hasError f.2 with
    | true => rfl
    | false => simp [inOrder, hf, hg] at hfg
  · refine hsorted.imp₂ (fun f g hfg hne hiff => ?_) hdistinct
    rw [← has_error_iff, ← has_error_iff, Bool.coe_iff_coe] at hiff
    have hnot : g.1.before f.1 = false := by
      cases hg : hasError g.2 <;> simpa [inOrder, hiff, hg] using hfg
    rcases Path.before_or_before hne with hlt | hgt
    · exact hlt
    · rw [hnot] at hgt
      cases hgt

/-- The files of a well-formed store may be listed in any order. -/
theorem WellFormed.of_perm (h : WellFormed ⟨files⟩) (hperm : files.Perm other) :
    WellFormed ⟨other⟩ :=
  ⟨h.distinct.perm hperm Ne.symm, fun f hf => h.nonempty f (hperm.mem_iff.2 hf)⟩

/-- The order in which a store lists its files does not show in a snapshot. -/
theorem WellFormed.snapshot_of_perm (h : WellFormed ⟨files⟩) (hperm : files.Perm other) :
    snapshot ⟨files⟩ = snapshot ⟨other⟩ := by
  refine h.ordered_snapshot.unique (h.of_perm hperm).ordered_snapshot ?_
  exact (List.mergeSort_perm _ _).trans (hperm.trans (List.mergeSort_perm _ _).symm)

/-! ## Updates of different files -/

/-- Replacing the diagnostics of two files in either order lists the same. -/
theorem put_comm (hne : p.components ≠ q.components) :
    (put p x (put q y files)).Perm (put q y (put p x files)) := by
  induction files with
  | nil => simpa [put, Path.same, hne, Ne.symm hne] using List.Perm.swap _ _ _
  | cons f files ih =>
      obtain ⟨r, old⟩ := f
      by_cases hp : r.components = p.components
      · simp [put, Path.same, hp, hne]
      · by_cases hq : r.components = q.components
        · simp [put, Path.same, hq, Ne.symm hne]
        · simpa [put, Path.same, hp, hq] using ih

/-- Taking a file out does not interfere with another one. -/
theorem filter_put_comm (hne : p.components ≠ q.components) :
    (put q y files).filter (fun f => !f.1.same p)
      = put q y (files.filter fun f => !f.1.same p) := by
  induction files with
  | nil => simp [put, Path.same, Ne.symm hne]
  | cons f files ih =>
      obtain ⟨r, old⟩ := f
      by_cases hq : r.components = q.components
      · simp [put, Path.same, hq, Ne.symm hne]
      · by_cases hp : r.components = p.components
        · simpa [put, Path.same, hp, hne] using ih
        · simpa [put, Path.same, hp, hq] using ih

/-- Updates of different files commute. -/
theorem update_comm (hne : p.components ≠ q.components) :
    ((s.update p x).update q y).files.Perm ((s.update q y).update p x).files := by
  unfold update
  by_cases hx : x = [] <;> by_cases hy : y = []
  · rw [if_pos hx, if_pos hx, if_pos hy, if_pos hy, List.filter_filter, List.filter_filter]
    simp [Bool.and_comm]
  · rw [if_pos hx, if_pos hx, if_neg hy, if_neg hy]
    exact .of_eq (filter_put_comm hne).symm
  · rw [if_neg hx, if_neg hx, if_pos hy, if_pos hy]
    exact .of_eq (filter_put_comm (Ne.symm hne))
  · rw [if_neg hx, if_neg hx, if_neg hy, if_neg hy]
    exact put_comm (Ne.symm hne)

/-- What is replaced does not depend on the order in which the files are listed. -/
theorem put_perm (hperm : files.Perm other)
    (h : files.Pairwise fun f g => f.1.components ≠ g.1.components) :
    (put path items files).Perm (put path items other) := by
  induction hperm with
  | nil => exact .rfl
  | cons f _ ih =>
      simp only [put]
      split
      · exact .cons _ ‹_›
      · exact .cons _ (ih (List.pairwise_cons.1 h).2)
  | swap f g files =>
      have hne : g.1.components ≠ f.1.components :=
        (List.pairwise_cons.1 h).1 f List.mem_cons_self
      -- At most one of the two files is the one that is replaced.
      by_cases hf : f.1.components = path.components
      · have hg : g.1.components ≠ path.components := fun hg => hne (hg.trans hf.symm)
        simpa [put, Path.same, hf, hg] using List.Perm.swap _ _ _
      · by_cases hg : g.1.components = path.components <;>
          simpa [put, Path.same, hf, hg] using List.Perm.swap _ _ _
  | trans h₁ _ ih₁ ih₂ =>
      exact (ih₁ h).trans (ih₂ (h.perm h₁ Ne.symm))

/-- What an update makes of a store does not depend on the order in which it lists its files. -/
theorem WellFormed.update_perm (h : WellFormed s) (hperm : s.files.Perm t.files) :
    (s.update path items).files.Perm (t.update path items).files := by
  unfold DiagnosticStore.update
  split
  · exact hperm.filter _
  · exact put_perm hperm h.distinct

/-! ## Operations -/

/-- What is done with a store. -/
inductive Operation where
  | update (path : Path) (items : List Diagnostic)
  | clear
  deriving DecidableEq

namespace Operation

/-- The store after an operation. -/
def apply (s : DiagnosticStore) : Operation → DiagnosticStore
  | .update path items => s.update path items
  | .clear => empty

/-- The diagnostics that an operation gives to a file, when it is on that file. -/
def itemsOf? (path : Path) : Operation → Option (List Diagnostic)
  | .update p items => if p.same path then some items else none
  | .clear => none

end Operation

/-- The store after operations, the first of them on an empty store. -/
def run (operations : List Operation) : DiagnosticStore :=
  operations.foldl Operation.apply .empty

/-- What the last update of a file since the store was last cleared gave to it. -/
def lastItems? (operations : List Operation) (path : Path) : Option (List Diagnostic) :=
  (operations.reverse.takeWhile (· ≠ .clear)).findSome? (·.itemsOf? path)

variable {operations earlier later : List Operation} {o : Operation}

/-- One more operation is done last. -/
@[simp]
theorem run_concat : run (operations ++ [o]) = Operation.apply (run operations) o := by
  simp [run]

/-- After a clearing nothing has been given to any file. -/
theorem last_items_concat_clear : lastItems? (operations ++ [.clear]) path = none := by
  simp [lastItems?]

/-- An update is the last one of its file, and of no other. -/
theorem last_items_concat_update :
    lastItems? (operations ++ [.update p items]) path
      = if p.same path then some items else lastItems? operations path := by
  rw [lastItems?, List.reverse_concat, List.takeWhile_cons_of_pos (by simp), List.findSome?_cons]
  by_cases h : p.components = path.components <;> simp [Operation.itemsOf?, Path.same, h, lastItems?]

/-- Operations leave a well-formed store. -/
theorem well_formed_run (operations : List Operation) : WellFormed (run operations) := by
  induction operations using List.reverseRecOn with
  | nil => exact well_formed_empty
  | append_singleton operations o ih =>
      rw [run_concat]
      cases o with
      | update p items => exact ih.update
      | clear => exact well_formed_empty

/-- A store is read as the last update of each file says. -/
theorem lookup_run : (run operations).lookup path = (lastItems? operations path).getD [] := by
  induction operations using List.reverseRecOn with
  | nil => rfl
  | append_singleton operations o ih =>
      rw [run_concat]
      cases o with
      | update p items =>
          rw [last_items_concat_update, Operation.apply, lookup_update, ih]
          by_cases h : path.components = p.components
          · simp [Path.same, h]
          · simp [Path.same, h, Ne.symm h]
      | clear =>
          rw [last_items_concat_clear, Operation.apply]
          rfl

/-- Operations make the same of stores that list the same files. -/
theorem WellFormed.foldl_perm (h : WellFormed s) (hperm : s.files.Perm t.files) :
    (operations.foldl Operation.apply s).files.Perm
      (operations.foldl Operation.apply t).files := by
  induction operations generalizing s t with
  | nil => exact hperm
  | cons o operations ih =>
      cases o with
      | update p items => exact ih h.update (h.update_perm hperm)
      | clear => exact .rfl

/-- Updates of different files may be exchanged anywhere in a run. -/
theorem run_exchange (hne : p.components ≠ q.components) :
    (run (earlier ++ [.update p x, .update q y] ++ later)).files.Perm
      (run (earlier ++ [.update q y, .update p x] ++ later)).files := by
  have hwf : WellFormed (((run earlier).update p x).update q y) :=
    ((well_formed_run earlier).update).update
  have hrun : ∀ first second : Operation,
      run (earlier ++ [first, second] ++ later)
        = later.foldl Operation.apply (Operation.apply (Operation.apply (run earlier) first) second) := by
    intro first second
    simp [run]
  rw [hrun, hrun]
  exact hwf.foldl_perm (update_comm hne)

/-- A file is listed with what the last update gave to it, if that was something. -/
theorem mem_snapshot_run_iff :
    (∃ f ∈ (run operations).snapshot, f.1.components = path.components ∧ f.2 = items) ↔
      lastItems? operations path = some items ∧ items ≠ [] := by
  have hwf := well_formed_run operations
  constructor
  · rintro ⟨f, hf, hsame, rfl⟩
    rw [mem_snapshot] at hf
    have hread := hwf.lookup_of_mem hf
    have hne := hwf.nonempty f hf
    rw [lookup_congr hsame, lookup_run] at hread
    cases hlast : lastItems? operations path with
    | none => exact absurd (by simpa [hlast] using hread.symm) hne
    | some items =>
        rw [hlast] at hread
        exact ⟨congrArg some hread, hne⟩
  · rintro ⟨hlast, hne⟩
    have hread : (run operations).lookup path = items := by
      rw [lookup_run, hlast]
      rfl
    obtain ⟨f, hf, hsame, hitems⟩ := exists_mem_of_lookup_ne_nil (by rw [hread]; exact hne)
    exact ⟨f, mem_snapshot.2 hf, hsame, hitems.trans hread⟩

/-- What a snapshot shows after operations: exactly the files to which the last update since the
store was last cleared gave something, each once and with what it gave, in order. -/
structure Shows (operations : List Operation) (s : Snapshot) : Prop where
  listed : ∀ path items, (∃ f ∈ s, f.1.components = path.components ∧ f.2 = items) ↔
    lastItems? operations path = some items ∧ items ≠ []
  once : s.Pairwise fun f g => f.1.components ≠ g.1.components
  ordered : Ordered s

/-- A snapshot shows what the last updates say, in whatever order the store lists its files. Nothing
but one arrangement of these files is in order, so it does not matter which of two different files
is updated first. Nothing is shown exactly if no diagnostics are, and each of them is an error, a
warning or an information. -/
theorem snapshot_run (operations : List Operation) :
    let shown : Snapshot := (run operations).snapshot
    Shows operations shown ∧
      (∀ files, files.Perm (run operations).files → snapshot ⟨files⟩ = shown) ∧
      (∀ other : Snapshot, other.Perm shown → Ordered other → other = shown) ∧
      (∀ earlier later p q x y, p.components ≠ q.components →
        operations = earlier ++ [.update p x, .update q y] ++ later →
        (run (earlier ++ [.update q y, .update p x] ++ later)).snapshot = shown) ∧
      (shown.isEmpty = true ↔ shown.totalCount = 0) ∧
      shown.totalCount = shown.errorCount + shown.warningCount + shown.count .info := by
  intro shown
  have hwf := well_formed_run operations
  have hordered : Ordered shown := hwf.ordered_snapshot
  have hperm : shown.Perm (run operations).files := List.mergeSort_perm _ _
  refine ⟨⟨fun path items => mem_snapshot_run_iff, hwf.distinct.perm hperm.symm Ne.symm, hordered⟩,
    ?_, ?_, ?_, ?_, shown.total_count_eq_counts⟩
  · intro files hfiles
    exact (hwf.snapshot_of_perm hfiles.symm).symm
  · intro other hother hin
    exact hin.unique hordered hother
  · rintro earlier later p q x y hne rfl
    exact (hwf.snapshot_of_perm (run_exchange hne)).symm
  · refine Snapshot.is_empty_iff_total_count fun f hf => ?_
    exact hwf.nonempty f (mem_snapshot.1 hf)

/-- The file in the root directory whose name is this letter. -/
def letterFile (letter : Char) : Path :=
  ⟨[Path.slash, letter.toUInt8]⟩

/-- A diagnostic of this severity. -/
def finding (severity : Severity) : Diagnostic :=
  ⟨severity, "unused import", letterFile 'a', default, none⟩

/-- The store is cleared, three files are updated, and one of them again in another spelling. -/
def respelledUpdates : List Operation :=
  [.update (letterFile 'c') [finding .error], .clear,
    .update (letterFile 'b') [finding .warning], .update (letterFile 'a') [finding .error],
    .update (letterFile 'd') [finding .error],
    .update ⟨[Path.slash, Path.slash, 0x61]⟩ [finding .info, finding .warning]]

/-- The file with an error comes first, the other ones come by path, and the one that was updated
twice is shown once. It is the same when the store lists them the other way around, and when the
second file is updated before the first one. -/
theorem snapshot_run_respelled_updates :
    let shown : Snapshot := [(letterFile 'd', [finding .error]),
      (letterFile 'a', [finding .info, finding .warning]), (letterFile 'b', [finding .warning])]
    (run respelledUpdates).snapshot = shown ∧
      snapshot ⟨(run respelledUpdates).files.reverse⟩ = shown ∧
      (run (respelledUpdates.take 2 ++ [.update (letterFile 'a') [finding .error],
        .update (letterFile 'b') [finding .warning]] ++ respelledUpdates.drop 4)).snapshot
          = shown := by
  intro shown
  obtain ⟨-, harrange, hunique, hexchange, -, -⟩ := snapshot_run respelledUpdates
  have hlisted : shown.Perm (run respelledUpdates).files := by decide
  have hperm : shown.Perm (run respelledUpdates).snapshot :=
    hlisted.trans (List.mergeSort_perm _ _).symm
  have hshown : shown = (run respelledUpdates).snapshot :=
    hunique shown hperm ⟨by decide, by decide⟩
  have hne : (letterFile 'b').components ≠ (letterFile 'a').components := by decide
  rw [hshown]
  exact ⟨rfl, harrange _ (List.reverse_perm _), hexchange _ _ _ _ _ _ hne rfl⟩

end DiagnosticStore

end LintWatch
