import LintWatch.Proofs.Scan.CutOutput

/-!
# Outputs that list more than findings

The output of a check is used as a whole: if every element that it lists is a finding, all of them
count, and if one is not, none of them does. So an element counts by itself only where the others are
findings or nothing is to be shown: `found_feed_array`.
-/

namespace LintWatch

/-- A list is read exactly if all its elements are, as what they are read as. -/
theorem Json.mapM_eq_ite {α β : Type} (read : α → Option β) (items : List α) :
    items.mapM read
      = if items.all fun item => (read item).isSome then some (items.filterMap read) else none := by
  induction items with
  | nil => rfl
  | cons item items ih =>
      rw [List.mapM_cons, ih, List.all_cons]
      cases hread : read item with
      | none => rfl
      | some result =>
          rw [Option.isSome_some, Bool.true_and, List.filterMap_cons_some hread]
          split <;> rfl

/-- Whether an element of an output is a finding. -/
def Finding.isListed (item : Json.Tree) : Bool :=
  (Finding.read? Json.Tree.source item).isSome

/-- The diagnostic for an element of the output of a check that ran in a directory, if the element
is a finding and the finding is shown. -/
def Finding.shown? (directory : Path) (showsSyntaxErrors : Bool) (item : Json.Tree) :
    Option Diagnostic :=
  (Finding.read? Json.Tree.source item).bind fun f =>
    f.diagnostic? (directory.join f.filename) showsSyntaxErrors

namespace Scan

open Finding (isListed shown?)

variable {env : Environment} {r : Run} {root : Path} {rest : List Path} {output : CheckOutput}
  {items : List Json.Tree} {showsSyntaxErrors : Bool}

/-- What a root contributes of an array: the diagnostics for its elements if all are findings. -/
theorem contributed_array (hstderr : output.stderr = [])
    (hitems : Json.Tree.ofBytes? output.stdout = some (.array items)) :
    contributed? env showsSyntaxErrors root (.ok output)
      = if items.all isListed then
          some (items.filterMap (shown? (env.checkDirectory root) showsSyntaxErrors))
        else none := by
  have hparse : Finding.parse? output.stdout = items.mapM (Finding.read? Json.Tree.source) := by
    rw [Finding.parse?, hitems]
    rfl
  have hlisted : (items.all fun item => (Finding.read? Json.Tree.source item).isSome)
      = items.all isListed := rfl
  rw [contributed?, usable?, if_pos hstderr, hparse, Json.mapM_eq_ite, hlisted]
  split
  · rw [Option.map_some, List.filterMap_filterMap]
    rfl
  · rfl

/-- An array adds to a scan the diagnostics for its elements if all of these are findings, and else
nothing. So every element counts whatever the others are exactly if all are findings, or if there is
nothing to show. -/
theorem found_feed_array (hwaiting : r.waiting = root :: rest) (hstderr : output.stderr = [])
    (hitems : Json.Tree.ofBytes? output.stdout = some (.array items)) :
    let shown := items.filterMap (shown? (env.checkDirectory root) r.showsSyntaxErrors)
    (r.feed env (.ok output)).found
        = r.found ++ (if items.all isListed then shown else []) ∧
      ((r.feed env (.ok output)).found = r.found ++ shown ↔
        items.all isListed ∨ shown = []) := by
  intro shown
  have hfound : (r.feed env (.ok output)).found
      = r.found ++ (if items.all isListed then shown else []) := by
    rw [Run.found_feed hwaiting, contributed_array hstderr hitems]
    split <;> rfl
  refine ⟨hfound, ?_⟩
  rw [hfound, List.append_cancel_left_eq]
  split
  next hall => exact iff_of_true rfl (Or.inl hall)
  next hall => exact ⟨fun hnil => Or.inr hnil.symm, fun h => (h.resolve_left hall).symm⟩

/-- A scan that has one root to check. -/
def oneRoot : Run :=
  .start .empty (some (.ofString "/bin/ruff")) [.ofString "app.py"]

/-- Of two findings that are all an output lists, the one with a location is added. -/
theorem found_feed_two_findings : ∃ items,
    Json.Tree.ofBytes? Scanner.twoFindings = some (.array items) ∧
      let result := .ok ⟨Scanner.twoFindings, [], some 1, false⟩
      let shown := items.filterMap
        (shown? (Scanner.bareEnvironment.checkDirectory (.ofString "app.py")) true)
      (oneRoot.feed Scanner.bareEnvironment result).found
          = [] ++ (if items.all isListed then shown else []) ∧
        ((oneRoot.feed Scanner.bareEnvironment result).found = [] ++ shown ↔
          items.all isListed ∨ shown = []) := by
  have hlists : (Finding.parse? Scanner.twoFindings).isSome = true := by decide +kernel
  obtain ⟨findings, hparse⟩ := Option.isSome_iff_exists.1 hlists
  obtain ⟨items, hitems, -⟩ := Finding.parse_eq_some_iff.1 hparse
  exact ⟨items, hitems, found_feed_array (r := oneRoot) rfl rfl hitems⟩

/-- An output with a finding and with a record that has no message. -/
def oddRecord : List UInt8 :=
  Text.Utf8.encode ("[\x7b\"filename\":\"x.py\",\"code\":\"F401\",\"message\":\"unused\"," ++
    "\"location\":\x7b\"row\":3,\"column\":1\x7d\x7d,\x7b\"filename\":\"y.py\"\x7d]")

/-- A finding is not added beside a record that is none. -/
theorem not_found_beside_odd_record : ∃ items,
    Json.Tree.ofBytes? oddRecord = some (.array items) ∧
      items.filterMap (shown? (Scanner.bareEnvironment.checkDirectory (.ofString "app.py")) true)
        = [⟨.warning, "F401 — unused", .ofString "./x.py", .at ⟨2, 0⟩, none⟩] ∧
      (oneRoot.feed Scanner.bareEnvironment (.ok ⟨oddRecord, [], some 1, false⟩)).found = [] := by
  have happ : Scanner.bareEnvironment.checkDirectory (.ofString "app.py") = .ofString "." :=
    Scanner.check_directory_bare ⟨by decide +kernel, by decide +kernel⟩ (by decide +kernel)
  have hlisted : ((Json.Tree.ofBytes? oddRecord).bind Json.Tree.items?).map (fun items =>
      (items.filterMap (shown? (.ofString ".") true), items.all isListed))
        = some ([⟨.warning, "F401 — unused", .ofString "./x.py", .at ⟨2, 0⟩, none⟩], false) := by
    decide +kernel
  obtain ⟨items, hitems, hshown⟩ := Option.map_eq_some_iff.1 hlisted
  obtain ⟨tree, htree, hitems⟩ := Option.bind_eq_some_iff.1 hitems
  obtain ⟨hshown, hall⟩ := Prod.mk.inj hshown
  cases tree with
  | scalar | object => cases hitems
  | array items' =>
      obtain rfl := Option.some.inj hitems
      refine ⟨_, htree, by rw [happ]; exact hshown, ?_⟩
      rw [Run.found_feed (r := oneRoot) rfl, contributed_array rfl htree, hall]
      rfl

end Scan

end LintWatch
