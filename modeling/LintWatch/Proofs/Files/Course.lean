import LintWatch.Proofs.Files.Above

/-!
# Where relative paths lead

A relative path goes up some directories and then down some names, whatever detours it makes on the
way (`Path.course`), and without links in the tree that is where it leads (`Leads.eq_follow`). So from
two directories it leads to the same place exactly if it leads anywhere from both, and the two agree as
far up as the path goes: `find_eq_iff_ancestor_eq`.
-/

namespace LintWatch

/-- The way of a relative path: how many directories it goes up, and which names it goes down then. -/
structure Course where
  up : Nat
  down : List (List UInt8)
  deriving DecidableEq, Repr

namespace Course

/-- The way with one component more. -/
def step (c : Course) : Path.Component → Course
  | .name n => { c with down := c.down ++ [n] }
  | .parent => if c.down = [] then { c with up := c.up + 1 } else { c with down := c.down.dropLast }
  | .root | .current => c

/-- The place so many directories above another, or the root if there are not so many. -/
def ancestor (n : Nat) (place : Place) : Place :=
  place.take (place.length - n)

/-- Where the way leads from a place. -/
def follow (c : Course) (place : Place) : Place :=
  ancestor c.up place ++ c.down

variable {c : Course} {place : Place}

/-- No directory further up. -/
theorem ancestor_zero (place : Place) : ancestor 0 place = place := by
  rw [ancestor, Nat.sub_zero, List.take_length]

/-- One directory further up. -/
theorem dropLast_ancestor (n : Nat) (place : Place) :
    (ancestor n place).dropLast = ancestor (n + 1) place := by
  rw [ancestor, ancestor, List.dropLast_eq_take, List.take_take, List.length_take]
  congr 1
  omega

/-- A name leads down. -/
theorem follow_step_name (n : List UInt8) :
    (c.step (.name n)).follow place = c.follow place ++ [n] :=
  (List.append_assoc _ _ _).symm

/-- Two dots lead up. -/
theorem follow_step_parent : (c.step .parent).follow place = (c.follow place).dropLast := by
  obtain ⟨up, down⟩ := c
  unfold step
  dsimp only
  split
  next hdown =>
    subst hdown
    show ancestor (up + 1) place ++ [] = (ancestor up place ++ []).dropLast
    rw [List.append_nil, List.append_nil, dropLast_ancestor]
  next hdown => exact (List.dropLast_append_of_ne_nil hdown).symm

/-- The same way leads to the same place exactly if it does as far as it goes up. -/
theorem follow_eq_iff {other : Place} :
    c.follow place = c.follow other ↔ ancestor c.up place = ancestor c.up other :=
  List.append_left_inj c.down

end Course

/-- The way of a path, its detours left out. -/
def Path.course (p : Path) : Course :=
  p.components.foldl Course.step ⟨0, []⟩

namespace FileTree

/-- A tree without links. -/
def Linkless (t : FileTree) : Prop :=
  ∀ place target, t.entry? place ≠ some (.link target)

variable {t : FileTree} {dir dir' place q : Place} {p : Path} {links left : Nat}
  {parts : List (List UInt8)}

/-- Where no entry of a tree is a link there are none. -/
theorem linkless_of_entries (h : ∀ entry ∈ t.entries, ∀ target, entry.2 ≠ .link target) :
    t.Linkless := by
  intro place target hlink
  unfold entry? at hlink
  split at hlink
  next => cases hlink
  next =>
    obtain ⟨before, after, hentries, -⟩ := List.lookup_eq_some_iff.1 hlink
    have hmem : (place, FileEntry.link target) ∈ t.entries :=
      hentries ▸ List.mem_append_right _ List.mem_cons_self
    exact h _ hmem target rfl

/-- Without links, parts lead where their components do. -/
theorem Leads.eq_follow (ht : t.Linkless) (h : t.Leads true links place parts left q) (c : Course)
    (hplace : place = c.follow dir) :
    q = ((Path.meaning parts).foldl Course.step c).follow dir := by
  induction h generalizing c with
  | done => exact hplace
  | skip _ hpart _ ih =>
      rw [Path.meaning, List.filterMap_cons_none (Path.componentOfPart?_eq_none_iff.2 hpart)]
      exact ih c hplace
  | up _ _ ih => exact ih (c.step .parent) (by rw [Course.follow_step_parent, hplace])
  | stop _ _ _ hfollow => cases hfollow
  | link _ _ hlink _ _ _ => exact absurd hlink (ht _ _)
  | @enter links left place q part rest _ hpart _ _ ih =>
      rw [Path.meaning, List.filterMap_cons_some (componentOfPart?_of_is_name hpart)]
      exact ih (c.step (.name part)) (by rw [Course.follow_step_name, hplace])

/-- Without links, what is found at a relative path stands where its way leads. -/
theorem eq_follow_of_find {e : FileEntry} (ht : t.Linkless) (hrelative : p.isAbsolute = false)
    (h : t.find dir p = .ok (q, e)) : q = p.course.follow dir := by
  obtain ⟨-, ⟨left, hleads⟩, -⟩ := find_eq_ok_iff_leads.1 h
  have hstart : startOf dir p = Course.follow ⟨0, []⟩ dir := by
    rw [startOf, hrelative, Course.follow, Course.ancestor_zero]
    exact (List.append_nil dir).symm
  have hfront : p.front.foldl Course.step ⟨0, []⟩ = ⟨0, []⟩ := by
    rw [Path.front, hrelative, if_neg Bool.false_ne_true]
    split <;> rfl
  have hcourse : p.course = (Path.meaning (Path.split p.bytes)).foldl Course.step ⟨0, []⟩ := by
    rw [Path.course, Path.components, List.foldl_append, hfront]
    rfl
  rw [hcourse]
  exact hleads.eq_follow ht ⟨0, []⟩ hstart

/-- Without links, a relative path that names something names the same from another directory exactly
if it names something from there too, and both directories agree as far up as the path goes. -/
theorem find_eq_iff_ancestor_eq {e : FileEntry} (ht : t.Linkless) (hrelative : p.isAbsolute = false)
    (h : t.find dir p = .ok (q, e)) : t.find dir' p = t.find dir p ↔
      t.isPresent dir' p = true ∧
        Course.ancestor p.course.up dir' = Course.ancestor p.course.up dir := by
  have hq := eq_follow_of_find ht hrelative h
  constructor
  · intro hsame
    rw [h] at hsame
    have hq' := eq_follow_of_find ht hrelative hsame
    refine ⟨by rw [isPresent, hsame]; rfl, ?_⟩
    rw [← Course.follow_eq_iff, ← hq', hq]
  · rintro ⟨hpresent, hancestor⟩
    obtain ⟨q', e', h'⟩ := isPresent_iff.1 hpresent
    obtain rfl : q' = q := by
      rw [eq_follow_of_find ht hrelative h', Course.follow_eq_iff.2 hancestor, ← hq]
    have hentry := (find_eq_ok_iff.1 h').2.symm.trans (find_eq_ok_iff.1 h).2
    rw [h', h, Option.some.inj hentry]

end FileTree

end LintWatch
