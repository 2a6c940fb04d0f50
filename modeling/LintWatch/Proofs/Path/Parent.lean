import LintWatch.Proofs.Path.Climbing
import Mathlib.Data.List.DropRight

/-!
# The directory above a path

The path above another has all its components but the last (`components_parent?`), however the path is
spelled: slashes and dots at its end and in front of its last name do not count. Only the root and
the empty path have none above them (`parent?_eq_none_iff`).
-/

namespace LintWatch.Path

variable {p q : Path} {parts rest kept : List (List UInt8)}

/-! ## Spellings taken apart -/

/-- Spellings with a slash between them spell the parts of both. -/
theorem unsplit_append (hparts : parts ≠ []) (hrest : rest ≠ []) :
    unsplit (parts ++ rest) = unsplit parts ++ slash :: unsplit rest := by
  induction parts with
  | nil => exact absurd rfl hparts
  | cons part parts ih =>
      obtain ⟨next, others, rfl⟩ := List.exists_cons_of_ne_nil hrest
      cases parts with
      | nil => rfl
      | cons second parts =>
          have hunsplit := ih (List.cons_ne_nil second parts)
          rw [List.cons_append] at hunsplit
          simp only [List.cons_append, unsplit, hunsplit, List.append_assoc]

/-- The parts of a spelling spell it. -/
theorem unsplit_split (bytes : List UInt8) : unsplit (split bytes) = bytes := by
  induction bytes with
  | nil => rfl
  | cons b bytes ih =>
      obtain ⟨part, parts, hparts⟩ := List.exists_cons_of_ne_nil (split_ne_nil bytes)
      rw [hparts] at ih
      simp only [split, hparts]
      split
      next hslash =>
        rw [hslash]
        exact congrArg (slash :: ·) ih
      next =>
        cases parts with
        | nil => exact congrArg (b :: ·) ih
        | cons second parts => exact congrArg (b :: ·) ih

/-- Parts without a slash are those of their spelling. -/
theorem split_unsplit (hne : parts ≠ []) (hslash : ∀ part ∈ parts, slash ∉ part) :
    split (unsplit parts) = parts := by
  induction parts with
  | nil => exact absurd rfl hne
  | cons part parts ih =>
      have hpart := split_of_not_mem (hslash part List.mem_cons_self)
      cases parts with
      | nil => exact hpart
      | cons second parts =>
          have hrest := ih (List.cons_ne_nil second parts) fun part h =>
            hslash part (List.mem_cons_of_mem _ h)
          show split (part ++ slash :: unsplit (second :: parts)) = _
          rw [split_append_slash, hpart, hrest]
          rfl

/-- Only an empty part is spelled by nothing. -/
theorem eq_of_unsplit_eq_nil (h : unsplit parts = []) (hne : parts ≠ []) : parts = [[]] := by
  match parts with
  | [] => exact absurd rfl hne
  | [part] => exact congrArg (fun part => [part]) h
  | part :: second :: parts =>
      exact absurd h (List.append_ne_nil_of_right_ne_nil part (List.cons_ne_nil _ _))

/-! ## Parts that mean nothing -/

/-- The components that parts mean. -/
def meaning (parts : List (List UInt8)) : List Component :=
  parts.filterMap componentOfPart?

/-- Only an empty part and a single dot mean nothing. -/
theorem componentOfPart?_eq_none_iff {part : List UInt8} :
    componentOfPart? part = none ↔ part = [] ∨ part = [dot] := by
  unfold componentOfPart?
  split
  next h => exact iff_of_true rfl h
  next h => split <;> exact iff_of_false nofun h

/-- Parts mean what they mean one after the other. -/
theorem meaning_append (parts rest : List (List UInt8)) :
    meaning (parts ++ rest) = meaning parts ++ meaning rest :=
  List.filterMap_append

/-- Of parts, those from the last that means something on mean nothing else. -/
theorem exists_dropMeaningless (parts : List (List UInt8)) :
    ∃ tail, parts = (dropMeaningless parts.reverse).reverse ++ tail ∧ meaning tail = [] := by
  refine ⟨(parts.reverse.takeWhile fun part => componentOfPart? part = none).reverse, ?_, ?_⟩
  · rw [dropMeaningless, ← List.reverse_append, List.takeWhile_append_dropWhile,
      List.reverse_reverse]
  · refine List.filterMap_eq_nil_iff.2 fun part hpart => ?_
    simpa using List.mem_takeWhile_imp (List.mem_reverse.1 hpart)

/-- The first of what is left means something. -/
theorem exists_of_dropMeaningless {part : List UInt8}
    (h : dropMeaningless parts = part :: rest) : ∃ c, componentOfPart? part = some c := by
  have hne : dropMeaningless parts ≠ [] := h ▸ List.cons_ne_nil part rest
  have hhead : decide (componentOfPart? ((dropMeaningless parts).head hne) = none) = false :=
    List.head_dropWhile_not _ hne
  simp only [h, List.head_cons, decide_eq_false_iff_not] at hhead
  exact Option.ne_none_iff_exists'.1 hhead

/-- What is left of parts is spelled by something. -/
theorem unsplit_dropMeaningless_ne_nil (h : (dropMeaningless parts).reverse ≠ []) :
    unsplit (dropMeaningless parts).reverse ≠ [] := by
  intro hempty
  have hlast := eq_of_unsplit_eq_nil hempty h
  obtain ⟨c, hc⟩ := exists_of_dropMeaningless (List.reverse_eq_iff.1 hlast)
  cases hc

/-- What stands at the front of a path is a path of its own. -/
theorem components_front (p : Path) : components ⟨(p.front.map Component.bytes).flatten⟩ = p.front := by
  unfold front
  split
  · rfl
  split
  · rfl
  · rfl

/-- A path that is spelled up to one of its parts has the components up to there. -/
theorem components_unsplit (hsplit : split p.bytes = kept ++ rest) (hrest : rest ≠ [])
    (hkept : unsplit kept ≠ []) :
    components ⟨unsplit kept⟩ = p.front ++ meaning kept := by
  have hne : kept ≠ [] := by
    rintro rfl
    exact hkept rfl
  have hbytes : p.bytes = unsplit kept ++ slash :: unsplit rest := by
    rw [← unsplit_append hne hrest, ← hsplit, unsplit_split]
  have hslash : ∀ part ∈ kept, slash ∉ part := fun part hpart =>
    not_mem_of_mem_split (hsplit ▸ List.mem_append_left rest hpart)
  have hfront : front ⟨unsplit kept ++ [slash]⟩ = p.front := by
    rw [← front_append_slash (unsplit kept) (unsplit rest), ← hbytes]
  rw [← components_concat_slash hkept, components, hfront, split_append_slash,
    split_unsplit hne hslash, List.filterMap_append]
  exact congrArg (p.front ++ ·) (List.append_nil _)

/-- The spelling of the parts of a path up to one of them has the components up to there. -/
theorem components_spelling (hsplit : split p.bytes = parts.reverse ++ rest) (hrest : rest ≠ []) :
    (spelling p parts).components = p.front ++ meaning parts.reverse := by
  obtain ⟨tail, htail, hmeaning⟩ := exists_dropMeaningless parts.reverse
  rw [List.reverse_reverse] at htail
  have hkept : meaning parts.reverse = meaning (dropMeaningless parts).reverse := by
    rw [htail, meaning_append, hmeaning, List.append_nil]
  simp only [spelling]
  rw [hkept]
  split
  next hnil =>
    rw [hnil, components_front]
    exact (List.append_nil _).symm
  next hne =>
    have hall : split p.bytes = (dropMeaningless parts).reverse ++ (tail ++ rest) := by
      rw [hsplit, htail, List.append_assoc]
    exact components_unsplit hall (List.append_ne_nil_of_right_ne_nil tail hrest)
      (unsplit_dropMeaningless_ne_nil hne)

/-! ## The path above -/

/-- What is meaningless at the end of a path does not count. -/
theorem components_eq (p : Path) :
    p.components = p.front ++ meaning (dropMeaningless (split p.bytes).reverse).reverse := by
  obtain ⟨tail, htail, hmeaning⟩ := exists_dropMeaningless (split p.bytes)
  have hall := congrArg meaning htail
  rw [meaning_append, hmeaning, List.append_nil] at hall
  exact congrArg (p.front ++ ·) hall

/-- At most one component is meant by the front of a path. -/
theorem dropLast_front (p : Path) : p.front.dropLast = [] := by
  unfold front
  split
  · rfl
  split
  · rfl
  · rfl

/-- The path above another has the components of it but the last. -/
theorem components_parent? (h : p.parent? = some q) : q.components = p.components.dropLast := by
  obtain ⟨tail, htail, -⟩ := exists_dropMeaningless (split p.bytes)
  have hcomponents := p.components_eq
  simp only [parent?] at h
  split at h
  · cases h
  · cases h
  next =>
    split at h
    next hnil =>
      obtain rfl := Option.some.inj h
      rw [hcomponents, hnil]
      show [] = (p.front ++ []).dropLast
      rw [List.append_nil, dropLast_front]
    next part parts hparts =>
      obtain rfl := Option.some.inj h
      obtain ⟨c, hc⟩ := exists_of_dropMeaningless hparts
      rw [hparts, List.reverse_cons] at hcomponents htail
      rw [List.append_assoc] at htail
      rw [components_spelling htail (List.cons_ne_nil part tail), hcomponents, meaning_append,
        show meaning [part] = [c] by simp [meaning, hc], ← List.append_assoc, List.dropLast_concat]

/-- How the path above another is spelled: by the first ones of its parts, or, where these mean
nothing, by what it starts with. -/
theorem split_parent? (h : p.parent? = some q) (hmeaning : meaning (split p.bytes) ≠ []) :
    ∃ kept rest, split p.bytes = kept ++ rest ∧ rest ≠ [] ∧
      (meaning kept = [] ∧ q = ⟨(p.front.map Component.bytes).flatten⟩ ∨
        split q.bytes = kept ∧ q.bytes ≠ []) := by
  obtain ⟨tail, htail, hnothing⟩ := exists_dropMeaningless (split p.bytes)
  simp only [parent?] at h
  split at h
  · cases h
  · cases h
  next =>
    split at h
    next hnil =>
      rw [hnil] at htail
      exact absurd (htail ▸ hnothing) hmeaning
    next part parts hparts =>
      rw [hparts, List.reverse_cons, List.append_assoc] at htail
      obtain ⟨others, hothers, hsilent⟩ := exists_dropMeaningless parts.reverse
      rw [List.reverse_reverse] at hothers
      obtain rfl := Option.some.inj h
      simp only [spelling]
      split
      next hnone =>
        rw [hnone] at hothers
        exact ⟨parts.reverse, _, htail, List.cons_ne_nil part tail,
          Or.inl ⟨hothers ▸ hsilent, rfl⟩⟩
      next hne =>
        rw [hothers, List.append_assoc] at htail
        refine ⟨_, _, htail, List.append_ne_nil_of_right_ne_nil others (List.cons_ne_nil part tail),
          Or.inr ⟨?_, unsplit_dropMeaningless_ne_nil hne⟩⟩
        exact split_unsplit hne fun part hpart =>
          not_mem_of_mem_split (htail ▸ List.mem_append_left _ hpart)

/-- Only the root and the empty path have no path above them. -/
theorem parent?_eq_none_iff : p.parent? = none ↔ p.components = [] ∨ p.components = [.root] := by
  constructor
  · intro h
    simp only [parent?] at h
    split at h
    next hlast => exact Or.inl (List.getLast?_eq_none_iff.1 hlast)
    next hlast =>
      have hmem := List.mem_of_getLast? hlast
      obtain ⟨cs, hcs, hroot⟩ := components_of_absolute (is_absolute_iff.2 hmem)
      cases cs with
      | nil => exact Or.inr hcs
      | cons c cs =>
          rw [hcs, List.getLast?_cons_cons] at hlast
          exact absurd (List.mem_of_getLast? hlast) hroot
    next =>
      split at h <;> cases h
  · rintro (h | h) <;> simp [parent?, h]

/-- Only the empty path has no components. -/
theorem bytes_eq_nil_of_components_eq_nil (h : p.components = []) : p.bytes = [] := by
  obtain ⟨hfront, hmeaning⟩ := List.append_eq_nil_iff.1 h
  obtain ⟨bytes⟩ := p
  cases bytes with
  | nil => rfl
  | cons b bytes =>
      obtain ⟨part, parts, hparts⟩ := List.exists_cons_of_ne_nil (split_ne_nil bytes)
      by_cases hslash : b = slash
      · subst hslash
        cases hfront
      · have hsplit : split (b :: bytes) = (b :: part) :: parts := by
          simp only [split, hparts, if_neg hslash]
        have hnone : componentOfPart? (b :: part) = none :=
          List.filterMap_eq_nil_iff.1 hmeaning _ (hsplit ▸ List.mem_cons_self)
        have hdot := (componentOfPart?_eq_none_iff.1 hnone).resolve_left (List.cons_ne_nil b part)
        have habsolute : isAbsolute ⟨b :: bytes⟩ = false := by simp [isAbsolute, hslash]
        rw [front, habsolute, if_neg Bool.false_ne_true, hsplit, hdot] at hfront
        cases hfront

/-- Nothing but the root is meant by the parts of a path that is the root. -/
theorem meaning_of_root (h : p.components = [.root]) : meaning (split p.bytes) = [] := by
  have habsolute : p.isAbsolute = true := is_absolute_iff.2 (h ▸ List.mem_cons_self)
  have hfront : p.front = [.root] := if_pos habsolute
  have hall : p.front ++ meaning (split p.bytes) = [.root] := h
  rw [hfront] at hall
  exact List.append_cancel_left hall

/-- Absolute paths are told by their components. -/
theorem is_absolute_congr (h : p.components = q.components) :
    p.isAbsolute = q.isAbsolute := by
  rw [Bool.eq_iff_iff, is_absolute_iff, is_absolute_iff, h]

/-- The path above an absolute path is absolute, and the path above a relative path is relative. -/
theorem is_absolute_parent? (h : p.parent? = some q) : q.isAbsolute = p.isAbsolute := by
  rw [Bool.eq_iff_iff, is_absolute_iff, is_absolute_iff, components_parent? h]
  refine ⟨List.mem_of_mem_dropLast, fun hroot => ?_⟩
  obtain ⟨cs, hcs, -⟩ := components_of_absolute (is_absolute_iff.2 hroot)
  cases cs with
  | nil =>
      rw [parent?_eq_none_iff.2 (Or.inr hcs)] at h
      cases h
  | cons c cs =>
      rw [hcs, List.dropLast_cons_cons]
      exact List.mem_cons_self

end LintWatch.Path
