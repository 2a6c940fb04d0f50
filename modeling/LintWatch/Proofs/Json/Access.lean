import LintWatch.Json.Basic
import Mathlib.Algebra.Group.Nat.Defs

/-!
# Looking into values

What an object has under a name after a member was inserted (`lookup_insert_member`) and when it is
made of bindings (`get_object_of_some`), and which values are read as texts and as numbers
(`text?_eq_some_iff`, `nat64?_eq_some_iff`).
-/

namespace LintWatch.Json

variable {name : String} {value : Json} {members : Members}

/-- A first member is found under its name, and the others under theirs. -/
theorem lookup_cons (k : String) :
    lookupMember k ((name, value) :: members)
      = if k = name then some value else lookupMember k members := by
  by_cases h : k = name
  · simp [lookupMember, h]
  · simp [lookupMember, Ne.symm h, h]

/-- An insertion changes what is found under its name, and nothing else. -/
theorem lookup_insert_member (k name : String) (value : Json) (members : Members) :
    lookupMember k (insertMember name value members)
      = if k = name then some value else lookupMember k members := by
  induction members with
  | nil => exact lookup_cons k
  | cons first members ih =>
      obtain ⟨n, v⟩ := first
      simp only [insertMember]
      split
      · exact lookup_cons k
      split
      next heq =>
        rw [lookup_cons, lookup_cons, ← heq]
        split <;> rfl
      next hne =>
        rw [lookup_cons, lookup_cons, ih]
        by_cases hk : k = n
        · rw [if_pos hk, if_pos hk, if_neg fun h => hne (h.symm.trans hk)]
        · rw [if_neg hk, if_neg hk]

/-- Members that bindings are inserted into have the value that is bound to a name, and their own
where none is. -/
theorem lookup_foldl_insert (k : String) {bindings : List (String × Option Json)}
    (hdistinct : (bindings.map (·.1)).Nodup) (members : Members) :
    lookupMember k ((bindings.filterMap fun (n, v) => v.map (n, ·)).foldl
        (fun members (n, v) => insertMember n v members) members)
      = (bindings.lookup k).join.or (lookupMember k members) := by
  induction bindings generalizing members with
  | nil => rfl
  | cons b bindings ih =>
      obtain ⟨n, v⟩ := b
      obtain ⟨hnew, hrest⟩ := List.nodup_cons.1 hdistinct
      by_cases hk : k = n
      · subst hk
        have hnone : bindings.lookup k = none := by
          refine List.lookup_eq_none_iff.2 fun b hb => ?_
          have hne : k ≠ b.1 := fun heq => hnew (heq ▸ List.mem_map.2 ⟨b, hb, rfl⟩)
          simp [hne]
        cases v with
        | none => simpa [hnone] using ih hrest members
        | some w => simpa [hnone, lookup_insert_member] using ih hrest (insertMember k w members)
      · have hlookup : ((n, v) :: bindings).lookup k = bindings.lookup k := by
          rw [List.lookup_cons, beq_false_of_ne hk]
        rw [hlookup]
        cases v with
        | none => exact ih hrest members
        | some w => simpa [hk, lookup_insert_member] using ih hrest (insertMember n w members)

/-- What stands under a name in an object is what is bound to it, when the names are distinct. -/
theorem get_object_of_some (k : String) {bindings : List (String × Option Json)}
    (hdistinct : (bindings.map (·.1)).Nodup) :
    (objectOfSome bindings).get? k = (bindings.lookup k).join :=
  (lookup_foldl_insert k hdistinct []).trans Option.or_none

/-- The value at a place, which is given by the names that lead to it. -/
def at? : Json → List String → Option Json
  | v, [] => some v
  | v, name :: names => (v.get? name).bind (at? · names)

/-- What stands below a name in an object. -/
theorem at_object_of_some (k : String) (names : List String)
    {bindings : List (String × Option Json)} (hdistinct : (bindings.map (·.1)).Nodup) :
    (objectOfSome bindings).at? (k :: names) = (bindings.lookup k).join.bind (·.at? names) :=
  congrArg (·.bind (·.at? names)) (get_object_of_some k hdistinct)

/-- Only no bindings leave no members. -/
theorem members_of_list_eq_nil_iff {bindings : Members} :
    membersOfList bindings = [] ↔ bindings = [] := by
  constructor
  · intro h
    rcases List.eq_nil_or_concat bindings with hnil | ⟨early, ⟨n, v⟩, rfl⟩
    · exact hnil
    · rw [membersOfList, List.concat_eq_append, List.foldl_append] at h
      have hlast := lookup_insert_member n n v (membersOfList early)
      rw [if_pos rfl, show insertMember n v (membersOfList early) = [] from h] at hlast
      cases hlast
  · rintro rfl
    rfl

/-- The texts are the values that are read as texts. -/
theorem text?_eq_some_iff {v : Json} {s : String} : v.text? = some s ↔ v = .str s := by
  cases v <;> simp [text?]

/-- What is found is read as a text if it is one. -/
theorem bind_text?_eq_some_iff {found : Option Json} {s : String} :
    found.bind text? = some s ↔ found = some (.str s) := by
  simp only [Option.bind_eq_some_iff, text?_eq_some_iff, exists_eq_right]

/-- The integers in the range are read as they are. -/
theorem int_in_eq_some_iff {low high n : Int} {v : Json} :
    v.intIn? low high = some n ↔ v = .num (.int n) ∧ low ≤ n ∧ n ≤ high := by
  cases v with
  | num number =>
      cases number with
      | int i =>
          simp only [intIn?, int?, Option.bind_eq_bind, Option.bind_some,
            Option.ite_none_right_eq_some, Option.some.injEq, num.injEq, Number.int.injEq]
          constructor
          · rintro ⟨h, rfl⟩
            exact ⟨rfl, h⟩
          · rintro ⟨rfl, h⟩
            exact ⟨h, rfl⟩
      | real => simp [intIn?, int?]
  | _ => simp [intIn?, int?]

/-- The values that are read as a number are the natural numbers of at most 64 bits. -/
theorem nat64?_eq_some_iff {v : Json} {n : UInt64} : v.nat64? = some n ↔ v = .ofNat n.toNat := by
  rw [nat64?, Option.map_eq_some_iff]
  constructor
  · rintro ⟨i, hi, rfl⟩
    obtain ⟨rfl, hlow, hhigh⟩ := int_in_eq_some_iff.1 hi
    have hlt : i.toNat < 2 ^ 64 := by omega
    rw [ofNat, UInt64.toNat_ofNat_of_lt' hlt, Int.toNat_of_nonneg hlow]
  · rintro rfl
    have hlt : n.toNat < 2 ^ 64 := n.toNat_lt
    exact ⟨n.toNat, int_in_eq_some_iff.2 ⟨rfl, by omega, by omega⟩, by simp⟩

end LintWatch.Json
