import LintWatch.Proofs.Json.Access
import LintWatch.Record
import Mathlib.Data.List.Forall2

/-!
# Reading records and lists

A record of two fields is written by name or in order (`IsPair`), and both are read alike
(`exists_record_iff`). A list is read element by element, or not at all (`mapM_eq_some_iff`).
-/

namespace LintWatch.Json

variable {v x y : Json} {members : Members} {name a b : String} {n : UInt32}

/-- The values that are read as a number are the natural numbers of at most 32 bits. -/
theorem nat32?_eq_some_iff : v.nat32? = some n ↔ v = .ofNat n.toNat := by
  rw [nat32?, Option.map_eq_some_iff]
  constructor
  · rintro ⟨i, hi, rfl⟩
    obtain ⟨rfl, hlow, hhigh⟩ := int_in_eq_some_iff.1 hi
    have hlt : i.toNat < 2 ^ 32 := by omega
    rw [ofNat, UInt32.toNat_ofNat_of_lt' hlt, Int.toNat_of_nonneg hlow]
  · rintro rfl
    have hlt : n.toNat < 2 ^ 32 := n.toNat_lt
    exact ⟨n.toNat, int_in_eq_some_iff.2 ⟨rfl, by omega, by omega⟩, by simp⟩

/-- A value that may be missing or null, and otherwise is what `P` says. -/
inductive IsOptional {α : Type} (P : Json → α → Prop) : Option Json → Option α → Prop where
  | missing : IsOptional P none none
  | null : IsOptional P (some .null) none
  | given {v : Json} {a : α} : v ≠ .null → P v a → IsOptional P (some v) (some a)

/-- What is written for something that may be left out is what it is read from. -/
theorem is_optional_map {α : Type} {P : Json → α → Prop} {write : α → Json} {result : Option α}
    (hwrite : ∀ a, P (write a) a) (hne : ∀ a ∈ result, write a ≠ .null) :
    IsOptional P (result.map write) result := by
  cases result with
  | none => exact .missing
  | some a => exact .given (hne a rfl) (hwrite a)

/-- A value that may be null is read so, when it is there. -/
theorem or_null_eq_some_iff {α : Type} {read : Json → Option α} {result : Option α} :
    source.orNull? read v = some result ↔
      IsOptional (fun v a => read v = some a) (some v) result := by
  by_cases hv : v = .null
  · subst hv
    constructor
    · intro h
      obtain rfl : none = result := Option.some.inj h
      exact .null
    · intro h
      cases h with
      | null => rfl
      | given hne => exact absurd rfl hne
  · have hread : source.orNull? read v = (read v).map some := by
      cases v with
      | null => exact absurd rfl hv
      | _ => rfl
    rw [hread, Option.map_eq_some_iff]
    constructor
    · rintro ⟨a, ha, rfl⟩
      exact .given hv ha
    · intro h
      cases h with
      | null => exact absurd rfl hv
      | given _ ha => exact ⟨_, ha, rfl⟩

/-- A field that is written by name is the member of that name. -/
theorem find_eq_lookup (byName : Bool) (name : String) (members : Members) :
    (⟨members, byName⟩ : Record Json).find? name = lookupMember name members := by
  show members.lookup name = _
  induction members with
  | nil => rfl
  | cons m members ih =>
      obtain ⟨k, value⟩ := m
      rw [lookup_cons, List.lookup_cons, ih]
      by_cases h : name = k
      · simp [h]
      · rw [beq_false_of_ne h, if_neg h]

/-- A field that may be left out or null is read so. -/
theorem with_default_eq_some_iff {α : Type} {r : Record Json} {read : Json → Option α}
    {result : Option α} :
    r.withDefault? name none (source.orNull? read) = some result ↔
      IsOptional (fun v a => read v = some a) (r.find? name) result := by
  rw [Record.withDefault?]
  cases r.find? name with
  | some v => exact or_null_eq_some_iff
  | none =>
      constructor
      · intro h
        obtain rfl : none = result := Option.some.inj h
        exact .missing
      · intro h
        cases h
        rfl

/-- In a record by name, a field that may be left out is the member of that name, if there is
one. -/
theorem optional_eq_some_iff {α : Type} {read : Json → Option α} {result : Option α} :
    (⟨members, true⟩ : Record Json).optional? name (source.orNull? read) = some result ↔
      IsOptional (fun v a => read v = some a) (lookupMember name members) result := by
  rw [← find_eq_lookup true, ← with_default_eq_some_iff]
  rfl

/-- Leaving out members of other names does not matter. -/
theorem lookup_filter_of_pos {p : String × Json → Bool} (h : ∀ value, p (name, value) = true) :
    lookupMember name (members.filter p) = lookupMember name members := by
  induction members with
  | nil => rfl
  | cons m members ih =>
      obtain ⟨k, value⟩ := m
      rw [List.filter_cons]
      by_cases hk : name = k
      · rw [← hk, if_pos (h value), lookup_cons, lookup_cons, if_pos rfl, if_pos rfl]
      · split <;> simp [lookup_cons, hk, ih]

/-- Nothing is found under a name that is left out. -/
theorem lookup_filter_of_neg {p : String × Json → Bool} (h : ∀ value, p (name, value) = false) :
    lookupMember name (members.filter p) = none := by
  rw [lookupMember, Option.map_eq_none_iff, List.find?_eq_none]
  rintro ⟨k, value⟩ hmem hk
  obtain rfl : k = name := by simpa using hk
  exact Bool.false_ne_true ((h value).symm.trans (List.mem_filter.1 hmem).2)

/-- Only objects have members. -/
theorem exists_members_of_get (h : v.get? name = some x) : ∃ members, v = .obj members := by
  cases v with
  | obj members => exact ⟨members, rfl⟩
  | _ => cases h

/-- A record with the fields `a` and `b` whose values are `x` and `y`. -/
inductive IsPair (a b : String) : (v x y : Json) → Prop where
  | named {v x y : Json} : v.get? a = some x → v.get? b = some y → IsPair a b v x y
  | ordered {x y : Json} : IsPair a b (.arr [x, y]) x y

/-- A record of two fields has the same values whether it is written by name or in order. -/
theorem exists_record_iff (hne : a ≠ b) :
    (∃ r, v.record? [a, b] = some r ∧ r.find? a = some x ∧ r.find? b = some y) ↔
      IsPair a b v x y := by
  constructor
  · rintro ⟨r, hr, hx, hy⟩
    cases v with
    | obj members =>
        cases hr
        rw [find_eq_lookup] at hx hy
        exact .named hx hy
    | arr items =>
        simp only [record?, Option.ite_none_right_eq_some, Option.some.injEq] at hr
        obtain ⟨hlength, rfl⟩ := hr
        simp only [find_eq_lookup] at hx hy
        -- Fewer than two elements leave the second field without a value.
        rcases items with _ | ⟨u, _ | ⟨w, _ | ⟨z, rest⟩⟩⟩
        · cases hx
        · have hab : a = b ∧ u = y := by simpa [lookupMember] using hy
          exact absurd hab.1 hne
        · simp only [List.zip_cons_cons, lookup_cons, if_pos, if_neg (Ne.symm hne),
            Option.some.injEq] at hx hy
          rw [← hx, ← hy]
          exact .ordered
        · simp only [List.length_cons, List.length_nil] at hlength
          omega
    | _ => cases hr
  · intro h
    cases h with
    | named hx hy =>
        obtain ⟨members, rfl⟩ := exists_members_of_get hx
        exact ⟨_, rfl, (find_eq_lookup _ _ _).trans hx, (find_eq_lookup _ _ _).trans hy⟩
    | ordered =>
        refine ⟨_, rfl, ?_, ?_⟩
        · rw [find_eq_lookup, List.zip_cons_cons, lookup_cons, if_pos rfl]
        · rw [find_eq_lookup, List.zip_cons_cons, List.zip_cons_cons, lookup_cons,
            if_neg (Ne.symm hne), lookup_cons, if_pos rfl]

/-- The arrays are the values that are read as lists. -/
theorem items?_eq_some_iff {items : List Json} : v.items? = some items ↔ v = .arr items := by
  cases v <;> simp [items?]

/-- A list is read exactly if all its elements are. -/
theorem mapM_eq_some_iff {α β : Type} {read : α → Option β} {items : List α}
    {results : List β} :
    items.mapM read = some results ↔ List.Forall₂ (fun i r => read i = some r) items results := by
  induction items generalizing results with
  | nil => cases results <;> simp
  | cons i items ih =>
      simp only [List.mapM_cons, Option.bind_eq_bind, Option.bind_eq_some_iff, Option.pure_def,
        Option.some.injEq, List.forall₂_cons_left_iff, ih]
      constructor
      · rintro ⟨r, hr, rs, hrs, rfl⟩
        exact ⟨r, rs, hr, hrs, rfl⟩
      · rintro ⟨r, rs, hr, hrs, rfl⟩
        exact ⟨r, hr, rs, hrs, rfl⟩

end LintWatch.Json
