import LintWatch.Json.Reader
import Mathlib.Algebra.Group.Int.Defs

/-!
# Values as they come

Every value that is read or put together has the members of its objects in increasing order of
their names, each name once: `canonical_object` and `canonical_of_bytes?`. What is read also nests
no deeper than the reader allows.
-/

namespace LintWatch.Json

mutual

/-- A property holds of a value and of all values in it. -/
def Everywhere (p : Json → Prop) : Json → Prop
  | .arr items => p (.arr items) ∧ EverywhereItems p items
  | .obj members => p (.obj members) ∧ EverywhereMembers p members
  | v => p v

/-- A property holds of elements and of all values in them. -/
def EverywhereItems (p : Json → Prop) : List Json → Prop
  | [] => True
  | v :: vs => Everywhere p v ∧ EverywhereItems p vs

/-- A property holds of the values of members and of all values in them. -/
def EverywhereMembers (p : Json → Prop) : List (String × Json) → Prop
  | [] => True
  | (_, v) :: ms => Everywhere p v ∧ EverywhereMembers p ms

end

mutual

/-- How many brackets stand in each other. -/
def depth : Json → Nat
  | .arr items => depthItems items + 1
  | .obj members => depthMembers members + 1
  | _ => 0

/-- How many brackets stand in each other in elements. -/
def depthItems : List Json → Nat
  | [] => 0
  | v :: vs => max (depth v) (depthItems vs)

/-- How many brackets stand in each other in the values of members. -/
def depthMembers : List (String × Json) → Nat
  | [] => 0
  | (_, v) :: ms => max (depth v) (depthMembers ms)

end

/-- Names increase from member to member. -/
def Increasing (members : Members) : Prop :=
  members.Pairwise fun m n => m.1 < n.1

/-- An object has its members in increasing order. -/
def Sorted : Json → Prop
  | .obj members => Increasing members
  | _ => True

/-- All objects in a value have their members in increasing order. -/
def Canonical (v : Json) : Prop :=
  Everywhere Sorted v

/-- A number is an integer in one of the 64-bit ranges. -/
def IsInteger64 : Json → Prop
  | .num (.int n) => -2 ^ 63 ≤ n ∧ n < 2 ^ 64
  | .num (.real _) => False
  | _ => True

/-- All numbers in a value are integers in one of the 64-bit ranges. -/
def Integral (v : Json) : Prop :=
  Everywhere IsInteger64 v

/-! ## Members -/

variable {name : String} {value : Json} {members : Members}

/-- The names after an insertion are the new one and those before. -/
theorem mem_insert_member {m : String × Json} (h : m ∈ insertMember name value members) :
    m = (name, value) ∨ m ∈ members := by
  induction members with
  | nil => exact Or.inl (List.mem_singleton.1 h)
  | cons first members ih =>
      obtain ⟨n, v⟩ := first
      simp only [insertMember] at h
      split at h
      · exact List.mem_cons.1 h
      split at h
      · rcases List.mem_cons.1 h with h | h
        · exact Or.inl h
        · exact Or.inr (List.mem_cons_of_mem _ h)
      · rcases List.mem_cons.1 h with h | h
        · exact Or.inr (h ▸ List.mem_cons_self)
        · rcases ih h with h | h
          · exact Or.inl h
          · exact Or.inr (List.mem_cons_of_mem _ h)

/-- An insertion keeps the order. -/
theorem Increasing.insert_member (h : Increasing members) :
    Increasing (insertMember name value members) := by
  induction members with
  | nil => exact List.pairwise_singleton _ _
  | cons first members ih =>
      obtain ⟨n, v⟩ := first
      obtain ⟨hfirst, hrest⟩ := List.pairwise_cons.1 h
      simp only [insertMember]
      split
      next hlt =>
        refine List.pairwise_cons.2 ⟨?_, h⟩
        intro m hm
        rcases List.mem_cons.1 hm with rfl | hm
        · exact hlt
        · exact String.lt_trans hlt (hfirst m hm)
      next hlt =>
        split
        next heq =>
          subst heq
          exact List.pairwise_cons.2 ⟨hfirst, hrest⟩
        next hne =>
          refine List.pairwise_cons.2 ⟨?_, ih hrest⟩
          intro m hm
          rcases mem_insert_member hm with rfl | hm
          · exact String.not_le.1 fun hle => hne (String.le_antisymm hle (String.not_lt.1 hlt))
          · exact hfirst m hm

/-- A member whose name comes after all others goes to the end. -/
theorem insert_member_of_lt (h : ∀ m ∈ members, m.1 < name) :
    insertMember name value members = members ++ [(name, value)] := by
  induction members with
  | nil => rfl
  | cons first members ih =>
      obtain ⟨n, v⟩ := first
      have hlt : n < name := h (n, v) (by simp)
      have hne : name ≠ n := by
        rintro rfl
        exact String.lt_irrefl _ hlt
      rw [insertMember, if_neg (String.lt_asymm hlt), if_neg hne,
        ih fun m hm => h m (by simp [hm])]
      rfl

/-- What holds everywhere in members and in a value holds everywhere after an insertion. -/
theorem everywhere_insert_member {p : Json → Prop} (hmembers : EverywhereMembers p members)
    (hvalue : Everywhere p value) : EverywhereMembers p (insertMember name value members) := by
  induction members with
  | nil => exact ⟨hvalue, trivial⟩
  | cons first members ih =>
      obtain ⟨n, v⟩ := first
      simp only [insertMember]
      split
      · exact ⟨hvalue, hmembers⟩
      split
      · exact ⟨hvalue, hmembers.2⟩
      · exact ⟨hmembers.1, ih hmembers.2⟩

/-- What holds everywhere in values that are bound holds everywhere in the members that they
leave. -/
theorem everywhere_members_of_list {p : Json → Prop} {bindings : Members}
    (h : ∀ b ∈ bindings, Everywhere p b.2) : EverywhereMembers p (membersOfList bindings) :=
  List.foldlRecOn bindings _ trivial fun _ hfound b hb =>
    everywhere_insert_member hfound (h b hb)

/-- This is so too where only some names are bound to a value. -/
theorem everywhere_members_of_some {p : Json → Prop} {bindings : List (String × Option Json)}
    (h : ∀ b ∈ bindings, ∀ v, b.2 = some v → Everywhere p v) :
    EverywhereMembers p (membersOfList (bindings.filterMap fun (n, v) => v.map (n, ·))) := by
  refine everywhere_members_of_list fun b hb => ?_
  obtain ⟨⟨n, v⟩, hmem, hb⟩ := List.mem_filterMap.1 hb
  obtain ⟨w, hw, rfl⟩ := Option.map_eq_some_iff.1 hb
  exact h (n, v) hmem w hw

/-- An insertion nests no deeper than the members and the value. -/
theorem depth_insert_member_le {d : Nat} (hmembers : depthMembers members ≤ d)
    (hvalue : depth value ≤ d) : depthMembers (insertMember name value members) ≤ d := by
  induction members with
  | nil => exact Nat.max_le.2 ⟨hvalue, Nat.zero_le d⟩
  | cons first members ih =>
      obtain ⟨n, v⟩ := first
      obtain ⟨hfirst, hrest⟩ := Nat.max_le.1 hmembers
      simp only [insertMember]
      split
      · exact Nat.max_le.2 ⟨hvalue, hmembers⟩
      split
      · exact Nat.max_le.2 ⟨hvalue, hrest⟩
      · exact Nat.max_le.2 ⟨hfirst, ih hrest⟩

/-- An object that is put together from canonical values is canonical. -/
theorem canonical_object {bindings : Members} (h : ∀ m ∈ bindings, Canonical m.2) :
    Canonical (object bindings) := by
  have hfold : ∀ (bs found : Members), (∀ m ∈ bs, Canonical m.2) → Increasing found →
      EverywhereMembers Sorted found →
      Canonical (.obj (bs.foldl (fun members m => insertMember m.1 m.2 members) found)) := by
    intro bs
    induction bs with
    | nil => exact fun found _ hsorted hfound => ⟨hsorted, hfound⟩
    | cons b bs ih =>
        intro found hbs hsorted hfound
        exact ih _ (fun m hm => hbs m (by simp [hm])) hsorted.insert_member
          (everywhere_insert_member hfound (hbs b (by simp)))
  exact hfold bindings [] h List.Pairwise.nil trivial

/-! ## Values that are read -/

/-- A scalar is canonical and nests nothing. -/
theorem canonical_of_scalar? {s : Scalar} {v : Json} (h : ofScalar? s = some v) :
    Canonical v ∧ depth v = 0 := by
  cases s with
  | null | bool =>
      cases h
      exact ⟨trivial, rfl⟩
  | number n =>
      obtain ⟨_, _, rfl⟩ := Option.map_eq_some_iff.1 h
      exact ⟨trivial, rfl⟩
  | text s =>
      obtain ⟨_, _, rfl⟩ := Option.map_eq_some_iff.1 h
      exact ⟨trivial, rfl⟩

mutual

/-- The value of a tree is canonical and nests as far as it may. -/
theorem canonical_of_tree? (d : Nat) (t : Tree) {v : Json} (h : ofTree? d t = some v) :
    Canonical v ∧ depth v ≤ d := by
  cases t with
  | scalar s =>
      obtain ⟨hcanonical, hdepth⟩ := canonical_of_scalar? h
      exact ⟨hcanonical, hdepth ▸ Nat.zero_le d⟩
  | array items =>
      cases d with
      | zero => cases h
      | succ d =>
          obtain ⟨vs, hvs, rfl⟩ := Option.map_eq_some_iff.1 h
          obtain ⟨hcanonical, hdepth⟩ := canonical_of_trees? d items hvs
          exact ⟨⟨trivial, hcanonical⟩, Nat.succ_le_succ hdepth⟩
  | object members =>
      cases d with
      | zero => cases h
      | succ d =>
          obtain ⟨ms, hms, rfl⟩ := Option.map_eq_some_iff.1 h
          obtain ⟨hsorted, hcanonical, hdepth⟩ := canonical_of_members? d [] members
            List.Pairwise.nil trivial (Nat.zero_le d) hms
          exact ⟨⟨hsorted, hcanonical⟩, Nat.succ_le_succ hdepth⟩

/-- The values of trees are canonical and nest as far as they may. -/
theorem canonical_of_trees? (d : Nat) (ts : List Tree) {vs : List Json}
    (h : ofTrees? d ts = some vs) : EverywhereItems Sorted vs ∧ depthItems vs ≤ d := by
  cases ts with
  | nil =>
      cases h
      exact ⟨trivial, Nat.zero_le d⟩
  | cons t ts =>
      simp only [ofTrees?] at h
      split at h
      · cases h
      next v hv =>
        obtain ⟨vs, hvs, rfl⟩ := Option.map_eq_some_iff.1 h
        obtain ⟨hfirst, hfirstDepth⟩ := canonical_of_tree? d t hv
        obtain ⟨hrest, hrestDepth⟩ := canonical_of_trees? d ts hvs
        exact ⟨⟨hfirst, hrest⟩, Nat.max_le.2 ⟨hfirstDepth, hrestDepth⟩⟩

/-- The members that trees leave are in order and canonical, and nest as far as they may. -/
theorem canonical_of_members? (d : Nat) (found : Members) (ts : List (Option String × Tree))
    (hsorted : Increasing found) (hfound : EverywhereMembers Sorted found)
    (hdepth : depthMembers found ≤ d) {ms : Members} (h : ofMembers? d found ts = some ms) :
    Increasing ms ∧ EverywhereMembers Sorted ms ∧ depthMembers ms ≤ d := by
  cases ts with
  | nil =>
      cases h
      exact ⟨hsorted, hfound, hdepth⟩
  | cons t ts =>
      obtain ⟨name, t⟩ := t
      cases name with
      | none => cases h
      | some name =>
          simp only [ofMembers?] at h
          split at h
          · cases h
          next v hv =>
            obtain ⟨hvalue, hvalueDepth⟩ := canonical_of_tree? d t hv
            exact canonical_of_members? d _ ts hsorted.insert_member
              (everywhere_insert_member hfound hvalue)
              (depth_insert_member_le hdepth hvalueDepth) h

end

/-- A value that is read is canonical and nests no deeper than the reader allows. -/
theorem canonical_of_bytes? {bytes : List UInt8} {v : Json} (h : ofBytes? bytes = some v) :
    Canonical v ∧ depth v ≤ depthLimit := by
  obtain ⟨t, _, ht⟩ := Option.bind_eq_some_iff.1 h
  exact canonical_of_tree? depthLimit t ht

end LintWatch.Json
