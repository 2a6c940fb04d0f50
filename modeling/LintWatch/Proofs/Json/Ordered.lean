import LintWatch.Proofs.Json.Access
import LintWatch.Proofs.Json.Canonical
import Mathlib.Data.List.Nodup

/-!
# Members in order

Members that are in order of their names are known by what is found under each name
(`Increasing.ext`), so objects are compared name by name.
-/

namespace LintWatch.Json

variable {name : String} {value : Json} {members others : Members}

namespace Increasing

/-- A member is found under its name. -/
theorem lookup_eq_some_iff (h : Increasing members) :
    lookupMember name members = some value ↔ (name, value) ∈ members := by
  induction members with
  | nil => exact iff_of_false nofun List.not_mem_nil
  | cons first members ih =>
      obtain ⟨n, v⟩ := first
      obtain ⟨hfirst, hrest⟩ := List.pairwise_cons.1 h
      rw [lookup_cons, List.mem_cons, Prod.mk.injEq]
      by_cases hname : name = n
      · subst hname
        have hother : (name, value) ∉ members := fun hmem =>
          String.lt_irrefl name (hfirst (name, value) hmem)
        rw [if_pos rfl, Option.some.injEq]
        simp [hother, eq_comm]
      · rw [if_neg hname, ih hrest]
        simp [hname]

/-- Members in order are the same if the same is found under each name. -/
theorem ext (h : Increasing members) (hothers : Increasing others)
    (hlookup : ∀ name, lookupMember name members = lookupMember name others) :
    members = others := by
  have hnodup {ms : Members} (hms : Increasing ms) : ms.Nodup := by
    refine hms.imp ?_
    rintro m _ hlt rfl
    exact String.lt_irrefl _ hlt
  have hperm : members.Perm others := by
    refine (List.perm_ext_iff_of_nodup (hnodup h) (hnodup hothers)).2 ?_
    rintro ⟨name, value⟩
    rw [← h.lookup_eq_some_iff, ← hothers.lookup_eq_some_iff, hlookup]
  exact hperm.eq_of_pairwise (fun _ _ _ _ hlt hgt => absurd hgt (String.lt_asymm hlt)) h hothers

/-- Bindings that are inserted keep the order. -/
theorem foldl_insert (h : Increasing members) (bindings : Members) :
    Increasing (bindings.foldl (fun members (n, v) => insertMember n v members) members) :=
  List.foldlRecOn bindings _ h fun _ hfound _ _ => hfound.insert_member

/-- Bindings that come after members in order go behind them. -/
theorem foldl_insert_append {found : Members} (h : Increasing (found ++ members)) :
    members.foldl (fun members (n, v) => insertMember n v members) found = found ++ members := by
  induction members generalizing found with
  | nil => exact (List.append_nil found).symm
  | cons m members ih =>
      obtain ⟨n, v⟩ := m
      have hlast : ∀ m ∈ found, m.1 < n := fun m hm =>
        (List.pairwise_append.1 h).2.2 m hm (n, v) List.mem_cons_self
      rw [List.append_cons] at h
      show members.foldl _ (insertMember n v found) = found ++ (n, v) :: members
      rw [insert_member_of_lt hlast, ih h, ← List.append_cons]

/-- Bindings in order are the members that they leave. -/
theorem members_of_list (h : Increasing members) : membersOfList members = members :=
  @foldl_insert_append members [] h

/-- Members of which each is changed or left out stay in order. -/
theorem filter_map (h : Increasing members) (change : String → Json → Option Json) :
    Increasing (members.filterMap fun m => (change m.1 m.2).map (m.1, ·)) := by
  refine h.filterMap _ ?_
  rintro ⟨a, v⟩ ⟨b, w⟩ hlt m hm n hn
  obtain ⟨_, -, rfl⟩ := Option.map_eq_some_iff.1 hm
  obtain ⟨_, -, rfl⟩ := Option.map_eq_some_iff.1 hn
  exact hlt

/-- Under a name there is what has become of what was there. -/
theorem lookup_filter_map (h : Increasing members) (change : String → Json → Option Json) :
    lookupMember name (members.filterMap fun m => (change m.1 m.2).map (m.1, ·))
      = (lookupMember name members).bind (change name) := by
  refine Option.ext fun value => ?_
  rw [(h.filter_map change).lookup_eq_some_iff, Option.bind_eq_some_iff, List.mem_filterMap]
  constructor
  · rintro ⟨⟨n, v⟩, hmem, hm⟩
    obtain ⟨w, hw, heq⟩ := Option.map_eq_some_iff.1 hm
    obtain ⟨rfl, rfl⟩ := Prod.mk.inj heq
    exact ⟨v, h.lookup_eq_some_iff.2 hmem, hw⟩
  · rintro ⟨v, hv, hchange⟩
    exact ⟨(name, v), h.lookup_eq_some_iff.1 hv, by simp [hchange]⟩

end Increasing

end LintWatch.Json
