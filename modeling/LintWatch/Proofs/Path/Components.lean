import LintWatch.Path.Basic
import Mathlib.Data.List.Induction

/-!
# Components of paths

What spelling components and reading them back amounts to, and what resolving a path does.
`resolve` is the meaning of `.` and `..` at its plainest: a `..` takes away the component in front
of it and nothing at the root. `Path.normalize` lets a `..` at the root take away the root itself;
`alongside_of_absolute` says that it does the same otherwise, and `resolve_prefix_of_normalize` that
this does not matter to whether a path lies in another one.
-/

namespace LintWatch.Path

/-! ## Parts between slashes -/

/-- There is always a part. -/
theorem split_ne_nil (bytes : List UInt8) : split bytes ≠ [] := by
  cases bytes with
  | nil => simp [split]
  | cons b rest =>
      simp only [split]
      split
      · simp
      · split <;> simp

/-- The parts of two spellings with a slash between them are those of both. -/
theorem split_append_slash (a b : List UInt8) : split (a ++ slash :: b) = split a ++ split b := by
  induction a with
  | nil =>
      obtain ⟨part, parts, hparts⟩ := List.exists_cons_of_ne_nil (split_ne_nil b)
      simp [split, hparts]
  | cons c a ih =>
      obtain ⟨part, parts, hparts⟩ := List.exists_cons_of_ne_nil (split_ne_nil a)
      rw [hparts, List.cons_append] at ih
      simp only [List.cons_append, split, ih, hparts]
      split <;> rfl

/-- A spelling without a slash is a part. -/
theorem split_of_not_mem {bytes : List UInt8} (h : slash ∉ bytes) : split bytes = [bytes] := by
  induction bytes with
  | nil => rfl
  | cons b rest ih =>
      simp only [List.mem_cons, not_or] at h
      simp only [split, ih h.2, if_neg (Ne.symm h.1)]

/-- No part has a slash in it. -/
theorem not_mem_of_mem_split {bytes part : List UInt8} (h : part ∈ split bytes) :
    slash ∉ part := by
  induction bytes generalizing part with
  | nil =>
      obtain rfl : part = [] := by simpa [split] using h
      simp
  | cons b rest ih =>
      obtain ⟨first, parts, hparts⟩ := List.exists_cons_of_ne_nil (split_ne_nil rest)
      simp only [split, hparts] at h ih
      split at h
      next => rcases List.mem_cons.1 h with rfl | h <;> [simp; exact ih h]
      next hb =>
        rcases List.mem_cons.1 h with rfl | h
        · simp only [List.mem_cons, not_or]
          exact ⟨Ne.symm hb, ih (by simp)⟩
        · exact ih (by simp [h])

/-! ## Names -/

/-- A name that a component can have: it is a part of its own that means just this name. -/
structure IsName (bytes : List UInt8) : Prop where
  slash_not_mem : slash ∉ bytes
  component : componentOfPart? bytes = some (.name bytes)

namespace IsName

variable {bytes : List UInt8}

/-- A name is not `.`. -/
theorem ne_dot (h : IsName bytes) : bytes ≠ [dot] := by
  rintro rfl
  simpa [componentOfPart?] using h.component

/-- A name is not `..`. -/
theorem ne_dots (h : IsName bytes) : bytes ≠ [dot, dot] := by
  rintro rfl
  simpa [componentOfPart?] using h.component

/-- A name is not empty. -/
theorem ne_nil (h : IsName bytes) : bytes ≠ [] := by
  rintro rfl
  simpa [componentOfPart?] using h.component

/-- A name does not start at the root. -/
theorem not_absolute (h : IsName bytes) : isAbsolute ⟨bytes⟩ = false := by
  cases bytes with
  | nil => rfl
  | cons b rest =>
      have hb : b ≠ slash := fun hb => h.slash_not_mem (by simp [hb])
      simp [Path.isAbsolute, hb]

end IsName

/-- A part that means something is `..` or a name. -/
theorem parent_or_name_of_part {part : List UInt8} {c : Component}
    (h : componentOfPart? part = some c) : c = .parent ∨ c = .name part := by
  unfold componentOfPart? at h
  split at h
  · cases h
  split at h
  · exact Or.inl (Option.some.inj h).symm
  · exact Or.inr (Option.some.inj h).symm

/-- The names among the components of a path are names. -/
theorem is_name_of_mem_components {p : Path} {bytes : List UInt8}
    (h : .name bytes ∈ p.components) : IsName bytes := by
  rw [components, List.mem_append] at h
  rcases h with h | h
  · simp only [front] at h
    split at h
    · simp at h
    · split at h <;> simp at h
  · obtain ⟨part, hpart, hmeans⟩ := List.mem_filterMap.1 h
    rcases parent_or_name_of_part hmeans with hparent | hname
    · cases hparent
    · obtain rfl : bytes = part := Component.name.inj hname
      exact ⟨not_mem_of_mem_split hpart, hmeans⟩

/-! ## Spelling components -/

/-- What follows a slash does not change how a spelling starts. -/
theorem front_append_slash (a b : List UInt8) :
    front ⟨a ++ slash :: b⟩ = front ⟨a ++ [slash]⟩ := by
  have hhead : ∀ c : List UInt8, (split (a ++ slash :: c)).head? = (split a).head? := by
    intro c
    obtain ⟨part, parts, hparts⟩ := List.exists_cons_of_ne_nil (split_ne_nil a)
    rw [split_append_slash, hparts, List.cons_append, List.head?_cons, List.head?_cons]
  have habsolute : isAbsolute ⟨a ++ slash :: b⟩ = isAbsolute ⟨a ++ [slash]⟩ := by
    cases a <;> rfl
  simp only [front, habsolute, hhead]

/-- A slash at the end of a spelling means nothing, unless it is all of it. -/
theorem components_concat_slash {a : List UInt8} (h : a ≠ []) :
    components ⟨a ++ [slash]⟩ = components ⟨a⟩ := by
  obtain ⟨c, a, rfl⟩ := List.exists_cons_of_ne_nil h
  obtain ⟨part, parts, hparts⟩ := List.exists_cons_of_ne_nil (split_ne_nil (c :: a))
  have hsplit : split (c :: (a ++ [slash])) = part :: (parts ++ [[]]) := by
    rw [← List.cons_append, split_append_slash, hparts]
    rfl
  have hfront : front ⟨c :: (a ++ [slash])⟩ = front ⟨c :: a⟩ := by
    unfold front
    rw [hsplit, hparts]
    rfl
  rw [List.cons_append, components, components, hfront, hsplit, hparts, ← List.cons_append,
    List.filterMap_append]
  simp [componentOfPart?]

/-- What follows a slash adds what its parts mean to the components. -/
theorem components_append_slash (a b : List UInt8) :
    components ⟨a ++ slash :: b⟩
      = components ⟨a ++ [slash]⟩ ++ (split b).filterMap componentOfPart? := by
  rw [components, components, front_append_slash, split_append_slash, split_append_slash]
  simp [split, componentOfPart?]

/-- A name by itself is its only component. -/
theorem components_name {bytes : List UInt8} (h : IsName bytes) :
    components ⟨bytes⟩ = [.name bytes] := by
  simp [components, front, h.not_absolute, split_of_not_mem h.slash_not_mem, h.ne_dot, h.component]

/-- Going to a name adds it to the components. -/
theorem components_join_name (p : Path) {bytes : List UInt8} (h : IsName bytes) :
    (p.join ⟨bytes⟩).components = p.components ++ [.name bytes] := by
  have hparts : (split bytes).filterMap componentOfPart? = [.name bytes] := by
    simp [split_of_not_mem h.slash_not_mem, h.component]
  obtain ⟨base⟩ := p
  simp only [join, h.not_absolute, Bool.false_eq_true, if_false]
  split
  next hbase =>
    rcases hbase with rfl | hlast
    · rw [List.nil_append, components_name h]
      rfl
    · obtain ⟨base, rfl⟩ := List.getLast?_eq_some_iff.1 hlast
      rw [List.append_assoc, List.singleton_append, components_append_slash, hparts]
  next hbase =>
    rw [components_append_slash, hparts, components_concat_slash (fun h => hbase (Or.inl h))]

/-- Components that a path can have when nothing in it is left to resolve: names, with or without
the root in front. -/
def Plain (cs : List Component) : Prop :=
  ∃ names : List (List UInt8), (cs = names.map .name ∨ cs = .root :: names.map .name) ∧
    ∀ n ∈ names, IsName n

/-- Going to one name after the other adds them to the components. -/
theorem components_foldl_join {names : List (List UInt8)} (h : ∀ n ∈ names, IsName n) (p : Path) :
    ((names.map Component.name).foldl (fun p c => p.join ⟨c.bytes⟩) p).components
      = p.components ++ names.map .name := by
  induction names generalizing p with
  | nil => simp
  | cons n names ih =>
      have hn : IsName n := h n (by simp)
      rw [List.map_cons, List.foldl_cons, ih (fun m hm => h m (by simp [hm])) _]
      show (p.join ⟨n⟩).components ++ _ = _
      rw [components_join_name p hn, List.append_assoc, List.singleton_append]

/-- Plain components that are spelled read back. -/
theorem components_of_components {cs : List Component} (h : Plain cs) :
    (ofComponents cs).components = cs := by
  obtain ⟨names, rfl | rfl, hnames⟩ := h
  · exact components_foldl_join hnames ⟨[]⟩
  · exact components_foldl_join hnames ⟨[slash]⟩

/-- Names with a slash in front of each, and one behind them, spell the root and the names. -/
theorem components_flat_map_slash {names : List (List UInt8)} (h : ∀ n ∈ names, IsName n) :
    components ⟨names.flatMap (slash :: ·) ++ [slash]⟩ = .root :: names.map .name := by
  induction names using List.reverseRecOn with
  | nil => rfl
  | append_singleton init n ih =>
      have hn : IsName n := h n (by simp)
      have hparts : (split n).filterMap componentOfPart? = [.name n] := by
        simp [split_of_not_mem hn.slash_not_mem, hn.component]
      have hspelled : (init ++ [n]).flatMap (slash :: ·)
          = init.flatMap (slash :: ·) ++ slash :: n := by
        simp
      rw [hspelled, components_concat_slash (by simp), components_append_slash, hparts,
        ih fun m hm => h m (by simp [hm])]
      simp

/-! ## Resolving -/

/-- One component more on the way: `.` stays and `..` takes away the last component, but not the
root. -/
def resolveStep (out : List Component) : Component → List Component
  | .parent => if out = [.root] then out else out.dropLast
  | .current => out
  | c => out ++ [c]

/-- The components of a path with `.` and `..` resolved. -/
def resolve (p : Path) : List Component :=
  p.components.foldl resolveStep []

/-- One component more on the way, where `..` takes away the root too. -/
def normalizeStep (out : List Component) : Component → List Component
  | .parent => out.dropLast
  | .current => out
  | c => out ++ [c]

/-- Normalizing spells what comes of going through the components. -/
theorem normalize_eq (p : Path) :
    p.normalize = ofComponents (p.components.foldl normalizeStep []) :=
  rfl

/-- What normalizing has come to, `out`, is what resolving has come to, but for the root. -/
structure Alongside (out resolved : List Component) (names : List (List UInt8)) : Prop where
  resolved_eq : resolved = .root :: names.map .name
  out_eq : out = .root :: names.map .name ∨ out = names.map .name
  isName : ∀ n ∈ names, IsName n

/-- Normalizing and resolving stay alongside each other. -/
theorem Alongside.step {out resolved : List Component} {names : List (List UInt8)}
    (h : Alongside out resolved names) {c : Component} (hroot : c ≠ .root)
    (hname : ∀ n, c = .name n → IsName n) :
    ∃ names', Alongside (normalizeStep out c) (resolveStep resolved c) names' := by
  obtain ⟨rfl, hout, hnames⟩ := h
  cases c with
  | root => exact absurd rfl hroot
  | current => exact ⟨names, rfl, hout, hnames⟩
  | name n =>
      refine ⟨names ++ [n], ?_, ?_, ?_⟩
      · simp [resolveStep]
      · rcases hout with rfl | rfl <;> simp [normalizeStep]
      · intro m hm
        rcases List.mem_append.1 hm with hm | hm
        · exact hnames m hm
        · exact hname m (by simp [List.mem_singleton.1 hm])
  | parent =>
      -- Without names a `..` leaves the resolved path alone and may cost the other one its root,
      -- which is why `out` is known only up to the root.
      refine ⟨names.dropLast, ?_, ?_, fun m hm => hnames m (List.dropLast_subset _ hm)⟩
      · rcases List.eq_nil_or_concat names with rfl | ⟨init, last, rfl⟩
        · rfl
        · simp [resolveStep, List.dropLast_cons_of_ne_nil]
      · rcases List.eq_nil_or_concat names with rfl | ⟨init, last, rfl⟩
        · rcases hout with rfl | rfl <;> simp [normalizeStep]
        · rcases hout with rfl | rfl <;>
            simp [normalizeStep, List.dropLast_cons_of_ne_nil]

/-- Normalizing and resolving are alongside each other after any components but the root. -/
theorem Alongside.foldl {cs : List Component} (hroot : .root ∉ cs)
    (hname : ∀ n, .name n ∈ cs → IsName n) {out resolved : List Component}
    {names : List (List UInt8)} (h : Alongside out resolved names) :
    ∃ names', Alongside (cs.foldl normalizeStep out) (cs.foldl resolveStep resolved) names' := by
  induction cs generalizing out resolved names with
  | nil => exact ⟨names, h⟩
  | cons c cs ih =>
      simp only [List.mem_cons, not_or] at hroot hname
      obtain ⟨names', hnext⟩ := h.step (Ne.symm hroot.1) fun n hn => hname n (Or.inl hn.symm)
      exact ih hroot.2 (fun n hn => hname n (Or.inr hn)) hnext

/-- An absolute path starts with the root, which does not come again. -/
theorem components_of_absolute {p : Path} (h : p.isAbsolute = true) :
    ∃ cs, p.components = .root :: cs ∧ .root ∉ cs := by
  refine ⟨(split p.bytes).filterMap componentOfPart?, by simp [components, front, h], ?_⟩
  intro hmem
  obtain ⟨part, _, hmeans⟩ := List.mem_filterMap.1 hmem
  rcases parent_or_name_of_part hmeans with hparent | hname
  · cases hparent
  · cases hname

/-- An absolute path without `..` is the root and names. -/
theorem exists_names_of_absolute {p : Path} (h : p.isAbsolute = true)
    (hparent : .parent ∉ p.components) :
    ∃ names : List (List UInt8), p.components = .root :: names.map .name ∧
      ∀ n ∈ names, IsName n := by
  have hcs : p.components = .root :: (split p.bytes).filterMap componentOfPart? := by
    simp [components, front, h]
  have hname : ∀ c ∈ (split p.bytes).filterMap componentOfPart?, .name c.bytes = c := by
    intro c hc
    obtain ⟨part, -, hmeans⟩ := List.mem_filterMap.1 hc
    rcases parent_or_name_of_part hmeans with rfl | rfl
    · exact absurd (hcs ▸ List.mem_cons_of_mem _ hc) hparent
    · rfl
  refine ⟨((split p.bytes).filterMap componentOfPart?).map Component.bytes, ?_, ?_⟩
  · rw [hcs, List.map_map]
    have hmap := List.map_congr_left hname
    rw [List.map_id'] at hmap
    exact congrArg _ hmap.symm
  · intro n hn
    obtain ⟨c, hc, rfl⟩ := List.mem_map.1 hn
    refine is_name_of_mem_components (p := p) ?_
    rw [hname c hc, hcs]
    exact List.mem_cons_of_mem _ hc

/-- In an absolute path without `..` nothing is left to resolve. -/
theorem plain_of_absolute {p : Path} (h : p.isAbsolute = true) (hparent : .parent ∉ p.components) :
    Plain p.components := by
  obtain ⟨names, hcomponents, hnames⟩ := exists_names_of_absolute h hparent
  exact ⟨names, Or.inr hcomponents, hnames⟩

/-- Names are added one after the other. -/
theorem foldl_normalize_names (names : List (List UInt8)) (out : List Component) :
    (names.map Component.name).foldl normalizeStep out = out ++ names.map .name := by
  induction names generalizing out with
  | nil => simp
  | cons n names ih => rw [List.map_cons, List.foldl_cons, ih]; simp [normalizeStep]

/-- Going through components in which nothing is left to resolve leaves them as they are. -/
theorem foldl_normalize_of_plain {cs : List Component} (h : Plain cs) :
    cs.foldl normalizeStep [] = cs := by
  obtain ⟨names, rfl | rfl, -⟩ := h
  · rw [foldl_normalize_names, List.nil_append]
  · rw [List.foldl_cons, foldl_normalize_names]
    rfl

/-- Normalizing leaves components as they are when nothing in them is left to resolve. -/
theorem components_normalize_of_plain {p : Path} (h : Plain p.components) :
    p.normalize.components = p.components := by
  rw [normalize_eq, foldl_normalize_of_plain h, components_of_components h]

/-- What normalizing has come to is plain. -/
theorem Alongside.plain {out resolved : List Component} {names : List (List UInt8)}
    (h : Alongside out resolved names) : Plain out :=
  ⟨names, h.out_eq.symm, h.isName⟩

/-- Going through the components of an absolute path, normalizing and resolving come to the same
names. -/
theorem alongside_foldl_of_absolute {p : Path} (h : p.isAbsolute = true) :
    ∃ names, Alongside (p.components.foldl normalizeStep []) p.resolve names := by
  obtain ⟨cs, hcs, hroot⟩ := components_of_absolute h
  have hname : ∀ n, .name n ∈ cs → IsName n := fun n hn =>
    is_name_of_mem_components (p := p) (by rw [hcs]; exact List.mem_cons_of_mem _ hn)
  have hstart : Alongside [.root] [.root] [] := ⟨rfl, Or.inl rfl, by simp⟩
  rw [resolve, hcs]
  exact hstart.foldl hroot hname

/-- An absolute path resolves to the root and names; normalized it is the same, or the names
alone. -/
theorem alongside_of_absolute {p : Path} (h : p.isAbsolute = true) :
    ∃ names, Alongside p.normalize.components p.resolve names := by
  obtain ⟨names, hend⟩ := alongside_foldl_of_absolute h
  refine ⟨names, ?_⟩
  rw [normalize_eq, components_of_components hend.plain]
  exact hend

/-- Where a normalized path starts with another one, the resolved path does too. -/
theorem resolve_prefix_of_normalize {p base : Path} (hp : p.isAbsolute = true)
    (hbase : base.isAbsolute = true) (h : p.normalize.startsWith base.normalize = true) :
    base.resolve <+: p.resolve := by
  obtain ⟨names, hresolved, hnormal, -⟩ := alongside_of_absolute hp
  obtain ⟨baseNames, hbaseResolved, hbaseNormal, -⟩ := alongside_of_absolute hbase
  rw [startsWith_iff] at h
  rw [hresolved, hbaseResolved]
  rcases hnormal with hnormal | hnormal <;> rcases hbaseNormal with hbaseNormal | hbaseNormal <;>
    rw [hnormal, hbaseNormal] at h
  · exact h
  · -- Names can be in front of the root only if there are none.
    cases baseNames with
    | nil => simp
    | cons n baseNames => simp at h
  · cases names <;> simp at h
  · exact (List.prefix_cons_inj _).2 h

end LintWatch.Path
