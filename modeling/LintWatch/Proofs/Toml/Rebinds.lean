import LintWatch.Proofs.Toml.Below

/-!
# A name bound in one table

`Rebinds` says of statements that they are other statements with a name bound anew in one table:
whatever is blind to the name sees the same statements. Such statements mean the same but for that
name: `Rebinds.runAll`.
-/

namespace LintWatch.Toml

variable {table name n : String} {old new statements : List Statement} {s : Statement}
  {G : Statement → List Statement} {x : Data} {o? r? : Option Origin}

namespace Statement

/-- What a statement says about a name of a table. -/
def about (table n : String) (s : Statement) : List Statement :=
  if s.under table then s.below.filter (under n) else []

end Statement

/-- Something that looks at statements and sees none about a name of a table. -/
structure Blind (table name : String) (G : Statement → List Statement) : Prop where
  entry (names : List String) (v : Option Data) :
    [table, name] <+: names → G (.entry names v) = []
  within (isArray : Bool) (path : List String) (entries : List (List String × Option Data)) :
    [table, name] <+: path → G (.section isArray path entries) = []
  body : ∃ g : List String × Option Data → List Statement,
    (∀ said, [name] <+: said.1 → g said = []) ∧
      ∀ isArray entries, G (.section isArray [table] entries) = entries.flatMap g

/-- Statements with a name of a table bound to a value, and else as before. -/
structure Rebinds (table name : String) (x : Data) (old new : List Statement) : Prop where
  blind (G : Statement → List Statement) : Blind table name G → new.flatMap G = old.flatMap G
  keen : new.flatMap (Statement.about table name) = [.entry [name] (some x)]
  isTable : ∃ o, becomeAll (new.filter (Statement.under table)) none = some (some o)

/-! ## Looking at statements -/

/-- What satisfies a condition, one after the other. -/
theorem filter_eq_flatMap {α : Type} (p : α → Bool) (l : List α) :
    l.filter p = l.flatMap fun a => if p a then [a] else [] := by
  induction l with
  | nil => rfl
  | cons a l ih =>
      rw [List.flatMap_cons, ← ih]
      cases hp : p a with
      | true => rw [List.filter_cons_of_pos hp, if_pos rfl, List.singleton_append]
      | false =>
          rw [List.filter_cons_of_neg (by rw [hp]; decide), if_neg Bool.false_ne_true,
            List.nil_append]

/-- What statements say about a name of a table. -/
theorem filter_below_eq_flatMap (table n : String) (statements : List Statement) :
    ((statements.filter (Statement.under table)).flatMap Statement.below).filter
        (Statement.under n)
      = statements.flatMap (Statement.about table n) := by
  rw [List.filter_flatMap, filter_eq_flatMap, List.flatMap_assoc]
  refine List.flatMap_congr fun s _ => ?_
  unfold Statement.about
  split
  next => exact List.flatMap_singleton _ s
  next => rfl

/-- Whether the first name is a certain one. -/
theorem under_cons {first : String} {s : Statement} {names : List String}
    (h : s.names = first :: names) : s.under n = decide (first = n) := by
  unfold Statement.under
  rw [h]
  simp

/-- A statement is under the first of its names. -/
theorem under_head {first : String} {s : Statement} {names : List String}
    (h : s.names = first :: names) : s.under first = true :=
  (under_cons h).trans (decide_eq_true rfl)

/-- Statements under other names say nothing about a name of a table. -/
theorem blind_under (hn : n ≠ table) :
    Blind table name fun s => if s.under n then [s] else [] := by
  have hnone : ∀ s : Statement, ∀ rest, s.names = table :: rest →
      (if s.under n then [s] else []) = [] := by
    intro s rest hs
    rw [under_cons hs, if_neg]
    simpa using Ne.symm hn
  refine ⟨?_, ?_, fun _ => [], fun _ _ => rfl, ?_⟩
  · rintro names v ⟨rest, rfl⟩
    exact hnone _ _ rfl
  · rintro isArray path entries ⟨rest, rfl⟩
    exact hnone _ _ rfl
  · intro isArray entries
    rw [hnone _ [] rfl]
    exact (List.flatMap_eq_nil_iff.2 fun _ _ => rfl).symm

/-- What is said about other names of a table is not about a name. -/
theorem blind_about (hn : n ≠ name) : Blind table name (Statement.about table n) := by
  have hnone : ∀ s : Statement, ∀ rest, s.names = name :: rest →
      [s].filter (Statement.under n) = [] := by
    intro s rest hs
    refine List.filter_cons_of_neg ?_
    rw [under_cons hs]
    simpa using Ne.symm hn
  refine ⟨?_, ?_, fun said => [Statement.entry said.1 said.2].filter (Statement.under n), ?_, ?_⟩
  · rintro names v ⟨rest, rfl⟩
    unfold Statement.about
    split
    next => exact hnone (.entry (name :: rest) v) rest rfl
    next => rfl
  · rintro isArray path entries ⟨rest, rfl⟩
    unfold Statement.about
    split
    next => cases isArray <;> exact hnone (.section _ (name :: rest) entries) rest rfl
    next => rfl
  · rintro ⟨names, v⟩ ⟨rest, rfl⟩
    exact hnone (.entry (name :: rest) v) rest rfl
  · intro isArray entries
    have hunder : (Statement.section isArray [table] entries).under table = true := under_head rfl
    unfold Statement.about
    rw [if_pos hunder]
    have hbelow : (Statement.section isArray [table] entries).below = Statement.ofSaid entries := by
      cases isArray <;> rfl
    rw [hbelow, Statement.ofSaid, ← List.flatMap_singleton' (List.map _ entries), List.flatMap_map,
      List.filter_flatMap]

/-! ## What statements mean -/

/-- A statement whose key has a name, and the keys of whose entries have. -/
def Statement.WellNamed : Statement → Prop
  | .entry names _ => names ≠ []
  | .section _ path entries => path ≠ [] ∧ ∀ said ∈ entries, said.1 ≠ []

/-- The key of a statement has a name. -/
theorem Statement.WellNamed.names_ne_nil (h : s.WellNamed) : s.names ≠ [] := by
  cases s with
  | entry names v => exact h
  | «section» isArray path entries => exact h.1

/-- What is said about a table says it under some name, when it leaves the table there. -/
theorem names_below {o : Origin} (hs : s.WellNamed) (hbecome : s.become o? = some o) :
    ∀ b ∈ s.below, b.names ≠ [] := by
  intro b hb
  cases s with
  | entry names v =>
      cases names with
      | nil => exact absurd rfl hs
      | cons first names =>
          obtain rfl := List.mem_singleton.1 hb
          intro hnil
          obtain rfl : names = [] := hnil
          cases hbecome
  | «section» isArray path entries =>
      cases path with
      | nil => exact absurd rfl hs.1
      | cons first path =>
          cases path with
          | nil =>
              have hmem : b ∈ Statement.ofSaid entries := by
                cases isArray <;> exact hb
              obtain ⟨said, hsaid, rfl⟩ := List.mem_map.1 hmem
              exact hs.2 said hsaid
          | cons next path =>
              have hmem : b ∈ [Statement.section isArray (next :: path) entries] := by
                cases isArray <;> exact hb
              obtain rfl := List.mem_singleton.1 hmem
              exact List.cons_ne_nil next path

/-- One statement, and those behind it. -/
theorem becomeAll_cons (s : Statement) (statements : List Statement) (o? : Option Origin) :
    becomeAll (s :: statements) o?
      = (s.become o?).bind fun o => becomeAll statements (some o) := by
  unfold becomeAll
  rw [List.foldlM_cons, Option.bind_eq_bind, Option.bind_map]
  rfl

/-- Statements behind statements. -/
theorem becomeAll_append (statements more : List Statement) (o? : Option Origin) :
    becomeAll (statements ++ more) o? = (becomeAll statements o?).bind (becomeAll more) := by
  unfold becomeAll
  rw [List.foldlM_append]
  rfl

/-- What is said about a table says it under some name. -/
theorem names_below_of_becomeAll (hnames : ∀ s ∈ statements, s.WellNamed)
    (h : becomeAll statements o? = some r?) :
    ∀ b ∈ statements.flatMap Statement.below, b.names ≠ [] := by
  induction statements generalizing o? with
  | nil => exact fun b hb => nomatch hb
  | cons s statements ih =>
      obtain ⟨hs, hrest⟩ := List.forall_mem_cons.1 hnames
      rw [becomeAll_cons] at h
      obtain ⟨o, hbecome, h⟩ := Option.bind_eq_some_iff.1 h
      rw [List.flatMap_cons]
      exact List.forall_mem_append.2 ⟨names_below hs hbecome, ih hrest h⟩

/-- Fields with a name of a table bound to a value, and else as before. A table that was not there
is new. -/
structure Fields.Rebound (table name : String) (x : Data) (old new : Fields) : Prop where
  others (n : String) : n ≠ table → new.lookup n = old.lookup n
  isTable : ∃ before after o, new.lookup table = some (.table o after) ∧
    (old.lookup table = none ∧ before = [] ∨ ∃ o, old.lookup table = some (.table o before)) ∧
    after.lookup name = some (.value x) ∧ ∀ n, n ≠ name → after.lookup n = before.lookup n

/-- Statements with a name of a table bound anew mean the same but for that name. -/
theorem Rebinds.runAll {r : Fields} (h : Rebinds table name x old new)
    (hnames : ∀ s ∈ new, s.WellNamed) (hold : Toml.runAll old [] = some r)
    (htable : r.lookup table = none ∨ ∃ o before, r.lookup table = some (.table o before)) :
    ∃ r', Toml.runAll new [] = some r' ∧ Fields.Rebound table name x r r' := by
  have hothers : ∀ n, n ≠ table →
      new.filter (Statement.under n) = old.filter (Statement.under n) := by
    intro n hn
    rw [filter_eq_flatMap, filter_eq_flatMap]
    exact h.blind _ (blind_under hn)
  have hwell : ∀ s ∈ new.filter (Statement.under table), s.WellNamed :=
    fun s hs => hnames s (List.mem_filter.1 hs).1
  have hat : runAt (old.filter (Statement.under table)) none = some (r.lookup table) :=
    lookup_runAll hold table
  -- What stood in the table, if there was one.
  obtain ⟨before, hbefore, hinner⟩ : ∃ before,
      (r.lookup table = none ∧ before = [] ∨ ∃ o, r.lookup table = some (.table o before)) ∧
        Toml.runAll ((old.filter (Statement.under table)).flatMap Statement.below) []
          = some before := by
    rcases htable with hnone | ⟨o, before, hsome⟩
    · rw [hnone] at hat
      rw [eq_nil_of_runAt hat]
      exact ⟨[], Or.inl ⟨hnone, rfl⟩, rfl⟩
    · rw [hsome] at hat
      exact ⟨before, Or.inr ⟨o, hsome⟩, ((runAt_under table).1 hat).2⟩
  obtain ⟨o, hbecome⟩ := h.isTable
  obtain ⟨after, hafter, hname, hrest⟩ := runAll_change hinner
    (names_below_of_becomeAll hwell hbecome) (fun n hn => by
      rw [filter_below_eq_flatMap, filter_below_eq_flatMap]
      exact h.blind _ (blind_about hn)) (by
      rw [filter_below_eq_flatMap, h.keen]
      rfl)
  have hnew : runAt (new.filter (Statement.under table)) none = some (some (.table o after)) :=
    (runAt_under table).2 ⟨hbecome, hafter⟩
  obtain ⟨r', hr', hlookup, hsame⟩ := runAll_change hold (fun s hs => (hnames s hs).names_ne_nil)
    hothers hnew
  exact ⟨r', hr', hsame, before, after, o, hlookup, hbefore, hname, hrest⟩

end LintWatch.Toml
