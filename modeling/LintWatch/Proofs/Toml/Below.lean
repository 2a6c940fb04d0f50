import LintWatch.Proofs.Toml.Statement

/-!
# Statements of a table in the document

Where statements under a name leave a table there, they do to the table what they say about it, and
how the table has come into being follows from their form alone: `runAt_table`. A value stands under
a name only if one statement binds the name to it (`eq_singleton_of_runAt`), and nothing only if no
statement stands under the name (`eq_nil_of_runAt`).
-/

namespace LintWatch.Toml

namespace Statement

/-- What a statement under a name says about the table there. -/
def below : Statement → List Statement
  | entry (_ :: names) v => [entry names v]
  | «section» _ [_] entries => ofSaid entries
  | «section» isArray (_ :: path) entries => [«section» isArray path entries]
  | _ => []

/-- How the table under a name has come into being, when a statement under it leaves a table
there. -/
def become : Statement → Option Origin → Option Origin
  | entry [_] _, _ => none
  | entry _ _, none => some .dotted
  | entry _ _, some (.section _) => none
  | entry names _, some o => some (if names.length = 2 then o.extend else o)
  | «section» true [_] _, _ => none
  | «section» false [_] _, none => some (.section 0)
  | «section» false [_] _, some .implied => some (.section 0)
  | «section» false [_] _, some _ => none
  | «section» _ _ _, o? => some (o?.getD .implied)

end Statement

/-- How the table under a name has come into being after statements under it. -/
def becomeAll (statements : List Statement) (o? : Option Origin) : Option (Option Origin) :=
  statements.foldlM (fun o? s => (s.become o?).map some) o?

variable {s : Statement} {statements : List Statement} {o? : Option Origin} {inner : Fields}

/-- A statement that leaves a table under its first name does to the table what it says about
it. -/
theorem at?_table {o : Origin} (hs : s.names ≠ []) (hbecome : s.become o? = some o)
    (hnone : o? = none → inner = []) :
    s.at? (o?.map (.table · inner)) = (runAll s.below inner).map (.table o) := by
  cases s with
  | entry names v =>
      cases names with
      | nil => exact absurd rfl hs
      | cons first names =>
          cases names with
          | nil => cases hbecome
          | cons next names =>
              have hrun : runAll (Statement.below (.entry (first :: next :: names) v)) inner
                  = v.bind fun d => bind (.value d) (next :: names) inner :=
                runAll_singleton _ inner
              have hat : ∀ d, bindAt (.value d) (next :: names) (o?.map (.table · inner))
                  = (bind (.value d) (next :: names) inner).map (.table o) := by
                intro d
                cases o? with
                | none =>
                    obtain rfl := hnone rfl
                    obtain rfl := Option.some.inj hbecome
                    rfl
                | some o' =>
                    have hlength : (first :: next :: names).length = 2
                        ↔ (next :: names).length = 1 := by
                      simp only [List.length_cons]
                      omega
                    cases o' with
                    | «section» place => cases hbecome
                    | implied =>
                        simp only [Statement.become, hlength, Option.some.injEq] at hbecome
                        subst hbecome
                        rfl
                    | extended =>
                        simp only [Statement.become, hlength, Option.some.injEq] at hbecome
                        subst hbecome
                        rfl
                    | dotted =>
                        simp only [Statement.become, hlength, Option.some.injEq] at hbecome
                        subst hbecome
                        rfl
              rw [hrun, Option.map_bind]
              exact Option.bind_congr fun d _ => hat d
  | «section» isArray path entries =>
      cases path with
      | nil => exact absurd rfl hs
      | cons first path =>
          cases path with
          | nil =>
              show (beginAt isArray _).bind _ = (runAll (Statement.ofSaid entries) inner).map _
              rw [runAll_ofSaid]
              cases isArray with
              | true => cases hbecome
              | false =>
                  cases o? with
                  | none =>
                      obtain rfl := hnone rfl
                      obtain rfl := Option.some.inj hbecome
                      rfl
                  | some o' =>
                      cases o' with
                      | implied =>
                          obtain rfl := Option.some.inj hbecome
                          rfl
                      | «section» place => cases hbecome
                      | extended => cases hbecome
                      | dotted => cases hbecome
          | cons next path =>
              have hrun :
                  runAll (Statement.below (.section isArray (first :: next :: path) entries))
                  inner = (Statement.section isArray (next :: path) entries).run inner := by
                cases isArray <;> exact runAll_singleton _ inner
              have ho : o = o?.getD .implied := by
                cases isArray <;> exact (Option.some.inj hbecome).symm
              rw [hrun, ho]
              cases o? with
              | none =>
                  obtain rfl := hnone rfl
                  rfl
              | some o' => rfl

/-- Whether a table stands there that is no element of an array. -/
def Node.IsTable (v : Node) : Prop :=
  ∃ o inner, v = .table o inner

/-- What is done to the table under a name leaves a table only where one was, or nothing. -/
theorem descend_keeps {f : Fields → Option Fields} {v w : Node} (hv : ¬ v.IsTable)
    (h : descend f (some v) = some w) : ¬ w.IsTable := by
  rintro ⟨o, inner, rfl⟩
  cases v with
  | value d => cases h
  | table o' fs => exact hv ⟨o', fs, rfl⟩
  | tables elements =>
      cases elements with
      | nil => cases h
      | cons element before =>
          obtain ⟨fs, -, heq⟩ := Option.map_eq_some_iff.1 h
          cases heq

/-- A statement makes no table of what is none. -/
theorem at?_keeps {v w : Node} (hv : ¬ v.IsTable) (h : s.at? (some v) = some w) :
    ¬ w.IsTable := by
  cases s with
  | entry names value =>
      cases names with
      | nil => cases h
      | cons first names =>
          obtain ⟨d, -, hbind⟩ := Option.bind_eq_some_iff.1 h
          cases names with
          | nil => cases hbind
          | cons next names =>
              cases v with
              | value d' => cases hbind
              | tables elements => cases hbind
              | table o fs => exact absurd ⟨o, fs, rfl⟩ hv
  | «section» isArray path entries =>
      cases path with
      | nil => cases h
      | cons first path =>
          cases path with
          | nil =>
              obtain ⟨v', hbegin, hentries⟩ := Option.bind_eq_some_iff.1 h
              refine descend_keeps ?_ hentries
              rintro ⟨o, inner, rfl⟩
              cases v with
              | value d => cases isArray <;> cases hbegin
              | table o' fs => exact hv ⟨o', fs, rfl⟩
              | tables elements => cases isArray <;> cases hbegin
          | cons next path =>
              have hdescend : descend ((Statement.section isArray (next :: path) entries).run)
                  (some v) = some w := by
                cases isArray <;> exact h
              exact descend_keeps hv hdescend

/-- Statements make no table of what is none. -/
theorem runAt_keeps {v : Node} {x : Option Node} (hv : ¬ v.IsTable)
    (h : runAt statements (some v) = some x) : ∃ w, x = some w ∧ ¬ w.IsTable := by
  induction statements generalizing v with
  | nil =>
      obtain rfl := Option.some.inj h
      exact ⟨v, rfl, hv⟩
  | cons s statements ih =>
      rw [runAt_cons] at h
      obtain ⟨w, hw, hrest⟩ := Option.bind_eq_some_iff.1 h
      exact ih (at?_keeps hv hw) hrest

/-- A statement that does not leave a table under its first name leaves something else, or can not
stand there. -/
theorem at?_no_table {v : Node} (hbecome : s.become o? = none)
    (h : s.at? (o?.map (.table · inner)) = some v) : ¬ v.IsTable := by
  rintro ⟨o, fs, rfl⟩
  cases s with
  | entry names value =>
      cases names with
      | nil => cases h
      | cons first names =>
          obtain ⟨d, -, hbind⟩ := Option.bind_eq_some_iff.1 h
          cases names with
          | nil =>
              cases o? with
              | none => cases hbind
              | some o' => cases hbind
          | cons next names =>
              cases o? with
              | none => cases hbecome
              | some o' =>
                  cases o' with
                  | «section» place => cases hbind
                  | implied => cases hbecome
                  | extended => cases hbecome
                  | dotted => cases hbecome
  | «section» isArray path entries =>
      cases path with
      | nil => cases h
      | cons first path =>
          cases path with
          | nil =>
              obtain ⟨v', hbegin, hentries⟩ := Option.bind_eq_some_iff.1 h
              refine descend_keeps ?_ hentries ⟨o, fs, rfl⟩
              rintro ⟨o', inner', rfl⟩
              cases o? with
              | none =>
                  cases isArray with
                  | true => cases hbegin
                  | false => cases hbecome
              | some o'' =>
                  cases isArray with
                  | true => cases hbegin
                  | false =>
                      cases o'' with
                      | implied => cases hbecome
                      | «section» place => cases hbegin
                      | extended => cases hbegin
                      | dotted => cases hbegin
          | cons next path => cases isArray <;> cases hbecome

/-- Statements under a name leave a table there exactly when each leaves one, and then do to it what
they say about it. -/
theorem runAt_table {o : Origin} {inner' : Fields} (hnames : ∀ s ∈ statements, s.names ≠ [])
    (hnone : o? = none → inner = []) :
    runAt statements (o?.map (.table · inner)) = some (some (.table o inner')) ↔
      becomeAll statements o? = some (some o) ∧
        runAll (statements.flatMap Statement.below) inner = some inner' := by
  induction statements generalizing o? inner with
  | nil =>
      show some (o?.map _) = _ ↔ some o? = _ ∧ some inner = _
      cases o? with
      | none => simp
      | some o' => simp
  | cons s statements ih =>
      obtain ⟨hs, hrest⟩ := List.forall_mem_cons.1 hnames
      have hall : becomeAll (s :: statements) o?
          = (s.become o?).bind fun o => becomeAll statements (some o) := by
        unfold becomeAll
        rw [List.foldlM_cons, Option.bind_eq_bind, Option.bind_map]
        rfl
      rw [runAt_cons, hall, List.flatMap_cons, runAll_append]
      cases hbecome : s.become o? with
      | none =>
          constructor
          · intro h
            obtain ⟨v, hv, hmore⟩ := Option.bind_eq_some_iff.1 h
            obtain ⟨w, hw, htable⟩ := runAt_keeps (at?_no_table hbecome hv) hmore
            obtain rfl := Option.some.inj hw
            exact absurd ⟨o, inner', rfl⟩ htable
          · rintro ⟨h, -⟩
            cases h
      | some o₁ =>
          rw [at?_table hs hbecome hnone]
          cases runAll s.below inner with
          | none =>
              constructor
              · intro h
                cases h
              · rintro ⟨-, h⟩
                cases h
          | some fs => exact @ih (some o₁) fs hrest (fun h => nomatch h)

/-- The statements under a name leave a table there exactly when each of them leaves one. -/
theorem runAt_under (name : String) {o : Origin} {inner' : Fields} :
    runAt (statements.filter (Statement.under name)) none = some (some (.table o inner')) ↔
      becomeAll (statements.filter (Statement.under name)) none = some (some o) ∧
        runAll ((statements.filter (Statement.under name)).flatMap Statement.below) []
          = some inner' := by
  refine @runAt_table _ none [] o inner' ?_ fun _ => rfl
  intro s hs hnil
  have hhead := of_decide_eq_true (List.mem_filter.1 hs).2
  rw [hnil] at hhead
  cases hhead

/-- Only a statement that binds a name to a value leaves a value there, and none goes before it. -/
theorem eq_entry_of_at? {d : Data} {x : Option Node} (h : s.at? x = some (.value d)) :
    x = none ∧ ∃ n, s = .entry [n] (some d) := by
  have hdescend : ∀ {f : Fields → Option Fields} {y : Option Node},
      descend f y ≠ some (.value d) := by
    intro f y hy
    match y with
    | none =>
        obtain ⟨fs, -, heq⟩ := Option.map_eq_some_iff.1 hy
        cases heq
    | some (.table o fs) =>
        obtain ⟨fs, -, heq⟩ := Option.map_eq_some_iff.1 hy
        cases heq
    | some (.tables ((place, last) :: before)) =>
        obtain ⟨fs, -, heq⟩ := Option.map_eq_some_iff.1 hy
        cases heq
    | some (.tables []) => cases hy
    | some (.value d') => cases hy
  cases s with
  | entry names value =>
      cases names with
      | nil => cases h
      | cons first names =>
          obtain ⟨d', rfl, hbind⟩ := Option.bind_eq_some_iff.1 h
          cases names with
          | nil =>
              cases x with
              | none =>
                  cases hbind
                  exact ⟨rfl, first, rfl⟩
              | some v => cases hbind
          | cons next names =>
              match x with
              | none =>
                  obtain ⟨fs, -, heq⟩ := Option.map_eq_some_iff.1 hbind
                  cases heq
              | some (.value d') => cases hbind
              | some (.tables elements) => cases hbind
              | some (.table (.section place) fs) => cases hbind
              | some (.table .implied fs) =>
                  obtain ⟨fs, -, heq⟩ := Option.map_eq_some_iff.1 hbind
                  cases heq
              | some (.table .extended fs) =>
                  obtain ⟨fs, -, heq⟩ := Option.map_eq_some_iff.1 hbind
                  cases heq
              | some (.table .dotted fs) =>
                  obtain ⟨fs, -, heq⟩ := Option.map_eq_some_iff.1 hbind
                  cases heq
  | «section» isArray path entries =>
      cases path with
      | nil => cases h
      | cons first path =>
          cases path with
          | nil =>
              obtain ⟨v, -, hentries⟩ := Option.bind_eq_some_iff.1 h
              exact absurd hentries hdescend
          | cons next path =>
              exfalso
              cases isArray <;> exact hdescend h

/-- Behind something there is always something. -/
theorem runAt_some {v : Node} {x : Option Node} (h : runAt statements (some v) = some x) :
    ∃ w, x = some w := by
  induction statements generalizing v with
  | nil => exact ⟨v, (Option.some.inj h).symm⟩
  | cons s statements ih =>
      rw [runAt_cons] at h
      obtain ⟨w, -, hrest⟩ := Option.bind_eq_some_iff.1 h
      exact ih hrest

/-- Nothing stands under a name only when no statement stands under it. -/
theorem eq_nil_of_runAt (h : runAt statements none = some none) : statements = [] := by
  cases statements with
  | nil => rfl
  | cons s statements =>
      rw [runAt_cons] at h
      obtain ⟨w, -, hrest⟩ := Option.bind_eq_some_iff.1 h
      obtain ⟨v, hv⟩ := runAt_some hrest
      cases hv

/-- A value stands under a name only when one statement binds the name to it. -/
theorem eq_singleton_of_runAt {d : Data} (h : runAt statements none = some (some (.value d))) :
    ∃ n, statements = [.entry [n] (some d)] := by
  have hlast : ∀ {more : List Statement} {v : Node},
      runAt more (some v) = some (some (.value d)) → more = [] ∧ v = .value d := by
    intro more v hmore
    induction more generalizing v with
    | nil => exact ⟨rfl, Option.some.inj (Option.some.inj hmore)⟩
    | cons s more ih =>
        rw [runAt_cons] at hmore
        obtain ⟨w, hw, hrest⟩ := Option.bind_eq_some_iff.1 hmore
        obtain ⟨-, rfl⟩ := ih hrest
        cases (eq_entry_of_at? hw).1
  cases statements with
  | nil => cases h
  | cons s statements =>
      rw [runAt_cons] at h
      obtain ⟨w, hw, hrest⟩ := Option.bind_eq_some_iff.1 h
      obtain ⟨rfl, rfl⟩ := hlast hrest
      obtain ⟨-, n, rfl⟩ := eq_entry_of_at? hw
      exact ⟨n, rfl⟩

end LintWatch.Toml
