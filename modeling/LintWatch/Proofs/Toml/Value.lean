import LintWatch.Proofs.Toml.Key
import LintWatch.Proofs.Toml.Scalar
import LintWatch.Toml.Data

/-!
# Values as they are written

A value is laid out when its scalars and keys are spelled as they read and only gaps stand between
them. What has been read is laid out (`laid_of_value?`), and what is laid out is read back with the
same meaning (`value?_render`). The layout itself need not be read back: two gaps that stand behind
each other become one.
-/

namespace LintWatch.Toml

mutual

/-- A value that is laid out, in which at most `depth` brackets stand in each other. -/
inductive LaidValue : (depth : Nat) → Value → Prop where
  | scalar {depth : Nat} {spelling : List Char} {v : Scalar} :
      SpellsScalar spelling v → LaidValue depth (.scalar spelling v)
  | array {depth : Nat} {items : List (List Char × Value × List Char)} {comma : Bool}
      {gap : List Char} :
      LaidItems depth items → (items = [] → comma = false) → IsGap gap →
      LaidValue (depth + 1) (.array items comma gap)
  | table {depth : Nat} {entries : List Entry} {comma : Bool} {gap : List Char} :
      LaidEntries depth entries → (entries = [] → comma = false) → IsGap gap →
      LaidValue (depth + 1) (.table entries comma gap)

/-- Elements of an array that are laid out. -/
inductive LaidItems : (depth : Nat) → List (List Char × Value × List Char) → Prop where
  | nil {depth : Nat} : LaidItems depth []
  | cons {depth : Nat} {before after : List Char} {v : Value}
      {rest : List (List Char × Value × List Char)} :
      IsGap before → LaidValue depth v → IsGap after → LaidItems depth rest →
      LaidItems depth ((before, v, after) :: rest)

/-- Entries in braces that are laid out. -/
inductive LaidEntries : (depth : Nat) → List Entry → Prop where
  | nil {depth : Nat} : LaidEntries depth []
  | cons {depth : Nat} {lead before after : List Char} {key : List KeyPart} {v : Value}
      {rest : List Entry} :
      IsGap lead → LaidKey IsGap key → IsGap before → LaidValue depth v → IsGap after →
      LaidEntries depth rest → LaidEntries depth ((lead, key, before, v, after) :: rest)

end

/-- An entry in braces that is laid out. -/
structure LaidEntry (depth : Nat) (e : Entry) : Prop where
  lead : IsGap e.1
  key : LaidKey IsGap e.2.1
  before : IsGap e.2.2.1
  value : LaidValue depth e.2.2.2.1
  after : IsGap e.2.2.2.2

/-- What an entry says: the names of its key, and what its value means. -/
def Entry.said (e : Entry) : List String × Option Data :=
  (Key.names e.2.1, e.2.2.2.1.data?)

variable {cs rest : List Char} {v : Value} {depth : Nat}

/-- Entries are laid out when each of them is. -/
theorem laid_entries_iff {entries : List Entry} :
    LaidEntries depth entries ↔ ∀ e ∈ entries, LaidEntry depth e := by
  constructor
  · intro h
    induction entries with
    | nil => exact fun e he => nomatch he
    | cons e entries ih =>
        cases h with
        | cons hlead hkey hbefore hv hafter hmore =>
            exact List.forall_mem_cons.2 ⟨⟨hlead, hkey, hbefore, hv, hafter⟩, ih hmore⟩
  · intro h
    induction entries with
    | nil => exact .nil
    | cons e entries ih =>
        obtain ⟨he, hmore⟩ := List.forall_mem_cons.1 h
        exact .cons he.lead he.key he.before he.value he.after (ih hmore)

/-! ## What values mean -/

/-- Elements with the same meanings make up the same list. -/
theorem dataOfItems?_congr {items items' : List (List Char × Value × List Char)}
    (h : items'.map (·.2.1.data?) = items.map (·.2.1.data?)) :
    dataOfItems? items' = dataOfItems? items := by
  induction items generalizing items' with
  | nil =>
      obtain rfl := List.map_eq_nil_iff.1 h
      rfl
  | cons i items ih =>
      obtain ⟨i', items', rfl, hi, hitems⟩ := List.map_eq_cons_iff.1 h
      obtain ⟨before, v, after⟩ := i
      obtain ⟨before', v', after'⟩ := i'
      simp only at hi
      simp only [dataOfItems?, hi, ih hitems]

/-- Entries that say the same make up the same table. -/
theorem bindEntries?_congr {entries entries' : List Entry}
    (h : entries'.map Entry.said = entries.map Entry.said) (fields : Fields) :
    bindEntries? fields entries' = bindEntries? fields entries := by
  induction entries generalizing entries' fields with
  | nil =>
      obtain rfl := List.map_eq_nil_iff.1 h
      rfl
  | cons e entries ih =>
      obtain ⟨e', entries', rfl, he, hentries⟩ := List.map_eq_cons_iff.1 h
      obtain ⟨lead, key, before, v, after⟩ := e
      obtain ⟨lead', key', before', v', after'⟩ := e'
      obtain ⟨hnames, hdata⟩ := Prod.mk.inj he
      simp only [Key.names] at hnames
      simp only [bindEntries?, hnames, hdata]
      split
      next => rfl
      next =>
        split
        next => rfl
        next => exact ih hentries _

/-! ## Reading -/

/-- Nothing is no value. -/
theorem value?_nil (fuel depth : Nat) : value? fuel depth [] = none := by
  cases fuel with
  | zero => rfl
  | succ fuel =>
      have hscalar : scalar? [] = none := by decide
      simpa [value?] using hscalar

/-- One more element may stand behind elements that are laid out. -/
theorem LaidItems.concat {items : List (List Char × Value × List Char)} {before after : List Char}
    (h : LaidItems depth items) (hbefore : IsGap before) (hv : LaidValue depth v)
    (hafter : IsGap after) : LaidItems depth (items ++ [(before, v, after)]) := by
  induction items with
  | nil => exact .cons hbefore hv hafter .nil
  | cons i items ih =>
      cases h with
      | cons hb hi ha hrest => exact .cons hb hi ha (ih hrest)

/-- One more entry may stand behind entries that are laid out. -/
theorem LaidEntries.concat {entries : List Entry} {e : Entry} (h : LaidEntries depth entries)
    (he : LaidEntry depth e) : LaidEntries depth (entries ++ [e]) := by
  rw [laid_entries_iff] at h ⊢
  intro e' he'
  rcases List.mem_append.1 he' with hmem | hmem
  · exact h e' hmem
  · obtain rfl := List.mem_singleton.1 hmem
    exact he

/-- What has been read as a value, as an array or as a table in braces is laid out. -/
theorem laid_of_read (fuel : Nat) :
    (∀ {depth cs v rest}, value? fuel depth cs = some (v, rest) → LaidValue depth v) ∧
    (∀ {depth found cs v rest}, LaidItems depth found.reverse →
      items? fuel depth found cs = some (v, rest) → LaidValue (depth + 1) v) ∧
    (∀ {depth found cs v rest}, LaidEntries depth found.reverse →
      entries? fuel depth found cs = some (v, rest) → LaidValue (depth + 1) v) := by
  induction fuel with
  | zero => refine ⟨?_, ?_, ?_⟩ <;> (intros; contradiction)
  | succ fuel ih =>
      obtain ⟨ihvalue, ihitems, ihentries⟩ := ih
      refine ⟨?_, ?_, ?_⟩
      · intro depth cs v rest h
        unfold value? at h
        split at h
        next =>
          split at h
          next => cases h
          next => exact ihitems .nil h
        next =>
          split at h
          next => cases h
          next => exact ihentries .nil h
        next =>
          obtain ⟨spelling, s, rfl, hspells⟩ := spells_of_scalar? h
          exact .scalar hspells
      · intro depth found cs v rest hfound h
        simp only [items?, Option.bind_eq_bind, Option.bind_eq_some_iff] at h
        obtain ⟨⟨before, cs⟩, hbefore, h⟩ := h
        split at h
        next heq =>
          simp only [Option.pure_def, Option.some.injEq, Prod.mk.injEq] at h
          obtain ⟨rfl, rfl⟩ := h
          refine .array hfound ?_ (is_gap_of_gap?_cons hbefore heq)
          intro hnil
          simpa using hnil
        next =>
          simp only [Option.bind_eq_some_iff] at h
          obtain ⟨⟨w, after⟩, hw, ⟨behind, cs'⟩, hbehind, h⟩ := h
          have hcs : cs ≠ [] := by
            rintro rfl
            rw [value?_nil] at hw
            cases hw
          have hitem : ∀ {more c}, cs' = c :: more →
              LaidItems depth ((before, w, behind) :: found).reverse := by
            intro more c hcs'
            rw [List.reverse_cons]
            exact hfound.concat (is_gap_of_gap? hbefore hcs) (ihvalue hw)
              (is_gap_of_gap?_cons hbehind hcs')
          split at h
          next heq => exact ihitems (hitem heq) h
          next heq =>
            simp only [Option.pure_def, Option.some.injEq, Prod.mk.injEq] at h
            obtain ⟨rfl, rfl⟩ := h
            exact .array (hitem heq) (fun _ => rfl) .nil
          next => cases h
      · intro depth found cs v rest hfound h
        simp only [entries?, Option.bind_eq_bind, Option.bind_eq_some_iff] at h
        obtain ⟨⟨lead, cs⟩, hlead, h⟩ := h
        split at h
        next heq =>
          simp only [Option.pure_def, Option.some.injEq, Prod.mk.injEq] at h
          obtain ⟨rfl, rfl⟩ := h
          refine .table hfound ?_ (is_gap_of_gap?_cons hlead heq)
          intro hnil
          simpa using hnil
        next =>
          simp only [Option.bind_eq_some_iff] at h
          obtain ⟨⟨key, afterKey⟩, hkey, ⟨behind, cs'⟩, hbehind, h⟩ := h
          split at h
          next hequals =>
            simp only [Option.bind_eq_some_iff] at h
            obtain ⟨⟨before, cs₁⟩, hbefore, ⟨w, cs₂⟩, hw, ⟨after, cs₃⟩, hafter, h⟩ := h
            have hcs : cs ≠ [] := by
              rintro rfl
              cases hkey
            have hcs₁ : cs₁ ≠ [] := by
              rintro rfl
              rw [value?_nil] at hw
              cases hw
            have hentry : ∀ {more c}, cs₃ = c :: more →
                LaidEntries depth
                  ((lead, endWith behind key, before, w, after) :: found).reverse := by
              intro more c hcs₃
              rw [List.reverse_cons]
              exact hfound.concat ⟨is_gap_of_gap? hlead hcs,
                (laid_of_key? hkey).end_with (is_gap_of_gap?_cons hbehind hequals),
                is_gap_of_gap? hbefore hcs₁, ihvalue hw, is_gap_of_gap?_cons hafter hcs₃⟩
            split at h
            next heq => exact ihentries (hentry heq) h
            next heq =>
              simp only [Option.pure_def, Option.some.injEq, Prod.mk.injEq] at h
              obtain ⟨rfl, rfl⟩ := h
              exact .table (hentry heq) (fun _ => rfl) .nil
            next => cases h
          next => cases h

/-- What has been read as a value is laid out. -/
theorem laid_of_value? {fuel : Nat} (h : value? fuel depth cs = some (v, rest)) :
    LaidValue depth v :=
  (laid_of_read fuel).1 h

/-! ## Writing -/

/-- A written value starts with no gap and closes nothing. -/
theorem LaidValue.starts (h : LaidValue depth v) :
    ∃ c more, v.render = c :: more ∧ isGapChar c = false ∧ c ≠ ']' := by
  cases h with
  | @scalar _ spelling s hspells =>
      obtain ⟨c, more, hspelling, hc⟩ := hspells.starts
      refine ⟨c, more, hspelling, ?_⟩
      have hne : ∀ d, startsScalar d = false → c ≠ d := by
        rintro d hd rfl
        rw [hc] at hd
        cases hd
      refine ⟨?_, hne ']' (by decide)⟩
      simp [isGapChar, hne ' ' (by decide), hne '\t' (by decide), hne '\n' (by decide),
        hne '\r' (by decide), hne '#' (by decide)]
  | array => exact ⟨'[', _, rfl, rfl, by decide⟩
  | table => exact ⟨'\x7b', _, rfl, rfl, by decide⟩

/-- What starts with no gap is where a gap stops. -/
theorem stops_cons {c : Char} (hc : isGapChar c = false) (rest : List Char) :
    Stops (c :: rest) := by
  intro d hd
  obtain rfl := Option.some.inj hd
  exact hc

/-- A value stops the gap in front of it. -/
theorem LaidValue.stops (h : LaidValue depth v) (rest : List Char) : Stops (v.render ++ rest) := by
  obtain ⟨c, more, heq, hc, -⟩ := h.starts
  rw [heq]
  exact stops_cons hc _

/-- A scalar is read as a value. -/
theorem value?_scalar {spelling : List Char} {s : Scalar} (h : SpellsScalar spelling s)
    (hrest : EndsValue rest) (fuel depth : Nat) :
    value? (fuel + 1) depth (spelling ++ rest) = some (.scalar spelling s, rest) := by
  obtain ⟨c, more, rfl, hc⟩ := h.starts
  have hread := h.reads rest hrest
  unfold value?
  split
  next heq =>
    obtain rfl := (List.cons.inj heq).1
    exact absurd hc (by decide)
  next heq =>
    obtain rfl := (List.cons.inj heq).1
    exact absurd hc (by decide)
  next => exact hread

section Items

variable {before after gap : List Char} {w w' : Value} {fuel : Nat}

/-- The bracket behind a gap ends an array. -/
theorem items?_close (found : List (List Char × Value × List Char)) (hgap : IsGap gap) :
    items? (fuel + 1) depth found (gap ++ ']' :: rest)
      = some (.array found.reverse (found ≠ []) gap, rest) := by
  have hread : gap? true false [] (gap ++ ']' :: rest) = some (gap, ']' :: rest) :=
    gap?_of_gap hgap (stops_cons rfl rest)
  simp only [items?, hread, Option.bind_eq_bind, Option.bind_some]
  rfl

/-- An element is read up to what follows it. -/
theorem items?_item (found : List (List Char × Value × List Char)) {c : Char}
    (hbefore : IsGap before) (hw : LaidValue depth w)
    (hafter : IsGap after) (hc : isGapChar c = false)
    (hread : value? fuel depth (w.render ++ (after ++ c :: rest))
      = some (w', after ++ c :: rest)) :
    items? (fuel + 1) depth found (before ++ (w.render ++ (after ++ c :: rest))) =
      match c :: rest with
      | ',' :: rest => items? fuel depth ((before, w', after) :: found) rest
      | ']' :: rest => some (.array ((before, w', after) :: found).reverse false [], rest)
      | _ => none := by
  have hfirst : gap? true false [] (before ++ (w.render ++ (after ++ c :: rest)))
      = some (before, w.render ++ (after ++ c :: rest)) :=
    gap?_of_gap hbefore (hw.stops _)
  have hlast : gap? true false [] (after ++ c :: rest) = some (after, c :: rest) :=
    gap?_of_gap hafter (stops_cons hc rest)
  obtain ⟨d, more, heq, -, hd⟩ := hw.starts
  rw [heq] at hfirst hread
  simp only [items?, heq, hfirst, Option.bind_eq_bind, Option.bind_some]
  split
  next hclose => exact absurd (List.cons.inj hclose).1 hd
  next =>
    simp only [hread, hlast, Option.bind_some]
    rfl

end Items

section Entries

variable {lead before after gap : List Char} {key : List KeyPart} {w w' : Value} {fuel : Nat}

/-- The brace behind a gap ends a table. -/
theorem entries?_close (found : List Entry) (hgap : IsGap gap) :
    entries? (fuel + 1) depth found (gap ++ '\x7d' :: rest)
      = some (.table found.reverse (found ≠ []) gap, rest) := by
  have hread : gap? true false [] (gap ++ '\x7d' :: rest) = some (gap, '\x7d' :: rest) :=
    gap?_of_gap hgap (stops_cons rfl rest)
  simp only [entries?, hread, Option.bind_eq_bind, Option.bind_some]
  rfl

/-- An entry in braces is read up to what follows it, with the names it has. -/
theorem entries?_entry (found : List Entry) {c : Char} (hlead : IsGap lead)
    (hkey : LaidKey IsGap key)
    (hbefore : IsGap before) (hw : LaidValue depth w) (hafter : IsGap after)
    (hc : isGapChar c = false)
    (hread : value? fuel depth (w.render ++ (after ++ c :: rest))
      = some (w', after ++ c :: rest)) :
    ∃ lead' key', Key.names key' = Key.names key ∧
      entries? (fuel + 1) depth found
          (lead ++ (renderKey key ++ '=' :: (before ++ (w.render ++ (after ++ c :: rest))))) =
        match c :: rest with
        | ',' :: rest => entries? fuel depth ((lead', key', before, w', after) :: found) rest
        | '\x7d' :: rest =>
          some (.table ((lead', key', before, w', after) :: found).reverse false [], rest)
        | _ => none := by
  obtain ⟨blanks, key₁, hblanks, hkey₁, hnames₁, hrender₁, d, more, heq₁, hd⟩ := hkey.exists_start
  obtain ⟨key₂, behind, hkey₂, hbehind, hno, hnames₂, hrender₂⟩ := hkey₁.exists_end
  obtain ⟨hgapChar, -, hbrace, -⟩ := of_startsName hd
  generalize htext : before ++ (w.render ++ (after ++ c :: rest)) = text
  have hfirst : gap? true false [] (lead ++ (renderKey key ++ '=' :: text))
      = some (lead ++ blanks, d :: (more ++ '=' :: text)) := by
    have hrender : lead ++ (renderKey key ++ '=' :: text)
        = (lead ++ blanks) ++ (d :: (more ++ '=' :: text)) := by
      rw [hrender₁, heq₁]
      simp
    rw [hrender]
    exact gap?_of_gap (hlead.append hblanks.isGap) (stops_cons hgapChar _)
  have hname : key? (d :: (more ++ '=' :: text)) = some (key₂, behind ++ '=' :: text) := by
    have hrender : d :: (more ++ '=' :: text) = renderKey key₂ ++ (behind ++ '=' :: text) := by
      rw [← List.cons_append, ← heq₁, hrender₂, List.append_assoc]
    rw [hrender]
    exact key?_append hkey₂ (ends_key_gap hbehind hno text)
  have hequals : gap? true false [] (behind ++ '=' :: text) = some (behind, '=' :: text) :=
    gap?_of_gap hbehind (stops_cons rfl text)
  have hvalue : gap? true false [] text = some (before, w.render ++ (after ++ c :: rest)) := by
    rw [← htext]
    exact gap?_of_gap hbefore (hw.stops _)
  have hlast : gap? true false [] (after ++ c :: rest) = some (after, c :: rest) :=
    gap?_of_gap hafter (stops_cons hc rest)
  refine ⟨lead ++ blanks, endWith behind key₂, ?_, ?_⟩
  · rw [names_endWith, hnames₂, hnames₁]
  · simp only [entries?, hfirst, Option.bind_eq_bind, Option.bind_some]
    split
    next hclose => exact absurd (List.cons.inj hclose).1 hbrace
    next =>
      simp only [hname, hequals, hvalue, hread, hlast, Option.bind_some]
      rfl

end Entries

mutual

/-- A value that is laid out is read back with the same meaning. -/
theorem value?_render {v : Value} {depth : Nat} (h : LaidValue depth v) {rest : List Char}
    (hrest : EndsValue rest) (fuel : Nat) (hfuel : 2 * v.render.length ≤ fuel) :
    ∃ v', value? fuel depth (v.render ++ rest) = some (v', rest) ∧ v'.data? = v.data? := by
  cases h with
  | @scalar _ spelling s hspells =>
      obtain ⟨c, more, heq, -⟩ := hspells.starts
      cases fuel with
      | zero =>
          simp only [Value.render, heq, List.length_cons] at hfuel
          omega
      | succ fuel => exact ⟨_, value?_scalar hspells hrest fuel depth, rfl⟩
  | @array depth items comma gap hitems hcomma hgap =>
      have htext : (Value.array items comma gap).render ++ rest
          = '[' :: (renderItems items ++
            ((if comma then [','] else []) ++ (gap ++ ']' :: rest))) := by
        simp [Value.render]
      have hlength : 2 * (renderItems items).length + 4 ≤ fuel := by
        simp only [Value.render, List.length_cons, List.length_append] at hfuel
        omega
      obtain ⟨fuel, rfl⟩ : ∃ more, fuel = more + 1 := ⟨fuel - 1, by omega⟩
      have hread : ∃ items' comma' gap', items? fuel depth []
            (renderItems items ++ ((if comma then [','] else []) ++ (gap ++ ']' :: rest)))
          = some (.array items' comma' gap', rest) ∧
          items'.map (·.2.1.data?) = items.map (·.2.1.data?) := by
        by_cases hne : items = []
        · obtain ⟨fuel, rfl⟩ : ∃ more, fuel = more + 1 := ⟨fuel - 1, by omega⟩
          obtain rfl := hcomma hne
          subst hne
          exact ⟨[], _, gap, items?_close [] hgap, rfl⟩
        · exact items?_render hitems hne comma hgap rest _ (by omega) []
      obtain ⟨items', comma', gap', hread, hdata⟩ := hread
      refine ⟨.array items' comma' gap', ?_, ?_⟩
      · rw [htext]
        exact hread
      · simp only [Value.data?, dataOfItems?_congr hdata]
  | @table depth entries comma gap hentries hcomma hgap =>
      have htext : (Value.table entries comma gap).render ++ rest = '\x7b' ::
          (renderEntries entries ++
            ((if comma then [','] else []) ++ (gap ++ '\x7d' :: rest))) := by
        simp [Value.render]
      have hlength : 2 * (renderEntries entries).length + 4 ≤ fuel := by
        simp only [Value.render, List.length_cons, List.length_append] at hfuel
        omega
      obtain ⟨fuel, rfl⟩ : ∃ more, fuel = more + 1 := ⟨fuel - 1, by omega⟩
      have hread : ∃ entries' comma' gap', entries? fuel depth []
            (renderEntries entries ++ ((if comma then [','] else []) ++ (gap ++ '\x7d' :: rest)))
          = some (.table entries' comma' gap', rest) ∧
          entries'.map Entry.said = entries.map Entry.said := by
        by_cases hne : entries = []
        · obtain ⟨fuel, rfl⟩ : ∃ more, fuel = more + 1 := ⟨fuel - 1, by omega⟩
          obtain rfl := hcomma hne
          subst hne
          exact ⟨[], _, gap, entries?_close [] hgap, rfl⟩
        · exact entries?_render hentries hne comma hgap rest _ (by omega) []
      obtain ⟨entries', comma', gap', hread, hsaid⟩ := hread
      refine ⟨.table entries' comma' gap', ?_, ?_⟩
      · rw [htext]
        exact hread
      · simp only [Value.data?, bindEntries?_congr hsaid]

/-- Elements that are laid out are read back with the same meanings. -/
theorem items?_render {items : List (List Char × Value × List Char)} {depth : Nat}
    (h : LaidItems depth items) (hne : items ≠ []) (comma : Bool) {gap : List Char}
    (hgap : IsGap gap) (rest : List Char) (fuel : Nat)
    (hfuel : 2 * (renderItems items).length + 2 ≤ fuel)
    (found : List (List Char × Value × List Char)) :
    ∃ items' comma' gap',
      items? fuel depth found
          (renderItems items ++ ((if comma then [','] else []) ++ (gap ++ ']' :: rest)))
        = some (.array (found.reverse ++ items') comma' gap', rest) ∧
      items'.map (·.2.1.data?) = items.map (·.2.1.data?) := by
  cases h with
  | nil => exact absurd rfl hne
  | @cons _ before after v more hbefore hv hafter hmore =>
      obtain ⟨fuel, rfl⟩ : ∃ more, fuel = more + 2 := ⟨fuel - 2, by omega⟩
      cases more with
      | cons i more =>
          have htext : renderItems ((before, v, after) :: i :: more)
              = before ++ (v.render ++ (after ++ ',' :: renderItems (i :: more))) := by
            simp [renderItems]
          rw [htext] at hfuel ⊢
          simp only [List.append_assoc, List.cons_append]
          simp only [List.length_append, List.length_cons] at hfuel
          obtain ⟨v', hread, hdata⟩ := value?_render hv
            (ends_value_gap hafter (c := ',') (by simp) _) (fuel + 1) (by omega)
          obtain ⟨items', comma', gap', hitems, hdatas⟩ :=
            items?_render hmore (List.cons_ne_nil i more) comma hgap rest
              (fuel + 1) (by omega) ((before, v', after) :: found)
          refine ⟨(before, v', after) :: items', comma', gap', ?_, ?_⟩
          · rw [items?_item _ hbefore hv hafter rfl hread]
            simp only [hitems, List.reverse_cons, List.append_assoc, List.singleton_append]
          · simp only [List.map_cons, hdata, hdatas]
      | nil =>
          simp only [renderItems, List.length_append] at hfuel
          simp only [renderItems, List.append_assoc]
          cases comma with
          | true =>
              obtain ⟨v', hread, hdata⟩ := value?_render hv
                (ends_value_gap hafter (c := ',') (by simp) (gap ++ ']' :: rest))
                (fuel + 1) (by omega)
              refine ⟨[(before, v', after)], true, gap, ?_, by simp only [List.map_cons, hdata]⟩
              have hitem := items?_item found hbefore hv hafter rfl hread
              simp only [items?_close _ hgap, List.reverse_cons, ne_eq, reduceCtorEq,
                not_false_eq_true, decide_true] at hitem
              exact hitem
          | false =>
              obtain ⟨v', hread, hdata⟩ := value?_render hv
                (ends_value_gap (hafter.append hgap) (c := ']') (by simp) rest)
                (fuel + 1) (by omega)
              refine ⟨[(before, v', after ++ gap)], false, [], ?_,
                by simp only [List.map_cons, hdata]⟩
              have hitem := items?_item found hbefore hv (hafter.append hgap) rfl hread
              simp only [List.append_assoc, List.reverse_cons] at hitem
              exact hitem

/-- Entries in braces that are laid out are read back with what they say. -/
theorem entries?_render {entries : List Entry} {depth : Nat} (h : LaidEntries depth entries)
    (hne : entries ≠ []) (comma : Bool) {gap : List Char} (hgap : IsGap gap) (rest : List Char)
    (fuel : Nat) (hfuel : 2 * (renderEntries entries).length + 2 ≤ fuel) (found : List Entry) :
    ∃ entries' comma' gap',
      entries? fuel depth found
          (renderEntries entries ++ ((if comma then [','] else []) ++ (gap ++ '\x7d' :: rest)))
        = some (.table (found.reverse ++ entries') comma' gap', rest) ∧
      entries'.map Entry.said = entries.map Entry.said := by
  cases h with
  | nil => exact absurd rfl hne
  | @cons _ lead before after key v more hlead hkey hbefore hv hafter hmore =>
      obtain ⟨fuel, rfl⟩ : ∃ more, fuel = more + 2 := ⟨fuel - 2, by omega⟩
      cases more with
      | cons e more =>
          have htext : renderEntries ((lead, key, before, v, after) :: e :: more)
              = lead ++ (renderKey key ++ '=' ::
                  (before ++ (v.render ++ (after ++ ',' :: renderEntries (e :: more))))) := by
            simp [renderEntries]
          rw [htext] at hfuel ⊢
          simp only [List.append_assoc, List.cons_append]
          simp only [List.length_append, List.length_cons] at hfuel
          obtain ⟨v', hread, hdata⟩ := value?_render hv
            (ends_value_gap hafter (c := ',') (by simp) _) (fuel + 1) (by omega)
          obtain ⟨lead', key', hnames, hentry⟩ :=
            entries?_entry found hlead hkey hbefore hv hafter rfl hread
          obtain ⟨entries', comma', gap', hentries, hsaid⟩ :=
            entries?_render hmore (List.cons_ne_nil e more) comma hgap rest
              (fuel + 1) (by omega) ((lead', key', before, v', after) :: found)
          refine ⟨(lead', key', before, v', after) :: entries', comma', gap', ?_, ?_⟩
          · rw [hentry]
            simp only [hentries, List.reverse_cons, List.append_assoc, List.singleton_append]
          · simp only [List.map_cons, Entry.said, hnames, hdata]
            exact congrArg _ hsaid
      | nil =>
          have htext : renderEntries [(lead, key, before, v, after)]
              = lead ++ (renderKey key ++ '=' :: (before ++ (v.render ++ after))) := by
            simp [renderEntries]
          rw [htext] at hfuel ⊢
          simp only [List.length_append, List.length_cons] at hfuel
          simp only [List.append_assoc, List.cons_append]
          cases comma with
          | true =>
              obtain ⟨v', hread, hdata⟩ := value?_render hv
                (ends_value_gap hafter (c := ',') (by simp) (gap ++ '\x7d' :: rest))
                (fuel + 1) (by omega)
              obtain ⟨lead', key', hnames, hentry⟩ :=
                entries?_entry found hlead hkey hbefore hv hafter rfl hread
              refine ⟨[(lead', key', before, v', after)], true, gap, ?_,
                by simp only [List.map_cons, Entry.said, hnames, hdata, List.map_nil]⟩
              simp only [entries?_close _ hgap, List.reverse_cons, ne_eq, reduceCtorEq,
                not_false_eq_true, decide_true] at hentry
              exact hentry
          | false =>
              obtain ⟨v', hread, hdata⟩ := value?_render hv
                (ends_value_gap (hafter.append hgap) (c := '\x7d') (by simp) rest)
                (fuel + 1) (by omega)
              obtain ⟨lead', key', hnames, hentry⟩ :=
                entries?_entry found hlead hkey hbefore hv (hafter.append hgap) rfl hread
              refine ⟨[(lead', key', before, v', after ++ gap)], false, [], ?_,
                by simp only [List.map_cons, Entry.said, hnames, hdata, List.map_nil]⟩
              simp only [List.append_assoc, List.reverse_cons] at hentry
              exact hentry

end

end LintWatch.Toml
