import LintWatch.Proofs.Toml.Layout
import LintWatch.Toml.Edit

/-!
# Binding a name among entries

After a name has been bound among entries, one entry stands for it and the entries for other names
are as before (`put_cases`). Entries that are laid out stay so, in lines and in braces.
-/

namespace LintWatch.Toml

/-- Of a list, what yields nothing may be left out. -/
theorem flatMap_filter_of_nil {α β : Type} {p : α → Bool} {f : α → List β} {l : List α}
    (h : ∀ a ∈ l, p a = false → f a = []) : (l.filter p).flatMap f = l.flatMap f := by
  induction l with
  | nil => rfl
  | cons a l ih =>
      obtain ⟨ha, hl⟩ := List.forall_mem_cons.1 h
      cases hp : p a with
      | true => rw [List.filter_cons_of_pos hp, List.flatMap_cons, List.flatMap_cons, ih hl]
      | false =>
          rw [List.filter_cons_of_neg (by rw [hp]; decide), List.flatMap_cons, ha hp, ih hl]
          rfl

/-- The first parts of a key that is laid out. -/
theorem LaidKey.take {IsLast : List Char → Prop} {key : List KeyPart} (h : LaidKey IsLast key)
    {n : Nat} (hn : n ≠ 0) : LaidKey (fun _ => True) (key.take n) := by
  refine ⟨?_, ?_, ?_, fun _ _ => trivial, ?_⟩
  · intro hnil
    rcases List.take_eq_nil_iff.1 hnil with hzero | hkey
    · exact hn hzero
    · exact h.ne_nil hkey
  · intro p hp
    exact h.parts p (List.mem_of_mem_take hp)
  · intro p hp
    refine h.inner p ?_
    rw [List.dropLast_eq_take, List.take_take] at hp
    rw [List.dropLast_eq_take]
    refine (List.take_subset_take_left _ ?_) hp
    rw [List.length_take]
    omega
  · rw [List.length_take]
    have := h.length_le
    omega

namespace EntryStyle

variable {style : EntryStyle} {key above : Key} {name : KeyPart} {v : Value} {inFront : Bool}
  {entries : List Entry} {e : Entry}

/-- The entry for a key that comes into being when the key is bound among entries: a new one, one
that is there already with another value, or one for a name below the key. -/
inductive Makes (style : EntryStyle) (key : Key) (v : Value) (entries : List Entry) :
    Entry → Prop where
  | fresh (isLast : Bool) : Makes style key v entries (style.entry key v isLast)
  | replaced {o : Entry} (isLast : Bool) :
      o ∈ entries → Key.names o.2.1 = Key.names key →
      Makes style key v entries (style.replace o v isLast)
  | cut {o : Entry} (isLast : Bool) :
      o ∈ entries → sameGroup (Key.names key) o = true →
      Makes style key v entries (style.entry (o.2.1.take (Key.names key).length) v isLast)

/-- Where an entry is that is the first of its kind. -/
theorem split_of_findIdx? {p : Entry → Bool} {i : Nat} (h : entries.findIdx? p = some i) :
    ∃ before o after, entries = before ++ o :: after ∧ before.length = i ∧ p o = true ∧
      ∀ e ∈ before, p e = false := by
  obtain ⟨hi, hp, hbefore⟩ := List.findIdx?_eq_some_iff_getElem.1 h
  refine ⟨entries.take i, entries[i], entries.drop (i + 1), ?_, ?_, hp, ?_⟩
  · rw [← List.drop_eq_getElem_cons hi, List.take_append_drop]
  · rw [List.length_take]
    omega
  · intro e he
    obtain ⟨j, hj, rfl⟩ := List.getElem_of_mem he
    rw [List.length_take] at hj
    rw [List.getElem_take]
    exact Bool.eq_false_iff.2 (hbefore j (by omega))

/-- Binding a name leaves the entries for other names, and one entry for the name among them. -/
theorem put_cases (style : EntryStyle) (above : Key) (name : KeyPart) (v : Value) (inFront : Bool)
    (entries : List Entry) :
    ∃ before e after, style.put above name v inFront entries = before ++ e :: after ∧
      before ++ after = entries.filter (!sameGroup (Key.names (above ++ [name])) ·) ∧
      Makes style (above ++ [name]) v entries e := by
  have hnames : Key.names above ++ [name.name] = Key.names (above ++ [name]) := by
    simp only [Key.names, List.map_append, List.map_cons, List.map_nil]
  unfold put
  simp only [hnames]
  split
  next hnone =>
    have hall : entries.filter (!sameGroup (Key.names (above ++ [name])) ·) = entries := by
      refine List.filter_eq_self.2 fun e he => ?_
      rw [List.findIdx?_eq_none_iff.1 hnone e he]
      rfl
    rw [hall]
    split
    next => exact ⟨[], _, entries, rfl, rfl, .fresh _⟩
    next => exact ⟨entries, _, [], rfl, List.append_nil entries, .fresh _⟩
  next i hsome =>
    obtain ⟨before, o, after, rfl, rfl, ho, hbefore⟩ := split_of_findIdx? hsome
    have htake : (before ++ o :: after).take before.length = before := List.take_left
    have hdrop : (before ++ o :: after).drop before.length = o :: after := List.drop_left
    have hdrop' : (before ++ o :: after).drop (before.length + 1) = after := by
      rw [← List.drop_drop, hdrop]
      rfl
    have hfilter : before.filter (!sameGroup (Key.names (above ++ [name])) ·) = before := by
      refine List.filter_eq_self.2 fun e he => ?_
      rw [hbefore e he]
      rfl
    have hmem : o ∈ before ++ o :: after := List.mem_append_right before List.mem_cons_self
    rw [htake, hdrop, hdrop', List.filter_append, hfilter,
      List.filter_cons_of_neg (by rw [ho]; decide), List.append_assoc]
    refine ⟨before, _, _, rfl, rfl, ?_⟩
    dsimp only
    split
    next hsame => exact .replaced _ hmem hsame
    next => exact .cut _ hmem ho

/-- A new entry says its key and value. -/
theorem said_entry (style : EntryStyle) (key : Key) (v : Value) (isLast : Bool) :
    (style.entry key v isLast).said = (Key.names key, v.data?) := by
  rcases List.eq_nil_or_concat' key with rfl | ⟨init, last, rfl⟩
  · rfl
  · simp [entry, Entry.said, Key.names]

/-- The entry for a key that has been bound says the key and the value. -/
theorem Makes.said (h : Makes style key v entries e) : e.said = (Key.names key, v.data?) := by
  cases h with
  | fresh isLast => exact said_entry style key v isLast
  | replaced isLast _ hnames => exact Prod.ext hnames rfl
  | @cut o isLast _ hgroup =>
      have hprefix := List.prefix_iff_eq_take.1 (List.isPrefixOf_iff_prefix.1 hgroup)
      rw [said_entry]
      refine Prod.ext ?_ rfl
      show (o.2.1.take (Key.names key).length).map KeyPart.name = Key.names key
      rw [List.map_take]
      exact hprefix.symm

/-! ## Layout -/

/-- A key that is laid out stays so with a blank behind its last part. -/
theorem laid_entry_key {IsLast IsMore : List Char → Prop} (h : LaidKey IsLast key)
    (hblank : IsMore [' ']) (style : EntryStyle) (v : Value) (isLast : Bool) :
    LaidKey IsMore (style.entry key v isLast).2.1 := by
  rcases List.eq_nil_or_concat' key with rfl | ⟨init, last, rfl⟩
  · exact absurd rfl h.ne_nil
  · have hkey : (style.entry (init ++ [last]) v isLast).2.1
        = init ++ [{ last with tail := [' '] }] := by
      simp [entry]
    rw [hkey]
    refine ⟨by simp, ?_, ?_, ?_, ?_⟩
    · intro p hp
      rcases List.mem_append.1 hp with hp | hp
      · exact h.parts p (List.mem_append_left _ hp)
      · obtain rfl := List.mem_singleton.1 hp
        have hlast := h.parts last (List.mem_append_right _ List.mem_cons_self)
        exact ⟨hlast.lead, hlast.spells⟩
    · intro p hp
      rw [List.dropLast_concat] at hp
      refine h.inner p ?_
      rw [List.dropLast_concat]
      exact hp
    · intro p hp
      rw [List.getLast?_concat] at hp
      obtain rfl := Option.some.inj hp
      exact hblank
    · have := h.length_le
      simp only [List.length_append, List.length_cons, List.length_nil] at this ⊢
      exact this

/-- The entry that comes into being on a line of its own is laid out. -/
theorem Makes.laid_line (hmakes : Makes .line key v entries e) (hkey : LaidKey IsBlanks key)
    (hv : LaidValue depthLimit v) (h : ∀ e ∈ entries, LaidLine e) : LaidLine e := by
  have hafter : ∀ isLast : Bool, IsTail (if isLast then EntryStyle.line.lastTail else []) := by
    intro isLast
    cases isLast <;> exact is_blanks_nil.isTail
  cases hmakes with
  | fresh isLast =>
      exact ⟨.nil, laid_entry_key hkey is_blanks_blank _ v isLast, is_blanks_blank, hv,
        hafter isLast⟩
  | replaced isLast hmem _ =>
      exact ⟨(h _ hmem).lead, (h _ hmem).key, is_blanks_blank, hv, hafter isLast⟩
  | cut isLast hmem _ =>
      have hlength : (Key.names key).length ≠ 0 := by
        intro hnil
        exact hkey.ne_nil (List.map_eq_nil_iff.1 (List.eq_nil_of_length_eq_zero hnil))
      exact ⟨.nil, laid_entry_key ((h _ hmem).key.take hlength) is_blanks_blank _ v isLast,
        is_blanks_blank, hv, hafter isLast⟩

/-- The entry that comes into being in braces is laid out. -/
theorem Makes.laid_entry {depth : Nat} (hmakes : Makes .braces key v entries e)
    (hkey : LaidKey IsBlanks key) (hv : LaidValue depth v)
    (h : ∀ e ∈ entries, LaidEntry depth e) : LaidEntry depth e := by
  have hafter : ∀ isLast : Bool, IsGap (if isLast then EntryStyle.braces.lastTail else []) := by
    intro isLast
    cases isLast with
    | true => exact is_blanks_blank.isGap
    | false => exact .nil
  have hblank : IsGap [' '] := is_blanks_blank.isGap
  cases hmakes with
  | fresh isLast => exact ⟨hblank, laid_entry_key hkey hblank _ v isLast, hblank, hv, hafter isLast⟩
  | replaced isLast hmem _ => exact ⟨(h _ hmem).lead, (h _ hmem).key, hblank, hv, hafter isLast⟩
  | cut isLast hmem _ =>
      have hlength : (Key.names key).length ≠ 0 := by
        intro hnil
        exact hkey.ne_nil (List.map_eq_nil_iff.1 (List.eq_nil_of_length_eq_zero hnil))
      exact ⟨hblank, laid_entry_key ((h _ hmem).key.take hlength) hblank _ v isLast, hblank, hv,
        hafter isLast⟩

/-- Where every entry is as it should be, so are the entries after a name has been bound. -/
theorem forall_mem_put {P : Entry → Prop} (style : EntryStyle) (above : Key) (name : KeyPart)
    (v : Value)
    (inFront : Bool) (h : ∀ e ∈ entries, P e)
    (hmakes : ∀ e, Makes style (above ++ [name]) v entries e → P e) :
    ∀ e ∈ style.put above name v inFront entries, P e := by
  obtain ⟨before, e, after, hput, hothers, he⟩ := put_cases style above name v inFront entries
  rw [hput]
  intro o ho
  have hkept : ∀ o ∈ before ++ after, P o := by
    rw [hothers]
    exact fun o ho => h o (List.mem_filter.1 ho).1
  rcases List.mem_append.1 ho with ho | ho
  · exact hkept o (List.mem_append_left _ ho)
  · rcases List.mem_cons.1 ho with rfl | ho
    · exact hmakes _ he
    · exact hkept o (List.mem_append_right _ ho)

/-! ## Meaning -/

/-- What looks at no entry for the bound name sees the entries as before. -/
theorem flatMap_put_of_blind {α : Type} {g : List String × Option Data → List α}
    (style : EntryStyle) (above : Key) (name : KeyPart) (v : Value) (inFront : Bool)
    (hg : ∀ said, Key.names (above ++ [name]) <+: said.1 → g said = []) (entries : List Entry) :
    (style.put above name v inFront entries).flatMap (fun e => g e.said)
      = entries.flatMap fun e => g e.said := by
  obtain ⟨before, e, after, hput, hothers, he⟩ := put_cases style above name v inFront entries
  have hnone : g e.said = [] := by
    rw [he.said]
    exact hg _ List.prefix_rfl
  have hkept : (entries.filter (!sameGroup (Key.names (above ++ [name])) ·)).flatMap
      (fun e => g e.said) = entries.flatMap fun e => g e.said := by
    refine flatMap_filter_of_nil fun o _ ho => ?_
    refine hg _ (List.isPrefixOf_iff_prefix.1 ?_)
    rw [Bool.not_eq_false'] at ho
    exact ho
  rw [hput, List.flatMap_append, List.flatMap_cons, hnone, List.nil_append, ← List.flatMap_append,
    hothers, hkept]

/-- What looks at the entries for the bound name only sees the one that is there. -/
theorem flatMap_put_of_keen {α : Type} {g : List String × Option Data → List α}
    (style : EntryStyle) (above : Key) (name : KeyPart) (v : Value) (inFront : Bool)
    (hg : ∀ said, ¬ Key.names (above ++ [name]) <+: said.1 → g said = []) (entries : List Entry) :
    (style.put above name v inFront entries).flatMap (fun e => g e.said)
      = g (Key.names (above ++ [name]), v.data?) := by
  obtain ⟨before, e, after, hput, hothers, he⟩ := put_cases style above name v inFront entries
  have hnone : ∀ o ∈ before ++ after, g o.said = [] := by
    rw [hothers]
    intro o ho
    refine hg _ fun hprefix => ?_
    have hgroup := (List.mem_filter.1 ho).2
    rw [show sameGroup _ o = true from List.isPrefixOf_iff_prefix.2 hprefix] at hgroup
    cases hgroup
  have hbefore : before.flatMap (fun e => g e.said) = [] :=
    List.flatMap_eq_nil_iff.2 fun o ho => hnone o (List.mem_append_left _ ho)
  have hafter : after.flatMap (fun e => g e.said) = [] :=
    List.flatMap_eq_nil_iff.2 fun o ho => hnone o (List.mem_append_right _ ho)
  rw [hput, List.flatMap_append, List.flatMap_cons, hbefore, hafter, he.said, List.nil_append,
    List.append_nil]

end EntryStyle

end LintWatch.Toml
