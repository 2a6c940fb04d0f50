import LintWatch.Files.Tree
import Mathlib.Data.List.Basic

/-!
# Where paths lead

`Leads` says step by step how a path leads to a place, and how many links may still be followed
then; a walk along a path succeeds exactly where it leads (`walk_eq_ok_iff`). It depends on nothing
but where a walk can go on and which links stand where (`Leads.mono`). So directories that are added
where nothing stood turn no path aside (`Leads.extends`), and for a path that leads to a file it
makes no difference whether the file is there: `leads_insert_iff`, `walk_erase`.
-/

namespace LintWatch.FileTree

/-- Whether a walk can go on from a place: something stands there that is no file. -/
def Passable (t : FileTree) (place : Place) : Prop :=
  ∃ e, t.entry? place = some e ∧ ∀ content executable, e ≠ .file content executable

/-- A part of a path that is a name. -/
def IsName (part : List UInt8) : Prop :=
  ¬ (part = [] ∨ part = [Path.dot]) ∧ part ≠ [Path.dot, Path.dot]

/-- Where the target of a link in a directory starts. -/
def linkBase (place : Place) (target : Path) : Place :=
  if target.isAbsolute then [] else place

/-- How parts of a path lead from a place to another, and how many of the links are left then. -/
inductive Leads (t : FileTree) (follow : Bool) :
    (links : Nat) → Place → (parts : List (List UInt8)) → (left : Nat) → Place → Prop where
  | done {links : Nat} {place : Place} : Leads t follow links place [] links place
  | skip {links left : Nat} {place q : Place} {part : List UInt8} {rest : List (List UInt8)} :
      t.Passable place → part = [] ∨ part = [Path.dot] → Leads t follow links place rest left q →
      Leads t follow links place (part :: rest) left q
  | up {links left : Nat} {place q : Place} {rest : List (List UInt8)} :
      t.Passable place → Leads t follow links place.dropLast rest left q →
      Leads t follow links place ([Path.dot, Path.dot] :: rest) left q
  | stop {links : Nat} {place : Place} {part : List UInt8} {target : Path} :
      t.Passable place → IsName part → t.entry? (place ++ [part]) = some (.link target) →
      follow = false → Leads t follow links place [part] links (place ++ [part])
  | link {links left : Nat} {place q : Place} {part : List UInt8} {rest : List (List UInt8)}
      {target : Path} :
      t.Passable place → IsName part → t.entry? (place ++ [part]) = some (.link target) →
      (rest = [] → follow = true) →
      Leads t follow links (linkBase place target) (Path.split target.bytes ++ rest) left q →
      Leads t follow (links + 1) place (part :: rest) left q
  | enter {links left : Nat} {place q : Place} {part : List UInt8} {rest : List (List UInt8)} :
      t.Passable place → IsName part →
      (∀ target, t.entry? (place ++ [part]) ≠ some (.link target)) →
      Leads t follow links (place ++ [part]) rest left q →
      Leads t follow links place (part :: rest) left q

/-- A place on the way to which no link stands. -/
def Solid (t : FileTree) (place : Place) : Prop :=
  ∀ n target, t.entry? (place.take n) ≠ some (.link target)

variable {t t' : FileTree} {place q : Place} {follow : Bool} {links left : Nat}
  {part : List UInt8} {parts rest : List (List UInt8)} {target : Path}

/-! ## Single steps -/

/-- A part that means nothing is passed over. -/
theorem walk_skip (h : t.Passable place) (hpart : part = [] ∨ part = [Path.dot]) :
    t.walk follow links place (part :: rest) = t.walk follow links place rest := by
  obtain ⟨e, he, hfile⟩ := h
  rw [walk, he]
  cases e with
  | file content executable => exact absurd rfl (hfile content executable)
  | directory => exact if_pos hpart
  | link target => exact if_pos hpart

/-- Two dots lead to the directory above. -/
theorem walk_up (h : t.Passable place) :
    t.walk follow links place ([Path.dot, Path.dot] :: rest)
      = t.walk follow links place.dropLast rest := by
  obtain ⟨e, he, hfile⟩ := h
  rw [walk, he]
  cases e with
  | file content executable => exact absurd rfl (hfile content executable)
  | directory => rfl
  | link target => rfl

/-- What a name leads to. -/
theorem walk_name (h : t.Passable place) (hpart : IsName part) :
    t.walk follow links place (part :: rest) =
      match t.entry? (place ++ [part]) with
      | some (.link target) =>
        if rest = [] ∧ !follow then .ok (place ++ [part])
        else
          match links with
          | 0 => .error tooManyLinks
          | links + 1 =>
            t.walk follow links (linkBase place target) (Path.split target.bytes ++ rest)
      | _ => t.walk follow links (place ++ [part]) rest := by
  obtain ⟨e, he, hfile⟩ := h
  obtain ⟨hskip, hup⟩ := hpart
  rw [walk, he]
  cases e with
  | file content executable => exact absurd rfl (hfile content executable)
  | directory =>
      dsimp only
      rw [if_neg hskip, if_neg hup]
      rfl
  | link target =>
      dsimp only
      rw [if_neg hskip, if_neg hup]
      rfl

/-- A name that is no link is entered. -/
theorem walk_enter (h : t.Passable place) (hpart : IsName part)
    (hentry : ∀ target, t.entry? (place ++ [part]) ≠ some (.link target)) :
    t.walk follow links place (part :: rest) = t.walk follow links (place ++ [part]) rest := by
  rw [walk_name h hpart]
  split
  next target heq => exact absurd heq (hentry target)
  next => rfl

/-- A link is followed while links may be. -/
theorem walk_link (h : t.Passable place) (hpart : IsName part)
    (hentry : t.entry? (place ++ [part]) = some (.link target))
    (hrest : rest = [] → follow = true) :
    t.walk follow links place (part :: rest) =
      match links with
      | 0 => .error tooManyLinks
      | links + 1 =>
        t.walk follow links (linkBase place target) (Path.split target.bytes ++ rest) := by
  rw [walk_name h hpart, hentry]
  refine if_neg ?_
  rintro ⟨hnil, hfollow⟩
  rw [hrest hnil] at hfollow
  cases hfollow

/-- A walk succeeds exactly where the path leads. -/
theorem walk_eq_ok_iff :
    t.walk follow links place parts = .ok q ↔ ∃ left, t.Leads follow links place parts left q := by
  constructor
  · intro h
    fun_induction walk t follow links place parts with
    | case1 links place =>
        obtain rfl := Except.ok.inj h
        exact ⟨links, .done⟩
    | case2 => cases h
    | case3 => cases h
    | case4 links place part rest e hfile he hpart ih =>
        obtain ⟨left, hleads⟩ := ih h
        exact ⟨left, .skip ⟨e, he, fun c x heq => hfile c x heq⟩ hpart hleads⟩
    | case5 links place rest e hfile he _ ih =>
        obtain ⟨left, hleads⟩ := ih h
        exact ⟨left, .up ⟨e, he, fun c x heq => hfile c x heq⟩ hleads⟩
    | case6 links place part rest e hfile he hskip hup target hlink hstop =>
        obtain rfl := Except.ok.inj h
        obtain ⟨rfl, hfollow⟩ := hstop
        exact ⟨links, .stop ⟨e, he, fun c x heq => hfile c x heq⟩ ⟨hskip, hup⟩ hlink
          (by simpa using hfollow)⟩
    | case7 => cases h
    | case8 place part rest e hfile he hskip hup target hlink hstop links ih =>
        obtain ⟨left, hleads⟩ := ih h
        refine ⟨left, .link ⟨e, he, fun c x heq => hfile c x heq⟩ ⟨hskip, hup⟩ hlink ?_ hleads⟩
        intro hnil
        by_contra hfollow
        exact hstop ⟨hnil, by simpa using hfollow⟩
    | case9 links place part rest e hfile he hskip hup hlink ih =>
        obtain ⟨left, hleads⟩ := ih h
        exact ⟨left, .enter ⟨e, he, fun c x heq => hfile c x heq⟩ ⟨hskip, hup⟩ hlink hleads⟩
  · rintro ⟨left, h⟩
    induction h with
    | done => rw [walk]
    | skip hpass hpart _ ih => rw [walk_skip hpass hpart, ih]
    | up hpass _ ih => rw [walk_up hpass, ih]
    | stop hpass hpart hlink hfollow =>
        rw [walk_name hpass hpart, hlink]
        exact if_pos ⟨rfl, by rw [hfollow]; rfl⟩
    | link hpass hpart hlink hrest _ ih => exact (walk_link hpass hpart hlink hrest).trans ih
    | enter hpass hpart hentry _ ih => rw [walk_enter hpass hpart hentry, ih]

/-- Where a path leads on, a walk can go on. -/
theorem Leads.passable (h : t.Leads follow links place (part :: rest) left q) :
    t.Passable place := by
  cases h with
  | skip hpass => exact hpass
  | up hpass => exact hpass
  | stop hpass => exact hpass
  | link hpass => exact hpass
  | enter hpass => exact hpass

/-- No links are gained. -/
theorem Leads.left_le (h : t.Leads follow links place parts left q) : left ≤ links := by
  induction h with
  | done => exact Nat.le_refl _
  | skip _ _ _ ih => exact ih
  | up _ _ ih => exact ih
  | stop => exact Nat.le_refl _
  | link _ _ _ _ _ ih => exact Nat.le_succ_of_le ih
  | enter _ _ _ _ ih => exact ih

/-! ## Parts of a path -/

/-- The first parts of a path lead somewhere, and the others lead on from there. -/
theorem Leads.split_append (h : t.Leads follow links place (parts ++ rest) left q)
    (hrest : rest ≠ []) :
    ∃ m p, t.Leads true links place parts m p ∧ t.Leads follow m p rest left q := by
  generalize hall : parts ++ rest = all at h
  induction h generalizing parts with
  | done => exact absurd (List.append_eq_nil_iff.1 hall).2 hrest
  | @skip links left place q part more hpass hpart hleads ih =>
      cases parts with
      | nil =>
          obtain rfl : rest = _ := hall
          exact ⟨links, place, .done, .skip hpass hpart hleads⟩
      | cons first parts =>
          obtain ⟨rfl, rfl⟩ := List.cons.inj hall
          obtain ⟨m, p, hfirst, hlast⟩ := ih rfl
          exact ⟨m, p, .skip hpass hpart hfirst, hlast⟩
  | @up links left place q more hpass hleads ih =>
      cases parts with
      | nil =>
          obtain rfl : rest = _ := hall
          exact ⟨links, place, .done, .up hpass hleads⟩
      | cons first parts =>
          obtain ⟨rfl, rfl⟩ := List.cons.inj hall
          obtain ⟨m, p, hfirst, hlast⟩ := ih rfl
          exact ⟨m, p, .up hpass hfirst, hlast⟩
  | @stop links place part target hpass hpart hlink hfollow =>
      cases parts with
      | nil =>
          obtain rfl : rest = _ := hall
          exact ⟨links, place, .done, .stop hpass hpart hlink hfollow⟩
      | cons first parts =>
          obtain ⟨-, hnil⟩ := List.cons.inj hall
          exact absurd (List.append_eq_nil_iff.1 hnil).2 hrest
  | @link links left place q part more target hpass hpart hlink hmore hleads ih =>
      cases parts with
      | nil =>
          obtain rfl : rest = _ := hall
          exact ⟨links + 1, place, .done, .link hpass hpart hlink hmore hleads⟩
      | cons first parts =>
          obtain ⟨rfl, rfl⟩ := List.cons.inj hall
          obtain ⟨m, p, hfirst, hlast⟩ := ih (List.append_assoc _ _ _)
          exact ⟨m, p, .link hpass hpart hlink (fun _ => rfl) hfirst, hlast⟩
  | @enter links left place q part more hpass hpart hentry hleads ih =>
      cases parts with
      | nil =>
          obtain rfl : rest = _ := hall
          exact ⟨links, place, .done, .enter hpass hpart hentry hleads⟩
      | cons first parts =>
          obtain ⟨rfl, rfl⟩ := List.cons.inj hall
          obtain ⟨m, p, hfirst, hlast⟩ := ih rfl
          exact ⟨m, p, .enter hpass hpart hentry hfirst, hlast⟩

/-- A walk along a path goes on from where the first parts lead. -/
theorem Leads.walk_append {p : Place} (h : t.Leads true links place parts left p)
    (hrest : rest ≠ []) :
    t.walk follow links place (parts ++ rest) = t.walk follow left p rest := by
  induction h with
  | done => rfl
  | skip hpass hpart _ ih => rw [List.cons_append, walk_skip hpass hpart, ih]
  | up hpass _ ih => rw [List.cons_append, walk_up hpass, ih]
  | stop _ _ _ hfollow => cases hfollow
  | link hpass hpart hlink _ _ ih =>
      rw [List.cons_append, walk_link hpass hpart hlink fun hnil =>
        absurd (List.append_eq_nil_iff.1 hnil).2 hrest, ← List.append_assoc]
      exact ih
  | enter hpass hpart hentry _ ih => rw [List.cons_append, walk_enter hpass hpart hentry, ih]

/-- With fewer links a path leads to the same place, or the links do not suffice. -/
theorem Leads.walk_of_le {fewer : Nat} (h : t.Leads true links place parts left q)
    (hfewer : fewer ≤ links) :
    t.walk true fewer place parts = .ok q ∨
      t.walk true fewer place parts = .error tooManyLinks := by
  induction h generalizing fewer with
  | done =>
      left
      rw [walk]
  | skip hpass hpart _ ih =>
      rw [walk_skip hpass hpart]
      exact ih hfewer
  | up hpass _ ih =>
      rw [walk_up hpass]
      exact ih hfewer
  | stop _ _ _ hfollow => cases hfollow
  | link hpass hpart hlink hrest _ ih =>
      rw [walk_link hpass hpart hlink hrest]
      cases fewer with
      | zero => exact Or.inr rfl
      | succ fewer => exact ih (Nat.le_of_succ_le_succ hfewer)
  | enter hpass hpart hentry _ ih =>
      rw [walk_enter hpass hpart hentry]
      exact ih hfewer

/-! ## Changes to a tree -/

/-- Taking the entry of one place out leaves those of the others. -/
theorem lookup_filter_place {other : Place} (h : other ≠ place) :
    ∀ entries : List (Place × FileEntry),
      (entries.filter (·.1 ≠ place)).lookup other = entries.lookup other
  | [] => rfl
  | (p, e) :: entries => by
      by_cases hp : p = place
      · have hne : (other == p) = false := beq_false_of_ne fun heq => h (heq.trans hp)
        rw [List.filter_cons_of_neg (by simpa using hp), List.lookup_cons, hne]
        exact lookup_filter_place h entries
      · rw [List.filter_cons_of_pos (by simpa using hp), List.lookup_cons, List.lookup_cons,
          lookup_filter_place h entries]

/-- What stands in a tree after something has been put at a place below the root. -/
theorem entry?_insert {e : FileEntry} (hplace : place ≠ []) (other : Place) :
    entry? (t.insert place e) other = if other = place then some e else t.entry? other := by
  unfold entry? insert
  by_cases hother : other = place
  · subst hother
    rw [if_neg hplace, if_pos rfl, List.lookup_cons_self]
  · rw [if_neg hother]
    split
    next => rfl
    next =>
      rw [List.lookup_cons, beq_false_of_ne hother]
      exact lookup_filter_place hother t.entries

/-- What stands in a tree after a place below the root has been cleared. -/
theorem entry?_erase (hplace : place ≠ []) (other : Place) :
    entry? (t.erase place) other = if other = place then none else t.entry? other := by
  unfold entry? erase
  by_cases hother : other = place
  · subst hother
    rw [if_neg hplace, if_pos rfl, List.lookup_eq_none_iff]
    intro entry hentry
    exact bne_iff_ne.2 (of_decide_eq_true (List.mem_filter.1 hentry).2).symm
  · rw [if_neg hother, lookup_filter_place hother]

/-- A tree with more directories, where nothing stood. -/
structure Extends (t t' : FileTree) : Prop where
  kept {place : Place} {e : FileEntry} : t.entry? place = some e → t'.entry? place = some e
  new {place : Place} : t.entry? place = none →
    t'.entry? place = none ∨ t'.entry? place = some .directory

/-- A tree has no more directories than it has. -/
theorem Extends.refl (t : FileTree) : t.Extends t :=
  ⟨id, Or.inl⟩

/-- More directories, and again more. -/
theorem Extends.trans {t'' : FileTree} (h : t.Extends t') (h' : t'.Extends t'') :
    t.Extends t'' := by
  refine ⟨fun he => h'.kept (h.kept he), fun hnone => ?_⟩
  rcases h.new hnone with hnone | hdirectory
  · exact h'.new hnone
  · exact Or.inr (h'.kept hdirectory)

/-- A directory may be added where nothing stands. -/
theorem extends_insert (h : t.entry? place = none) : t.Extends (t.insert place .directory) := by
  have hplace : place ≠ [] := by
    rintro rfl
    cases h
  constructor
  · intro other e he
    rw [entry?_insert hplace, if_neg]
    · exact he
    · rintro rfl
      rw [h] at he
      cases he
  · intro other hnone
    rw [entry?_insert hplace]
    split
    next => exact Or.inr rfl
    next => exact Or.inl hnone

/-- A path leads on as it did if walks can still go on and the same links stand there. -/
theorem Leads.mono (hpassable : ∀ {place}, t.Passable place → t'.Passable place)
    (hlinks : ∀ place target, t'.entry? place = some (.link target) ↔
      t.entry? place = some (.link target))
    (h : t.Leads follow links place parts left q) : t'.Leads follow links place parts left q := by
  induction h with
  | done => exact .done
  | skip hpass hpart _ ih => exact .skip (hpassable hpass) hpart ih
  | up hpass _ ih => exact .up (hpassable hpass) ih
  | stop hpass hpart hlink hfollow =>
      exact .stop (hpassable hpass) hpart ((hlinks _ _).2 hlink) hfollow
  | link hpass hpart hlink hrest _ ih =>
      exact .link (hpassable hpass) hpart ((hlinks _ _).2 hlink) hrest ih
  | enter hpass hpart hentry _ ih =>
      exact .enter (hpassable hpass) hpart (fun target => mt (hlinks _ _).1 (hentry target)) ih

/-- More directories turn no path aside. -/
theorem Leads.extends (hmore : t.Extends t') (h : t.Leads follow links place parts left q) :
    t'.Leads follow links place parts left q := by
  refine h.mono (fun ⟨e, he, hfile⟩ => ⟨e, hmore.kept he, hfile⟩) fun place target => ?_
  refine ⟨fun hlink => ?_, hmore.kept⟩
  cases he : t.entry? place with
  | none => rcases hmore.new he with hnew | hnew <;> simp [hnew] at hlink
  | some e => rwa [hmore.kept he] at hlink

/-- Where nothing stands a file may be put without turning a path aside. -/
theorem leads_insert_iff {content : List UInt8} {executable : Bool} {r : Place} (hq : q ≠ []) :
    (t.insert q (.file content executable)).Leads follow links place parts left r ↔
      (t.erase q).Leads follow links place parts left r := by
  have hentry : ∀ other ≠ q, entry? (t.insert q (.file content executable)) other
      = entry? (t.erase q) other := fun other hother => by
    rw [entry?_insert hq, entry?_erase hq, if_neg hother, if_neg hother]
  have hfile : entry? (t.insert q (.file content executable)) q = some (.file content executable) :=
    (entry?_insert hq q).trans (if_pos rfl)
  have hnone : entry? (t.erase q) q = none := (entry?_erase hq q).trans (if_pos rfl)
  have hlinks : ∀ other target,
      entry? (t.insert q (.file content executable)) other = some (.link target) ↔
        entry? (t.erase q) other = some (.link target) := fun other target => by
    by_cases hother : other = q
    · subst hother
      simp [hfile, hnone]
    · rw [hentry other hother]
  constructor
  · refine fun h => h.mono ?_ fun other target => (hlinks other target).symm
    rintro other ⟨e, he, hpass⟩
    have hother : other ≠ q := by
      rintro rfl
      exact hpass content executable (Option.some.inj (he.symm.trans hfile))
    exact ⟨e, (hentry other hother).symm.trans he, hpass⟩
  · refine fun h => h.mono ?_ hlinks
    rintro other ⟨e, he, hpass⟩
    have hother : other ≠ q := by
      rintro rfl
      simp [hnone] at he
    exact ⟨e, (hentry other hother).trans he, hpass⟩

/-- The root is no link. -/
theorem solid_nil (t : FileTree) : t.Solid [] := by
  intro n target hlink
  rw [List.take_nil] at hlink
  cases hlink

/-- The directory above a place on the way to which no link stands is such a place. -/
theorem Solid.dropLast (h : t.Solid place) : t.Solid place.dropLast := by
  intro n target
  rw [List.dropLast_eq_take, List.take_take]
  exact h _ target

/-- A place in such a directory, at which no link stands, is such a place. -/
theorem Solid.concat (h : t.Solid place)
    (hentry : ∀ target, t.entry? (place ++ [part]) ≠ some (.link target)) :
    t.Solid (place ++ [part]) := by
  intro n target
  rcases Nat.lt_or_ge place.length n with hn | hn
  · rw [List.take_of_length_le (by rw [List.length_append]; exact hn)]
    exact hentry target
  · rw [List.take_append_of_le_length hn]
    exact h n target

/-- The target of a link in such a directory starts in such a directory. -/
theorem Solid.linkBase (h : t.Solid place) (target : Path) : t.Solid (linkBase place target) := by
  unfold FileTree.linkBase
  split
  next => exact t.solid_nil
  next => exact h

/-- No link stands at such a place. -/
theorem Solid.not_link (h : t.Solid place) (target : Path) :
    t.entry? place ≠ some (.link target) := by
  have hplace := h place.length target
  rwa [List.take_length] at hplace

/-- Where a path leads from such a directory is such a place, if links are followed. -/
theorem Leads.solid (h : t.Leads true links place parts left q) (hsolid : t.Solid place) :
    t.Solid q := by
  induction h with
  | done => exact hsolid
  | skip _ _ _ ih => exact ih hsolid
  | up _ _ ih => exact ih hsolid.dropLast
  | stop _ _ _ hfollow => cases hfollow
  | link _ _ _ _ _ ih => exact ih (hsolid.linkBase _)
  | enter _ _ hentry _ ih => exact ih (hsolid.concat hentry)

/-- Goes on from a link in a directory. -/
def walkLink (t : FileTree) (place : Place) (target : Path) : (links : Nat) → Except IoError Place
  | 0 => .error tooManyLinks
  | links + 1 => t.walk true links (linkBase place target) (Path.split target.bytes)

/-- Where a link stands at the end of a path, a walk that follows it goes on from there. -/
theorem Leads.walk_follow (h : t.Leads false links place parts left q) (hsolid : t.Solid place)
    (hlink : t.entry? q = some (.link target)) :
    t.walk true links place parts = t.walkLink q.dropLast target left := by
  induction h with
  | done => exact absurd hlink (hsolid.not_link target)
  | skip hpass hpart _ ih => rw [walk_skip hpass hpart, ih hsolid hlink]
  | up hpass _ ih => rw [walk_up hpass, ih hsolid.dropLast hlink]
  | @stop links place part _ hpass hpart _ _ =>
      rw [walk_link hpass hpart hlink fun _ => rfl, List.append_nil, List.dropLast_concat]
      cases links with
      | zero => rfl
      | succ links => rfl
  | link hpass hpart hlink' _ _ ih =>
      exact (walk_link hpass hpart hlink' fun _ => rfl).trans (ih (hsolid.linkBase _) hlink)
  | enter hpass hpart hentry _ ih =>
      rw [walk_enter hpass hpart hentry, ih (hsolid.concat hentry) hlink]

/-- Where no link stands at the end of a path, it makes no difference whether one is followed. -/
theorem Leads.following (h : t.Leads false links place parts left q)
    (hq : ∀ target, t.entry? q ≠ some (.link target)) : t.Leads true links place parts left q := by
  induction h with
  | done => exact .done
  | skip hpass hpart _ ih => exact .skip hpass hpart (ih hq)
  | up hpass _ ih => exact .up hpass (ih hq)
  | stop _ _ hlink _ => exact absurd hlink (hq _)
  | link hpass hpart hlink _ _ ih => exact .link hpass hpart hlink (fun _ => rfl) (ih hq)
  | enter hpass hpart hentry _ ih => exact .enter hpass hpart hentry (ih hq)

/-- A walk that finds a file, or nothing; too many links do not say which. -/
def FindsFile (t : FileTree) (walked : Except IoError Place) : Prop :=
  walked ≠ .error tooManyLinks ∧ ∀ q, walked = .ok q → ¬ t.Passable q

/-- A walk that leads to a directory, or along too many links, finds no file. -/
theorem not_findsFile {walked : Except IoError Place} (hq : t.Passable q)
    (h : walked = .ok q ∨ walked = .error tooManyLinks) : ¬ t.FindsFile walked := by
  intro hfinds
  rcases h with h | h
  · exact hfinds.2 q h hq
  · exact hfinds.1 h

/-- A path that leads to a file, or to nothing, leads there without it. -/
theorem walk_erase (h : t.Leads false links place parts left q) (hsolid : t.Solid place)
    (hq : q ≠ []) (hdirectory : t.entry? q ≠ some .directory)
    (hfinds : t.FindsFile (t.walk true links place parts)) :
    (t.erase q).walk true links place parts = .ok q := by
  have hpassable : ∀ {place}, t.Passable place → t.Solid place → (t.erase q).Passable place := by
    rintro place ⟨e, he, hfile⟩ hsolid
    have hne : place ≠ q := by
      rintro rfl
      cases e with
      | file content executable => exact hfile content executable rfl
      | directory => exact hdirectory he
      | link target => exact hsolid.not_link target he
    exact ⟨e, by rw [entry?_erase hq, if_neg hne, he], hfile⟩
  induction h with
  | done => rw [walk]
  | skip hpass hpart _ ih =>
      rw [walk_skip hpass hpart] at hfinds
      rw [walk_skip (hpassable hpass hsolid) hpart]
      exact ih hsolid hq hdirectory hfinds hpassable
  | up hpass _ ih =>
      rw [walk_up hpass] at hfinds
      rw [walk_up (hpassable hpass hsolid)]
      exact ih hsolid.dropLast hq hdirectory hfinds hpassable
  | stop hpass hpart hlink _ =>
      rw [walk_enter (hpassable hpass hsolid) hpart, walk]
      intro target
      rw [entry?_erase hq, if_pos rfl]
      intro hlink
      cases hlink
  | @link links left place q part rest target hpass hpart hlink hrest hleads ih =>
      rw [walk_link hpass hpart hlink fun _ => rfl] at hfinds
      have hne : rest ≠ [] := fun hnil => Bool.false_ne_true (hrest hnil)
      by_cases hplace : place ++ [part] = q
      · -- The path would come back to the link, and the link leads to no file.
        exfalso
        subst hplace
        have hbase := hsolid.linkBase target
        obtain ⟨m, p, hfirst, hlast⟩ := hleads.split_append hne
        have hp : t.Passable p := by
          obtain ⟨next, more, rfl⟩ := List.exists_cons_of_ne_nil hne
          exact hlast.passable
        have hagain := hlast.walk_follow (hfirst.solid hbase) hlink
        rw [List.dropLast_concat] at hagain
        have hwalk : t.walk true links (linkBase place target) (Path.split target.bytes ++ rest)
            = t.walkLink place target left := (hfirst.walk_append hne).trans hagain
        have hfinds : t.FindsFile (t.walkLink place target left) := hwalk ▸ hfinds
        refine not_findsFile hp ?_ hfinds
        cases left with
        | zero => exact Or.inr rfl
        | succ left =>
            exact hfirst.walk_of_le
              (Nat.le_trans (Nat.le_of_succ_le hlast.left_le) hfirst.left_le)
      · have hlink' : entry? (t.erase q) (place ++ [part]) = some (.link target) := by
          rw [entry?_erase hq, if_neg hplace, hlink]
        refine (walk_link (hpassable hpass hsolid) hpart hlink' fun _ => rfl).trans ?_
        exact ih (hsolid.linkBase target) hq hdirectory hfinds hpassable
  | @enter links left place q part rest hpass hpart hentry _ ih =>
      rw [walk_enter hpass hpart hentry] at hfinds
      rw [walk_enter (hpassable hpass hsolid) hpart]
      · exact ih (hsolid.concat hentry) hq hdirectory hfinds hpassable
      · intro target
        rw [entry?_erase hq]
        split
        next =>
          intro hlink
          cases hlink
        next => exact hentry target

/-- If a path leads anywhere without what it names, it leads to where that was. -/
theorem Leads.eq_of_walk_erase {r : Place} (h : t.Leads false links place parts left q)
    (hq : q ≠ []) (hwalk : (t.erase q).walk true links place parts = .ok r) : r = q := by
  have hpassable : ∀ {links place part rest}, (t.erase q).walk true links place (part :: rest)
      = .ok r → (t.erase q).Passable place := fun hwalk =>
    (walk_eq_ok_iff.1 hwalk).choose_spec.passable
  induction h with
  | done =>
      rw [walk] at hwalk
      exact (Except.ok.inj hwalk).symm
  | skip _ hpart _ ih => exact ih hq (walk_skip (hpassable hwalk) hpart ▸ hwalk) hpassable
  | up _ _ ih => exact ih hq (walk_up (hpassable hwalk) ▸ hwalk) hpassable
  | @stop links place part target _ hpart _ _ =>
      rw [walk_enter (hpassable hwalk) hpart, walk] at hwalk
      · exact (Except.ok.inj hwalk).symm
      · intro target
        rw [entry?_erase hq, if_pos rfl]
        intro hlink
        cases hlink
  | @link links left place q part rest target _ hpart hlink hrest _ ih =>
      by_cases hplace : place ++ [part] = q
      · -- Nothing stands there now, so nothing leads on.
        have hnone : entry? (t.erase q) (place ++ [part]) = none := by
          rw [entry?_erase hq, if_pos hplace]
        rw [walk_enter (hpassable hwalk) hpart (by simp [hnone])] at hwalk
        obtain ⟨next, more, rfl⟩ := List.exists_cons_of_ne_nil
          fun hnil => Bool.false_ne_true (hrest hnil)
        obtain ⟨e, he, -⟩ := hpassable hwalk
        simp [hnone] at he
      · have hlink' : entry? (t.erase q) (place ++ [part]) = some (.link target) := by
          rw [entry?_erase hq, if_neg hplace, hlink]
        exact ih hq ((walk_link (hpassable hwalk) hpart hlink' fun _ => rfl).symm.trans hwalk)
          hpassable
  | @enter links left place q part rest _ hpart hentry _ ih =>
      refine ih hq ((walk_enter (hpassable hwalk) hpart ?_).symm.trans hwalk) hpassable
      intro target
      rw [entry?_erase hq]
      split
      next =>
        intro hlink
        cases hlink
      next => exact hentry target

end LintWatch.FileTree
