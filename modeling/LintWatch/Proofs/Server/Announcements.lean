import LintWatch.Proofs.Json.Record
import LintWatch.Proofs.Server.Incoming
import LintWatch.Server.Connection

/-!
# Announced diagnostics

`Announces` says by the members of a frame which diagnostics it announces for which file, entry by
entry (`ShownAs`). With the standard chain exactly these frames lead to an event, and to no more
than one, which carries exactly these diagnostics: `published_iff_announced`. One entry that is no
diagnostic is enough for nothing to be published.
-/

namespace LintWatch.Server

open Json (IsPair IsOptional)

variable {v entry params frame : Json} {path : Path} {item : LintWatch.Diagnostic}
  {items : List LintWatch.Diagnostic} {entries : List Json} {uri : String}

/-! ## Ranges -/

/-- A line and a character, which are natural numbers of at most 32 bits. -/
def IsPoint (v : Json) (p : Point) : Prop :=
  IsPair "line" "character" v (.ofNat p.row.toNat) (.ofNat p.column.toNat)

/-- A start and an end. -/
def IsRange (v : Json) (r : Range) : Prop :=
  ∃ start stop, IsPair "start" "end" v start stop ∧ IsPoint start r.start ∧ IsPoint stop r.stop

/-- A position is read exactly if it is a line and a character. -/
theorem Position.of_json_iff {p : Position} : Position.ofJson? v = some p ↔ IsPoint v p.point := by
  simp only [Position.ofJson?, Option.bind_eq_bind, Option.pure_def, Option.bind_eq_some_iff,
    Option.some.injEq, Record.required?, Json.nat32?_eq_some_iff]
  constructor
  · rintro ⟨r, hr, line, ⟨_, hline, rfl⟩, character, ⟨_, hcharacter, rfl⟩, rfl⟩
    exact (Json.exists_record_iff (by decide)).1 ⟨r, hr, hline, hcharacter⟩
  · intro h
    obtain ⟨r, hr, hline, hcharacter⟩ := (Json.exists_record_iff (by decide)).2 h
    exact ⟨r, hr, p.line, ⟨_, hline, rfl⟩, p.character, ⟨_, hcharacter, rfl⟩, rfl⟩

/-- The range of a span. -/
def Span.range (s : Span) : Range :=
  ⟨s.start.point, s.stop.point⟩

/-- A span is read exactly if it is a start and an end. -/
theorem Span.of_json_iff {s : Span} : Span.ofJson? v = some s ↔ IsRange v s.range := by
  simp only [Span.ofJson?, Option.bind_eq_bind, Option.pure_def, Option.bind_eq_some_iff,
    Option.some.injEq, Record.required?, Position.of_json_iff]
  constructor
  · rintro ⟨r, hr, start, ⟨a, ha, hstart⟩, stop, ⟨b, hb, hstop⟩, rfl⟩
    exact ⟨a, b, (Json.exists_record_iff (by decide)).1 ⟨r, hr, ha, hb⟩, hstart, hstop⟩
  · rintro ⟨a, b, hpair, hstart, hstop⟩
    obtain ⟨r, hr, ha, hb⟩ := (Json.exists_record_iff (by decide)).2 hpair
    exact ⟨r, hr, s.start, ⟨a, ha, hstart⟩, s.stop, ⟨b, hb, hstop⟩, rfl⟩

/-! ## Entries -/

/-- What a diagnostic is read from. Members of other names are kept, whatever they are. -/
structure Diagnostic.IsRead (entry : Json) (d : Diagnostic) : Prop where
  span : ∃ v, entry.get? "range" = some v ∧ IsRange v d.span.range
  severity : IsOptional (fun v n => v = .ofNat n.toNat) (entry.get? "severity") d.severity
  code : IsOptional (fun v code => v = code) (entry.get? "code") d.code
  source : IsOptional (fun v source => v = .str source) (entry.get? "source") d.source
  message : entry.get? "message" = some (.str d.message)
  extra : ∃ members, entry = .obj members ∧ d.extra = members.filter fun m => !names.contains m.1

/-- A diagnostic is read exactly if all its members are. -/
theorem Diagnostic.of_json_iff {d : Diagnostic} :
    Diagnostic.ofJson? entry = some d ↔ d.IsRead entry := by
  simp only [Diagnostic.ofJson?, Option.bind_eq_bind, Option.pure_def, Option.bind_eq_some_iff,
    Option.some.injEq, Record.required?, Json.find_eq_lookup, Json.optional_eq_some_iff,
    Json.nat64?_eq_some_iff, Json.text?_eq_some_iff, Span.of_json_iff]
  constructor
  · rintro ⟨members, hmembers, span, hspan, severity, hseverity, code, hcode, source, hsource,
      message, ⟨_, hmessage, rfl⟩, rfl⟩
    cases entry with
    | obj members' =>
        cases hmembers
        exact ⟨hspan, hseverity, hcode, hsource, hmessage, _, rfl, rfl⟩
    | _ => cases hmembers
  · rintro ⟨hspan, hseverity, hcode, hsource, hmessage, members, rfl, hextra⟩
    refine ⟨members, rfl, d.span, hspan, d.severity, hseverity, d.code, hcode, d.source, hsource,
      d.message, ⟨_, hmessage, rfl⟩, ?_⟩
    rw [← hextra]

/-- What a severity stands for. One that is missing, null or unknown counts as a warning. -/
inductive IsSeverity : Option Json → Severity → Prop where
  | missing : IsSeverity none .warning
  | null : IsSeverity (some .null) .warning
  | error : IsSeverity (some (.ofNat 1)) .error
  | warning : IsSeverity (some (.ofNat 2)) .warning
  | information : IsSeverity (some (.ofNat 3)) .info
  | hint : IsSeverity (some (.ofNat 4)) .info
  | unknown {n : Nat} : n = 0 ∨ 4 < n → n < 2 ^ 64 → IsSeverity (some (.ofNat n)) .warning

/-- The rule code that a value stands for: a text that is not empty, or a number. -/
def ruleCode? : Option Json → Option String
  | some (.str code) => if code = "" then none else some code
  | some (.num n) => some n.render
  | _ => none

/-- A message with a code in front of it, once: as it is when it starts with the code, or when
there is none. -/
inductive IsExcerpt (message : String) : Option String → String → Prop where
  | uncoded : IsExcerpt message none message
  | present {code : String} : (code ++ " — ").toList <+: message.toList →
      IsExcerpt message (some code) message
  | added {code : String} : ¬ (code ++ " — ").toList <+: message.toList →
      IsExcerpt message (some code) (code ++ " — " ++ message)

/-- What an entry of announced diagnostics is shown as, in the file at `path`. -/
structure ShownAs (path : Path) (entry : Json) (item : LintWatch.Diagnostic) : Prop where
  file : item.file = path
  position : ∃ v, entry.get? "range" = some v ∧ IsRange v item.position
  severity : IsSeverity (entry.get? "severity") item.severity
  excerpt : ∃ message, entry.get? "message" = some (.str message) ∧
    IsExcerpt message (ruleCode? (entry.get? "code")) item.excerpt
  url : ∀ link, item.url = some link ↔
    ∃ v, entry.get? "codeDescription" = some v ∧ v.get? "href" = some (.str link)
  /-- The source is not shown, but it must be a text if there is one. -/
  source : ∃ source : Option String, IsOptional (fun v source => v = .str source)
    (entry.get? "source") source

/-- A number is unknown as a severity if it is not one of the first four. -/
theorem of_lsp_eq_none_iff {n : UInt64} : Severity.ofLsp? n = none ↔ n.toNat = 0 ∨ 4 < n.toNat := by
  simp only [Severity.ofLsp?, ← UInt64.toNat_inj, UInt64.reduceToNat]
  grind

/-- A severity is shown as what it stands for. -/
theorem is_severity_iff {found : Option Json} {s : Severity} :
    IsSeverity found s ↔ ∃ n, IsOptional (fun v n => v = .ofNat n.toNat) found n ∧
      s = (n.bind Severity.ofLsp?).getD .warning := by
  constructor
  · intro h
    cases h with
    | missing => exact ⟨none, .missing, rfl⟩
    | null => exact ⟨none, .null, rfl⟩
    | error => exact ⟨some 1, .given nofun rfl, rfl⟩
    | warning => exact ⟨some 2, .given nofun rfl, rfl⟩
    | information => exact ⟨some 3, .given nofun rfl, rfl⟩
    | hint => exact ⟨some 4, .given nofun rfl, rfl⟩
    | @unknown n hn hlt =>
        have hnat : (UInt64.ofNat n).toNat = n := UInt64.toNat_ofNat_of_lt' hlt
        have hnone : Severity.ofLsp? (UInt64.ofNat n) = none :=
          of_lsp_eq_none_iff.2 (by rwa [hnat])
        refine ⟨some (UInt64.ofNat n), .given nofun (by rw [hnat]), ?_⟩
        rw [Option.bind_some, hnone]
        rfl
  · rintro ⟨n, h, rfl⟩
    cases h with
    | missing => exact .missing
    | null => exact .null
    | @given v n _ hn =>
        subst hn
        cases hs : Severity.ofLsp? n with
        | none =>
            rw [Option.bind_some, hs]
            exact .unknown (of_lsp_eq_none_iff.1 hs) n.toNat_lt
        | some s =>
            -- Only the first four numbers are known.
            have hknown : n = 1 ∨ n = 2 ∨ n = 3 ∨ n = 4 := by
              unfold Severity.ofLsp? at hs
              grind
            rcases hknown with rfl | rfl | rfl | rfl
            · exact .error
            · exact .warning
            · exact .information
            · exact .hint

/-- A message is shown with its code in front, once. -/
theorem is_excerpt_iff {message excerpt : String} {code : Option String} :
    IsExcerpt message code excerpt ↔
      excerpt = match code with
        | some code => Rule.withCode code message
        | none => message := by
  have hstarts : ∀ code, Rule.startsWith message (Rule.lead code) = true
      ↔ (code ++ " — ").toList <+: message.toList := by
    intro code
    rw [Rule.startsWith, List.isPrefixOf_iff_prefix]
    rfl
  constructor
  · intro h
    cases h with
    | uncoded => rfl
    | present h => exact (Rule.withCode_of_startsWith ((hstarts _).2 h)).symm
    | added h =>
        rw [← hstarts] at h
        show _ = Rule.withCode _ message
        rw [Rule.withCode, if_neg h]
        rfl
  · rintro rfl
    cases code with
    | none => exact .uncoded
    | some code =>
        show IsExcerpt message (some code) (Rule.withCode code message)
        unfold Rule.withCode
        split
        next h => exact .present ((hstarts code).1 h)
        next h => exact .added fun hprefix => h ((hstarts code).2 hprefix)

namespace Diagnostic

variable {d : Diagnostic}

/-- The code of a diagnostic is the one that its entry gives. -/
theorem IsRead.code_text (h : d.IsRead entry) : d.codeText? = ruleCode? (entry.get? "code") := by
  have hcode := h.code
  unfold codeText?
  generalize d.code = code at hcode ⊢
  generalize entry.get? "code" = found at hcode ⊢
  cases hcode with
  | missing => rfl
  | null => rfl
  | @given v code _ heq =>
      subst heq
      cases v <;> rfl

/-- The link of a diagnostic is the one that its entry gives. -/
theorem IsRead.link_eq_some_iff (h : d.IsRead entry) (link : String) :
    d.link? = some link ↔
      ∃ v, entry.get? "codeDescription" = some v ∧ v.get? "href" = some (.str link) := by
  obtain ⟨members, rfl, hextra⟩ := h.extra
  have hfound : Json.lookupMember "codeDescription" d.extra
      = Json.get? (.obj members) "codeDescription" := by
    rw [hextra]
    exact Json.lookup_filter_of_pos fun _ => by simp [names]
  simp only [link?, hfound, Option.bind_eq_bind, Option.bind_eq_some_iff, Json.text?_eq_some_iff,
    exists_eq_right]

/-- A diagnostic as it is shown with the code in front of its message. -/
def shownCoded (path : Path) (d : Diagnostic) : LintWatch.Diagnostic :=
  shown path { d with message := d.codedMessage }

/-- Any value is read as a code. -/
theorem exists_code (found : Option Json) :
    ∃ code : Option Json, IsOptional (fun v code => v = code) found code := by
  cases found with
  | none => exact ⟨none, .missing⟩
  | some v =>
      by_cases hv : v = .null
      · subst hv
        exact ⟨none, .null⟩
      · exact ⟨some v, .given hv rfl⟩

/-- An entry is shown exactly if it is read, with the code in front of its message. -/
theorem shown_as_iff :
    ShownAs path entry item ↔
      ∃ d, Diagnostic.ofJson? entry = some d ∧ item = d.shownCoded path := by
  constructor
  · rintro ⟨hfile, ⟨v, hrange, hposition⟩, hseverity, ⟨message, hmessage, hexcerpt⟩, hurl,
      source, hsource⟩
    obtain ⟨members, rfl⟩ := Json.exists_members_of_get hrange
    obtain ⟨n, hn, hseverity⟩ := is_severity_iff.1 hseverity
    obtain ⟨code, hcode⟩ := exists_code (Json.get? (.obj members) "code")
    -- The diagnostic that is read from the entry.
    let d : Diagnostic :=
      { span := ⟨⟨item.position.start.row, item.position.start.column⟩,
          ⟨item.position.stop.row, item.position.stop.column⟩⟩
        severity := n, code, source, message
        extra := members.filter fun m => !names.contains m.1 }
    have hd : d.IsRead (.obj members) :=
      ⟨⟨v, hrange, hposition⟩, hn, hcode, hsource, hmessage, members, rfl, rfl⟩
    refine ⟨d, of_json_iff.2 hd, ?_⟩
    have hmessage : item.excerpt = d.codedMessage := by
      rw [is_excerpt_iff, ← hd.code_text] at hexcerpt
      exact hexcerpt
    have hlink : item.url = d.link? :=
      Option.ext fun link => (hurl link).trans (hd.link_eq_some_iff link).symm
    obtain ⟨severity, excerpt, file, position, url⟩ := item
    simp only [shownCoded, shown, LintWatch.Diagnostic.mk.injEq]
    exact ⟨hseverity, hmessage, hfile, rfl, hlink⟩
  · rintro ⟨d, hd, rfl⟩
    have h := of_json_iff.1 hd
    refine ⟨rfl, h.span, is_severity_iff.2 ⟨_, h.severity, rfl⟩, ⟨d.message, h.message, ?_⟩,
      fun link => h.link_eq_some_iff link, ⟨_, h.source⟩⟩
    rw [is_excerpt_iff, ← h.code_text]
    rfl

end Diagnostic

/-! ## Publications -/

/-- The version of a document, an integer of 32 bits. -/
def IsVersion (v : Json) (n : Int) : Prop :=
  v = .num (.int n) ∧ -0x80000000 ≤ n ∧ n ≤ 0x7FFFFFFF

/-- The parameters of a notification that publishes diagnostics: the URI of a file, its version, if
there is one, and the entries. -/
inductive IsPublication : (params : Json) → String → Option Int → List Json → Prop where
  | named {params : Json} {uri : String} {version : Option Int} {entries : List Json} :
      params.get? "uri" = some (.str uri) →
      IsOptional IsVersion (params.get? "version") version →
      params.get? "diagnostics" = some (.arr entries) →
      IsPublication params uri version entries
  | ordered {v : Json} {uri : String} {version : Option Int} {entries : List Json} :
      IsOptional IsVersion (some v) version →
      IsPublication (.arr [.str uri, v, .arr entries]) uri version entries

/-- Parameters have at most one list of entries. -/
theorem IsPublication.entries_unique {uri' : String} {version version' : Option Int}
    {entries' : List Json} (h : IsPublication params uri version entries)
    (h' : IsPublication params uri' version' entries') : entries = entries' := by
  cases h with
  | named huri _ hentries =>
      cases h' with
      | named _ _ hentries' =>
          exact Json.arr.inj (Option.some.inj (hentries.symm.trans hentries'))
      | ordered _ => cases huri
  | ordered _ =>
      cases h' with
      | named huri _ _ => cases huri
      | ordered _ => rfl

/-- The fields of a publication are read from where they stand. -/
theorem exists_publication_record_iff {version : Option Int} :
    (∃ r, params.record? ["uri", "version", "diagnostics"] = some r ∧
      r.find? "uri" = some (.str uri) ∧ IsOptional IsVersion (r.find? "version") version ∧
        r.find? "diagnostics" = some (.arr entries)) ↔
      IsPublication params uri version entries := by
  constructor
  · rintro ⟨r, hr, huri, hversion, hentries⟩
    cases params with
    | obj members =>
        cases hr
        rw [Json.find_eq_lookup] at huri hversion hentries
        exact .named huri hversion hentries
    | arr items =>
        simp only [Json.record?, Option.ite_none_right_eq_some, Option.some.injEq] at hr
        obtain ⟨hlength, rfl⟩ := hr
        rw [Json.find_eq_lookup] at huri hversion hentries
        -- The list of entries comes last, so nothing may be left out in front of it.
        rcases items with _ | ⟨a, _ | ⟨b, _ | ⟨c, _ | ⟨d, rest⟩⟩⟩⟩
        · cases huri
        · simp [Json.lookupMember] at hentries
        · simp [Json.lookupMember] at hentries
        · simp only [List.zip_cons_cons, Json.lookup_cons, if_pos, Option.some.injEq,
            String.reduceEq, if_false] at huri hversion hentries
          subst huri hentries
          exact .ordered hversion
        · simp only [List.length_cons, List.length_nil] at hlength
          omega
    | _ => cases hr
  · intro h
    cases h with
    | named huri hversion hentries =>
        obtain ⟨members, rfl⟩ := Json.exists_members_of_get huri
        refine ⟨_, rfl, ?_, ?_, ?_⟩ <;> rw [Json.find_eq_lookup] <;> assumption
    | ordered hversion => exact ⟨_, rfl, rfl, hversion, rfl⟩

/-- A publication is read exactly if its file, its version and all its entries are. -/
theorem Publication.of_json_iff {p : Publication} :
    Publication.ofJson? params = some p ↔ ∃ entries, IsPublication params p.uri p.version entries ∧
      List.Forall₂ (fun entry d => Diagnostic.ofJson? entry = some d) entries p.diagnostics := by
  simp only [Publication.ofJson?, Option.bind_eq_bind, Option.pure_def, Option.bind_eq_some_iff,
    Option.some.injEq, Record.required?, Json.with_default_eq_some_iff, Json.int_in_eq_some_iff,
    Json.text?_eq_some_iff, Source.listOf?]
  constructor
  · rintro ⟨r, hr, uri, ⟨_, huri, rfl⟩, version, hversion, diagnostics,
      ⟨v, hv, entries, hentries, hread⟩, rfl⟩
    obtain rfl : v = .arr entries := Json.items?_eq_some_iff.1 hentries
    exact ⟨entries, exists_publication_record_iff.1 ⟨r, hr, huri, hversion, hv⟩,
      Json.mapM_eq_some_iff.1 hread⟩
  · rintro ⟨entries, hpublication, hread⟩
    obtain ⟨r, hr, huri, hversion, hentries⟩ := exists_publication_record_iff.2 hpublication
    exact ⟨r, hr, p.uri, ⟨_, huri, rfl⟩, p.version, hversion, p.diagnostics,
      ⟨_, hentries, entries, rfl, Json.mapM_eq_some_iff.2 hread⟩, rfl⟩

/-! ## Frames -/

/-- A frame announces that exactly these diagnostics are in the file at `path`, which lies in the
workspace: it is a notification with one entry for each, in order. -/
structure Announces (r : Router) (frame : Json) (path : Path)
    (items : List LintWatch.Diagnostic) : Prop where
  unidentified : frame.get? "id" = none
  method : frame.get? "method" = some (.str "textDocument/publishDiagnostics")
  entries : ∃ params uri version entries, frame.get? "params" = some params ∧
    IsPublication params uri version entries ∧ FileUri.path? uri = some path ∧
      List.Forall₂ (ShownAs path) entries items
  within : ∃ root ∈ r.roots, root.components <+: path.normalize.components

/-- Lists that are related through what is made of their elements are related one by one. -/
theorem exists_forall₂_map_iff {α β γ : Type} {P : α → β → Prop} {f : β → γ} {as : List α}
    {cs : List γ} :
    (∃ bs, List.Forall₂ P as bs ∧ cs = bs.map f) ↔
      List.Forall₂ (fun a c => ∃ b, P a b ∧ c = f b) as cs := by
  induction as generalizing cs with
  | nil =>
      simp only [List.forall₂_nil_left_iff]
      constructor
      · rintro ⟨bs, rfl, rfl⟩
        rfl
      · rintro rfl
        exact ⟨[], rfl, rfl⟩
  | cons a as ih =>
      simp only [List.forall₂_cons_left_iff, ← ih]
      constructor
      · rintro ⟨_, ⟨b, bs, hb, hbs, rfl⟩, rfl⟩
        exact ⟨f b, bs.map f, ⟨b, hb, rfl⟩, ⟨bs, hbs, rfl⟩, rfl⟩
      · rintro ⟨_, _, ⟨b, hb, rfl⟩, ⟨bs, hbs, rfl⟩, rfl⟩
        exact ⟨b :: bs, ⟨b, bs, hb, hbs, rfl⟩, rfl⟩

namespace Router

variable {r : Router}

/-- A path is covered if it goes on from the components of a root. -/
theorem covers_iff :
    r.covers path = true ↔ ∃ root ∈ r.roots, root.components <+: path.normalize.components := by
  simp only [covers, List.any_eq_true, Path.startsWith_iff]

/-- With the standard chain, diagnostics are published exactly if a frame announces them. -/
theorem dispatch_publish_iff_announces (hchain : r.chain = .standard) :
    r.dispatch frame = .publish path items ↔ Announces r frame path items := by
  have hpublish : ∀ p : Publication, r.publish p = .publish path items ↔
      FileUri.path? p.uri = some path ∧ r.covers path = true ∧
        items = p.diagnostics.map fun d => d.shownCoded path := by
    intro p
    rw [publish_iff, hchain]
    show _ ∧ _ ∧ items = List.map _ (List.map _ p.diagnostics) ↔ _
    rw [List.map_map]
    rfl
  have hentries : List.Forall₂ (ShownAs path) = List.Forall₂ fun entry item =>
      ∃ d, Diagnostic.ofJson? entry = some d ∧ item = d.shownCoded path := by
    congr
    funext entry item
    exact propext Diagnostic.shown_as_iff
  rw [dispatch_publish_iff]
  constructor
  · rintro ⟨hid, hmethod, params, p, hparams, hread, hp⟩
    obtain ⟨huri, hcovers, hitems⟩ := (hpublish p).1 hp
    obtain ⟨entries, hpublication, hdiagnostics⟩ := Publication.of_json_iff.1 hread
    refine ⟨hid, hmethod, ⟨params, p.uri, p.version, entries, hparams, hpublication, huri, ?_⟩,
      covers_iff.1 hcovers⟩
    rw [hentries]
    exact exists_forall₂_map_iff.1 ⟨p.diagnostics, hdiagnostics, hitems⟩
  · rintro ⟨hid, hmethod, ⟨params, uri, version, entries, hparams, hpublication, huri, hshown⟩,
      hwithin⟩
    rw [hentries] at hshown
    obtain ⟨diagnostics, hdiagnostics, hitems⟩ := exists_forall₂_map_iff.2 hshown
    refine ⟨hid, hmethod, params, ⟨uri, version, diagnostics⟩, hparams, ?_, ?_⟩
    · exact Publication.of_json_iff.2 ⟨entries, hpublication, hdiagnostics⟩
    · exact (hpublish _).2 ⟨huri, covers_iff.2 hwithin, hitems⟩

end Router

namespace Connection

variable {c : Connection} {event : Event}

/-- A frame leads to an event exactly if it leads to diagnostics. -/
theorem mem_events_route_iff :
    event ∈ (c.route frame).2.events ↔ ∃ path items, event = .diagnostics path items ∧
      c.router.dispatch frame = .publish path items := by
  show event ∈ (Result.ofEffect (c.router.dispatch frame)).events ↔ _
  cases c.router.dispatch frame with
  | publish path items =>
      simp only [Result.ofEffect, List.mem_singleton, Effect.publish.injEq]
      constructor
      · rintro rfl
        exact ⟨path, items, rfl, rfl, rfl⟩
      · rintro ⟨_, _, rfl, rfl, rfl⟩
        rfl
  | resolve | send | warn | ignore => simp [Result.ofEffect, Result.none]

/-- A frame leads to one event at most. -/
theorem length_events_route_le (c : Connection) (frame : Json) :
    (c.route frame).2.events.length ≤ 1 := by
  show (Result.ofEffect (c.router.dispatch frame)).events.length ≤ 1
  cases c.router.dispatch frame <;> simp [Result.ofEffect, Result.none]

/-- With the standard chain, a frame leads to one event if it announces diagnostics, which are
those of the event, and to none if it does not. It announces none if an entry is no diagnostic. -/
theorem published_iff_announced (hchain : c.router.chain = .standard) (frame : Json) :
    (c.route frame).2.events.length ≤ 1 ∧
      (∀ event, event ∈ (c.route frame).2.events ↔ ∃ path items,
        event = .diagnostics path items ∧ Announces c.router frame path items) ∧
      ∀ params uri version entries, frame.get? "params" = some params →
        IsPublication params uri version entries →
        (∃ entry ∈ entries, ∀ path item, ¬ ShownAs path entry item) →
        (c.route frame).2.events = [] := by
  have hevents : ∀ event, event ∈ (c.route frame).2.events ↔ ∃ path items,
      event = .diagnostics path items ∧ Announces c.router frame path items := by
    intro event
    simp only [mem_events_route_iff, Router.dispatch_publish_iff_announces hchain]
  refine ⟨c.length_events_route_le frame, hevents, ?_⟩
  rintro params uri version entries hparams hpublication ⟨entry, hentry, hnone⟩
  refine List.eq_nil_iff_forall_not_mem.2 fun event hevent => ?_
  obtain ⟨path, items, -, hannounces⟩ := (hevents event).1 hevent
  obtain ⟨params', uri', version', entries', hparams', hpublication', -, hshown⟩ :=
    hannounces.entries
  obtain rfl : params = params' := Option.some.inj (hparams.symm.trans hparams')
  obtain rfl := hpublication.entries_unique hpublication'
  -- Every entry is shown as something, this one as well.
  obtain ⟨i, hi, rfl⟩ := List.mem_iff_getElem.1 hentry
  have hlength := hshown.length_eq
  exact hnone path _ (hshown.get hi (hlength ▸ hi))

/-- A notification with these entries for the file `/project/app.py`. -/
def announcing (entries : List Json) : Json :=
  .object [("method", .str "textDocument/publishDiagnostics"),
    ("params", .object [("uri", .str "file:///project/app.py"), ("diagnostics", .arr entries)])]

/-- An entry with all members, and one with a range in order, a number for its code, an unknown
severity and the code already in front of its message. -/
def mixedEntries : List Json :=
  let position (line character : Nat) : Json :=
    .object [("line", .ofNat line), ("character", .ofNat character)]
  [.object [("range", .object [("start", position 0 7), ("end", position 0 9)]),
      ("severity", .ofNat 1), ("code", .str "F401"), ("source", .str "Ruff"),
      ("codeDescription", .object [("href", .str "rules/F401")]),
      ("message", .str "unused import"), ("data", .null)],
    .object [("range", .arr [position 3 0, .arr [.ofNat 4, .ofNat 1]]), ("severity", .ofNat 9),
      ("code", .ofNat 7), ("message", .str "7 — odd")]]

/-- Both entries are shown, in order. With a third one that has no message, none is. -/
theorem published_mixed_entries :
    let c := ofRouter ⟨⟨1⟩, [.ofString "/project"], .empty, .standard⟩
    let path := Path.ofString "/project/app.py"
    (c.route (announcing mixedEntries)).2.events = [.diagnostics path
        [⟨.error, "F401 — unused import", path, ⟨⟨0, 7⟩, ⟨0, 9⟩⟩, some "rules/F401"⟩,
          ⟨.warning, "7 — odd", path, ⟨⟨3, 0⟩, ⟨4, 1⟩⟩, none⟩]] ∧
      (c.route (announcing (mixedEntries ++ [.object []]))).2.events = [] := by
  intro c path
  have hannounces : Announces c.router (announcing mixedEntries) path
      [⟨.error, "F401 — unused import", path, ⟨⟨0, 7⟩, ⟨0, 9⟩⟩, some "rules/F401"⟩,
        ⟨.warning, "7 — odd", path, ⟨⟨3, 0⟩, ⟨4, 1⟩⟩, none⟩] := by
    have huri : FileUri.path? "file:///project/app.py" = some path := by decide +kernel
    have hwithin : (Path.ofString "/project").components <+: path.normalize.components := by
      decide +kernel
    refine ⟨rfl, rfl, ⟨_, _, none, mixedEntries, rfl, .named rfl .missing rfl, huri,
      .cons ?_ (.cons ?_ .nil)⟩, _, List.mem_singleton.2 rfl, hwithin⟩
    · exact Diagnostic.shown_as_iff.2 ⟨_, rfl, rfl⟩
    · exact Diagnostic.shown_as_iff.2 ⟨_, rfl, rfl⟩
  obtain ⟨hlength, hevents, -⟩ := published_iff_announced (c := c) rfl (announcing mixedEntries)
  obtain ⟨-, -, hrefused⟩ :=
    published_iff_announced (c := c) rfl (announcing (mixedEntries ++ [.object []]))
  have hmem := (hevents _).2 ⟨path, _, rfl, hannounces⟩
  have hnone : ∀ path item, ¬ ShownAs path (.object []) item := by
    intro path item h
    obtain ⟨v, hrange, -⟩ := h.position
    cases hrange
  refine ⟨?_, hrefused _ _ none _ rfl (.named rfl .missing rfl) ⟨.object [], by simp, hnone⟩⟩
  obtain ⟨event, hevent⟩ := List.length_eq_one_iff.1
    (Nat.le_antisymm hlength (List.length_pos_of_mem hmem))
  rw [hevent, List.mem_singleton] at hmem
  rw [hevent, hmem]

end Connection

end LintWatch.Server
