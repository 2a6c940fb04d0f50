import LintWatch.Proofs.Path.UriRoundTrip
import LintWatch.Proofs.Server.Announcements

/-!
# Reports on files that servers have been told of

A server hears of a file by the URI of its path. When it reports on the file under that URI, the
report is published for the file, whatever the file is called: `reports_are_published`.
-/

namespace LintWatch.Server

/-- A frame reports diagnostics under a URI: it is a notification with these entries. -/
structure Reports (frame : Json) (p : Publication) : Prop where
  unidentified : frame.get? "id" = none
  method : frame.get? "method" = some (.str "textDocument/publishDiagnostics")
  entries : ∃ params entries, frame.get? "params" = some params ∧
    IsPublication params p.uri p.version entries ∧
      List.Forall₂ (fun entry d => d.IsRead entry) entries p.diagnostics

/-- A chain of layers that leave the URI of a publication alone. -/
def Chain.KeepsUri (chain : Chain) : Prop :=
  ∀ layer ∈ chain, ∀ p, (layer.apply p).uri = p.uri

namespace Chain

/-- A publication keeps its URI on the way through a chain whose layers leave it alone. -/
theorem KeepsUri.uri_apply {chain : Chain} (h : chain.KeepsUri) (p : Publication) :
    (chain.apply p).uri = p.uri := by
  unfold apply
  induction chain generalizing p with
  | nil => rfl
  | cons layer chain ih =>
      rw [List.foldl_cons, ih (fun l hl => h l (by simp [hl])) _, h layer (by simp)]

/-- The standard chain leaves the URI alone. -/
theorem keeps_uri_standard : standard.KeepsUri := by
  intro layer hlayer p
  obtain rfl := List.mem_singleton.1 hlayer
  rfl

end Chain

namespace Router

variable {r : Router} {frame : Json} {p : Publication} {path : Path}

/-- A report is published for the file that its URI names, if that is covered. -/
theorem dispatch_of_reports (h : Reports frame p) (hchain : r.chain.KeepsUri)
    (huri : FileUri.path? p.uri = some path) (hcovers : r.covers path = true) :
    r.dispatch frame
      = .publish path ((r.chain.apply p).diagnostics.map (Diagnostic.shown path)) := by
  obtain ⟨params, entries, hparams, hpublication, hentries⟩ := h.entries
  have hread : Publication.ofJson? params = some p :=
    Publication.of_json_iff.2
      ⟨entries, hpublication, hentries.imp fun _ _ => Diagnostic.of_json_iff.2⟩
  have hpublish : r.publish p
      = .publish path ((r.chain.apply p).diagnostics.map (Diagnostic.shown path)) :=
    publish_iff.2 ⟨by rw [hchain.uri_apply, huri], hcovers, rfl⟩
  exact dispatch_publish_iff.2 ⟨h.unidentified, h.method, params, p, hparams, hread, hpublish⟩

end Router

namespace Connection

variable {c : Connection} {roots : List Path} {root p : Path}

/-- An absolute path in an absolute root, both without `..`, has a URI. When a server reports under
that URI, the report leads to one event, with the diagnostics for a path that has the same
components. -/
theorem reports_are_published (hchain : c.router.chain.KeepsUri)
    (hroots : c.router.roots = roots.map Path.normalize) (hroot : root ∈ roots)
    (hrootAbsolute : root.isAbsolute = true) (hrootParent : .parent ∉ root.components)
    (habsolute : p.isAbsolute = true) (hparent : .parent ∉ p.components)
    (hwithin : root.components <+: p.components) :
    ∃ uri, FileUri.ofPath? p = some uri ∧ ∀ frame version diagnostics,
      Reports frame ⟨uri, version, diagnostics⟩ →
        ∃ path items, (c.route frame).2.events = [.diagnostics path items] ∧
          path.components = p.components ∧
            items = (c.router.chain.apply ⟨uri, version, diagnostics⟩).diagnostics.map
              (Diagnostic.shown path) := by
  obtain ⟨uri, path, huri, hpath, hsame⟩ := FileUri.components_of_uri habsolute hparent
  have hcovers : c.router.covers path = true := by
    refine Router.covers_iff.2 ⟨root.normalize, hroots ▸ List.mem_map_of_mem hroot, ?_⟩
    have hplain : Path.Plain path.components := hsame ▸ Path.plain_of_absolute habsolute hparent
    rw [Path.components_normalize_of_plain (Path.plain_of_absolute hrootAbsolute hrootParent),
      Path.components_normalize_of_plain hplain, hsame]
    exact hwithin
  refine ⟨uri, huri, fun frame version diagnostics hreports => ?_⟩
  have hdispatch := Router.dispatch_of_reports hreports hchain hpath hcovers
  refine ⟨path, _, ?_, hsame, rfl⟩
  show (Result.ofEffect (c.router.dispatch frame)).events = _
  rw [hdispatch]
  rfl

/-- A notification with these entries for the file of a URI. -/
def reporting (uri : String) (entries : List Json) : Json :=
  .object [("method", .str "textDocument/publishDiagnostics"),
    ("params", .object [("uri", .str uri), ("diagnostics", .arr entries)])]

/-- A path with names that look like a drive, like dots and like an escape, with a blank, with signs
that mean something in a URI, and with a byte that is no text. -/
def oddPath : Path :=
  ⟨Text.Utf8.encode "/C|/%2e%2E/ a\\b?#" ++ 0xFF :: Text.Utf8.encode "/D:"⟩

/-- Both entries for such a file are shown, under its own name. -/
theorem reports_are_published_for_odd_path :
    let c := ofRouter ⟨⟨1⟩, [(Path.ofString "/C|").normalize], .empty, .standard⟩
    let uri := "file:///C|/%252e%252E/%20a%5Cb%3F%23%FF/D:"
    FileUri.ofPath? oddPath = some uri ∧ ∃ path, path.components = oddPath.components ∧
      (c.route (reporting uri mixedEntries)).2.events = [.diagnostics path
        [⟨.error, "F401 — unused import", path, ⟨⟨0, 7⟩, ⟨0, 9⟩⟩, some "rules/F401"⟩,
          ⟨.warning, "7 — odd", path, ⟨⟨3, 0⟩, ⟨4, 1⟩⟩, none⟩]] := by
  intro c uri
  have hroots : c.router.roots = [Path.ofString "/C|"].map Path.normalize := rfl
  obtain ⟨uri', huri', hreports⟩ := reports_are_published (p := oddPath)
    Chain.keeps_uri_standard hroots (List.mem_singleton.2 rfl) (by decide +kernel) (by decide +kernel)
    (by decide +kernel) (by decide +kernel) (by decide +kernel)
  have huri : FileUri.ofPath? oddPath = some uri := by decide +kernel
  obtain rfl : uri = uri' := Option.some.inj (huri.symm.trans huri')
  have hreport := (⟨rfl, rfl, _, mixedEntries, rfl, .named rfl .missing rfl,
    .cons (Diagnostic.of_json_iff.1 rfl) (.cons (Diagnostic.of_json_iff.1 rfl) .nil)⟩ :
      Reports (reporting uri mixedEntries) ⟨uri, none, _⟩)
  obtain ⟨path, items, hevents, hsame, hitems⟩ := hreports _ _ _ hreport
  refine ⟨huri, path, hsame, ?_⟩
  rw [hevents, hitems]
  rfl

end Connection

end LintWatch.Server
