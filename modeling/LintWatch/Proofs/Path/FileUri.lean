import LintWatch.Path.FileUri

/-!
# Paths that URIs name

Whatever the kind of a URI, the path that it names is made of segments with a slash in front of
each, and there is at least one: `absolute_of_path?`.
-/

namespace LintWatch.FileUri

/-- There is always a segment, since dots at the end leave an empty one. -/
theorem Segments.finish_ne_nil (scheme : Scheme) (s : Segments) : s.finish scheme ≠ [] := by
  simp only [finish]
  split
  · simp
  next hdots =>
    have hcomplete : (s.close scheme).complete ≠ [] := by
      simp only [close]
      split
      · simp
      next hcut =>
        simp only [Bool.not_eq_true] at hcut
        simp only [hcut, Bool.not_false, true_and, not_or] at hdots
        rw [if_neg hdots.1, if_neg hdots.2]
        split <;> simp
    simpa using hcomplete

/-- The path of at least one segment is absolute. -/
theorem absolute_path_of_segments {segments : List (List Char)} (h : segments ≠ []) :
    (pathOfSegments segments).isAbsolute = true := by
  obtain ⟨segment, rest, rfl⟩ := List.exists_cons_of_ne_nil h
  simp only [pathOfSegments, List.flatMap_cons, List.cons_append]
  -- The slash behind a drive comes last, so the first byte is the same with it.
  split
  · split <;> rfl
  · rfl

/-- The path that is read behind an authority is absolute. -/
theorem absolute_read_path (scheme : Scheme) (cs : List Sign) :
    (readPath scheme cs).1.isAbsolute = true := by
  simp only [readPath]
  split
  · apply absolute_path_of_segments
    split <;> simp_all
  · exact absolute_path_of_segments (Segments.finish_ne_nil _ _)

/-- A path that has been read is absolute. -/
theorem absolute_of_read_path {scheme : Scheme} {cs : List Sign} {p : Path}
    (h : some (readPath scheme cs).1 = some p) : p.isAbsolute = true :=
  Option.some.inj h ▸ absolute_read_path scheme cs

/-- The path of a `file` URI is absolute. -/
theorem absolute_of_read_file? {cs : List Sign} {p : Path} (h : readFile? cs = some p) :
    p.isAbsolute = true := by
  simp only [readFile?] at h
  split at h
  · exact absolute_of_read_path h
  split at h
  · exact absolute_of_read_path h
  split at h
  · cases h
  split at h
  · exact absolute_of_read_path h
  · obtain ⟨_, h⟩ := Option.ite_none_right_eq_some.1 h
    exact absolute_of_read_path h

/-- The path of a URI of another scheme is absolute. -/
theorem absolute_of_read_authority? {scheme : Scheme} {cs : List Sign} {p : Path}
    (h : readAuthority? scheme cs = some p) : p.isAbsolute = true := by
  simp only [readAuthority?, Option.bind_eq_bind, Option.bind_eq_some_iff] at h
  obtain ⟨⟨cs, hasCredentials⟩, _, rest, _, h⟩ := h
  split at h
  · obtain ⟨host, _, h⟩ := Option.bind_eq_some_iff.1 h
    split at h
    · cases h
    split at h
    · exact absolute_of_read_path h
    · exact absolute_of_read_path h
  split at h
  · split at h
    · cases h
    split at h
    · cases h
    · exact absolute_of_read_path h
  · cases h

/-- The path that a URI names is absolute. -/
theorem absolute_of_path? {uri : String} {p : Path} (h : path? uri = some p) :
    p.isAbsolute = true := by
  simp only [path?, Option.bind_eq_bind, Option.bind_eq_some_iff] at h
  obtain ⟨⟨scheme, rest⟩, _, h⟩ := h
  cases scheme with
  | file =>
      simp only at h
      split at h
      · split at h
        · split at h
          · split at h
            · exact absolute_of_read_file? h
            · exact absolute_of_read_path h
          · exact absolute_of_read_path h
        · exact absolute_of_read_path h
      · exact absolute_of_read_path h
  | web => exact absolute_of_read_authority? h
  | other =>
      simp only at h
      split at h
      · exact absolute_of_read_authority? h
      · exact absolute_of_read_path h
      · cases h

end LintWatch.FileUri
