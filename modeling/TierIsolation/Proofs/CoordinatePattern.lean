import TierIsolation.CoordinatePattern
import TierIsolation.Coordinates
import TierIsolation.Proofs.Text

/-!
# Coordinate patterns

A pattern is read from the segments of a text (`Coordinates.segments`), and from nothing else
(`parse_eq`).

* `accepts_iff_of_parse`: it accepts what its segments stand for, each taken as it is written
  (`SegmentPattern.Selects`).
* `parse_text`: it is read again from its written form, which is these segments put together.
-/

namespace TierIsolation

/-! ## Segments -/

namespace SegmentPattern

/-- What a segment stands for: itself and, with a star at its end, every text that starts with what
is before that star. -/
def Selects (segment value : List Char) : Prop :=
  segment = value ∨ ∃ stem, segment = stem ++ ['*'] ∧ stem <+: value

variable {raw value : List Char}

theorem parse_trim (raw : List Char) : parse (Text.trim raw) = parse raw := by
  simp only [parse, Text.trim_trim]

/-- A segment is written without the white space that was around it. -/
theorem text_parse (raw : List Char) : (parse raw).text = Text.trim raw := by
  simp only [parse]
  split
  · rename_i hstar
    exact List.dropLast_append_getLast? _ hstar
  · rfl

/-- What is left out in front of the star is the same for the pattern and for the segment. -/
theorem accepts_parse_iff : (parse raw).accepts value = true ↔ Selects (Text.trim raw) value := by
  simp only [parse]
  split
  · rename_i hstar
    obtain ⟨stem, hstem⟩ := List.getLast?_eq_some_iff.1 hstar
    rw [hstem, List.dropLast_concat, accepts, List.isPrefixOf_iff_prefix]
    constructor
    · exact fun hprefix => .inr ⟨stem, rfl, hprefix⟩
    · rintro (rfl | ⟨other, hother, hprefix⟩)
      · exact List.prefix_append stem ['*']
      · rwa [List.append_inj_left' hother rfl]
  · rename_i hstar
    rw [accepts, beq_iff_eq, eq_comm]
    refine ⟨.inl, fun h => h.resolve_right ?_⟩
    rintro ⟨stem, hstem, -⟩
    exact hstar (List.getLast?_eq_some_iff.2 ⟨stem, hstem⟩)

end SegmentPattern

namespace Coordinates

variable {s segment : List Char} {c : Char}

theorem segments_trim (s : List Char) : segments (Text.trim s) = segments s :=
  Text.map_trim_splitOn_trim (by decide) s

@[simp] theorem map_trim_segments (s : List Char) : (segments s).map Text.trim = segments s := by
  rw [segments, List.map_map]
  exact List.map_congr_left fun piece _ => Text.trim_trim piece

/-- Segments consist of characters of the text, colons apart. -/
theorem of_mem_segments (h : segment ∈ segments s) (hc : c ∈ segment) : c ∈ s ∧ c ≠ ':' := by
  obtain ⟨piece, hpiece, rfl⟩ := List.mem_map.1 h
  rw [List.splitOn_eq_splitOnP] at hpiece
  have hmem := Text.of_mem_splitOnP hpiece ((Text.trim_infix piece).subset hc)
  exact ⟨hmem.1, by simpa using hmem.2⟩

/-- Segments that are put together again are the same segments. -/
theorem segments_intercalate (s : List Char) :
    segments ([':'].intercalate (segments s)) = segments s := by
  have hcolon : ∀ segment ∈ segments s, ':' ∉ segment :=
    fun segment hsegment hmem => (of_mem_segments hsegment hmem).2 rfl
  have hne : segments s ≠ [] := by simp [segments, List.splitOn_ne_nil]
  conv_lhs => rw [segments, List.splitOn_intercalate ':' hcolon hne]
  exact map_trim_segments s

end Coordinates

/-! ## Patterns -/

namespace CoordinatePattern

open SegmentPattern (Selects)

variable {s t : List Char} {p : CoordinatePattern} {c : Char}

/-- Reads three segments, none of them empty. -/
def ofSegments : List (List Char) → Except PatternFault CoordinatePattern
  | [group, name, kind] =>
    if [group, name, kind].any List.isEmpty then .error .emptySegment
    else .ok ⟨.parse group, .parse name, .parse kind⟩
  | found => .error (.segmentCount found.length)

theorem parse_eq (s : List Char) : parse s = ofSegments (Coordinates.segments s) := by
  rw [← Coordinates.segments_trim, Coordinates.segments, parse]
  split
  · rename_i group name kind hsplit
    have hempty : ([group, name, kind].map Text.trim).any List.isEmpty =
        [group, name, kind].any Text.blank := by
      simp [Text.isEmpty_trim]
    rw [hsplit, ← hempty]
    simp only [List.map_cons, List.map_nil, ofSegments, SegmentPattern.parse_trim]
  · rename_i hcount
    rw [ofSegments, List.length_map]
    intro group name kind hsegments
    obtain ⟨group', name', kind', hsplit⟩ := List.length_eq_three.1
      ((List.length_map _).symm.trans (congrArg List.length hsegments))
    exact hcount group' name' kind' hsplit

theorem parse_congr (h : Coordinates.segments s = Coordinates.segments t) : parse s = parse t := by
  rw [parse_eq, h, parse_eq]

theorem parse_trim (s : List Char) : parse (Text.trim s) = parse s :=
  parse_congr (Coordinates.segments_trim s)

/-- A pattern is read from three segments, none of them empty. -/
theorem parse_eq_ok_iff : parse s = .ok p ↔ ∃ group name kind,
    Coordinates.segments s = [group, name, kind] ∧ [] ∉ [group, name, kind] ∧
      p = ⟨.parse group, .parse name, .parse kind⟩ := by
  have hnil (xs : List (List Char)) : [] ∉ xs ↔ ¬ xs.any List.isEmpty = true := by simp
  simp only [parse_eq, hnil]
  constructor
  · intro h
    rw [ofSegments.eq_def] at h
    split at h
    · rename_i group name kind hsegments
      split at h
      · cases h
      · rename_i hsolid
        exact ⟨group, name, kind, hsegments, hsolid, (Except.ok.inj h).symm⟩
    · cases h
  · rintro ⟨group, name, kind, hsegments, hsolid, rfl⟩
    rw [hsegments, ofSegments, if_neg hsolid]

theorem exists_parse_iff : (∃ p, parse s = .ok p) ↔ ∃ group name kind,
    Coordinates.segments s = [group, name, kind] ∧ [] ∉ [group, name, kind] := by
  simp only [parse_eq_ok_iff]
  constructor
  · exact fun ⟨_, group, name, kind, hsegments, hsolid, _⟩ =>
      ⟨group, name, kind, hsegments, hsolid⟩
  · exact fun ⟨group, name, kind, hsegments, hsolid⟩ =>
      ⟨_, group, name, kind, hsegments, hsolid, rfl⟩

/-- A pattern accepts the artifacts whose identity its segments stand for. -/
theorem accepts_iff_of_parse (h : parse s = .ok p) (a : Artifact) : p.accepts a = true ↔
    ∃ group name kind, Coordinates.segments s = [group, name, kind] ∧
      Selects group a.identity.group.toList ∧ Selects name a.identity.name.toList ∧
      Selects kind a.identity.kind.toList := by
  obtain ⟨group, name, kind, hsegments, -, rfl⟩ := parse_eq_ok_iff.1 h
  have htrim : Coordinates.segments s = [Text.trim group, Text.trim name, Text.trim kind] := by
    rw [← Coordinates.map_trim_segments, hsegments]
    rfl
  simp only [accepts, Bool.and_eq_true, SegmentPattern.accepts_parse_iff, and_assoc, htrim]
  constructor
  · exact fun hselects => ⟨_, _, _, rfl, hselects⟩
  · rintro ⟨group', name', kind', hsame, hselects⟩
    simp only [List.cons.injEq, and_true] at hsame
    obtain ⟨rfl, rfl, rfl⟩ := hsame
    exact hselects

/-! ## The written form -/

/-- The written form is the segments put together. -/
theorem text_of_parse (h : parse s = .ok p) :
    p.text = [':'].intercalate (Coordinates.segments s) := by
  obtain ⟨group, name, kind, hsegments, -, rfl⟩ := parse_eq_ok_iff.1 h
  rw [← Coordinates.map_trim_segments, hsegments, text]
  simp only [SegmentPattern.text_parse, List.map_cons, List.map_nil]

/-- The written form has no other characters than the text and colons. -/
theorem mem_text_of_parse (h : parse s = .ok p) (hc : c ∈ p.text) : c = ':' ∨ c ∈ s := by
  obtain ⟨group, name, kind, hsegments, -, -⟩ := parse_eq_ok_iff.1 h
  have hmem : ∀ segment ∈ [group, name, kind], c ∈ segment → c ∈ s :=
    fun segment hsegment hc => (Coordinates.of_mem_segments (hsegments ▸ hsegment) hc).1
  rw [text_of_parse h, hsegments] at hc
  simp only [List.intercalate_cons_cons, List.intercalate_singleton, List.mem_append,
    List.mem_singleton] at hc
  simp only [List.forall_mem_cons] at hmem
  tauto

theorem colon_mem_text (p : CoordinatePattern) : ':' ∈ p.text := by
  simp [text, List.intercalate_cons_cons]

/-- A pattern is read from its written form. -/
theorem parse_text (h : parse s = .ok p) : parse p.text = .ok p := by
  rw [text_of_parse h, parse_congr (Coordinates.segments_intercalate s), h]

end CoordinatePattern

end TierIsolation
