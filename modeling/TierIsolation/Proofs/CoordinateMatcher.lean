import TierIsolation.Proofs.CoordinatePattern
import TierIsolation.Proofs.Success

/-!
# Lists of coordinate patterns

* `lists_compose`: a list of patterns in two parts is read part by part, pieces without a pattern do
  not count, and what is read accepts what one of the pieces stands for.
* `written_read_back`: a list is read again from its written form, and so is a single pattern.
-/

namespace TierIsolation.CoordinateMatcher

open SegmentPattern (Selects)

variable {p q s t : List Char} {m : CoordinateMatcher}

/-! ## Pieces -/

/-- The pieces that are not blank, without the white space around them. -/
theorem pieces_eq (s : List Char) :
    pieces s = ((s.splitOn ',').filter (!Text.blank ·)).map Text.trim := by
  rw [pieces, List.filter_map]
  congr 2
  funext piece
  rw [Function.comp_apply, Text.isEmpty_trim]

theorem mem_pieces {piece : List Char} : piece ∈ pieces s ↔
    ∃ raw ∈ s.splitOn ',', Text.blank raw = false ∧ Text.trim raw = piece := by
  simp [pieces_eq, and_assoc]

theorem pieces_append (p q : List Char) : pieces (p ++ ',' :: q) = pieces p ++ pieces q := by
  rw [pieces, List.splitOn_append_cons_self, List.map_append, List.filter_append, pieces, pieces]

/-- White space is no piece. -/
theorem pieces_of_blank (h : Text.blank s = true) : pieces s = [] := by
  have hcomma : ',' ∉ s := by
    intro hmem
    have hblank : Text.isBlank ',' = true := List.all_eq_true.1 h ',' hmem
    exact absurd hblank (by decide)
  rw [pieces_eq, List.splitOn_eq_singleton hcomma]
  simp [h]

/-! ## Reading -/

/-- Reads one piece; the fault names it. -/
def readPiece (piece : List Char) : Except (List Char × PatternFault) CoordinatePattern :=
  (CoordinatePattern.parse piece).mapError fun fault => (piece, fault)

theorem parse_eq (s : List Char) : parse s = ((pieces s).mapM readPiece).map (⟨·⟩) := rfl

theorem readPiece_eq_ok_iff {piece : List Char} {pattern : CoordinatePattern} :
    readPiece piece = .ok pattern ↔ CoordinatePattern.parse piece = .ok pattern :=
  Except.mapError_eq_ok

theorem parse_eq_ok_iff : parse s = .ok m ↔ (pieces s).mapM readPiece = .ok m.patterns := by
  rw [parse_eq, Except.map_eq_ok]
  exact ⟨fun ⟨_, h, hm⟩ => hm ▸ h, fun h => ⟨_, h, rfl⟩⟩

theorem parse_congr (h : pieces s = pieces t) : parse s = parse t := by
  rw [parse_eq, h, parse_eq]

/-- Reading fails with the first piece at fault. -/
theorem fault?_parse (s : List Char) :
    (parse s).fault? = (pieces s).findSome? fun piece => (readPiece piece).fault? := by
  rw [parse_eq, ← Except.fault?_mapM]
  cases (pieces s).mapM readPiece <;> rfl

/-- A list is read if its pieces have three segments each, none of them empty. -/
theorem exists_parse_iff : (∃ m, parse s = .ok m) ↔
    ∀ piece ∈ s.splitOn ',', Text.blank piece = false →
      ∃ group name kind, Coordinates.segments piece = [group, name, kind] ∧
        [] ∉ [group, name, kind] := by
  have hpiece (raw : List Char) : (readPiece (Text.trim raw)).fault? = none ↔
      ∃ group name kind, Coordinates.segments raw = [group, name, kind] ∧
        [] ∉ [group, name, kind] := by
    rw [Except.fault?_eq_none, ← CoordinatePattern.exists_parse_iff]
    simp only [readPiece_eq_ok_iff, CoordinatePattern.parse_trim]
  rw [← Except.fault?_eq_none, fault?_parse, List.findSome?_eq_none_iff]
  constructor
  · exact fun h raw hraw hblank => (hpiece raw).1 (h _ (mem_pieces.2 ⟨raw, hraw, hblank, rfl⟩))
  · intro h piece hmem
    obtain ⟨raw, hraw, hblank, rfl⟩ := mem_pieces.1 hmem
    exact (hpiece raw).2 (h raw hraw hblank)

/-- A list in two parts is read part by part. -/
theorem parse_append (p q : List Char) : parse (p ++ ',' :: q) =
    (parse p).bind fun m => (parse q).map fun n => ⟨m.patterns ++ n.patterns⟩ := by
  rw [parse_eq, pieces_append, List.mapM_append, parse_eq, parse_eq]
  cases (pieces p).mapM readPiece with
  | error fault => rfl
  | ok patterns =>
    cases (pieces q).mapM readPiece with
    | error fault => rfl
    | ok others => rfl

/-! ## Accepting -/

/-- What is accepted depends on the identity alone. -/
theorem accepts_congr (m : CoordinateMatcher) {a b : Artifact} (h : a.identity = b.identity) :
    m.accepts a = m.accepts b := by
  simp only [accepts, CoordinatePattern.accepts, h]

/-- A list accepts what one of its pieces stands for. -/
theorem accepts_iff_of_parse (h : parse s = .ok m) (a : Artifact) : m.accepts a = true ↔
    ∃ piece ∈ s.splitOn ',', Text.blank piece = false ∧
      ∃ group name kind, Coordinates.segments piece = [group, name, kind] ∧
        Selects group a.identity.group.toList ∧ Selects name a.identity.name.toList ∧
        Selects kind a.identity.kind.toList := by
  have hread := parse_eq_ok_iff.1 h
  rw [accepts, List.any_eq_true]
  constructor
  · rintro ⟨pattern, hpattern, haccepts⟩
    obtain ⟨piece, hpiece, hparse⟩ := (Except.mem_mapM hread).1 hpattern
    obtain ⟨raw, hraw, hblank, rfl⟩ := mem_pieces.1 hpiece
    rw [readPiece_eq_ok_iff, CoordinatePattern.parse_trim] at hparse
    exact ⟨raw, hraw, hblank, (CoordinatePattern.accepts_iff_of_parse hparse a).1 haccepts⟩
  · rintro ⟨raw, hraw, hblank, hselects⟩
    obtain ⟨pattern, hpattern, hparse⟩ :=
      Except.exists_of_mapM hread (mem_pieces.2 ⟨raw, hraw, hblank, rfl⟩)
    rw [readPiece_eq_ok_iff, CoordinatePattern.parse_trim] at hparse
    exact ⟨pattern, hpattern, (CoordinatePattern.accepts_iff_of_parse hparse a).2 hselects⟩

/-- **Lists of patterns compose.** A list is read if each of its pieces that is not blank has three
segments, none of them empty. Two lists with a comma between them are read as the patterns of the
first and then those of the second, and accept what one of the two accepts; if the first is at
fault, so are both with that fault, and else with the fault of the second. Only the pieces that are
not blank count. What is read accepts an artifact if the group, the name and the kind are what the
three segments of one of these pieces stand for, whatever its version and its scope. -/
theorem lists_compose :
    (∀ s, (∃ m, parse s = .ok m) ↔ ∀ piece ∈ s.splitOn ',', Text.blank piece = false →
      ∃ group name kind, (piece.splitOn ':').map Text.trim = [group, name, kind] ∧
        [] ∉ [group, name, kind]) ∧
    (∀ p q m n, parse p = .ok m → parse q = .ok n →
      ∃ both, parse (p ++ ',' :: q) = .ok both ∧ both.patterns = m.patterns ++ n.patterns ∧
        ∀ a, both.accepts a = true ↔ m.accepts a = true ∨ n.accepts a = true) ∧
    (∀ p q fault, parse p = .error fault → parse (p ++ ',' :: q) = .error fault) ∧
    (∀ p q m fault, parse p = .ok m → parse q = .error fault →
      parse (p ++ ',' :: q) = .error fault) ∧
    (∀ s t, (s.splitOn ',').filter (!Text.blank ·) = (t.splitOn ',').filter (!Text.blank ·) →
      parse s = parse t) ∧
    (∀ p gap q, Text.blank gap = true → parse (gap ++ ',' :: q) = parse q ∧
      parse (p ++ ',' :: gap) = parse p ∧
      parse (p ++ ',' :: (gap ++ ',' :: q)) = parse (p ++ ',' :: q)) ∧
    (∀ s m, parse s = .ok m → ∀ a, m.accepts a = true ↔
      ∃ piece ∈ s.splitOn ',', Text.blank piece = false ∧
        ∃ group name kind, (piece.splitOn ':').map Text.trim = [group, name, kind] ∧
          Selects group a.identity.group.toList ∧ Selects name a.identity.name.toList ∧
          Selects kind a.identity.kind.toList) ∧
    ∀ (m : CoordinateMatcher) (a b : Artifact), a.identity = b.identity →
      m.accepts a = m.accepts b := by
  refine ⟨fun s => exists_parse_iff, fun p q m n hp hq => ?_, fun p q fault hp => ?_,
    fun p q m fault hp hq => ?_, fun s t h => ?_, fun p gap q hgap => ?_,
    fun s m => accepts_iff_of_parse, fun m a b => m.accepts_congr⟩
  · refine ⟨⟨m.patterns ++ n.patterns⟩, ?_, rfl, fun a => ?_⟩
    · rw [parse_append, hp, hq]
      rfl
    · simp only [accepts, List.any_append, Bool.or_eq_true]
  · rw [parse_append, hp]
    rfl
  · rw [parse_append, hp, hq]
    rfl
  · exact parse_congr (by rw [pieces_eq, h, pieces_eq])
  · refine ⟨parse_congr ?_, parse_congr ?_, parse_congr ?_⟩
    · rw [pieces_append, pieces_of_blank hgap, List.nil_append]
    · rw [pieces_append, pieces_of_blank hgap, List.append_nil]
    · rw [pieces_append, pieces_append, pieces_of_blank hgap, List.nil_append, pieces_append]

/-- Two lists with blank pieces and one at fault, and an artifact that only the second list
accepts. -/
theorem spaced_lists_compose :
    parse " g.h:lib: jar ,\t".toList =
      .ok ⟨[⟨.exactly "g.h".toList, .exactly "lib".toList, .exactly "jar".toList⟩]⟩ ∧
    parse ", g*:l**:*".toList =
      .ok ⟨[⟨.startingWith ['g'], .startingWith ['l', '*'], .startingWith []⟩]⟩ ∧
    (∃ both, parse " g.h:lib: jar ,\t,, g*:l**:*".toList = .ok both ∧
      both.accepts ⟨⟨"g.h", "l*b", "jar"⟩, "1", .test⟩ = true) ∧
    parse " g:n,a: :*".toList = .error ("g:n".toList, .segmentCount 2) ∧
    parse " g:n,a: :*,, g*:l**:*".toList = .error ("g:n".toList, .segmentCount 2) ∧
    parse ", g*:l**:*, g:n,a: :*".toList = .error ("g:n".toList, .segmentCount 2) := by
  obtain ⟨-, hboth, hleft, hright, -⟩ := lists_compose
  have hfirst : parse " g.h:lib: jar ,\t".toList =
      .ok ⟨[⟨.exactly "g.h".toList, .exactly "lib".toList, .exactly "jar".toList⟩]⟩ := by
    with_unfolding_all rfl
  have hsecond : parse ", g*:l**:*".toList =
      .ok ⟨[⟨.startingWith ['g'], .startingWith ['l', '*'], .startingWith []⟩]⟩ := by
    with_unfolding_all rfl
  have hfault : parse " g:n,a: :*".toList = .error ("g:n".toList, .segmentCount 2) := by
    with_unfolding_all rfl
  obtain ⟨both, hread, -, haccepts⟩ := hboth _ _ _ _ hfirst hsecond
  exact ⟨hfirst, hsecond, ⟨both, hread, (haccepts _).2 (.inr (by decide))⟩, hfault,
    hleft _ _ _ hfault, hright _ _ _ _ hsecond hfault⟩

/-! ## The written form -/

/-- The written form is the pieces that are not blank, put together from their segments. -/
theorem text_of_parse (h : parse s = .ok m) :
    m.text = [','].intercalate (((s.splitOn ',').filter (!Text.blank ·)).map fun piece =>
      [':'].intercalate (Coordinates.segments piece)) := by
  have hread := Except.mapM_eq_ok.1 (parse_eq_ok_iff.1 h)
  rw [pieces_eq, List.forall₂_map_left_iff] at hread
  rw [text]
  congr 1
  rw [← List.forall₂_eq_eq_eq, List.forall₂_map_left_iff, List.forall₂_map_right_iff]
  refine hread.flip.imp fun pattern piece hpiece => ?_
  rw [readPiece_eq_ok_iff, CoordinatePattern.parse_trim] at hpiece
  exact CoordinatePattern.text_of_parse hpiece

/-- A pattern of a list is read from a text without commas. -/
theorem exists_parse_of_mem (h : parse s = .ok m) {pattern : CoordinatePattern}
    (hpattern : pattern ∈ m.patterns) :
    ∃ raw, CoordinatePattern.parse raw = .ok pattern ∧ ',' ∉ raw := by
  obtain ⟨piece, hpiece, hparse⟩ := (Except.mem_mapM (parse_eq_ok_iff.1 h)).1 hpattern
  obtain ⟨raw, hraw, -, rfl⟩ := mem_pieces.1 hpiece
  rw [readPiece_eq_ok_iff, CoordinatePattern.parse_trim] at hparse
  exact ⟨raw, hparse, Text.not_mem_of_mem_splitOn hraw⟩

/-- The pieces of the written form are the patterns. -/
theorem pieces_text (h : ∀ pattern ∈ m.patterns, ',' ∉ pattern.text) :
    pieces m.text = m.patterns.map fun pattern => Text.trim pattern.text := by
  by_cases hnone : m.patterns = []
  · rw [text, hnone]
    rfl
  · have hsplit : m.text.splitOn ',' = m.patterns.map (·.text) := by
      rw [text]
      refine List.splitOn_intercalate ',' ?_ (by simpa using hnone)
      simpa only [List.forall_mem_map] using h
    have hsolid : ∀ pattern ∈ m.patterns, (!Text.blank pattern.text) = true := by
      intro pattern _
      rw [Bool.not_eq_true', Text.blank_eq_false_iff]
      exact ⟨':', pattern.colon_mem_text, by decide⟩
    rw [pieces_eq, hsplit, List.filter_eq_self.2 (by simpa only [List.forall_mem_map] using hsolid),
      List.map_map]
    rfl

/-- A list is read from its written form. -/
theorem parse_text (h : parse s = .ok m) : parse m.text = .ok m := by
  have hcomma : ∀ pattern ∈ m.patterns, ',' ∉ pattern.text := by
    intro pattern hpattern hmem
    obtain ⟨raw, hparse, hraw⟩ := exists_parse_of_mem h hpattern
    obtain hcolon | hmem := CoordinatePattern.mem_text_of_parse hparse hmem
    · exact absurd hcolon (by decide)
    · exact hraw hmem
  rw [parse_eq_ok_iff, pieces_text hcomma, Except.mapM_eq_ok, List.forall₂_map_left_iff,
    List.forall₂_same]
  intro pattern hpattern
  obtain ⟨raw, hparse, -⟩ := exists_parse_of_mem h hpattern
  rw [readPiece_eq_ok_iff, CoordinatePattern.parse_trim]
  exact CoordinatePattern.parse_text hparse

/-- **Patterns are read back.** What is read from a text, a list of patterns or a single one, is
read again from its written form. That is the text without its blank pieces and without the white
space around its segments. -/
theorem written_read_back :
    (∀ s m, parse s = .ok m → parse m.text = .ok m ∧
      m.text = [','].intercalate (((s.splitOn ',').filter (!Text.blank ·)).map fun piece =>
        [':'].intercalate ((piece.splitOn ':').map Text.trim))) ∧
    ∀ s p, CoordinatePattern.parse s = .ok p → CoordinatePattern.parse p.text = .ok p ∧
      p.text = [':'].intercalate ((s.splitOn ':').map Text.trim) :=
  ⟨fun _ _ h => ⟨parse_text h, text_of_parse h⟩,
    fun _ _ h => ⟨CoordinatePattern.parse_text h, CoordinatePattern.text_of_parse h⟩⟩

/-- A list with stars inside, in front of and behind a segment. -/
def starred : CoordinateMatcher :=
  ⟨[⟨.startingWith ['g', ' '], .startingWith ['*'], .exactly ['a', '*', 'b']⟩,
    ⟨.exactly ['h'], .startingWith [], .exactly ['*', 'j']⟩]⟩

/-- A single pattern with a comma. -/
def listed : CoordinatePattern := ⟨.startingWith ['g', ',', ' '], .exactly ['n'], .exactly ['k']⟩

theorem starred_read_back :
    parse ", g *:\t**: a*b ,h:*: *j".toList = .ok starred ∧ parse starred.text = .ok starred ∧
    CoordinatePattern.parse " g, *:n: k\n".toList = .ok listed ∧
    CoordinatePattern.parse listed.text = .ok listed := by
  obtain ⟨hlists, hpatterns⟩ := written_read_back
  have hstarred : parse ", g *:\t**: a*b ,h:*: *j".toList = .ok starred := by
    with_unfolding_all rfl
  have hlisted : CoordinatePattern.parse " g, *:n: k\n".toList = .ok listed := by
    with_unfolding_all rfl
  exact ⟨hstarred, (hlists _ _ hstarred).1, hlisted, (hpatterns _ _ hlisted).1⟩

end TierIsolation.CoordinateMatcher
