import TierIsolation.Coordinates
import TierIsolation.Proofs.Text

/-!
# Coordinates are read back

An artifact is read from its written form if the colons there are those between its segments, and
if its segments have no white space around them (`Artifact.Readable`); all artifacts that are read
from any text are of that kind (`Coordinates.parse_exact`, which also says what is read from which
text, and what is wrong with the others).

A plain artifact (`Artifact.Plain`) can be told from what stands around it as well: its segments
contain neither white space nor any other mark (`Coordinates.IsField`).
-/

namespace TierIsolation

/-! ## Readable artifacts -/

namespace Coordinates

/-- A segment as it is read: not empty, without colons, and without white space around it. -/
structure IsSegment (segment : String) : Prop where
  nonempty : segment ≠ ""
  colon : ':' ∉ segment.toList
  trimmed : Text.trim segment.toList = segment.toList

theorem isSegment_ofList {segment : List Char} (hne : segment ≠ []) (hcolon : ':' ∉ segment)
    (htrim : Text.trim segment = segment) : IsSegment (String.ofList segment) where
  nonempty := by rwa [ne_eq, ← String.toList_eq_nil_iff, String.toList_ofList]
  colon := by rwa [String.toList_ofList]
  trimmed := by rwa [String.toList_ofList]

end Coordinates

/-- The segments of the written form. -/
def Artifact.fields (a : Artifact) : List String :=
  [a.identity.group, a.identity.name, a.identity.kind, a.version, a.scope.text]

/-- An artifact with a written form that it is read from. -/
structure Artifact.Readable (a : Artifact) : Prop where
  segment : ∀ segment ∈ [a.identity.group, a.identity.name, a.identity.kind, a.version],
    Coordinates.IsSegment segment
  scope : ∃ token, Coordinates.IsSegment token ∧ a.scope = .ofToken token

namespace Scope

variable {token : String}

theorem toList_text_ofToken (token : String) :
    (ofToken token).text.toList = Text.lower (Text.trim token.toList) := by
  rw [ofToken, text_named, String.toList_ofList]

/-- A scope is read from its own text. -/
@[simp] theorem ofToken_text (token : String) : ofToken (ofToken token).text = ofToken token := by
  rw [ofToken, toList_text_ofToken, Text.trim_lower, Text.trim_trim, Text.lower_lower]
  rfl

theorem isSegment_text (h : Coordinates.IsSegment token) :
    Coordinates.IsSegment (ofToken token).text := by
  have htext : (ofToken token).text.toList = Text.lower token.toList := by
    rw [toList_text_ofToken, h.trimmed]
  rw [← String.ofList_toList (s := (ofToken token).text), htext]
  refine Coordinates.isSegment_ofList ?_ ?_ (by rw [Text.trim_lower, h.trimmed])
  · simpa [Text.lower] using h.nonempty
  · rw [Text.mem_lower_iff (by decide)]
    exact h.colon

end Scope

theorem Artifact.Readable.field {a : Artifact} (ha : a.Readable) :
    ∀ field ∈ a.fields, Coordinates.IsSegment field := by
  obtain ⟨token, htoken, hscope⟩ := ha.scope
  have hlast := Scope.isSegment_text htoken
  rw [← hscope] at hlast
  simpa [fields, hlast] using ha.segment

namespace Coordinates

variable {a : Artifact} {s : List Char} {fault : Fault}

/-! ## Reading the written form -/

theorem toList_text (a : Artifact) :
    a.text.toList = [':'].intercalate (a.fields.map String.toList) :=
  String.toList_intercalate

theorem splitOn_text (h : ∀ field ∈ a.fields, ':' ∉ field.toList) :
    a.text.toList.splitOn ':' = a.fields.map String.toList := by
  rw [toList_text]
  refine List.splitOn_intercalate ':' ?_ (by simp [Artifact.fields])
  simpa only [List.forall_mem_map] using h

theorem segments_text (ha : a.Readable) : segments a.text.toList = a.fields.map String.toList := by
  rw [segments, splitOn_text fun field hfield => (ha.field field hfield).colon, List.map_map]
  exact List.map_congr_left fun field hfield => (ha.field field hfield).trimmed

/-! ## What is read from a text -/

/-- The position of the first blank segment. -/
theorem findIdx?_segments (s : List Char) :
    (segments s).findIdx? (·.isEmpty) = (s.splitOn ':').findIdx? Text.blank := by
  rw [segments, List.findIdx?_map]
  exact congrArg (List.findIdx? · _) (funext Text.isEmpty_trim)

theorem parse_of_length_ne (h : (s.splitOn ':').length ≠ 5) :
    parse s = .error (.segmentCount (s.splitOn ':').length) := by
  have hlength : (segments s).length = (s.splitOn ':').length := List.length_map _
  unfold parse
  split
  · rename_i hfive
    rw [← hlength, hfive] at h
    exact absurd rfl h
  · rw [hlength]

section Segments

variable {group name kind version scope : List Char}

theorem parse_of_blank {position : Nat} (h : segments s = [group, name, kind, version, scope])
    (hblank : (s.splitOn ':').findIdx? Text.blank = some position) :
    parse s = .error (.emptySegment (position + 1)) := by
  rw [← findIdx?_segments, h] at hblank
  simp only [parse, h, hblank]

theorem parse_of_not_blank (h : segments s = [group, name, kind, version, scope])
    (hblank : (s.splitOn ':').findIdx? Text.blank = none) :
    parse s = .ok ⟨⟨String.ofList group, String.ofList name, String.ofList kind⟩,
      String.ofList version, .ofToken (String.ofList scope)⟩ := by
  rw [← findIdx?_segments, h] at hblank
  simp only [parse, h, hblank]

end Segments

theorem exists_segments (h : (s.splitOn ':').length = 5) :
    ∃ group name kind version scope, segments s = [group, name, kind, version, scope] := by
  have hlength : (segments s).length = 5 := (List.length_map _).trans h
  match segments s, hlength with
  | [group, name, kind, version, scope], _ => exact ⟨group, name, kind, version, scope, rfl⟩

/-- A text of five segments, none of them blank, is that of an artifact. -/
theorem parse_eq_ok_iff : parse s = .ok a ↔
    (∀ segment ∈ s.splitOn ':', Text.blank segment = false) ∧
      ∃ token, segments s = [a.identity.group.toList, a.identity.name.toList,
        a.identity.kind.toList, a.version.toList, token] ∧
        a.scope = .ofToken (String.ofList token) := by
  constructor
  · intro h
    by_cases hlength : (s.splitOn ':').length = 5
    · obtain ⟨group, name, kind, version, scope, hsegments⟩ := exists_segments hlength
      cases hblank : (s.splitOn ':').findIdx? Text.blank with
      | some position =>
        rw [parse_of_blank hsegments hblank] at h
        cases h
      | none =>
        rw [parse_of_not_blank hsegments hblank, Except.ok.injEq] at h
        subst h
        refine ⟨List.findIdx?_eq_none_iff.1 hblank, scope, ?_, ?_⟩
        · simp only [hsegments, String.toList_ofList]
        · simp only
    · rw [parse_of_length_ne hlength] at h
      cases h
  · rintro ⟨hblank, token, hsegments, hscope⟩
    rw [parse_of_not_blank hsegments (List.findIdx?_eq_none_iff.2 hblank), ← hscope]
    simp only [String.ofList_toList]

/-- An artifact is read from its written form. -/
theorem parse_text_of_readable (ha : a.Readable) : parse a.text.toList = .ok a := by
  refine parse_eq_ok_iff.2 ⟨?_, a.scope.text.toList, segments_text ha, ?_⟩
  · rw [splitOn_text fun field hfield => (ha.field field hfield).colon, List.forall_mem_map]
    intro field hfield
    obtain ⟨hne, -, htrim⟩ := ha.field field hfield
    rw [← Text.isEmpty_trim, htrim]
    simpa using hne
  · obtain ⟨token, -, hscope⟩ := ha.scope
    rw [String.ofList_toList, hscope, Scope.ofToken_text]

/-- What is read is readable. -/
theorem readable_of_parse (h : parse s = .ok a) : a.Readable := by
  obtain ⟨hblank, token, hsegments, hscope⟩ := parse_eq_ok_iff.1 h
  have hsegment : ∀ segment ∈ segments s, IsSegment (String.ofList segment) := by
    rw [segments, List.forall_mem_map]
    intro piece hpiece
    refine isSegment_ofList ?_ ?_ (Text.trim_trim piece)
    · rw [ne_eq, ← List.isEmpty_iff, Text.isEmpty_trim, hblank piece hpiece]
      exact Bool.false_ne_true
    · exact fun hcolon => Text.not_mem_of_mem_splitOn hpiece ((Text.trim_infix piece).subset hcolon)
  simp only [hsegments, List.forall_mem_cons, String.ofList_toList] at hsegment
  obtain ⟨hgroup, hname, hkind, hversion, htoken, -⟩ := hsegment
  exact ⟨by simp [hgroup, hname, hkind, hversion], _, htoken, hscope⟩

/-- A text is accepted for the number of its segments and because none of them is blank. -/
theorem exists_parse_iff : (∃ a, parse s = .ok a) ↔
    (s.splitOn ':').length = 5 ∧ ∀ segment ∈ s.splitOn ':', Text.blank segment = false := by
  constructor
  · rintro ⟨a, ha⟩
    obtain ⟨hblank, token, hsegments, -⟩ := parse_eq_ok_iff.1 ha
    have hlength := congrArg List.length hsegments
    rw [segments, List.length_map] at hlength
    exact ⟨hlength, hblank⟩
  · rintro ⟨hlength, hblank⟩
    obtain ⟨group, name, kind, version, scope, hsegments⟩ := exists_segments hlength
    exact ⟨_, parse_of_not_blank hsegments (List.findIdx?_eq_none_iff.2 hblank)⟩

/-- The first blank piece has this position, counted from zero. -/
def IsFirstBlank (pieces : List (List Char)) (position : Nat) : Prop :=
  ∃ h : position < pieces.length, Text.blank pieces[position] = true ∧
    ∀ (earlier : Nat) (_ : earlier < position), ¬ Text.blank pieces[earlier] = true

/-- A text is refused for the number of its segments or, if that is five, for the first that is
blank. -/
theorem parse_eq_error_iff : parse s = .error fault ↔
    (s.splitOn ':').length ≠ 5 ∧ fault = .segmentCount (s.splitOn ':').length ∨
      (s.splitOn ':').length = 5 ∧ ∃ position, IsFirstBlank (s.splitOn ':') position ∧
        fault = .emptySegment (position + 1) := by
  simp only [IsFirstBlank, ← List.findIdx?_eq_some_iff_getElem]
  by_cases hlength : (s.splitOn ':').length = 5
  · obtain ⟨group, name, kind, version, scope, hsegments⟩ := exists_segments hlength
    cases hblank : (s.splitOn ':').findIdx? Text.blank with
    | none => simp [parse_of_not_blank hsegments hblank, hlength]
    | some position => simp [parse_of_blank hsegments hblank, hlength, eq_comm]
  · simp [parse_of_length_ne hlength, hlength, eq_comm]

/-- **Coordinates are read back.** A readable artifact is read from its written form. A text is
accepted if it consists of five segments between colons, none of them blank; the artifact has these
segments without the white space around them, is readable and so can be written and read again. Any
other text is refused for the number of its segments or, if that is five, for the first that is
blank. -/
theorem parse_exact :
    (∀ a : Artifact, a.Readable → parse a.text.toList = .ok a) ∧
    (∀ s, (∃ a, parse s = .ok a) ↔ (s.splitOn ':').length = 5 ∧
      ∀ segment ∈ s.splitOn ':', ∃ c ∈ segment, Text.isBlank c = false) ∧
    (∀ s a, parse s = .ok a → a.Readable ∧ parse a.text.toList = .ok a ∧
      ∃ token, (s.splitOn ':').map Text.trim = [a.identity.group.toList, a.identity.name.toList,
        a.identity.kind.toList, a.version.toList, token] ∧
        a.scope = .ofToken (String.ofList token)) ∧
    ∀ s fault, parse s = .error fault ↔
      (s.splitOn ':').length ≠ 5 ∧ fault = .segmentCount (s.splitOn ':').length ∨
      (s.splitOn ':').length = 5 ∧ ∃ position, IsFirstBlank (s.splitOn ':') position ∧
        fault = .emptySegment (position + 1) := by
  refine ⟨fun _ => parse_text_of_readable, fun s => ?_, fun s a h => ?_,
    fun _ _ => parse_eq_error_iff⟩
  · simp only [← Text.blank_eq_false_iff]
    exact exists_parse_iff
  · have ha := readable_of_parse h
    exact ⟨ha, parse_text_of_readable ha, (parse_eq_ok_iff.1 h).2⟩

/-- White space within a segment stays, that around it goes; a scope is read in any case. -/
def spaced : List Char := " g.h :\tlib: jar:1 0:RunTime\u3000".toList

def spacedArtifact : Artifact := ⟨⟨"g.h", "lib", "jar"⟩, "1 0", .other "runtime"⟩

theorem spaced_read_back :
    parse spaced = .ok spacedArtifact ∧ spacedArtifact.Readable ∧
      parse spacedArtifact.text.toList = .ok spacedArtifact := by
  have hparse : parse spaced = .ok spacedArtifact := by with_unfolding_all rfl
  obtain ⟨hwritten, -, hread, -⟩ := parse_exact
  have hreadable := (hread _ _ hparse).1
  exact ⟨hparse, hreadable, hwritten _ hreadable⟩

end Coordinates

/-! ## Plain artifacts -/

namespace Coordinates

/-- The characters that set coordinates and lines apart. -/
def marks : List Char := [':', '[', '\x22', ';', '#', '/', '\x7b', '>']

/-- A segment of coordinates that has neither white space nor marks. -/
structure IsField (field : String) : Prop where
  nonempty : field ≠ ""
  solid : ∀ c ∈ field.toList, Text.isBlank c = false
  mark : ∀ c ∈ field.toList, c ∉ marks

theorem isField_iff {field : String} : IsField field ↔
    field ≠ "" ∧ field.toList.all (fun c => !Text.isBlank c && !marks.contains c) = true := by
  simp only [List.all_eq_true, Bool.and_eq_true, Bool.not_eq_true', List.contains_eq_mem,
    decide_eq_false_iff_not]
  exact ⟨fun h => ⟨h.nonempty, fun c hc => ⟨h.solid c hc, h.mark c hc⟩⟩,
    fun h => ⟨h.1, fun c hc => (h.2 c hc).1, fun c hc => (h.2 c hc).2⟩⟩

instance (field : String) : Decidable (IsField field) := decidable_of_iff _ isField_iff.symm

theorem IsField.isSegment {field : String} (h : IsField field) : IsSegment field where
  nonempty := h.nonempty
  colon := fun hcolon => h.mark ':' hcolon (by decide)
  trimmed := Text.trim_eq_self h.solid

end Coordinates

/-- An artifact whose written form can be told from what stands around it. -/
structure Artifact.Plain (a : Artifact) : Prop where
  field : ∀ field ∈ a.fields, Coordinates.IsField field
  scope : ∃ token, a.scope = .ofToken token

theorem Artifact.Plain.readable {a : Artifact} (ha : a.Plain) : a.Readable where
  segment segment hsegment :=
    (ha.field segment (List.mem_append_left [a.scope.text] hsegment)).isSegment
  scope := by
    obtain ⟨token, htoken⟩ := ha.scope
    refine ⟨a.scope.text, (ha.field _ (by simp [fields])).isSegment, ?_⟩
    rw [htoken, Scope.ofToken_text]

namespace Coordinates

variable {a : Artifact}

/-- A plain artifact is read from its written form. -/
theorem parse_text (ha : a.Plain) : parse a.text.toList = .ok a :=
  parse_text_of_readable ha.readable

/-- Coordinates begin with the group. -/
theorem exists_text (a : Artifact) :
    ∃ t, a.text.toList = a.identity.group.toList ++ ':' :: t := by
  rw [toList_text, Artifact.fields, List.map_cons, List.map_cons, List.intercalate_cons_cons,
    List.append_assoc]
  exact ⟨_, rfl⟩

theorem mem_text {c : Char} (h : c ∈ a.text.toList) :
    c = ':' ∨ ∃ field ∈ a.fields, c ∈ field.toList := by
  rw [toList_text] at h
  simp only [Artifact.fields, List.map_cons, List.map_nil, List.intercalate_cons_cons,
    List.intercalate_singleton, List.mem_append, List.mem_singleton] at h
  simp only [Artifact.fields, List.exists_mem_cons_iff, List.not_mem_nil, false_and, exists_false]
  tauto

theorem text_solid (ha : a.Plain) {c : Char} (h : c ∈ a.text.toList) : Text.isBlank c = false := by
  obtain rfl | ⟨field, hfield, hc⟩ := mem_text h
  · rfl
  · exact (ha.field field hfield).solid c hc

/-- The only marks in coordinates are those between the segments. -/
theorem text_mark (ha : a.Plain) {c : Char} (h : c ∈ a.text.toList) (hc : c ∈ marks) : c = ':' := by
  obtain rfl | ⟨field, hfield, hmem⟩ := mem_text h
  · rfl
  · exact absurd hc ((ha.field field hfield).mark c hmem)

end Coordinates

end TierIsolation
