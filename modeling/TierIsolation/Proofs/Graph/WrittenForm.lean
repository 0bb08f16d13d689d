import TierIsolation.Proofs.Coordinates
import TierIsolation.Proofs.Graph.Alike

/-!
# How graphs are written

`parse_written`: a text whose lines declare artifacts and edges gives the graph that these make up,
however the lines are decorated.

* `Graph.Line`: a line as it may be written. Coordinates stand between quotes or not
  (`Graph.Mention`) and are followed by semicolons or attributes (`Graph.Tail`), with white space
  around them (`Graph.Gap`).
* `strip_mention`: what decorates coordinates is removed.
* `statement_body`: a line says what it was written for.
-/

namespace TierIsolation

namespace Graph

open Coordinates (marks)

/-! ## Coordinates with decorations -/

/-- White space inside a line. -/
structure Gap where
  chars : List Char
  blank : Text.blank chars = true
  inline : '\n' ∉ chars

def Gap.none : Gap := ⟨[], rfl, List.not_mem_nil⟩

theorem Gap.isBlank (gap : Gap) : ∀ c ∈ gap.chars, Text.isBlank c = true :=
  List.all_eq_true.1 gap.blank

/-- Coordinates between quotes, or without. -/
structure Mention where
  artifact : Artifact
  plain : artifact.Plain
  quoted : Bool

def Mention.text (m : Mention) : List Char :=
  if m.quoted then '\x22' :: (m.artifact.text.toList ++ ['\x22']) else m.artifact.text.toList

/-- What may follow the last coordinates of a line. -/
inductive Tail
  | semicolons (count : Nat)
  /-- An opening bracket and anything else. -/
  | attributes (rest : List Char)

def Tail.text : Tail → List Char
  | semicolons count => List.replicate count ';'
  | attributes rest => '[' :: rest

theorem Gap.not_mem (gap : Gap) {c : Char} (hc : Text.isBlank c = false) : c ∉ gap.chars :=
  fun h => by
    have hblank := gap.isBlank c h
    rw [hc] at hblank
    cases hblank

namespace Mention

variable (m : Mention)

theorem mem_text {c : Char} (h : c ∈ m.text) : c = '\x22' ∨ c ∈ m.artifact.text.toList := by
  unfold text at h
  split at h
  · simp only [List.mem_cons, List.mem_append, List.not_mem_nil, or_false] at h
    tauto
  · exact .inr h

theorem solid {c : Char} (h : c ∈ m.text) : Text.isBlank c = false := by
  obtain rfl | h := m.mem_text h
  · rfl
  · exact Coordinates.text_solid m.plain h

/-- Marks that are neither colons nor quotes do not occur. -/
theorem not_mem {c : Char} (hc : c ∈ marks) (hcolon : c ≠ ':') (hquote : c ≠ '\x22') :
    c ∉ m.text := by
  intro h
  obtain rfl | h := m.mem_text h
  · exact hquote rfl
  · exact hcolon (Coordinates.text_mark m.plain h hc)

/-- Coordinates begin with a segment, or with a quote in front of it. -/
theorem exists_lead : ∃ c w t, m.text = c :: (w ++ ':' :: t) ∧ c ≠ '#' ∧ c ≠ '/' ∧ c ≠ '\x7b' ∧
    ∀ d ∈ w, d ≠ ' ' ∧ d ≠ '\x22' ∧ d ≠ '\x7b' := by
  have hgroup := m.plain.field m.artifact.identity.group (by simp [Artifact.fields])
  have hmark : ∀ d ∈ m.artifact.identity.group.toList, ∀ e ∈ marks, d ≠ e :=
    fun d hd e he hde => hgroup.mark d hd (hde ▸ he)
  have hword : ∀ d ∈ m.artifact.identity.group.toList, d ≠ ' ' ∧ d ≠ '\x22' ∧ d ≠ '\x7b' := by
    refine fun d hd => ⟨?_, hmark d hd _ (by decide), hmark d hd _ (by decide)⟩
    rintro rfl
    exact absurd (hgroup.solid _ hd) (by decide)
  obtain ⟨t, ht⟩ := Coordinates.exists_text m.artifact
  unfold text
  split
  · refine ⟨'\x22', m.artifact.identity.group.toList, t ++ ['\x22'], ?_, by decide, by decide,
      by decide, hword⟩
    rw [ht, List.append_assoc]
    rfl
  · obtain ⟨c, w, hcw⟩ := List.exists_cons_of_ne_nil
      (mt String.toList_eq_nil_iff.1 hgroup.nonempty)
    have hc : c ∈ m.artifact.identity.group.toList := by simp [hcw]
    refine ⟨c, w, t, by rw [ht, hcw]; rfl, hmark c hc _ (by decide), hmark c hc _ (by decide),
      hmark c hc _ (by decide), fun d hd => hword d ?_⟩
    rw [hcw]
    exact List.mem_cons_of_mem _ hd

theorem ne_nil : m.text ≠ [] := by
  obtain ⟨c, w, t, h, -⟩ := m.exists_lead
  rw [h]
  exact List.cons_ne_nil _ _

theorem unquote : Text.dropBothWhile (· == '\x22') m.text = m.artifact.text.toList := by
  have hword : ∀ c ∈ m.artifact.text.toList, (c == '\x22') = false := by
    refine fun c hc => beq_eq_false_iff_ne.2 ?_
    rintro rfl
    exact absurd (Coordinates.text_mark m.plain hc (by decide)) (by decide)
  have hne : m.artifact.text.toList ≠ [] := by
    obtain ⟨t, ht⟩ := Coordinates.exists_text m.artifact
    simp [ht]
  unfold text
  split
  · have hquote : ∀ c ∈ ['\x22'], (c == '\x22') = true := by simp
    have h := Text.dropBothWhile_word hquote hword hne ['\x22']
    rw [List.singleton_append] at h
    rw [h, Text.dropEndWhile_eq_nil hquote, List.append_nil]
  · exact Text.dropBothWhile_eq_self hword

end Mention

/-! ## Removing decorations -/

section Strip

variable (m : Mention) (gap : Gap)

theorem trim_mention (ys : List Char) :
    Text.trim (gap.chars ++ (m.text ++ ys)) = m.text ++ Text.dropEndWhile Text.isBlank ys :=
  Text.trim_word gap.isBlank (fun _ => m.solid) m.ne_nil ys

theorem trim_mention_append (ys : List Char) :
    Text.trim (m.text ++ ys) = m.text ++ Text.dropEndWhile Text.isBlank ys :=
  Text.trim_word_append (fun _ => m.solid) m.ne_nil ys

/-- Neither brackets nor semicolons stand before a tail. -/
theorem mention_gap_ne {d : Char} (hd : d ∈ marks) (hcolon : d ≠ ':') (hquote : d ≠ '\x22')
    (hsolid : Text.isBlank d = false) : ∀ c ∈ m.text ++ gap.chars, (c == d) = false := by
  refine fun c hc => beq_eq_false_iff_ne.2 ?_
  rintro rfl
  obtain hc | hc := List.mem_append.1 hc
  · exact m.not_mem hd hcolon hquote hc
  · exact gap.not_mem hsolid hc

theorem trim_mention_gap : Text.trim (m.text ++ gap.chars) = m.text := by
  rw [Text.trim_append_blank gap.isBlank, Text.trim_eq_self fun _ => m.solid]

theorem drop_semicolons_mention_gap :
    Text.dropEndWhile (· == ';') (m.text ++ gap.chars) = m.text ++ gap.chars :=
  Text.dropEndWhile_eq_self
    (mention_gap_ne m gap (by decide) (by decide) (by decide) (by decide))

/-- Nothing is left to do when only quotes are left. -/
theorem strip_of_eq {raw : List Char}
    (h : Text.trim (Text.dropEndWhile (· == ';') (Text.trim
      (Text.before (· == '[') (Text.trim raw)))) = m.text) :
    strip raw = m.artifact.text.toList := by
  rw [strip, h, m.unquote, Text.trim_eq_self fun _ => Coordinates.text_solid m.plain]

/-- Attributes are cut off with the bracket in front of them. -/
theorem strip_attributes {raw rest : List Char}
    (hraw : Text.trim raw = m.text ++ (gap.chars ++ '[' :: rest)) :
    strip raw = m.artifact.text.toList := by
  have hbracket := mention_gap_ne m gap (d := '[') (by decide) (by decide) (by decide) (by decide)
  have hsemicolons := drop_semicolons_mention_gap m .none
  rw [Gap.none, List.append_nil] at hsemicolons
  refine strip_of_eq m ?_
  rw [hraw, ← List.append_assoc, Text.before_append_cons hbracket (by decide), trim_mention_gap,
    hsemicolons, Text.trim_eq_self fun _ => m.solid]

/-- Semicolons are dropped, and then the white space in front of them. -/
theorem strip_semicolons {raw : List Char} (count : Nat)
    (hraw : Text.trim raw = m.text ++ (gap.chars ++ List.replicate count ';')) :
    strip raw = m.artifact.text.toList := by
  have hbracket : ∀ c ∈ m.text ++ (gap.chars ++ List.replicate count ';'), (c == '[') = false := by
    intro c hc
    rw [← List.append_assoc, List.mem_append] at hc
    obtain hc | hc := hc
    · exact mention_gap_ne m gap (by decide) (by decide) (by decide) (by decide) c hc
    · rw [List.eq_of_mem_replicate hc]
      decide
  refine strip_of_eq m ?_
  rw [hraw, Text.before_eq_self hbracket, ← hraw, Text.trim_trim, hraw, ← List.append_assoc,
    Text.dropEndWhile_append_of_all (by simp), drop_semicolons_mention_gap, trim_mention_gap]

/-- Of decorated coordinates, what stands for an artifact is left. -/
theorem strip_mention {raw : List Char} {tail : Tail}
    (hraw : Text.trim raw = m.text ++ Text.dropEndWhile Text.isBlank (gap.chars ++ tail.text)) :
    strip raw = m.artifact.text.toList := by
  cases tail with
  | attributes rest =>
    rw [Tail.text, Text.dropEndWhile_append_cons _ _ (by decide)] at hraw
    exact strip_attributes m gap hraw
  | semicolons count =>
    rw [Tail.text] at hraw
    cases count with
    | zero =>
      rw [Text.dropEndWhile_append_of_all (by simp), Text.dropEndWhile_eq_nil gap.isBlank] at hraw
      exact strip_semicolons m .none 0 hraw
    | succ count =>
      have hsolid : ∀ c ∈ List.replicate count ';', Text.isBlank c = false := by
        intro c hc
        rw [List.eq_of_mem_replicate hc]
        rfl
      rw [List.replicate_succ, Text.dropEndWhile_append_cons _ _ (by decide),
        Text.dropEndWhile_eq_self hsolid, ← List.replicate_succ] at hraw
      exact strip_semicolons m gap (count + 1) hraw

end Strip

/-! ## Telling lines apart -/

section Lead

variable {c : Char} {w t : List Char}

theorem isStructural_of_lead (hhash : c ≠ '#') (hslash : c ≠ '/') (hbrace : c ≠ '\x7b') :
    isStructural (c :: (w ++ ':' :: t)) = false := by
  have hslashes : ['/', '/'].isPrefixOf (c :: (w ++ ':' :: t)) = false := by
    rw [List.isPrefixOf, beq_eq_false_iff_ne.2 hslash.symm, Bool.false_and]
  simp [isStructural, hslashes, hhash, hbrace]

/-- What begins with a segment is no header, whatever the segment begins with. -/
theorem headerRest?_of_lead (hw : ∀ d ∈ w, d ≠ ' ' ∧ d ≠ '\x22' ∧ d ≠ '\x7b') :
    headerRest? (c :: (w ++ ':' :: t)) = none := by
  rw [headerRest?, Option.filter_eq_none_iff]
  intro rest hrest
  obtain ⟨header, hheader, hprefix⟩ := List.exists_of_findSome?_eq_some hrest
  have hline : header ++ rest = c :: (w ++ ':' :: t) :=
    List.isPrefixOf?_eq_some_iff_append_eq.1 hprefix
  obtain ⟨d, word, rfl⟩ : ∃ d word, header = d :: word :=
    List.exists_cons_of_ne_nil (by rintro rfl; exact absurd hheader (by decide))
  have hcolon : ':' ∉ word := fun h =>
    (show ∀ x ∈ headers, ':' ∉ x by decide) _ hheader (List.mem_cons_of_mem d h)
  -- the word of a header has no colon, so it ends before the colon of the line
  obtain ⟨e, others, rfl, he⟩ : ∃ e others, rest = e :: others ∧
      e ≠ ' ' ∧ e ≠ '\x22' ∧ e ≠ '\x7b' := by
    obtain ⟨ms, rfl, rfl⟩ | ⟨ms, rfl, hms⟩ := List.append_eq_append_iff.1 (List.cons.inj hline).2
    · cases ms with
      | nil => exact ⟨':', t, rfl, by decide⟩
      | cons e ms => exact ⟨e, ms ++ ':' :: t, rfl, hw e (by simp)⟩
    · cases ms with
      | nil => exact ⟨':', t, hms.symm, by decide⟩
      | cons e ms =>
        rw [List.cons_append, List.cons.injEq] at hms
        exact absurd (hms.1 ▸ by simp) hcolon
  simp [he]

end Lead

/-- A line that begins with coordinates declares them, or an edge. -/
theorem statement_mention (delimiter : List Char) (m : Mention) (ys : List Char) :
    statement delimiter (m.text ++ ys) =
      match Text.splitOnce delimiter (m.text ++ ys) with
      | some (source, target) => do
        let source ← Coordinates.parse (strip source)
        let target ← Coordinates.parse (strip target)
        return .dependency source target
      | none => (Coordinates.parse (strip (m.text ++ ys))).map .declaration := by
  obtain ⟨c, w, t, hlead, hhash, hslash, hbrace, hw⟩ := m.exists_lead
  have hline : m.text ++ ys = c :: (w ++ ':' :: (t ++ ys)) := by simp [hlead]
  rw [statement, hline, isStructural_of_lead hhash hslash hbrace, headerRest?_of_lead hw]
  rfl

theorem splitOnce_delimiter {a b : List Char} (ha : '>' ∉ a) (hb : b.head? ≠ some '>') :
    Text.splitOnce defaultDelimiter.toList (a ++ b) =
      (Text.splitOnce defaultDelimiter.toList b).map fun x => (a ++ x.1, x.2) := by
  refine Text.splitOnce_append fun c t ht => ?_
  cases h : defaultDelimiter.toList.isPrefixOf? (c :: t ++ b) with
  | none => rfl
  | some rest =>
    have hline : ['-', '>'] ++ rest = c :: t ++ b := List.isPrefixOf?_eq_some_iff_append_eq.1 h
    have hrest : '>' :: rest = t ++ b := (List.cons.inj hline).2
    cases t with
    | nil => exact absurd (by rw [← List.nil_append b, ← hrest]; rfl) hb
    | cons d t =>
      obtain ⟨rfl, -⟩ := List.cons.inj hrest
      exact absurd (ht.subset (by simp)) ha

theorem Mention.no_arrow (m : Mention) (gap : Gap) : '>' ∉ m.text ++ gap.chars := fun h =>
  absurd (mention_gap_ne m gap (d := '>') (by decide) (by decide) (by decide) (by decide) _ h)
    (by decide)

theorem Tail.head?_ne_arrow (tail : Tail) : tail.text.head? ≠ some '>' := by
  cases tail with
  | attributes rest => simp [text]
  | semicolons count => cases count <;> simp [text, List.replicate_succ]

theorem statement_declaration (m : Mention) (gap : Gap) {tail : Tail}
    (hdelimiter : ¬ defaultDelimiter.toList <:+: tail.text) :
    statement defaultDelimiter.toList (Text.trim (m.text ++ (gap.chars ++ tail.text))) =
      .ok (.declaration m.artifact) := by
  have htrim := trim_mention_append m (gap.chars ++ tail.text)
  have hnone : Text.splitOnce defaultDelimiter.toList
      (m.text ++ Text.dropEndWhile Text.isBlank (gap.chars ++ tail.text)) = none := by
    have hline : Text.splitOnce defaultDelimiter.toList (m.text ++ (gap.chars ++ tail.text)) =
        none := by
      rw [← List.append_assoc, splitOnce_delimiter (m.no_arrow gap) tail.head?_ne_arrow,
        Text.splitOnce_eq_none_iff.2 hdelimiter]
      rfl
    rw [Text.splitOnce_eq_none_iff] at hline ⊢
    have hprefix := (List.prefix_append_right_inj m.text).2
      (Text.dropEndWhile_prefix Text.isBlank (gap.chars ++ tail.text))
    exact fun h => hline (h.trans hprefix.isInfix)
  have hstrip := strip_mention m gap ((Text.trim_trim _).trans htrim)
  rw [htrim] at hstrip ⊢
  rw [statement_mention, hnone]
  dsimp only
  rw [hstrip, Coordinates.parse_text m.plain]
  rfl

theorem statement_edge (source target : Mention) (before after gap : Gap) (tail : Tail) :
    statement defaultDelimiter.toList (Text.trim (source.text ++ (before.chars ++
      (defaultDelimiter.toList ++ (after.chars ++ (target.text ++ (gap.chars ++ tail.text))))))) =
      .ok (.dependency source.artifact target.artifact) := by
  let rest := after.chars ++
    (target.text ++ Text.dropEndWhile Text.isBlank (gap.chars ++ tail.text))
  have htrim : Text.trim (source.text ++ (before.chars ++ (defaultDelimiter.toList ++
      (after.chars ++ (target.text ++ (gap.chars ++ tail.text)))))) =
      source.text ++ (before.chars ++ (defaultDelimiter.toList ++ rest)) := by
    obtain ⟨c, hc⟩ := List.exists_mem_of_ne_nil _ target.ne_nil
    have hstays : ∃ c ∈ target.text ++ (gap.chars ++ tail.text), Text.isBlank c = false :=
      ⟨c, List.mem_append_left _ hc, target.solid hc⟩
    rw [trim_mention_append, ← List.append_assoc, ← List.append_assoc,
      Text.dropEndWhile_append hstays, Text.dropEndWhile_append_word fun _ => target.solid]
    simp only [rest, List.append_assoc]
  have hsplit : Text.splitOnce defaultDelimiter.toList
      (source.text ++ (before.chars ++ (defaultDelimiter.toList ++ rest))) =
      some (source.text ++ before.chars, rest) := by
    have hfirst : Text.splitOnce defaultDelimiter.toList (defaultDelimiter.toList ++ rest) =
        some ([], rest) := rfl
    rw [← List.append_assoc,
      splitOnce_delimiter (source.no_arrow before) (by simp [defaultDelimiter]), hfirst]
    simp
  have hsource : strip (source.text ++ before.chars) = source.artifact.text.toList :=
    strip_semicolons source .none 0 (by rw [trim_mention_gap]; simp [Gap.none])
  have htarget : strip rest = target.artifact.text.toList :=
    strip_mention target gap (by rw [trim_mention, Text.dropEndWhile_dropEndWhile])
  rw [htrim, statement_mention, hsplit]
  dsimp only
  rw [hsource, htarget, Coordinates.parse_text source.plain, Coordinates.parse_text target.plain]
  rfl

/-! ## Lines -/

/-- What stands before the coordinates in a header. -/
def headerStart : List Char := "digraph \"".toList

/-- A line without the white space around it. -/
inductive Body
  | blank
  | brace (closing : Bool)
  | comment (slashes : Bool) (rest : List Char) (hrest : '\n' ∉ rest)
  /-- The first line of a graph, with the coordinates of the artifact that the graph was made for. -/
  | header (a : Artifact) (plain : a.Plain) (rest : List Char) (hrest : '\n' ∉ rest)
  | declaration (m : Mention) (gap : Gap) (tail : Tail) (htail : '\n' ∉ tail.text)
      (hdelimiter : ¬ defaultDelimiter.toList <:+: tail.text)
  | edge (source : Mention) (before after : Gap) (target : Mention) (gap : Gap) (tail : Tail)
      (htail : '\n' ∉ tail.text)

namespace Body

def text : Body → List Char
  | blank => []
  | brace closing => if closing then ['\x7d'] else ['\x7b']
  | comment slashes rest _ => (if slashes then ['/', '/'] else ['#']) ++ rest
  | header a _ rest _ => headerStart ++ (a.text.toList ++ '\x22' :: rest)
  | declaration m gap tail _ _ => m.text ++ (gap.chars ++ tail.text)
  | edge source before after target gap tail _ =>
    source.text ++ (before.chars ++ (defaultDelimiter.toList ++
      (after.chars ++ (target.text ++ (gap.chars ++ tail.text)))))

/-- What a line is written for. -/
def statement : Body → Statement
  | blank => .nothing
  | brace _ => .nothing
  | comment .. => .nothing
  | header a .. => .declaration a
  | declaration m .. => .declaration m.artifact
  | edge source _ _ target .. => .dependency source.artifact target.artifact

end Body

theorem statement_comment (slashes : Bool) (rest : List Char) :
    statement defaultDelimiter.toList
      (Text.trim ((if slashes then ['/', '/'] else ['#']) ++ rest)) = .ok .nothing := by
  have hsolid : ∀ c ∈ if slashes then ['/', '/'] else ['#'], Text.isBlank c = false :=
    Text.solid_of_all (by cases slashes <;> rfl)
  rw [Text.trim_word_append hsolid (by cases slashes <;> simp), statement, if_pos]
  cases slashes <;> simp [isStructural]

theorem statement_header {a : Artifact} (ha : a.Plain) (rest : List Char) :
    statement defaultDelimiter.toList (Text.trim
      (headerStart ++ (a.text.toList ++ '\x22' :: rest))) = .ok (.declaration a) := by
  let named := [' ', '\x22'] ++ a.text.toList ++ '\x22' :: Text.dropEndWhile Text.isBlank rest
  have hquote : '\x22' ∉ a.text.toList := fun h =>
    absurd (Coordinates.text_mark ha h (by decide)) (by decide)
  have htrim : Text.trim (headerStart ++ (a.text.toList ++ '\x22' :: rest)) =
      "digraph".toList ++ named := by
    have hsolid : ∀ c ∈ "digraph".toList, Text.isBlank c = false := Text.solid_of_all rfl
    have hword := Text.trim_word_append hsolid (by decide)
      ([' ', '\x22'] ++ a.text.toList ++ '\x22' :: rest)
    rw [Text.dropEndWhile_append_cons _ _ (by decide)] at hword
    exact hword
  have hheader : headerRest? ("digraph".toList ++ named) = some named := rfl
  have hbetween : Text.between '\x22' named = some a.text.toList := by
    have hblank : '\x22' ∉ [' '] := by decide
    have h := Text.between_eq_some hblank hquote (Text.dropEndWhile Text.isBlank rest)
    simpa [named] using h
  have hstructural : isStructural ("digraph".toList ++ named) = false := rfl
  rw [htrim, statement, hstructural, hheader]
  simp only [Bool.false_eq_true, if_false, hbetween, Coordinates.parse_text ha]
  rfl

/-- A line says what it was written for. -/
theorem statement_body (b : Body) :
    statement defaultDelimiter.toList (Text.trim b.text) = .ok b.statement := by
  cases b with
  | blank => rfl
  | brace closing => cases closing <;> rfl
  | comment slashes rest => exact statement_comment slashes rest
  | header a ha rest => exact statement_header ha rest
  | declaration m gap tail _ hdelimiter => exact statement_declaration m gap hdelimiter
  | edge source before after target gap tail =>
    exact statement_edge source target before after gap tail

theorem Mention.newline (m : Mention) : '\n' ∉ m.text := fun h => absurd (m.solid h) (by decide)

theorem Body.newline (b : Body) : '\n' ∉ b.text := by
  cases b with
  | blank => simp [text]
  | brace closing => cases closing <;> simp [text]
  | comment slashes rest hrest => cases slashes <;> simpa [text] using hrest
  | header a ha rest hrest =>
    have htext : '\n' ∉ a.text.toList := fun h =>
      absurd (Coordinates.text_solid ha h) (by decide)
    have hword : '\n' ∉ headerStart := by decide
    simp only [text, List.mem_append, List.mem_cons, hword, htext, hrest, false_or, or_false]
    decide
  | declaration m gap tail htail _ => simp [text, m.newline, gap.inline, htail]
  | edge source before after target gap tail htail =>
    simp [text, source.newline, before.inline, after.inline, target.newline, gap.inline, htail,
      defaultDelimiter]

/-- A line with the white space around it. -/
structure Line where
  indent : Gap
  body : Body
  trailing : Gap
  /-- Does a carriage return stand before the line feed? -/
  returns : Bool

namespace Line

/-- What stands before the line feed. -/
def chars (line : Line) : List Char :=
  line.indent.chars ++ (line.body.text ++
    (line.trailing.chars ++ if line.returns then ['\r'] else []))

def text (line : Line) : List Char := line.chars ++ ['\n']

theorem trim_chars (line : Line) : Text.trim line.chars = Text.trim line.body.text := by
  have hend : ∀ c ∈ line.trailing.chars ++ (if line.returns then ['\r'] else []),
      Text.isBlank c = true := by
    intro c hc
    obtain hc | hc := List.mem_append.1 hc
    · exact line.trailing.isBlank c hc
    · split at hc
      · rw [List.mem_singleton.1 hc]
        rfl
      · cases hc
  rw [chars, Text.trim_blank_append line.indent.isBlank, Text.trim_append_blank hend]

theorem newline (line : Line) : '\n' ∉ line.chars := by
  simp only [chars, List.mem_append, not_or]
  refine ⟨line.indent.inline, line.body.newline, line.trailing.inline, ?_⟩
  split <;> simp

end Line

/-- Lines that are written one after the other are read one after the other. -/
theorem addLines_written (lines : List Line) (number : Nat) (g : Graph) :
    addLines (fun line => statement defaultDelimiter.toList (Text.trim line)) number g
      (Text.lines (lines.flatMap Line.text)) =
      .ok ((lines.map (·.body.statement)).foldl apply g) := by
  induction lines generalizing number g with
  | nil => rfl
  | cons line rest ih =>
    have htext : (line :: rest).flatMap Line.text =
        line.chars ++ '\n' :: rest.flatMap Line.text := by
      simp [Line.text]
    rw [htext, Text.lines_cons line.newline, addLines, Text.trim_dropReturn, line.trim_chars,
      statement_body]
    exact ih (number + 1) _

/-- **A graph is read from the text that it is written as.** Lines that are blank, braces or comments
may stand anywhere, and headers as well; coordinates may stand between quotes, be followed by
semicolons or attributes, and have white space around them. The text gives the graph that the
declarations and edges of its lines make up, one after the other. -/
theorem parse_written (lines : List Line) :
    parse defaultDelimiter (String.ofList (lines.flatMap Line.text)) =
      .ok (ofStatements (lines.map (·.body.statement))) := by
  rw [parse, String.toList_ofList]
  exact addLines_written lines 1 .empty

/-! ## A graph in its written form -/

def app : Mention where
  artifact := ⟨⟨"g", "app", "jar"⟩, "1", .compile⟩
  plain := ⟨by decide, "compile", by decide⟩
  quoted := true

def junit : Mention where
  artifact := ⟨⟨"junit", "junit", "jar"⟩, "4", .test⟩
  plain := ⟨by decide, " Test ", by decide⟩
  quoted := false

/-- A header, an edge with attributes, a declaration with semicolons, and what closes the graph. -/
def sampleLines : List Line := [
  ⟨.none, .header app.artifact app.plain [' ', '\x7b'] (by decide), .none, true⟩,
  ⟨⟨[' ', ' '], rfl, by decide⟩,
    .edge app ⟨[' '], rfl, by decide⟩ ⟨['\t'], rfl, by decide⟩ junit .none
      (.attributes "style=dotted, label=\"->\"];".toList) (by decide), .none, false⟩,
  ⟨.none, .declaration junit ⟨[' '], rfl, by decide⟩ (.semicolons 2) (by decide) (by decide),
    .none, true⟩,
  ⟨.none, .brace true, .none, false⟩]

example : sampleLines.map (fun line => String.ofList line.text) = [
    "digraph \"g:app:jar:1:compile\" \x7b\r\n",
    "  \"g:app:jar:1:compile\" ->\tjunit:junit:jar:4:test[style=dotted, label=\"->\"];\n",
    "junit:junit:jar:4:test ;;\r\n",
    "\x7d\n"] := by
  cbv

end Graph

end TierIsolation
