import TierIsolation.Proofs.Graph.Concatenation
import TierIsolation.Proofs.Graph.Declarations
import TierIsolation.Proofs.Graph.WrittenForm

/-!
# Flat lists

Artifacts that are written one a line can be read as a graph and as a flat list.
`parseFlat_agrees`: both give the graph without edges that has the first artifact of each identity,
and so does a flat list with other lines and other words besides.

* `Graph.FlatLine`: a line of a flat list as it may be written.
* `flatStatement_around`: words around the coordinates do not count.
* `addLines_listing`: a text that is put together from lines is read line by line.
-/

namespace TierIsolation

/-- The written form without the scope. -/
def Artifact.unscoped (a : Artifact) : String :=
  ":".intercalate [a.identity.group, a.identity.name, a.identity.kind, a.version]

theorem Artifact.toList_text_eq (a : Artifact) :
    a.text.toList = a.unscoped.toList ++ ':' :: a.scope.text.toList := by
  simp [text, unscoped]

theorem Artifact.mem_text_of_mem_unscoped {a : Artifact} {c : Char} (h : c ∈ a.unscoped.toList) :
    c ∈ a.text.toList := by
  rw [toList_text_eq]
  exact List.mem_append_left _ h

namespace Graph

open Coordinates (marks)

variable {a : Artifact} {line token : List Char}

/-! ## Words of a line -/

theorem strip_infix (raw : List Char) : strip raw <:+: raw := by
  have hbefore := (Text.before_prefix (· == '[') _).isInfix.trans (Text.trim_infix raw)
  have hsemicolons := (Text.dropEndWhile_prefix (· == ';') _).isInfix.trans
    ((Text.trim_infix _).trans hbefore)
  exact (Text.trim_infix _).trans
    ((Text.dropBothWhile_infix (· == '\x22') _).trans ((Text.trim_infix _).trans hsemicolons))

/-- Nothing is stripped from a word whose only marks are colons. -/
theorem strip_eq_self (hsolid : ∀ c ∈ token, Text.isBlank c = false)
    (hmark : ∀ c ∈ token, c ∈ marks → c = ':') : strip token = token := by
  have hno : ∀ d ∈ marks, d ≠ ':' → ∀ c ∈ token, (c == d) = false := fun d hd hne c hc =>
    beq_eq_false_iff_ne.2 fun hcd => hne (hmark d (hcd ▸ hc) hd)
  have htrim : Text.trim token = token := Text.trim_eq_self hsolid
  have hbefore : Text.before (· == '[') token = token :=
    Text.before_eq_self (hno '[' (by decide) (by decide))
  have hsemicolons : Text.dropEndWhile (· == ';') token = token :=
    Text.dropEndWhile_eq_self (hno ';' (by decide) (by decide))
  have hquotes : Text.dropBothWhile (· == '\x22') token = token :=
    Text.dropBothWhile_eq_self (hno '\x22' (by decide) (by decide))
  simp only [strip, htrim, hbefore, hsemicolons, hquotes]

/-- A line without a word of at least four segments says nothing. -/
theorem flatStatement_of_short (h : ∀ word ∈ Text.words line, (word.splitOn ':').length < 4) :
    flatStatement line = .ok .nothing := by
  unfold flatStatement
  split
  · rfl
  · rename_i word hword
    have hpart : strip word <:+: word := strip_infix word
    have hle : ((strip word).splitOn ':').length ≤ (word.splitOn ':').length := by
      rw [Text.length_splitOn, Text.length_splitOn]
      exact Nat.succ_le_succ (hpart.sublist.count_le ':')
    exact if_pos (hle.trans_lt (h word (List.mem_of_find?_eq_some hword)))

/-- A line says what its first word with a colon says. -/
theorem flatStatement_congr {line' : List Char} (h : (Text.words line).find? (·.contains ':') =
    (Text.words line').find? (·.contains ':')) : flatStatement line = flatStatement line' := by
  rw [flatStatement, flatStatement, h]

@[simp] theorem flatStatement_dropReturn (line : List Char) :
    flatStatement (Text.dropReturn line) = flatStatement line :=
  flatStatement_congr (by rw [Text.words_dropReturn])

/-- Words in front of coordinates, none of them with a colon, and the white space behind them. -/
structure LeadingWords where
  chars : List Char
  colon : ':' ∉ chars
  inline : '\n' ∉ chars
  apart : chars.getLast?.all Text.isBlank = true

/-- Words behind coordinates, and the white space in front of them. -/
structure TrailingWords where
  chars : List Char
  inline : '\n' ∉ chars
  apart : chars.head?.all Text.isBlank = true

theorem find?_words (hsolid : ∀ c ∈ token, Text.isBlank c = false) (hcolon : ':' ∈ token) :
    (Text.words token).find? (·.contains ':') = some token := by
  rw [Text.words_eq_singleton hsolid (List.ne_nil_of_mem hcolon)]
  exact List.find?_cons_of_pos (List.contains_iff_mem.2 hcolon)

/-- Words around the first one with a colon do not count. -/
theorem flatStatement_around (lead : LeadingWords) (trail : TrailingWords)
    (hsolid : ∀ c ∈ token, Text.isBlank c = false) (hcolon : ':' ∈ token) :
    flatStatement (lead.chars ++ (token ++ trail.chars)) = flatStatement token := by
  have hlead : (Text.words lead.chars).find? (·.contains ':') = none := by
    rw [List.find?_eq_none]
    intro word hword hmem
    exact lead.colon (Text.mem_of_mem_words hword (List.contains_iff_mem.1 hmem))
  refine flatStatement_congr ?_
  rw [Text.words_append_of_getLast? lead.apart, Text.words_append_of_head? trail.apart,
    List.find?_append, List.find?_append, hlead, find?_words hsolid hcolon]
  rfl

/-! ## Coordinates in a list -/

theorem colon_mem (h : 4 ≤ (token.splitOn ':').length) : ':' ∈ token := by
  rw [Text.length_splitOn] at h
  exact List.count_pos_iff.1 (by omega)

/-- An undecorated word is read as it is, or with the scope it lacks. -/
theorem flatStatement_token (hsolid : ∀ c ∈ token, Text.isBlank c = false)
    (hmark : ∀ c ∈ token, c ∈ marks → c = ':') (hlength : 4 ≤ (token.splitOn ':').length) :
    flatStatement token = (Coordinates.parse (if (token.splitOn ':').length = 4
      then token ++ ':' :: Scope.compile.text.toList else token)).map .declaration := by
  simp only [flatStatement, find?_words hsolid (colon_mem hlength), strip_eq_self hsolid hmark]
  exact if_neg (by omega)

theorem length_splitOn_text (ha : a.Plain) : (a.text.toList.splitOn ':').length = 5 := by
  rw [Coordinates.splitOn_text fun field hfield => (ha.readable.field field hfield).colon]
  rfl

theorem length_splitOn_unscoped (ha : a.Plain) : (a.unscoped.toList.splitOn ':').length = 4 := by
  have hscope : a.scope.text.toList.count ':' = 0 :=
    List.count_eq_zero.2 (ha.readable.field _ (by simp [Artifact.fields])).colon
  have hlength := length_splitOn_text ha
  rw [Text.length_splitOn, a.toList_text_eq, List.count_append, List.count_cons_self, hscope]
    at hlength
  rw [Text.length_splitOn]
  omega

theorem flatStatement_text (ha : a.Plain) :
    flatStatement a.text.toList = .ok (.declaration a) := by
  have hlength := length_splitOn_text ha
  rw [flatStatement_token (fun _ => Coordinates.text_solid ha) (fun _ => Coordinates.text_mark ha)
    (by omega), if_neg (by omega), Coordinates.parse_text ha]
  rfl

/-- Without its scope, an artifact is `compile`. -/
theorem flatStatement_unscoped (ha : a.Plain) (hscope : a.scope = .compile) :
    flatStatement a.unscoped.toList = .ok (.declaration a) := by
  have hlength := length_splitOn_unscoped ha
  rw [flatStatement_token
    (fun _ hc => Coordinates.text_solid ha (Artifact.mem_text_of_mem_unscoped hc))
    (fun _ hc => Coordinates.text_mark ha (Artifact.mem_text_of_mem_unscoped hc)) (by omega),
    if_pos hlength, ← hscope, ← a.toList_text_eq, Coordinates.parse_text ha]
  rfl

/-- The coordinates of an artifact, as a flat list may have them. -/
inductive Listed
  | complete (a : Artifact) (plain : a.Plain)
  /-- The scope is left out. -/
  | unscoped (a : Artifact) (plain : a.Plain) (compile : a.scope = .compile)

namespace Listed

def artifact : Listed → Artifact
  | complete a _ => a
  | unscoped a _ _ => a

def text : Listed → List Char
  | complete a _ => a.text.toList
  | unscoped a _ _ => a.unscoped.toList

variable (entry : Listed)

theorem solid {c : Char} (h : c ∈ entry.text) : Text.isBlank c = false := by
  cases entry with
  | complete _ ha => exact Coordinates.text_solid ha h
  | unscoped _ ha _ => exact Coordinates.text_solid ha (Artifact.mem_text_of_mem_unscoped h)

theorem colon_mem_text : ':' ∈ entry.text := by
  cases entry with
  | complete _ ha => exact colon_mem ((length_splitOn_text ha).symm ▸ by decide)
  | unscoped _ ha _ => exact colon_mem (length_splitOn_unscoped ha).ge

theorem flatStatement_eq : flatStatement entry.text = .ok (.declaration entry.artifact) := by
  cases entry with
  | complete _ ha => exact flatStatement_text ha
  | unscoped _ ha hscope => exact flatStatement_unscoped ha hscope

end Listed

/-! ## Texts that are put together from lines -/

/-- Lines as a text: a line feed stands between two of them, and behind the last one if the text is
`ended`. -/
def listing (lines : List String) (ended : Bool) : String :=
  "\n".intercalate (lines ++ if ended then [""] else [])

/-- What a line says that mentions one artifact at most. -/
def Statement.declaring : Option Artifact → Statement
  | none => .nothing
  | some a => .declaration a

/-- Empty lines say nothing, and a carriage return at the end of a line makes no difference. -/
structure ReadsLines (read : List Char → Except Coordinates.Fault Statement) : Prop where
  blank : read [] = .ok .nothing
  returns : ∀ line, read (Text.dropReturn line) = read line

theorem readsLines_flatStatement : ReadsLines flatStatement := ⟨rfl, flatStatement_dropReturn⟩

theorem readsLines_statement (delimiter : List Char) :
    ReadsLines fun line => statement delimiter (Text.trim line) :=
  ⟨rfl, fun line => by rw [Text.trim_dropReturn]⟩

section Listing

variable {read : List Char → Except Coordinates.Fault Statement} {number : Nat} {g : Graph}

/-- Lines are read one after the other. -/
theorem addLines_intercalate {xs : List (List Char)} (hread : ReadsLines read)
    (hinline : ∀ x ∈ xs, '\n' ∉ x) :
    addLines read number g (Text.lines (['\n'].intercalate xs)) = addLines read number g xs := by
  induction xs generalizing number g with
  | nil => rfl
  | cons x rest ih =>
    have hx : '\n' ∉ x := hinline x List.mem_cons_self
    cases rest with
    | nil =>
      -- an empty last line is none, but it would say nothing
      rw [List.intercalate_singleton, Text.lines_of_not_mem hx]
      split
      · rename_i hnil
        rw [hnil, addLines, addLines, hread.blank]
        rfl
      · rfl
    | cons y rest =>
      rw [List.intercalate_cons_cons, List.append_assoc, List.singleton_append,
        Text.lines_cons hx, addLines, addLines, hread.returns, Text.trim_dropReturn]
      cases read x with
      | error fault => rfl
      | ok said => exact ih fun z hz => hinline z (List.mem_cons_of_mem _ hz)

theorem addLines_listing {lines : List String} (ended : Bool) (hread : ReadsLines read)
    (hinline : ∀ line ∈ lines, '\n' ∉ line.toList) :
    addLines read number g (Text.lines (listing lines ended).toList) =
      addLines read number g (lines.map String.toList) := by
  have hends : ∀ line ∈ if ended then [""] else [], line = "" := by cases ended <;> simp
  rw [listing, String.toList_intercalate]
  generalize (if ended then [""] else []) = ends at hends ⊢
  have hall : ∀ x ∈ (lines ++ ends).map String.toList, '\n' ∉ x := by
    rw [List.forall_mem_map, List.forall_mem_append]
    refine ⟨hinline, fun line hline => ?_⟩
    rw [hends line hline]
    exact List.not_mem_nil
  refine (addLines_intercalate hread hall).trans ?_
  rw [List.map_append, addLines_append]
  cases addLines read number g (lines.map String.toList) with
  | error fault => rfl
  | ok g =>
    refine addLines_of_nothing (List.forall_mem_map.2 fun line hline => ?_)
    rw [hends line hline]
    exact hread.blank

variable {α : Type} {xs : List α} {text : α → String} {artifact? : α → Option Artifact}

/-- Lines that mention one artifact at most declare those that they mention, one after the other. -/
theorem addLines_declaring
    (hsaid : ∀ x ∈ xs, read (text x).toList = .ok (.declaring (artifact? x))) :
    addLines read number g ((xs.map text).map String.toList) =
      .ok ((xs.filterMap artifact?).foldl declare g) := by
  induction xs generalizing number g with
  | nil => rfl
  | cons x rest ih =>
    have hrest := fun y hy => hsaid y (List.mem_cons_of_mem x hy)
    rw [List.map_cons, List.map_cons, addLines, hsaid x List.mem_cons_self, List.filterMap_cons]
    cases artifact? x with
    | none => exact ih hrest
    | some a => exact ih hrest

theorem foldl_declare (as : List Artifact) :
    as.foldl declare .empty = ⟨Artifact.distinct as, []⟩ := by
  induction as using List.reverseRecOn with
  | nil => rfl
  | append_singleton as a ih =>
    rw [List.foldl_append, ih, List.foldl_cons, List.foldl_nil]
    have hnodes : (declare ⟨Artifact.distinct as, []⟩ a).nodes = Artifact.distinct (as ++ [a]) :=
      nodes_declare rfl a
    have hedges : (declare ⟨Artifact.distinct as, []⟩ a).edges = [] := edges_declare _ a
    exact congrArg₂ Graph.mk hnodes hedges

/-- What is read from lines that mention one artifact at most. -/
theorem read_listing (ended : Bool) (hread : ReadsLines read)
    (hinline : ∀ x ∈ xs, '\n' ∉ (text x).toList)
    (hsaid : ∀ x ∈ xs, read (text x).toList = .ok (.declaring (artifact? x))) :
    addLines read 1 .empty (Text.lines (listing (xs.map text) ended).toList) =
      .ok ⟨Artifact.distinct (xs.filterMap artifact?), []⟩ := by
  rw [addLines_listing ended hread (List.forall_mem_map.2 hinline), addLines_declaring hsaid,
    foldl_declare]

end Listing

/-! ## Flat lists as they may be written -/

/-- A line of a flat list. -/
inductive FlatLine
  /-- No word of the line has four segments or more. -/
  | remark (chars : List Char) (inline : '\n' ∉ chars)
      (short : ∀ word ∈ Text.words chars, (word.splitOn ':').length < 4)
  | entry (lead : LeadingWords) (listed : Listed) (trail : TrailingWords)

namespace FlatLine

def chars : FlatLine → List Char
  | remark chars _ _ => chars
  | entry lead listed trail => lead.chars ++ (listed.text ++ trail.chars)

def text (line : FlatLine) : String := String.ofList line.chars

/-- The artifact that the line is there for. -/
def artifact? : FlatLine → Option Artifact
  | remark _ _ _ => none
  | entry _ listed _ => some listed.artifact

theorem newline (line : FlatLine) : '\n' ∉ line.chars := by
  cases line with
  | remark chars inline _ => exact inline
  | entry lead listed trail =>
    have hlisted : '\n' ∉ listed.text := fun h => absurd (listed.solid h) (by decide)
    simp [chars, lead.inline, hlisted, trail.inline]

theorem flatStatement_chars (line : FlatLine) :
    flatStatement line.chars = .ok (.declaring line.artifact?) := by
  cases line with
  | remark chars _ short => exact flatStatement_of_short short
  | entry lead listed trail =>
    exact (flatStatement_around lead trail (fun _ => listed.solid) listed.colon_mem_text).trans
      listed.flatStatement_eq

end FlatLine

theorem parseFlat_lines (lines : List FlatLine) (ended : Bool) :
    parseFlat (listing (lines.map FlatLine.text) ended) =
      .ok ⟨Artifact.distinct (lines.filterMap FlatLine.artifact?), []⟩ := by
  refine read_listing ended readsLines_flatStatement (fun line _ => ?_) fun line _ => ?_
  · rw [FlatLine.text, String.toList_ofList]
    exact line.newline
  · rw [FlatLine.text, String.toList_ofList]
    exact line.flatStatement_chars

/-! ## Artifacts one a line -/

section Records

variable {records : List Artifact}

theorem read_records {read : List Char → Except Coordinates.Fault Statement} (ended : Bool)
    (h : ∀ a ∈ records, a.Plain) (hread : ReadsLines read)
    (hsaid : ∀ a ∈ records, read a.text.toList = .ok (.declaration a)) :
    addLines read 1 .empty (Text.lines (listing (records.map Artifact.text) ended).toList) =
      .ok ⟨Artifact.distinct records, []⟩ := by
  have hinline : ∀ a ∈ records, '\n' ∉ a.text.toList := fun a ha hmem =>
    absurd (Coordinates.text_solid (h a ha) hmem) (by decide)
  have hgraph : addLines read 1 .empty
      (Text.lines (listing (records.map Artifact.text) ended).toList) =
      .ok ⟨Artifact.distinct (records.filterMap some), []⟩ :=
    read_listing ended hread hinline hsaid
  rwa [List.filterMap_some] at hgraph

theorem parseFlat_records (h : ∀ a ∈ records, a.Plain) (ended : Bool) :
    parseFlat (listing (records.map Artifact.text) ended) =
      .ok ⟨Artifact.distinct records, []⟩ :=
  read_records ended h readsLines_flatStatement fun a ha => flatStatement_text (h a ha)

theorem statement_text (ha : a.Plain) :
    statement defaultDelimiter.toList (Text.trim a.text.toList) = .ok (.declaration a) := by
  have hnone : ¬ defaultDelimiter.toList <:+: (Tail.semicolons 0).text := by decide
  have hline := statement_declaration ⟨a, ha, false⟩ .none hnone
  simpa [Mention.text, Gap.none, Tail.text] using hline

theorem parse_records (h : ∀ a ∈ records, a.Plain) (ended : Bool) :
    parse defaultDelimiter (listing (records.map Artifact.text) ended) =
      .ok ⟨Artifact.distinct records, []⟩ :=
  read_records ended h (readsLines_statement _) fun a ha => statement_text (h a ha)

end Records

/-- **A flat list is read as a graph is.** Artifacts that are written one a line give the graph
without edges that has the first one of every identity, in their order, whether the text is read as
a graph or as a flat list. To a flat list, lines may be added in which every word has less than four
segments, words without colon may stand in front of coordinates and any words behind them, and the
scope `compile` may be left out. -/
theorem parseFlat_agrees {records : List Artifact} (h : ∀ a ∈ records, a.Plain) (ended : Bool) :
    let g : Graph := ⟨Artifact.distinct records, []⟩
    parse defaultDelimiter (listing (records.map Artifact.text) ended) = .ok g ∧
    parseFlat (listing (records.map Artifact.text) ended) = .ok g ∧
    ∀ lines : List FlatLine, lines.filterMap FlatLine.artifact? = records →
      parseFlat (listing (lines.map FlatLine.text) ended) = .ok g := by
  refine ⟨parse_records h ended, parseFlat_records h ended, fun lines hlines => ?_⟩
  rw [← hlines]
  exact parseFlat_lines lines ended

/-- Another declaration of an artifact. -/
def olderJunit : Mention where
  artifact := ⟨⟨"junit", "junit", "jar"⟩, "3", .other "runtime"⟩
  plain := ⟨by decide, "Runtime", by decide⟩
  quoted := false

/-- An artifact that is listed twice, and one whose scope need not be written. -/
def resolved : List Artifact := [junit.artifact, app.artifact, olderJunit.artifact]

theorem plain_resolved : ∀ a ∈ resolved, a.Plain :=
  List.forall_mem_cons.2 ⟨junit.plain, List.forall_mem_cons.2 ⟨app.plain,
    List.forall_mem_singleton.2 olderJunit.plain⟩⟩

theorem short_resolvedAt :
    ∀ word ∈ Text.words "Resolved at 12:30:59".toList, (word.splitOn ':').length < 4 := by
  decide

/-- These artifacts, with what a build tool says of them. -/
def resolvedLines : List FlatLine := [
  .remark "Resolved at 12:30:59".toList (by decide) short_resolvedAt,
  .entry ⟨"   ".toList, by decide, by decide, rfl⟩ (.complete junit.artifact junit.plain)
    ⟨" -- module g:app:jar:1:test".toList, by decide, rfl⟩,
  .entry ⟨"[INFO] ".toList, by decide, by decide, rfl⟩ (.unscoped app.artifact app.plain rfl)
    ⟨"\r".toList, by decide, rfl⟩,
  .entry ⟨"- ".toList, by decide, by decide, rfl⟩
    (.complete olderJunit.artifact olderJunit.plain) ⟨"\t;".toList, by decide, rfl⟩]

theorem resolved_agree :
    parse defaultDelimiter
      "junit:junit:jar:4:test\ng:app:jar:1:compile\njunit:junit:jar:3:runtime\n" =
      .ok ⟨[junit.artifact, app.artifact], []⟩ ∧
    parseFlat ("Resolved at 12:30:59\n   junit:junit:jar:4:test -- module g:app:jar:1:test\n" ++
      "[INFO] g:app:jar:1\r\n- junit:junit:jar:3:runtime\t;\n") =
      .ok ⟨[junit.artifact, app.artifact], []⟩ := by
  obtain ⟨hgraph, -, hlist⟩ := parseFlat_agrees plain_resolved true
  exact ⟨hgraph, hlist resolvedLines rfl⟩

end Graph

end TierIsolation
