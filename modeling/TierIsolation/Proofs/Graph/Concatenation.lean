import TierIsolation.Proofs.Graph.Alike
import TierIsolation.Proofs.Text

/-!
# Graphs in several parts

A text in parts is read part by part: `parse_append` says what a text gives from what its parts
give, and where it is not well formed.

* `Graph.extend`: a graph with another one added to it, which counts for what the first one does not
  declare.
* `addLines_append`, `addLines_extend`: lines are read one after the other, and what they say is
  added to whatever was said before.
* `parse_insert`: lines that say nothing change the numbers of later lines only.
-/

namespace TierIsolation

/-- The same line further down. -/
def LineFault.shift (e : LineFault) (count : Nat) : LineFault :=
  { e with number := e.number + count }

/-- The same line after `count` lines were put in below the line `position`. -/
def LineFault.insert (e : LineFault) (position count : Nat) : LineFault :=
  if position < e.number then e.shift count else e

namespace Graph

/-! ## Extensions -/

/-- A graph with what another one declares besides. -/
def extend (g h : Graph) : Graph where
  nodes := g.nodes ++ h.nodes.filter fun a => !g.contains a.identity
  edges := g.edges ++ h.edges.filter fun e => !g.connects e.source e.target.identity

variable {g h : Graph}

@[simp] theorem extend_empty (g : Graph) : g.extend .empty = g := by
  simp [extend, empty]

/-- What is left out of the second list, the first one has. -/
theorem any_append_filter {α : Type} {xs ys : List α} {known q : α → Bool}
    (h : ∀ y, known y = true → q y = true → xs.any q = true) :
    (xs ++ ys.filter fun y => !known y).any q = (xs.any q || ys.any q) := by
  rw [List.any_append, Bool.eq_iff_iff, Bool.or_eq_true, Bool.or_eq_true]
  constructor
  · refine Or.imp_right fun hys => ?_
    obtain ⟨y, hy, hq⟩ := List.any_eq_true.1 hys
    exact List.any_eq_true.2 ⟨y, (List.mem_filter.1 hy).1, hq⟩
  · rintro (hxs | hys)
    · exact .inl hxs
    · obtain ⟨y, hy, hq⟩ := List.any_eq_true.1 hys
      cases hk : known y with
      | true => exact .inl (h y hk hq)
      | false => exact .inr (List.any_eq_true.2 ⟨y, List.mem_filter.2 ⟨hy, by rw [hk]; rfl⟩, hq⟩)

theorem contains_extend (i : Identity) :
    (g.extend h).contains i = (g.contains i || h.contains i) :=
  any_append_filter fun a ha hi => by rwa [beq_iff_eq.1 hi] at ha

theorem connects_extend (i j : Identity) :
    (g.extend h).connects i j = (g.connects i j || h.connects i j) :=
  any_append_filter fun e he hij => by
    obtain ⟨hi, hj⟩ := Bool.and_eq_true_iff.1 hij
    rwa [beq_iff_eq.1 hi, beq_iff_eq.1 hj] at he

theorem extend_declare (a : Artifact) : (g.extend h).declare a = g.extend (h.declare a) := by
  unfold declare
  rw [contains_extend]
  cases hg : g.contains a.identity <;> cases hh : h.contains a.identity <;> simp [extend, hg]

theorem extend_addDependency (source target : Artifact) :
    (g.extend h).addDependency source target = g.extend (h.addDependency source target) := by
  simp only [addDependency, extend_declare, connects_extend]
  generalize (h.declare source).declare target = k
  cases hg : g.connects source.identity target.identity <;>
    cases hk : k.connects source.identity target.identity <;> simp [extend, hg]

theorem extend_apply (said : Statement) : (g.extend h).apply said = g.extend (h.apply said) := by
  cases said with
  | nothing => rfl
  | declaration a => exact extend_declare a
  | dependency source target => exact extend_addDependency source target

/-! ## Lines -/

section Lines

variable {read : List Char → Except Coordinates.Fault Statement} {number : Nat}
  {xs ys : List (List Char)} {e : LineFault}

/-- Lines are read one after the other, and the first one that is not well formed is the last. -/
theorem addLines_append : addLines read number g (xs ++ ys) =
    (addLines read number g xs).bind fun g => addLines read (number + xs.length) g ys := by
  induction xs generalizing number g with
  | nil => rfl
  | cons x rest ih =>
    rw [List.cons_append, addLines, addLines]
    cases read x with
    | error fault => rfl
    | ok said =>
      have hnumber : number + (x :: rest).length = number + 1 + rest.length := by
        rw [List.length_cons]
        omega
      rw [hnumber]
      exact ih

/-- The same lines further down have the same fault further down. -/
theorem addLines_shift (count : Nat) : addLines read (number + count) g xs =
    (addLines read number g xs).mapError (·.shift count) := by
  induction xs generalizing number g with
  | nil => rfl
  | cons x rest ih =>
    rw [addLines, addLines]
    cases read x with
    | error fault => rfl
    | ok said =>
      have hnumber : number + count + 1 = number + 1 + count := by omega
      rw [hnumber]
      exact ih

/-- Lines say the same, whatever was said before. -/
theorem addLines_extend : addLines read number (g.extend h) xs =
    (addLines read number h xs).map g.extend := by
  induction xs generalizing number h with
  | nil => rfl
  | cons x rest ih =>
    rw [addLines, addLines]
    cases read x with
    | error fault => rfl
    | ok said =>
      dsimp only
      rw [extend_apply]
      exact ih

/-- Lines that say nothing are skipped. -/
theorem addLines_of_nothing (hxs : ∀ x ∈ xs, read x = .ok .nothing) :
    addLines read number g xs = .ok g := by
  induction xs generalizing number with
  | nil => rfl
  | cons x rest ih =>
    rw [addLines, hxs x List.mem_cons_self]
    exact ih fun y hy => hxs y (List.mem_cons_of_mem _ hy)

/-- The line of a fault is one of those that were read. -/
theorem number_of_addLines (hfault : addLines read number g xs = .error e) :
    number ≤ e.number ∧ e.number < number + xs.length := by
  induction xs generalizing number g with
  | nil => cases hfault
  | cons x rest ih =>
    rw [addLines] at hfault
    rw [List.length_cons]
    split at hfault
    · cases hfault
      dsimp only
      omega
    · have hrest := ih hfault
      omega

end Lines

/-! ## Texts -/

/-- A text that is empty or ends in a line feed is read before what follows it. -/
theorem parse_append (delimiter : String) {a b : String}
    (ha : a = "" ∨ ∃ front, a = front ++ "\n") :
    parse delimiter (a ++ b) = (parse delimiter a).bind fun g =>
      ((parse delimiter b).mapError (·.shift (Text.lines a.toList).length)).map g.extend := by
  have hlines : Text.lines (a ++ b).toList = Text.lines a.toList ++ Text.lines b.toList := by
    rw [String.toList_append]
    refine Text.lines_append (ha.imp (fun h => ?_) fun ⟨front, h⟩ => ⟨front.toList, ?_⟩)
    · rw [h]
      rfl
    · rw [h, String.toList_append]
      rfl
  rw [parse, hlines, addLines_append, parse]
  congr 1
  funext g
  rw [parse, ← addLines_shift, ← addLines_extend, extend_empty]

/-- Lines that say nothing may stand anywhere. -/
theorem parse_insert (delimiter : String) {a b : String} {xs ms ys : List (List Char)}
    (ha : Text.lines a.toList = xs ++ ys) (hb : Text.lines b.toList = xs ++ ms ++ ys)
    (hms : ∀ m ∈ ms, isStructural (Text.trim m) = true) :
    parse delimiter b = (parse delimiter a).mapError (·.insert xs.length ms.length) := by
  have hnothing : ∀ m ∈ ms, statement delimiter.toList (Text.trim m) = .ok .nothing :=
    fun m hm => by rw [statement, if_pos (hms m hm)]
  rw [parse, parse, ha, hb, List.append_assoc, addLines_append, addLines_append]
  cases hxs : addLines (fun line => statement delimiter.toList (Text.trim line)) 1 .empty xs with
  | error e =>
    have hnumber := (number_of_addLines hxs).2
    have hsame : e.insert xs.length ms.length = e := if_neg (by omega)
    exact congrArg Except.error hsame.symm
  | ok g =>
    change addLines _ _ g (ms ++ ys) = (addLines _ _ g ys).mapError _
    rw [addLines_append, addLines_of_nothing hnothing]
    change addLines _ _ g ys = _
    rw [addLines_shift]
    cases hys : addLines (fun line => statement delimiter.toList (Text.trim line))
      (1 + xs.length) g ys with
    | error e =>
      have hnumber := (number_of_addLines hys).1
      have hlater : e.insert xs.length ms.length = e.shift ms.length := if_pos (by omega)
      exact congrArg Except.error hlater.symm
    | ok k => rfl

/-- **A graph is read part by part.** A text that is empty or ends in a line feed, followed by another
one, has the fault of the first, or else that of the second so many lines further down; and if both
are well formed, it gives the graph of the first, extended by that of the second.

Blank lines, braces and comments anywhere in a text change the numbers of later lines only. -/
theorem parse_composes (delimiter : String) :
    (∀ a b : String, (a = "" ∨ ∃ front, a = front ++ "\n") →
      (∀ e, parse delimiter a = .error e → parse delimiter (a ++ b) = .error e) ∧
      (∀ g e, parse delimiter a = .ok g → parse delimiter b = .error e →
        parse delimiter (a ++ b) = .error (e.shift (Text.lines a.toList).length)) ∧
      ∀ g h, parse delimiter a = .ok g → parse delimiter b = .ok h →
        parse delimiter (a ++ b) = .ok (g.extend h)) ∧
    ∀ (a b : String) (xs ms ys : List (List Char)), Text.lines a.toList = xs ++ ys →
      Text.lines b.toList = xs ++ ms ++ ys → (∀ m ∈ ms, isStructural (Text.trim m) = true) →
      parse delimiter b = (parse delimiter a).mapError (·.insert xs.length ms.length) := by
  refine ⟨fun a b ha => ⟨fun e he => ?_, fun g e hg he => ?_, fun g h hg hh => ?_⟩,
    fun a b xs ms ys => parse_insert delimiter⟩
  · rw [parse_append delimiter ha, he]
    rfl
  · rw [parse_append delimiter ha, hg, he]
    rfl
  · rw [parse_append delimiter ha, hg, hh]
    rfl

/-- An edge, and a blank line. -/
def edgeText : String := "g:a:jar:1:test -> g:b:jar:1:compile\r\n\n"

/-- An artifact at the end of that edge, in another version, and one that is new. -/
def nodesText : String := "g:b:jar:2:test\ng:c:jar:1:compile"

/-- The version of the edge's end counts, and a line that is not well formed has its number in the
whole text, also when a comment is put in. -/
theorem edgeText_composes :
    (∃ g, parse defaultDelimiter (edgeText ++ nodesText) = .ok g ∧
      g.nodes.map (·.text) = ["g:a:jar:1:test", "g:b:jar:1:compile", "g:c:jar:1:compile"] ∧
      g.edges = [⟨⟨"g", "a", "jar"⟩, ⟨⟨"g", "b", "jar"⟩, "1", .compile⟩⟩]) ∧
    parse defaultDelimiter (edgeText ++ "\x7d\n g:c:jar") =
      .error ⟨4, "g:c:jar", .segmentCount 3⟩ ∧
    parse defaultDelimiter ("// nodes\n" ++ nodesText) = parse defaultDelimiter nodesText := by
  have hedge : parse defaultDelimiter edgeText = .ok
      ⟨[⟨⟨"g", "a", "jar"⟩, "1", .test⟩, ⟨⟨"g", "b", "jar"⟩, "1", .compile⟩],
        [⟨⟨"g", "a", "jar"⟩, ⟨⟨"g", "b", "jar"⟩, "1", .compile⟩⟩]⟩ := by with_unfolding_all rfl
  have hnodes : parse defaultDelimiter nodesText = .ok
      ⟨[⟨⟨"g", "b", "jar"⟩, "2", .test⟩, ⟨⟨"g", "c", "jar"⟩, "1", .compile⟩], []⟩ := by
    with_unfolding_all rfl
  have hbroken : parse defaultDelimiter "\x7d\n g:c:jar" =
      .error ⟨2, "g:c:jar", .segmentCount 3⟩ := by with_unfolding_all rfl
  obtain ⟨hparts, hinsert⟩ := parse_composes defaultDelimiter
  have hends : edgeText = "" ∨ ∃ front, edgeText = front ++ "\n" :=
    .inr ⟨"g:a:jar:1:test -> g:b:jar:1:compile\r\n", by decide⟩
  refine ⟨⟨_, (hparts edgeText nodesText hends).2.2 _ _ hedge hnodes, by cbv, by cbv⟩, ?_, ?_⟩
  · exact (hparts edgeText _ hends).2.1 _ _ hedge hbroken
  · rw [hinsert nodesText ("// nodes\n" ++ nodesText) [] ["// nodes".toList]
      (Text.lines nodesText.toList) rfl (by cbv) (by decide), hnodes]
    rfl

end Graph

end TierIsolation
