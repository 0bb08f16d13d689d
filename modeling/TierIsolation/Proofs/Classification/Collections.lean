import TierIsolation.Classification
import TierIsolation.Proofs.Graph.Closures

/-!
# What the tiers are made of

`Classification.collections_exact`: the artifacts that are collected for the application, for the
host and for a plugin are those that the graph brings along for them, each identity once.

The scopes of nodes decide where the graph is entered, the records on edges what is kept
(`OfApplication`, `OfHost`, `OfSeeds`); what is passed on the way plays no part in it
(`Graph.BringsAlong`). One identity may be described by several records, of which one is listed
(`Lists`).
-/

namespace TierIsolation

/-- The record stands on an edge that leaves `i`, or something that can be reached from `i`. -/
def Graph.BringsAlong (g : Graph) (i : Identity) (d : Artifact) : Prop :=
  ∃ j, Relation.ReflTransGen g.DependsOn i j ∧ ⟨j, d⟩ ∈ g.edges

namespace Classification

/-! ## Lists of what is described -/

/-- The list has only records that are described, and every identity that is described. -/
structure Gathers (xs : List Artifact) (described : Artifact → Prop) : Prop where
  sound : ∀ d ∈ xs, described d
  complete : ∀ d, described d → d.identity ∈ xs.map (·.identity)

/-- The list has what is described, and no identity twice. -/
structure Lists (xs : List Artifact) (described : Artifact → Prop) : Prop
    extends Gathers xs described where
  nodup : (xs.map (·.identity)).Nodup

section Gathers

variable {xs : List Artifact} {described described' : Artifact → Prop} {a : Artifact}

theorem Gathers.congr (h : Gathers xs described) (hiff : ∀ d, described d ↔ described' d) :
    Gathers xs described' where
  sound d hd := (hiff d).1 (h.sound d hd)
  complete d hd := h.complete d ((hiff d).2 hd)

theorem gathers_nil : Gathers [] fun _ => False where
  sound _ hd := absurd hd List.not_mem_nil
  complete _ hd := hd.elim

theorem Gathers.cons (h : Gathers xs described) :
    Gathers (a :: xs) fun d => d = a ∨ described d where
  sound d hd := (List.mem_cons.1 hd).imp_right (h.sound d)
  complete := by
    rintro d (rfl | hd)
    · exact List.mem_cons_self
    · exact List.mem_cons_of_mem _ (h.complete d hd)

/-- What several roots bring is gathered from what each of them brings. -/
theorem Gathers.flatMap {roots : List Artifact} {collect : Artifact → List Artifact}
    {brings : Artifact → Artifact → Prop} (h : ∀ a, Gathers (collect a) (brings a)) :
    Gathers (roots.flatMap collect) fun d => ∃ a ∈ roots, brings a d where
  sound d hd := by
    obtain ⟨a, ha, hd⟩ := List.mem_flatMap.1 hd
    exact ⟨a, ha, (h a).sound d hd⟩
  complete := by
    rintro d ⟨a, ha, hd⟩
    obtain ⟨d', hd', hi⟩ := List.mem_map.1 ((h a).complete d hd)
    exact List.mem_map.2 ⟨d', List.mem_flatMap.2 ⟨a, ha, hd'⟩, hi⟩

/-- It does not matter which of several records of one identity is kept. -/
theorem Gathers.distinct (h : Gathers xs described) : Lists (Artifact.distinct xs) described where
  nodup := Artifact.nodup_distinct xs
  sound d hd := h.sound d (Artifact.mem_distinctFrom hd).1
  complete d hd := Artifact.mem_identities_distinct.2 (h.complete d hd)

end Gathers

/-! ## Closures -/

variable (ss : List Graph.Statement)

theorem gathers_closure (i : Identity) (keep : Artifact → Bool) :
    Gathers ((Graph.ofStatements ss).closure i keep) fun d =>
      (Graph.ofStatements ss).BringsAlong i d ∧ keep d = true where
  sound d hd := by
    obtain ⟨-, hkeep, j, hpath, hj⟩ := Graph.met_of_mem_closure hd
    exact ⟨⟨j, hpath, Graph.mem_dependencies_iff.1 hj⟩, hkeep⟩
  complete := by
    rintro d ⟨⟨j, hpath, hj⟩, hkeep⟩
    exact Graph.mem_identities_closure_ofStatements.2 ⟨⟨j, d⟩, hj, hpath, hkeep, rfl⟩

/-- Some artifacts, with all that they bring along and is accepted. -/
theorem lists_closures (roots : List Artifact) (keep : Artifact → Bool) :
    Lists
      (Artifact.distinct (roots.flatMap fun a =>
        a :: (Graph.ofStatements ss).closure a.identity keep))
      fun d => d ∈ roots ∨
        keep d = true ∧ ∃ a ∈ roots, (Graph.ofStatements ss).BringsAlong a.identity d := by
  refine Gathers.distinct ((Gathers.flatMap fun a =>
    (gathers_closure ss a.identity keep).cons).congr fun d => ?_)
  constructor
  · rintro ⟨a, ha, rfl | ⟨hbrings, hkeep⟩⟩
    · exact .inl ha
    · exact .inr ⟨hkeep, a, ha, hbrings⟩
  · rintro (hd | ⟨hkeep, a, ha, hbrings⟩)
    · exact ⟨d, hd, .inl rfl⟩
    · exact ⟨a, ha, .inr ⟨hbrings, hkeep⟩⟩

/-! ## Collections -/

section Collections

variable (g : Graph) (exclusions : CoordinateMatcher)

/-- Everything declared for tests, excluded or not; what it brings along, unless that is excluded;
and what compiled artifacts bring along for tests, unless one or the other is excluded. -/
def OfApplication (d : Artifact) : Prop :=
  (d ∈ g.nodes ∧ d.isTest = true) ∨
  (exclusions.accepts d = false ∧ ∃ a ∈ g.nodes, a.isTest = true ∧ g.BringsAlong a.identity d) ∨
  (exclusions.accepts d = false ∧ d.isTest = true ∧
    ∃ a ∈ g.nodes, a.isCompile = true ∧ exclusions.accepts a = false ∧ g.BringsAlong a.identity d)

/-- Everything provided, and what it brings along other than for tests. -/
def OfHost (d : Artifact) : Prop :=
  (d ∈ g.nodes ∧ d.isProvided = true) ∨
  (d.isTest = false ∧ ∃ a ∈ g.nodes, a.isProvided = true ∧ g.BringsAlong a.identity d)

/-- The seeds, and what they bring along compiled. -/
def OfSeeds (seeds : List Artifact) (d : Artifact) : Prop :=
  d ∈ seeds ∨ (d.isCompile = true ∧ ∃ a ∈ seeds, g.BringsAlong a.identity d)

/-- What a single artifact adds to the application. -/
def AddsToApplication (a d : Artifact) : Prop :=
  (a.isTest = true ∧ (d = a ∨ g.BringsAlong a.identity d ∧ exclusions.accepts d = false)) ∨
  (a.isCompile = true ∧ exclusions.accepts a = false ∧
    g.BringsAlong a.identity d ∧ d.isTest = true ∧ exclusions.accepts d = false)

variable {g exclusions} in
theorem exists_addsToApplication {d : Artifact} :
    (∃ a ∈ g.nodes, AddsToApplication g exclusions a d) ↔ OfApplication g exclusions d := by
  constructor
  · rintro ⟨a, ha, ⟨htest, rfl | ⟨hbrings, hd⟩⟩ | ⟨hcompile, hexcluded, hbrings, htest, hd⟩⟩
    · exact .inl ⟨ha, htest⟩
    · exact .inr (.inl ⟨hd, a, ha, htest, hbrings⟩)
    · exact .inr (.inr ⟨hd, htest, a, ha, hcompile, hexcluded, hbrings⟩)
  · rintro (⟨hd, htest⟩ | ⟨hd, a, ha, htest, hbrings⟩ |
      ⟨hd, htest, a, ha, hcompile, hexcluded, hbrings⟩)
    · exact ⟨d, hd, .inl ⟨htest, .inl rfl⟩⟩
    · exact ⟨a, ha, .inl ⟨htest, .inr ⟨hbrings, hd⟩⟩⟩
    · exact ⟨a, ha, .inr ⟨hcompile, hexcluded, hbrings, htest, hd⟩⟩

end Collections

/-- An artifact is declared for tests or compiled, but not both. -/
theorem isCompile_of_isTest {a : Artifact} (h : a.isTest = true) : a.isCompile = false := by
  simp only [Artifact.isTest, Artifact.isCompile, beq_iff_eq] at h ⊢
  rw [h]
  rfl

theorem gathers_addsToApplication (exclusions : CoordinateMatcher) (a : Artifact) :
    Gathers
      (if a.isTest then
        a :: (Graph.ofStatements ss).closure a.identity fun dep => !exclusions.accepts dep
      else if a.isCompile && !exclusions.accepts a then
        (Graph.ofStatements ss).closure a.identity fun dep =>
          dep.isTest && !exclusions.accepts dep
      else [])
      (AddsToApplication (Graph.ofStatements ss) exclusions a) := by
  split
  · rename_i htest
    refine (gathers_closure ss _ _).cons.congr fun d => ?_
    simp [AddsToApplication, htest, isCompile_of_isTest htest]
  · rename_i htest
    split
    · rename_i hcompile
      refine (gathers_closure ss _ _).congr fun d => ?_
      simp_all [AddsToApplication]
    · rename_i hother
      refine gathers_nil.congr fun d => ?_
      simp_all [AddsToApplication]

theorem lists_applicationArtifacts (exclusions : CoordinateMatcher) :
    Lists (applicationArtifacts (Graph.ofStatements ss) exclusions)
      (OfApplication (Graph.ofStatements ss) exclusions) :=
  ((Gathers.flatMap (gathers_addsToApplication ss exclusions)).congr fun _ =>
    exists_addsToApplication).distinct

theorem lists_providedArtifacts :
    Lists (providedArtifacts (Graph.ofStatements ss)) (OfHost (Graph.ofStatements ss)) := by
  have h := lists_closures ss ((Graph.ofStatements ss).nodes.filter (·.isProvided)) fun d =>
    !d.isTest
  simp only [List.mem_filter, Bool.not_eq_true', and_assoc] at h
  exact h

/-- **The collections of the tiers are exact.** Each lists every identity once, and has what the
graph brings along for the application, for the host, or for the seeds of a plugin. -/
theorem collections_exact (ss : List Graph.Statement) (exclusions : CoordinateMatcher)
    (seeds : List Artifact) :
    let g := Graph.ofStatements ss
    Lists (applicationArtifacts g exclusions) (OfApplication g exclusions) ∧
    Lists (providedArtifacts g) (OfHost g) ∧
    Lists (compileClosure g seeds) (OfSeeds g seeds) :=
  ⟨lists_applicationArtifacts ss exclusions, lists_providedArtifacts ss, lists_closures ss seeds _⟩

end Classification

end TierIsolation
