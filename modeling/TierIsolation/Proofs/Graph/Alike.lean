import TierIsolation.CoordinatePattern
import TierIsolation.Graph.Text
import TierIsolation.Proofs.Graph.Reachability

/-!
# Graphs that say the same

Two graphs are *alike* (`Graph.Alike`) if they declare the same artifacts and dependencies for the
same scopes, in any order and with any versions.

* `Alike.closure`: their closures are the same in that sense, as long as a closure keeps what it
  does by identity and scope (`Artifact.ByRole`).
* `alike_ofStatements`: the same statements in another order give graphs that are alike, if no
  artifact is mentioned with two scopes.

Everything is said for one direction, `Covered`: what one side declares, the other declares too.
-/

namespace TierIsolation

/-! ## Declarations without their versions -/

namespace Artifact

variable {a b : Artifact} {xs ys all : List Artifact}

/-- What is declared of an artifact, its version apart. -/
def role (a : Artifact) : Identity × Scope := (a.identity, a.scope)

theorem role_eq_iff : a.role = b.role ↔ a.identity = b.identity ∧ a.scope = b.scope := by
  simp [role]

/-- Every declaration in `xs` has one in `ys` that differs from it in the version at most. -/
def Covered (xs ys : List Artifact) : Prop := ∀ a ∈ xs, ∃ b ∈ ys, b.role = a.role

/-- No artifact is declared for two scopes. -/
def Consistent (all : List Artifact) : Prop :=
  ∀ a ∈ all, ∀ b ∈ all, a.identity = b.identity → a.scope = b.scope

instance : Decidable (Consistent all) :=
  inferInstanceAs (Decidable (∀ a ∈ all, ∀ b ∈ all, a.identity = b.identity → a.scope = b.scope))

/-- The predicate looks at identity and scope alone. -/
def ByRole (keep : Artifact → Bool) : Prop := ∀ a b, a.role = b.role → keep a = keep b

theorem byRole_isTest : ByRole isTest := fun _ _ h => by simp [isTest, (role_eq_iff.1 h).2]

theorem byRole_isCompile : ByRole isCompile :=
  fun _ _ h => by simp [isCompile, (role_eq_iff.1 h).2]

theorem byRole_isProvided : ByRole isProvided :=
  fun _ _ h => by simp [isProvided, (role_eq_iff.1 h).2]

theorem byRole_accepts (m : CoordinateMatcher) : ByRole m.accepts := fun _ _ h => by
  simp [CoordinateMatcher.accepts, CoordinatePattern.accepts, (role_eq_iff.1 h).1]

theorem ByRole.not {keep : Artifact → Bool} (h : ByRole keep) : ByRole fun a => !keep a :=
  fun a b hab => by simp only [h a b hab]

theorem ByRole.and {keep keep' : Artifact → Bool} (h : ByRole keep) (h' : ByRole keep') :
    ByRole fun a => keep a && keep' a :=
  fun a b hab => by simp only [h a b hab, h' a b hab]

theorem Consistent.subset {part : List Artifact} (h : Consistent all) (hpart : part ⊆ all) :
    Consistent part :=
  fun a ha b hb => h a (hpart ha) b (hpart hb)

theorem Consistent.role_eq (h : Consistent all) (ha : a ∈ all) (hb : b ∈ all)
    (hi : a.identity = b.identity) : a.role = b.role :=
  role_eq_iff.2 ⟨hi, h a ha b hb hi⟩

theorem Covered.filter {keep : Artifact → Bool} (h : Covered xs ys) (hkeep : ByRole keep) :
    Covered (xs.filter keep) (ys.filter keep) := by
  intro a ha
  obtain ⟨hmem, hk⟩ := List.mem_filter.1 ha
  obtain ⟨b, hb, hrole⟩ := h a hmem
  exact ⟨b, List.mem_filter.2 ⟨hb, (hkeep b a hrole).trans hk⟩, hrole⟩

theorem Covered.flatMap {f f' : Artifact → List Artifact} (h : Covered xs ys)
    (hf : ∀ a b, b.role = a.role → Covered (f a) (f' b)) :
    Covered (xs.flatMap f) (ys.flatMap f') := by
  intro d hd
  obtain ⟨a, ha, hd⟩ := List.mem_flatMap.1 hd
  obtain ⟨b, hb, hrole⟩ := h a ha
  obtain ⟨d', hd', hroles⟩ := hf a b hrole d hd
  exact ⟨d', List.mem_flatMap.2 ⟨b, hb, hd'⟩, hroles⟩

theorem Covered.cons (h : Covered xs ys) (hrole : b.role = a.role) :
    Covered (a :: xs) (b :: ys) := by
  intro d hd
  rcases List.mem_cons.1 hd with rfl | hd
  · exact ⟨b, List.mem_cons_self, hrole⟩
  · obtain ⟨d', hd', hroles⟩ := h d hd
    exact ⟨d', List.mem_cons_of_mem _ hd', hroles⟩

/-- It does not matter which of several declarations of one artifact comes first. -/
theorem Covered.distinct (h : Covered xs ys) (hys : Consistent ys) :
    Covered (distinct xs) (distinct ys) := by
  intro a ha
  obtain ⟨b, hb, hrole⟩ := h a (mem_distinctFrom ha).1
  obtain ⟨b', hb', hi⟩ := exists_mem_distinct hb
  have hsame : b'.role = b.role := hys.role_eq (mem_distinctFrom hb').1 hb hi
  exact ⟨b', hb', hsame.trans hrole⟩

end Artifact

/-! ## Graphs -/

namespace Graph

variable {g k : Graph} {i j : Identity} {a d : Artifact}

/-- All that a graph declares: its artifacts, and the dependencies on its edges. -/
def declarations (g : Graph) : List Artifact := g.nodes ++ g.edges.map (·.target)

/-- What `g` declares, `k` declares as well. -/
structure Covered (g k : Graph) : Prop where
  nodes : Artifact.Covered g.nodes k.nodes
  dependencies : ∀ i, Artifact.Covered (g.dependencies i) (k.dependencies i)

/-- Both graphs declare the same, and no artifact for two scopes. -/
structure Alike (g k : Graph) : Prop where
  covered : g.Covered k
  covers : k.Covered g
  left : Artifact.Consistent g.declarations
  right : Artifact.Consistent k.declarations

theorem Alike.symm (h : g.Alike k) : k.Alike g := ⟨h.covers, h.covered, h.right, h.left⟩

theorem mem_declarations_of_mem_dependencies (h : d ∈ g.dependencies i) : d ∈ g.declarations := by
  obtain ⟨e, he, rfl⟩ := List.mem_map.1 h
  exact List.mem_append_right _ (List.mem_map_of_mem (List.mem_filter.1 he).1)

theorem closure_subset {keep : Artifact → Bool} : g.closure i keep ⊆ g.declarations := by
  intro d hd
  obtain ⟨-, -, j, -, hj⟩ := met_of_mem_closure hd
  exact mem_declarations_of_mem_dependencies hj

theorem contains_iff : g.contains i = true ↔ ∃ a ∈ g.nodes, a.identity = i := by
  simp [contains]

theorem Covered.contains (h : g.Covered k) (hi : g.contains i = true) : k.contains i = true := by
  obtain ⟨a, ha, hai⟩ := contains_iff.1 hi
  obtain ⟨b, hb, hrole⟩ := h.nodes a ha
  exact contains_iff.2 ⟨b, hb, (Artifact.role_eq_iff.1 hrole).1.trans hai⟩

theorem Covered.dependsOn (h : g.Covered k) (hij : g.DependsOn i j) : k.DependsOn i j := by
  obtain ⟨d, hd, hdj⟩ := List.mem_map.1 hij
  obtain ⟨d', hd', hrole⟩ := h.dependencies i d hd
  exact List.mem_map.2 ⟨d', hd', (Artifact.role_eq_iff.1 hrole).1.trans hdj⟩

/-- What `g` leads to, `k` leads to as well. -/
theorem Alike.closure {keep : Artifact → Bool} (h : g.Alike k) (hkeep : Artifact.ByRole keep)
    (i : Identity) : Artifact.Covered (g.closure i keep) (k.closure i keep) := by
  intro d hd
  obtain ⟨hi, hk, j, hpath, hj⟩ := met_of_mem_closure hd
  obtain ⟨d₁, hd₁, hrole⟩ := h.covered.dependencies j d hj
  have hpath' : Relation.ReflTransGen k.DependsOn i j :=
    Relation.ReflTransGen.mono (fun _ _ => h.covered.dependsOn) i j hpath
  obtain ⟨d₂, hd₂, hid⟩ :=
    exists_mem_closure (h.covered.contains hi) hpath' hd₁ ((hkeep d₁ d hrole).trans hk)
  have hsame : d₂.role = d₁.role :=
    h.right.role_eq (closure_subset hd₂) (mem_declarations_of_mem_dependencies hd₁) hid
  exact ⟨d₂, hd₂, hsame.trans hrole⟩

/-! ## Statements -/

/-- The artifacts that a statement mentions. -/
def Statement.mentions : Statement → List Artifact
  | .nothing => []
  | .declaration a => [a]
  | .dependency source target => [source, target]

/-- The graph that statements make up, one after the other. -/
def ofStatements (statements : List Statement) : Graph := statements.foldl apply .empty

variable {s : Statement} {ss ts : List Statement}

/-- What holds after statements held before, or one of them brought it about. -/
theorem foldl_apply_imp {P : Graph → Prop} {Q : Statement → Prop}
    (h : ∀ g s, P (g.apply s) → P g ∨ Q s) (hp : P (ss.foldl apply g)) :
    P g ∨ ∃ s ∈ ss, Q s := by
  induction ss generalizing g with
  | nil => exact .inl hp
  | cons s rest ih =>
    rcases ih hp with hp | ⟨t, ht, hq⟩
    · rcases h g s hp with hp | hq
      · exact .inl hp
      · exact .inr ⟨s, List.mem_cons_self, hq⟩
    · exact .inr ⟨t, List.mem_cons_of_mem _ ht, hq⟩

/-- What a statement brings about, and later ones keep, holds after all of them. -/
theorem foldl_apply_of_mem {P : Graph → Prop} (hkeep : ∀ g s, P g → P (g.apply s)) (hs : s ∈ ss)
    (h : ∀ g : Graph, P (g.apply s)) : P (ss.foldl apply g) := by
  obtain ⟨before, after, rfl⟩ := List.append_of_mem hs
  rw [List.foldl_append, List.foldl_cons]
  have hafter (rest : List Statement) (g : Graph) (hp : P g) : P (rest.foldl apply g) := by
    induction rest generalizing g with
    | nil => exact hp
    | cons t rest ih => exact ih _ (hkeep g t hp)
  exact hafter after _ (h _)

theorem mem_nodes_declare (h : d ∈ (g.declare a).nodes) : d ∈ g.nodes ∨ d = a := by
  unfold declare at h
  split at h
  · exact .inl h
  · simpa using h

theorem contains_declare :
    (g.declare a).contains i = true ↔ g.contains i = true ∨ a.identity = i := by
  unfold declare
  split
  · rename_i ha
    constructor
    · exact .inl
    · rintro (hi | rfl)
      · exact hi
      · exact ha
  · simp [contains]

theorem nodes_addDependency (source target : Artifact) :
    (g.addDependency source target).nodes = ((g.declare source).declare target).nodes := by
  simp only [addDependency]
  split <;> rfl

theorem mem_nodes_apply (h : d ∈ (g.apply s).nodes) : d ∈ g.nodes ∨ d ∈ s.mentions := by
  cases s with
  | nothing => exact .inl h
  | declaration a =>
    rcases mem_nodes_declare h with h | rfl
    · exact .inl h
    · exact .inr List.mem_cons_self
  | dependency source target =>
    rw [apply, nodes_addDependency] at h
    rcases mem_nodes_declare h with h | rfl
    · rcases mem_nodes_declare h with h | rfl
      · exact .inl h
      · exact .inr List.mem_cons_self
    · exact .inr (List.mem_cons_of_mem _ List.mem_cons_self)

theorem contains_apply :
    (g.apply s).contains i = true ↔ g.contains i = true ∨ ∃ a ∈ s.mentions, a.identity = i := by
  cases s with
  | nothing => simp [apply, Statement.mentions]
  | declaration a => simp [apply, Statement.mentions, contains_declare]
  | dependency source target =>
    have hnodes : (g.addDependency source target).contains i =
        ((g.declare source).declare target).contains i := by
      rw [contains, contains, nodes_addDependency]
    simp [apply, Statement.mentions, hnodes, contains_declare, or_assoc]

theorem edges_apply : (g.apply s).edges = g.edges ∨
    ∃ source target, s = .dependency source target ∧
      (g.apply s).edges = g.edges ++ [⟨source.identity, target⟩] := by
  cases s with
  | nothing => exact .inl rfl
  | declaration a => exact .inl (edges_declare g a)
  | dependency source target =>
    simp only [apply, addDependency]
    split
    · exact .inl (by simp)
    · exact .inr ⟨source, target, rfl, by simp⟩

theorem connects_apply (h : g.connects i j = true) : (g.apply s).connects i j = true := by
  rcases edges_apply (g := g) (s := s) with hedges | ⟨source, target, -, hedges⟩
  · rw [connects, hedges]
    exact h
  · rw [connects, hedges, List.any_append]
    exact Bool.or_eq_true_iff.2 (.inl h)

theorem connects_addDependency (source target : Artifact) :
    (g.addDependency source target).connects source.identity target.identity = true := by
  simp only [addDependency]
  split
  · assumption
  · simp [connects]

theorem mem_nodes_ofStatements (h : d ∈ (ofStatements ss).nodes) :
    d ∈ ss.flatMap Statement.mentions := by
  rcases foldl_apply_imp (P := fun g => d ∈ g.nodes) (fun _ _ => mem_nodes_apply) h with h | h
  · cases h
  · exact List.mem_flatMap.2 h

theorem exists_mem_nodes (h : a ∈ ss.flatMap Statement.mentions) :
    ∃ b ∈ (ofStatements ss).nodes, b.identity = a.identity := by
  obtain ⟨s, hs, ha⟩ := List.mem_flatMap.1 h
  refine contains_iff.1 (foldl_apply_of_mem (P := fun g => g.contains a.identity = true) ?_ hs ?_)
  · exact fun g t hg => contains_apply.2 (.inl hg)
  · exact fun g => contains_apply.2 (.inr ⟨a, ha, rfl⟩)

theorem exists_dependency_of_mem (h : d ∈ (ofStatements ss).dependencies i) :
    ∃ source, .dependency source d ∈ ss ∧ source.identity = i := by
  obtain ⟨e, he, rfl⟩ := List.mem_map.1 h
  obtain ⟨hedge, hsource⟩ := List.mem_filter.1 he
  have hstated : e ∈ Graph.empty.edges ∨
      ∃ s ∈ ss, ∃ source, s = .dependency source e.target ∧ source.identity = e.source := by
    refine foldl_apply_imp (P := fun g => e ∈ g.edges) (fun g s hmem => ?_) hedge
    rcases edges_apply (g := g) (s := s) with hedges | ⟨source, target, rfl, hedges⟩
    · exact .inl (hedges ▸ hmem)
    · rw [hedges, List.mem_append, List.mem_singleton] at hmem
      rcases hmem with hmem | rfl
      · exact .inl hmem
      · exact .inr ⟨source, rfl, rfl⟩
  rcases hstated with hnone | ⟨s, hs, source, rfl, hi⟩
  · cases hnone
  · exact ⟨source, hs, hi.trans (by simpa using hsource)⟩

theorem exists_mem_dependencies {source target : Artifact} (h : .dependency source target ∈ ss) :
    ∃ d ∈ (ofStatements ss).dependencies source.identity, d.identity = target.identity := by
  have hconnects : (ofStatements ss).connects source.identity target.identity = true :=
    foldl_apply_of_mem (P := fun g => g.connects source.identity target.identity = true)
      (fun g t hg => connects_apply hg) h fun g => connects_addDependency source target
  simp only [connects, List.any_eq_true, Bool.and_eq_true, beq_iff_eq] at hconnects
  obtain ⟨e, he, hsource, htarget⟩ := hconnects
  refine ⟨e.target, List.mem_map_of_mem (List.mem_filter.2 ⟨he, ?_⟩), htarget⟩
  simpa using hsource

theorem target_mem_mentions {source target : Artifact} (h : .dependency source target ∈ ss) :
    target ∈ ss.flatMap Statement.mentions :=
  List.mem_flatMap.2 ⟨_, h, List.mem_cons_of_mem _ List.mem_cons_self⟩

theorem declarations_ofStatements_subset :
    (ofStatements ss).declarations ⊆ ss.flatMap Statement.mentions := by
  intro d hd
  rcases List.mem_append.1 hd with hd | hd
  · exact mem_nodes_ofStatements hd
  · obtain ⟨e, he, rfl⟩ := List.mem_map.1 hd
    have hdep : e.target ∈ (ofStatements ss).dependencies e.source :=
      List.mem_map_of_mem (List.mem_filter.2 ⟨he, beq_self_eq_true _⟩)
    obtain ⟨source, hs, -⟩ := exists_dependency_of_mem hdep
    exact target_mem_mentions hs

theorem mentions_subset (h : ss ⊆ ts) :
    ss.flatMap Statement.mentions ⊆ ts.flatMap Statement.mentions := by
  intro a ha
  obtain ⟨s, hs, ha⟩ := List.mem_flatMap.1 ha
  exact List.mem_flatMap.2 ⟨s, h hs, ha⟩

/-- More statements declare more. -/
theorem covered_ofStatements (h : ss ⊆ ts)
    (hc : Artifact.Consistent (ts.flatMap Statement.mentions)) :
    (ofStatements ss).Covered (ofStatements ts) where
  nodes a ha := by
    have hmention := mentions_subset h (mem_nodes_ofStatements ha)
    obtain ⟨b, hb, hi⟩ := exists_mem_nodes hmention
    exact ⟨b, hb, hc.role_eq (mem_nodes_ofStatements hb) hmention hi⟩
  dependencies i d hd := by
    obtain ⟨source, hs, rfl⟩ := exists_dependency_of_mem hd
    obtain ⟨d', hd', hi⟩ := exists_mem_dependencies (h hs)
    obtain ⟨source', hs', -⟩ := exists_dependency_of_mem hd'
    exact ⟨d', hd', hc.role_eq (target_mem_mentions hs') (target_mem_mentions (h hs)) hi⟩

/-- The order of statements does not matter to what they declare. -/
theorem alike_ofStatements (h : ∀ s, s ∈ ss ↔ s ∈ ts)
    (hc : Artifact.Consistent (ss.flatMap Statement.mentions)) :
    (ofStatements ss).Alike (ofStatements ts) := by
  have hst : ss ⊆ ts := fun s hs => (h s).1 hs
  have hts : ts ⊆ ss := fun s hs => (h s).2 hs
  have hc' : Artifact.Consistent (ts.flatMap Statement.mentions) := hc.subset (mentions_subset hts)
  exact ⟨covered_ofStatements hst hc', covered_ofStatements hts hc,
    hc.subset declarations_ofStatements_subset, hc'.subset declarations_ofStatements_subset⟩

end Graph

end TierIsolation
