import Mathlib.Data.Finset.Card
import TierIsolation.Proofs.Graph.Closures

/-!
# A graph is the record of its declarations

`Graph.ofStatements_records`: what a graph answers follows from the statements it is made of. Its
artifacts, the dependencies of an artifact and its dependents are the first ones that were stated,
each identity once.

Each answer has one lemma for a single statement (`nodes_apply`, `dependencies_apply`,
`sources_apply`): what is stated next comes last, unless it was stated before. From a single
statement to all of them it is the same step each time (`ofStatements_eq_of_apply`).
-/

namespace TierIsolation

namespace Graph

variable {g : Graph} {i j : Identity} {ss ts : List Statement} {xs : List Artifact}

/-! ## What statements declare -/

namespace Statement

/-- The artifacts to which edges from `i` are declared. -/
def targetsFrom (i : Identity) : Statement → List Artifact
  | .dependency source target => if source.identity = i then [target] else []
  | _ => []

/-- The artifacts from which edges to `j` are declared. -/
def sourcesTo (j : Identity) : Statement → List Artifact
  | .dependency source target => if target.identity = j then [source] else []
  | _ => []

/-- The two ends of the edges that are declared. -/
def ends : Statement → List (Identity × Identity)
  | .dependency source target => [(source.identity, target.identity)]
  | _ => []

end Statement

theorem ofStatements_append (ss ts : List Statement) :
    ofStatements (ss ++ ts) = ts.foldl apply (ofStatements ss) :=
  List.foldl_append

/-- An answer that each statement adds something to depends on all that was added, in order. -/
theorem ofStatements_eq_of_apply {α β : Type} (answer : Graph → α) (record : List β → α)
    {stated : Statement → List β} (hempty : answer {} = record [])
    (happly : ∀ g xs s, answer g = record xs → answer (g.apply s) = record (xs ++ stated s))
    (ss : List Statement) : answer (ofStatements ss) = record (ss.flatMap stated) := by
  induction ss using List.reverseRecOn with
  | nil => exact hempty
  | append_singleton ss s ih =>
    rw [ofStatements_append, List.flatMap_append, List.flatMap_singleton]
    exact happly _ _ s ih

/-! ## Artifacts -/

theorem contains_iff_mem_identities : g.contains i = true ↔ i ∈ g.nodes.map (·.identity) := by
  rw [contains_iff, List.mem_map]

theorem nodes_declare (hg : g.nodes = Artifact.distinct xs) (a : Artifact) :
    (g.declare a).nodes = Artifact.distinct (xs ++ [a]) := by
  have hcontains : g.contains a.identity = true ↔ a.identity ∈ xs.map (·.identity) := by
    rw [contains_iff_mem_identities, hg, Artifact.mem_identities_distinct]
  rw [declare, Artifact.distinct_concat hcontains, ← hg]
  split <;> rfl

theorem nodes_apply (hg : g.nodes = Artifact.distinct xs) (s : Statement) :
    (g.apply s).nodes = Artifact.distinct (xs ++ s.mentions) := by
  cases s with
  | nothing => simpa [apply, Statement.mentions] using hg
  | declaration a => exact nodes_declare hg a
  | dependency source target =>
    rw [apply, nodes_addDependency, nodes_declare (nodes_declare hg source) target,
      List.append_assoc]
    rfl

theorem nodes_ofStatements (ss : List Statement) :
    (ofStatements ss).nodes = Artifact.distinct (ss.flatMap Statement.mentions) :=
  ofStatements_eq_of_apply nodes Artifact.distinct rfl (fun _ _ s hg => nodes_apply hg s) ss

theorem nodup_nodes (ss : List Statement) :
    ((ofStatements ss).nodes.map (·.identity)).Nodup := by
  rw [nodes_ofStatements]
  exact Artifact.nodup_distinct _

/-! ## Positions -/

/-- Artifacts are only added, behind those that are there. -/
theorem nodes_prefix_apply (g : Graph) (s : Statement) : g.nodes <+: (g.apply s).nodes := by
  have hdeclare (g : Graph) (a : Artifact) : g.nodes <+: (g.declare a).nodes := by
    unfold declare
    split
    · exact List.prefix_rfl
    · exact List.prefix_append _ _
  cases s with
  | nothing => exact List.prefix_rfl
  | declaration a => exact hdeclare g a
  | dependency source target =>
    rw [apply, nodes_addDependency]
    exact (hdeclare g source).trans (hdeclare _ target)

theorem nodes_prefix (g : Graph) (ts : List Statement) : g.nodes <+: (ts.foldl apply g).nodes := by
  induction ts generalizing g with
  | nil => exact List.prefix_rfl
  | cons t rest ih => exact (nodes_prefix_apply g t).trans (ih _)

theorem exists_index? (h : g.contains i = true) :
    ∃ n, g.index? i = some n ∧ (g.nodes[n]?).map (·.identity) = some i := by
  obtain ⟨n, hn⟩ := Option.isSome_iff_exists.1 (List.findIdx?_isSome.trans h)
  obtain ⟨hlt, hi, -⟩ := List.findIdx?_eq_some_iff_getElem.1 hn
  refine ⟨n, hn, ?_⟩
  rw [List.getElem?_eq_getElem hlt]
  exact congrArg some (beq_iff_eq.1 hi)

/-- The position of an artifact never changes. -/
theorem index?_foldl_apply {n : Nat} (h : g.index? i = some n) (ts : List Statement) :
    (ts.foldl apply g).index? i = some n := by
  obtain ⟨rest, hrest⟩ := nodes_prefix g ts
  rw [index?, ← hrest, List.findIdx?_append]
  exact Option.or_eq_some_iff.2 (.inl h)

/-! ## Dependencies -/

theorem edges_addDependency (source target : Artifact) :
    (g.addDependency source target).edges =
      if g.connects source.identity target.identity then g.edges
      else g.edges ++ [⟨source.identity, target⟩] := by
  have hconnects : ((g.declare source).declare target).connects source.identity target.identity =
      g.connects source.identity target.identity := by
    simp only [connects, edges_declare]
  simp only [addDependency, hconnects]
  split <;> simp only [edges_declare]

theorem connects_iff : g.connects i j = true ↔ j ∈ (g.dependencies i).map (·.identity) := by
  simp [connects, dependencies, and_assoc]

theorem dependencies_apply (hg : g.dependencies i = Artifact.distinct xs) (s : Statement) :
    (g.apply s).dependencies i = Artifact.distinct (xs ++ s.targetsFrom i) := by
  cases s with
  | nothing => simpa [apply, Statement.targetsFrom] using hg
  | declaration a => simpa [apply, dependencies, Statement.targetsFrom] using hg
  | dependency source target =>
    rw [apply, dependencies, edges_addDependency, Statement.targetsFrom]
    by_cases hsource : source.identity = i
    · have hconnects : g.connects source.identity target.identity = true ↔
          target.identity ∈ xs.map (·.identity) := by
        rw [connects_iff, hsource, hg, Artifact.mem_identities_distinct]
      rw [if_pos hsource, Artifact.distinct_concat hconnects, ← hg, dependencies]
      split
      · rfl
      · simp [List.filter_append, hsource]
    · rw [if_neg hsource, List.append_nil, ← hg, dependencies]
      split
      · rfl
      · simp [List.filter_append, hsource]

theorem dependencies_ofStatements (ss : List Statement) (i : Identity) :
    (ofStatements ss).dependencies i =
      Artifact.distinct (ss.flatMap (Statement.targetsFrom i)) :=
  ofStatements_eq_of_apply (·.dependencies i) Artifact.distinct rfl
    (fun _ _ s hg => dependencies_apply hg s) ss

/-! ## Dependents -/

/-- The artifacts with an edge to `j`, oldest edge first. -/
def sources (g : Graph) (j : Identity) : List Identity :=
  (g.edges.filter (·.target.identity == j)).map (·.source)

theorem connects_iff_mem_sources : g.connects i j = true ↔ i ∈ g.sources j := by
  simp only [connects, sources, List.any_eq_true, List.mem_map, List.mem_filter, Bool.and_eq_true,
    beq_iff_eq]
  constructor
  · rintro ⟨e, he, hsource, htarget⟩
    exact ⟨e, ⟨he, htarget⟩, hsource⟩
  · rintro ⟨e, ⟨he, htarget⟩, hsource⟩
    exact ⟨e, he, hsource, htarget⟩

theorem dependents_eq (g : Graph) (j : Identity) :
    g.dependents j = (g.sources j).reverse.filterMap g.get? := by
  rw [dependents, sources, List.filter_reverse, ← List.map_reverse, List.filterMap_map]
  rfl

theorem sources_apply (hg : g.sources j = (Artifact.distinct xs).map (·.identity))
    (s : Statement) :
    (g.apply s).sources j = (Artifact.distinct (xs ++ s.sourcesTo j)).map (·.identity) := by
  cases s with
  | nothing => simpa [apply, Statement.sourcesTo] using hg
  | declaration a => simpa [apply, sources, Statement.sourcesTo] using hg
  | dependency source target =>
    rw [apply, sources, edges_addDependency, Statement.sourcesTo]
    by_cases htarget : target.identity = j
    · have hconnects : g.connects source.identity target.identity = true ↔
          source.identity ∈ xs.map (·.identity) := by
        rw [connects_iff_mem_sources, htarget, hg, Artifact.mem_identities_distinct]
      rw [if_pos htarget, Artifact.distinct_concat hconnects, apply_ite (List.map _),
        List.map_append, ← hg, sources]
      split
      · rfl
      · simp [List.filter_append, htarget]
    · rw [if_neg htarget, List.append_nil, ← hg, sources]
      split
      · rfl
      · simp [List.filter_append, htarget]

theorem sources_ofStatements (ss : List Statement) (j : Identity) :
    (ofStatements ss).sources j =
      (Artifact.distinct (ss.flatMap (Statement.sourcesTo j))).map (·.identity) :=
  ofStatements_eq_of_apply (·.sources j) (fun xs => (Artifact.distinct xs).map (·.identity)) rfl
    (fun _ _ s hg => sources_apply hg s) ss

/-- Of every artifact with an edge to `j` the record on its node is found. -/
theorem map_identity_dependents (ss : List Statement) (j : Identity) :
    ((ofStatements ss).dependents j).map (·.identity) = ((ofStatements ss).sources j).reverse := by
  have hfound : ∀ i ∈ ((ofStatements ss).sources j).reverse,
      ((ofStatements ss).get? i).map (·.identity) = some i := by
    intro i hi
    obtain ⟨e, he, rfl⟩ := List.mem_map.1 (List.mem_reverse.1 hi)
    obtain ⟨a, ha⟩ := Option.isSome_iff_exists.1
      (List.find?_isSome.2 (List.any_eq_true.1 (contains_source (List.mem_filter.1 he).1)))
    rw [get?, ha]
    exact congrArg some (by simpa using List.find?_some ha)
  rw [dependents_eq, List.map_filterMap, List.filterMap_congr hfound, List.filterMap_some]

theorem mem_nodes_of_mem_dependents {d : Artifact} (h : d ∈ g.dependents j) : d ∈ g.nodes := by
  rw [dependents_eq] at h
  obtain ⟨i, -, hi⟩ := List.mem_filterMap.1 h
  exact List.mem_of_find?_eq_some hi

/-! ## Edges -/

/-- The two ends of the edges of a graph. -/
def ends (g : Graph) : List (Identity × Identity) :=
  g.edges.map fun e => (e.source, e.target.identity)

theorem mem_ends_iff : (i, j) ∈ g.ends ↔ g.connects i j = true := by
  simp [ends, connects]

/-- No two edges have the same ends. -/
theorem nodup_ends (ss : List Statement) : (ofStatements ss).ends.Nodup := by
  induction ss using List.reverseRecOn with
  | nil => exact List.nodup_nil
  | append_singleton ss s ih =>
    rw [ofStatements_append]
    cases s with
    | nothing => exact ih
    | declaration a => simpa [apply, ends] using ih
    | dependency source target =>
      simp only [List.foldl_cons, List.foldl_nil, apply]
      rw [ends, edges_addDependency]
      split
      · exact ih
      · rename_i hnew
        rw [List.map_append, List.nodup_append]
        refine ⟨ih, List.nodup_singleton _, ?_⟩
        rintro _ hold _ hmem rfl
        rw [List.map_singleton, List.mem_singleton] at hmem
        exact hnew (mem_ends_iff.1 (hmem ▸ hold))

theorem mem_ends_ofStatements :
    (i, j) ∈ (ofStatements ss).ends ↔ (i, j) ∈ ss.flatMap Statement.ends := by
  rw [mem_ends_iff, connects_iff]
  constructor
  · intro h
    obtain ⟨d, hd, rfl⟩ := List.mem_map.1 h
    obtain ⟨source, hs, rfl⟩ := exists_dependency_of_mem hd
    exact List.mem_flatMap.2 ⟨_, hs, List.mem_cons_self⟩
  · intro h
    obtain ⟨s, hs, hends⟩ := List.mem_flatMap.1 h
    cases s with
    | nothing => cases hends
    | declaration a => cases hends
    | dependency source target =>
      obtain ⟨rfl, rfl⟩ : i = source.identity ∧ j = target.identity := by
        simpa [Statement.ends] using hends
      obtain ⟨d, hd, hdi⟩ := exists_mem_dependencies hs
      exact List.mem_map.2 ⟨d, hd, hdi⟩

theorem length_edges (ss : List Statement) :
    (ofStatements ss).edges.length = (ss.flatMap Statement.ends).toFinset.card := by
  have hsame : (ss.flatMap Statement.ends).toFinset = (ofStatements ss).ends.toFinset := by
    ext ⟨i, j⟩
    rw [List.mem_toFinset, List.mem_toFinset, mem_ends_ofStatements]
  rw [hsame, List.toFinset_card_of_nodup (nodup_ends ss), ends, List.length_map]

/-! ## All answers -/

/-- What a graph answers about its artifacts, its dependencies and its dependents, about both at
once, about its edges and about positions, as statements make it up. -/
theorem ofStatements_records (ss : List Statement) :
    let g := ofStatements ss
    g.nodes = Artifact.distinct (ss.flatMap Statement.mentions) ∧
    (∀ i, g.dependencies i = Artifact.distinct (ss.flatMap (Statement.targetsFrom i))) ∧
    (∀ i j, j ∈ (g.dependencies i).map (·.identity) ↔ i ∈ (g.dependents j).map (·.identity)) ∧
    (∀ j, (g.dependents j).map (·.identity) =
        ((Artifact.distinct (ss.flatMap (Statement.sourcesTo j))).map (·.identity)).reverse ∧
      ((g.dependents j).map (·.identity)).Nodup ∧ ∀ d ∈ g.dependents j, d ∈ g.nodes) ∧
    (g.edgeMap.map (·.1) = g.nodes ∧ (g.nodes.map (·.identity)).Nodup ∧
      ∀ a ds, (a, ds) ∈ g.edgeMap → ds = g.dependencies a.identity) ∧
    g.edges.length = (ss.flatMap Statement.ends).toFinset.card ∧
    (∀ i n, g.index? i = some n → ∀ ts, (ofStatements (ss ++ ts)).index? i = some n) ∧
    ∀ a, ∃ n, (g.declare a).index? a.identity = some n ∧
      ((g.declare a).nodes[n]?).map (·.identity) = some a.identity := by
  intro g
  have hdependents (j : Identity) : (g.dependents j).map (·.identity) =
      ((Artifact.distinct (ss.flatMap (Statement.sourcesTo j))).map (·.identity)).reverse := by
    rw [map_identity_dependents, sources_ofStatements]
  refine ⟨nodes_ofStatements ss, dependencies_ofStatements ss, fun i j => ?_, fun j => ?_,
    ⟨?_, nodup_nodes ss, fun a ds h => ?_⟩, length_edges ss, fun i n h ts => ?_,
    fun a => exists_index? (contains_declare.2 (.inr rfl))⟩
  · rw [← connects_iff, connects_iff_mem_sources, map_identity_dependents, List.mem_reverse]
  · refine ⟨hdependents j, ?_, fun d => mem_nodes_of_mem_dependents⟩
    rw [hdependents]
    exact (List.reverse_perm _).nodup_iff.2 (Artifact.nodup_distinct _)
  · rw [edgeMap, List.map_map]
    exact List.map_id _
  · obtain ⟨b, -, hb⟩ := List.mem_map.1 h
    cases hb
    rfl
  · rw [ofStatements_append]
    exact index?_foldl_apply h ts

end Graph

end TierIsolation
