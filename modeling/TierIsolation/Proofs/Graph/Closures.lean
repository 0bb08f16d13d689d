import Mathlib.Logic.Function.Iterate
import TierIsolation.Proofs.Graph.Alike

/-!
# Closures are what can be reached

`Graph.closure_exact`: in a graph that is made up of declarations, a closure lists exactly the
accepted dependencies of what can be reached, each identity once, and its search comes to an end
after no more steps than there are edges, and one.

What is accepted has no part in what can be reached (`Graph.LeadsTo`).
-/

namespace TierIsolation.Graph

variable {g : Graph} {keep : Artifact → Bool} {i j : Identity} {ss : List Statement}

/-! ## Searches come to an end -/

namespace Search

theorem stack_run (s : Search) : (s.run g keep).stack = [] := by
  induction s using run.induct g keep with
  | case1 s hstack => rwa [run, if_pos hstack]
  | case2 s hstack ih => rwa [run, if_neg hstack]

/-- A search is over after as many steps as it has pending. -/
theorem exists_iterate_step (g : Graph) (keep : Artifact → Bool) (s : Search) :
    ∃ n ≤ s.pending g, (step g keep)^[n] s = s.run g keep := by
  induction s using run.induct g keep with
  | case1 s hstack => exact ⟨0, Nat.zero_le _, by rw [run, if_pos hstack]; rfl⟩
  | case2 s hstack ih =>
    obtain ⟨n, hn, hrun⟩ := ih
    have hless := pending_step g keep hstack
    have hnext : s.run g keep = (s.step g keep).run g keep := by rw [run, if_neg hstack]
    refine ⟨n + 1, by omega, ?_⟩
    rw [Function.iterate_succ_apply, hrun, hnext]

theorem pending_start (i : Identity) : pending g { stack := [i] } = g.edges.length + 1 := by
  simp [pending, unseenEdges, Nat.add_comm]

end Search

/-! ## Edges of declared graphs -/

/-- An accepted edge leads to `j` from something that can be reached from `i`. -/
def LeadsTo (g : Graph) (keep : Artifact → Bool) (i j : Identity) : Prop :=
  ∃ e ∈ g.edges, Relation.ReflTransGen g.DependsOn i e.source ∧ keep e.target = true ∧
    e.target.identity = j

theorem mem_dependencies_iff {d : Artifact} : d ∈ g.dependencies i ↔ ⟨i, d⟩ ∈ g.edges := by
  simp only [dependencies, List.mem_map, List.mem_filter, beq_iff_eq]
  constructor
  · rintro ⟨e, ⟨he, rfl⟩, rfl⟩
    exact he
  · exact fun h => ⟨⟨i, d⟩, ⟨h, rfl⟩, rfl⟩

/-- In a declared graph, edges run between declared artifacts. -/
theorem contains_source {e : Edge} (h : e ∈ (ofStatements ss).edges) :
    (ofStatements ss).contains e.source = true := by
  obtain ⟨source, hs, hi⟩ := exists_dependency_of_mem (mem_dependencies_iff.2 h)
  have hmention : source ∈ ss.flatMap Statement.mentions :=
    List.mem_flatMap.2 ⟨_, hs, List.mem_cons_self⟩
  obtain ⟨a, ha, hai⟩ := exists_mem_nodes hmention
  exact contains_iff.2 ⟨a, ha, hai.trans hi⟩

/-- Nothing can be reached from an artifact that is not declared. -/
theorem LeadsTo.contains (h : (ofStatements ss).LeadsTo keep i j) :
    (ofStatements ss).contains i = true := by
  obtain ⟨e, he, hpath, -⟩ := h
  rcases Relation.ReflTransGen.cases_head hpath with rfl | ⟨k, hk, -⟩
  · exact contains_source he
  · obtain ⟨d, hd, -⟩ := List.mem_map.1 hk
    exact contains_source (mem_dependencies_iff.1 hd)

/-! ## Closures -/

theorem mem_identities_closure (hi : g.contains i = true) :
    j ∈ (g.closure i keep).map (·.identity) ↔ g.LeadsTo keep i j := by
  constructor
  · intro h
    obtain ⟨d, hd, rfl⟩ := List.mem_map.1 h
    obtain ⟨-, hkeep, k, hpath, hk⟩ := met_of_mem_closure hd
    exact ⟨⟨k, d⟩, mem_dependencies_iff.1 hk, hpath, hkeep, rfl⟩
  · rintro ⟨e, he, hpath, hkeep, rfl⟩
    obtain ⟨d, hd, hdi⟩ := exists_mem_closure hi hpath (mem_dependencies_iff.2 he) hkeep
    exact List.mem_map.2 ⟨d, hd, hdi⟩

theorem closure_of_not_contains (hi : g.contains i = false) : g.closure i keep = [] := by
  simp [closure, hi]

theorem nodup_closure (g : Graph) (i : Identity) (keep : Artifact → Bool) :
    ((g.closure i keep).map (·.identity)).Nodup := by
  rw [closure_eq]
  split
  · exact Artifact.nodup_distinct _
  · exact List.nodup_nil

/-- In a declared graph, the identities in a closure are those to which an accepted edge leads,
whether there is an artifact to start from or not. -/
theorem mem_identities_closure_ofStatements :
    j ∈ ((ofStatements ss).closure i keep).map (·.identity) ↔
      (ofStatements ss).LeadsTo keep i j := by
  by_cases hi : (ofStatements ss).contains i = true
  · exact mem_identities_closure hi
  · rw [closure_of_not_contains (Bool.eq_false_iff.2 hi)]
    exact ⟨fun h => absurd h List.not_mem_nil, fun h => absurd h.contains hi⟩

/-- The search for a closure ends after no more steps than there are edges, and one. -/
theorem exists_search (g : Graph) (i : Identity) (keep : Artifact → Bool) :
    ∃ n ≤ g.edges.length + 1, ∃ s, (Search.step g keep)^[n] { stack := [i] } = s ∧
      s.stack = [] ∧ g.closure i keep = if g.contains i then s.found else [] := by
  obtain ⟨n, hn, hrun⟩ := Search.exists_iterate_step g keep { stack := [i] }
  rw [Search.pending_start] at hn
  exact ⟨n, hn, _, hrun, Search.stack_run _, rfl⟩

/-- The closure of an artifact is found by a search that ends, lists no identity twice, lists
accepted dependencies of what can be reached, and lists them all: an identity is there exactly if an
accepted edge leads to it, that of the artifact itself not excepted. Without the artifact there is
nothing in its closure. -/
theorem closure_exact (ss : List Statement) (start : Artifact) (keep : Artifact → Bool) :
    let g := ofStatements ss
    let closure := g.closure start.identity keep
    (∃ n ≤ g.edges.length + 1, ∃ s, (Search.step g keep)^[n] { stack := [start.identity] } = s ∧
      s.stack = [] ∧ closure = if g.contains start.identity then s.found else []) ∧
    (closure.map (·.identity)).Nodup ∧
    (∀ d ∈ closure, keep d = true ∧
      ∃ i, Relation.ReflTransGen g.DependsOn start.identity i ∧ ⟨i, d⟩ ∈ g.edges) ∧
    (∀ j, j ∈ closure.map (·.identity) ↔ g.LeadsTo keep start.identity j) ∧
    (start.identity ∈ closure.map (·.identity) ↔
      g.LeadsTo keep start.identity start.identity) ∧
    (g.contains start.identity = false → closure = []) := by
  intro g closure
  refine ⟨exists_search g _ keep, nodup_closure g _ keep, fun d hd => ?_,
    fun j => mem_identities_closure_ofStatements, mem_identities_closure_ofStatements,
    closure_of_not_contains⟩
  obtain ⟨-, hkeep, i, hpath, hi⟩ := met_of_mem_closure hd
  exact ⟨hkeep, i, hpath, mem_dependencies_iff.1 hi⟩

end TierIsolation.Graph
