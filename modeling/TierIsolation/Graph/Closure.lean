import TierIsolation.Graph

/-!
# Closures of a dependency graph

`Graph.closure` searches, depth first and in the order of the dependencies, for the dependencies
that a predicate accepts; a rejected dependency is still walked through (`Graph.Search`).
`Graph.walk` visits what can be reached, each identity once, and `Graph.cycles` groups the artifacts
that reach each other.
-/

namespace TierIsolation.Graph

/-- The identities that `i` directly depends on. -/
def targets (g : Graph) (i : Identity) : List Identity := (g.dependencies i).map (·.identity)

/-- The number of edges that leave an identity outside `seen`. -/
def unseenEdges (g : Graph) (seen : List Identity) : Nat :=
  g.edges.countP fun e => !decide (e.source ∈ seen)

theorem unseenEdges_cons_add (g : Graph) {seen : List Identity} {i : Identity} (h : i ∉ seen) :
    g.unseenEdges (i :: seen) + (g.targets i).length = g.unseenEdges seen := by
  simp only [unseenEdges, targets, dependencies, List.length_map]
  induction g.edges with
  | nil => rfl
  | cons e rest ih =>
    rw [List.countP_cons, List.countP_cons, List.filter_cons, ← ih]
    by_cases he : e.source = i
    · simp [he, h]
      omega
    · by_cases hs : e.source ∈ seen <;> simp [he, hs]
      omega

/-- The identities visited from a stack of starting points: the top of the stack is visited, unless
it was seen before, and its dependencies are visited next, in order. -/
def walk (g : Graph) (seen : List Identity) : List Identity → List Identity
  | [] => []
  | i :: stack =>
    if h : i ∈ seen then walk g seen stack
    else
      have := g.unseenEdges_cons_add h
      i :: walk g (i :: seen) (g.targets i ++ stack)
termination_by stack => (g.unseenEdges seen, stack.length)
decreasing_by
  · exact Prod.Lex.right _ (by simp)
  · cases ht : g.targets i with
    | nil =>
      rw [ht] at this
      rw [show g.unseenEdges seen = g.unseenEdges (i :: seen) by simpa using this.symm]
      exact Prod.Lex.right _ (by simp)
    | cons j js =>
      rw [ht] at this
      exact Prod.Lex.left _ _ (by simp at this; omega)

/-- The identities that can be reached from `i`, itself included, in the order of the visit. -/
def reachable (g : Graph) (i : Identity) : List Identity := g.walk [] [i]

/-! ## Closures -/

/-- A search for the dependencies that a predicate accepts, while it is under way. -/
structure Search where
  /-- The artifacts to be looked at, the next one first. One artifact may occur several times. -/
  stack : List Identity
  /-- The artifacts whose dependencies have been inspected. -/
  expanded : List Identity := []
  /-- The identities of what has been found. -/
  kept : List Identity := []
  /-- The accepted dependencies, the first of each identity. -/
  found : List Artifact := []
  deriving DecidableEq, Repr

namespace Search

variable (g : Graph) (keep : Artifact → Bool)

/-- Keeps a dependency that is accepted, unless its identity has been found before. -/
def meet (s : Search) (d : Artifact) : Search :=
  if keep d ∧ d.identity ∉ s.kept then
    { s with kept := d.identity :: s.kept, found := s.found ++ [d] }
  else s

/-- Inspects the dependencies of `i`. Those that have not been expanded are looked at next, in
order and whether they are accepted or not. -/
def expand (s : Search) (i : Identity) : Search :=
  let expanded := i :: s.expanded
  let stack := (g.targets i).filter (· ∉ expanded) ++ s.stack
  (g.dependencies i).foldl (meet keep) { s with expanded, stack }

/-- Looks at the artifact on top of the stack. -/
def step (s : Search) : Search :=
  match s.stack with
  | [] => s
  | i :: stack =>
    let s := { s with stack }
    if i ∈ s.expanded then s else s.expand g keep i

/-- What a search has still to do at most: each edge that has not been inspected may put an artifact
on the stack. -/
def pending (s : Search) : Nat := s.stack.length + g.unseenEdges s.expanded

variable {keep} in
theorem meet_eq (s : Search) (d : Artifact) :
    (s.meet keep d).stack = s.stack ∧ (s.meet keep d).expanded = s.expanded := by
  unfold meet; split <;> exact ⟨rfl, rfl⟩

variable {keep} in
/-- What is met changes neither the stack nor what has been expanded. -/
theorem foldl_meet_eq (s : Search) (ds : List Artifact) :
    (ds.foldl (meet keep) s).stack = s.stack ∧ (ds.foldl (meet keep) s).expanded = s.expanded := by
  induction ds generalizing s with
  | nil => exact ⟨rfl, rfl⟩
  | cons d rest ih =>
    obtain ⟨hstack, hexpanded⟩ := ih (s.meet keep d)
    exact ⟨hstack.trans (meet_eq s d).1, hexpanded.trans (meet_eq s d).2⟩

@[simp] theorem stack_expand (s : Search) (i : Identity) :
    (s.expand g keep i).stack = (g.targets i).filter (· ∉ i :: s.expanded) ++ s.stack :=
  (foldl_meet_eq _ _).1

@[simp] theorem expanded_expand (s : Search) (i : Identity) :
    (s.expand g keep i).expanded = i :: s.expanded :=
  (foldl_meet_eq _ _).2

/-- Every step leaves less to do. -/
theorem pending_step {s : Search} (h : s.stack ≠ []) :
    (s.step g keep).pending g < s.pending g := by
  unfold step
  split
  · contradiction
  · rename_i i stack hstack
    simp only [pending, hstack, List.length_cons]
    split
    · exact Nat.add_lt_add_right (Nat.lt_succ_self _) _
    · rename_i hi
      have hedges := g.unseenEdges_cons_add hi
      have hpushed := List.length_filter_le (fun j => decide (j ∉ i :: s.expanded)) (g.targets i)
      simp only [stack_expand, expanded_expand, List.length_append]
      omega

/-- Goes on until the stack is empty. -/
def run (s : Search) : Search :=
  if s.stack = [] then s else run (s.step g keep)
termination_by s.pending g
decreasing_by exact pending_step g keep ‹_›

end Search

/-- The accepted dependencies of everything that can be reached from `start`, the first of each
identity. A rejected dependency is walked through all the same. -/
def closure (g : Graph) (start : Identity) (keep : Artifact → Bool) : List Artifact :=
  if g.contains start then (Search.run g keep { stack := [start] }).found else []

/-! ## Cycles -/

/-- Every artifact with what can be reached from it. -/
def reachTable (g : Graph) : List (Artifact × List Identity) :=
  g.nodes.map fun a => (a, g.reachable a.identity)

/-- The rows of `table` that `row` reaches and that reach it. -/
def component (table : List (Artifact × List Identity)) (row : Artifact × List Identity) :
    List Artifact :=
  (table.filter fun other =>
    row.2.contains other.1.identity && other.2.contains row.1.identity).map (·.1)

/-- The artifacts in groups of those that all depend on each other, directly or not. An artifact may
be a group of its own. Groups and members are in the order of declaration. -/
def components (g : Graph) : List (List Artifact) :=
  let table := g.reachTable
  table.filterMap fun row =>
    let members := component table row
    if members.head? = some row.1 then some members else none

/-- The groups of several artifacts. -/
def cycles (g : Graph) : List (List Artifact) := g.components.filter (1 < ·.length)

/-- Is there a group of artifacts that depend on each other? -/
def hasCycles (g : Graph) : Bool := !g.cycles.isEmpty

end TierIsolation.Graph
