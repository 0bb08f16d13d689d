import TierIsolation.Proofs.Graph.Reachability

/-!
# Closures in preorder

`Graph.preorder` is the recursive way to visit what can be reached: an artifact comes first, then,
one after the other, what it depends on, each with all that is below it.

* `Graph.walk_append`: a walk with a stack visits what is on the stack in this order.
* `Graph.closure_eq_preorder`: so a closure lists the accepted dependencies of the artifacts in
  preorder, the first of each identity.

The stack of a walk may hold an artifact several times, and marks it as seen only when it is taken
from the stack. It is visited where the recursion comes to it first, because what lies above it on
the stack is finished by then.
-/

namespace TierIsolation.Graph

variable {g : Graph} {i j : Identity} {seen seen' : List Identity}

/-! ## The recursive visit -/

/-- More edges are unseen where less is seen. -/
theorem unseenEdges_append_le (g : Graph) (visited seen : List Identity) :
    g.unseenEdges (visited ++ seen) ≤ g.unseenEdges seen :=
  List.countP_mono_left fun e _ he => by
    simp only [Bool.not_eq_true', decide_eq_false_iff_not, List.mem_append, not_or] at he ⊢
    exact he.2

/-- The artifacts visited from a list of starting points, without those seen before: a starting
point, then what is visited from its dependencies, then what is visited from the starting points
after it. -/
def preorder (g : Graph) (seen : List Identity) : List Identity → List Identity
  | [] => []
  | i :: rest =>
    if i ∈ seen then g.preorder seen rest
    else
      let below := g.preorder (i :: seen) (g.targets i)
      i :: (below ++ g.preorder (below ++ i :: seen) rest)
termination_by starts => g.unseenEdges seen + starts.length
decreasing_by
  · exact Nat.add_lt_add_left (Nat.lt_succ_self _) _
  · have := g.unseenEdges_cons_add ‹_›
    simp only [List.length_cons]
    omega
  · have hfewer := g.unseenEdges_cons_add ‹_›
    refine Nat.lt_of_le_of_lt (Nat.add_le_add_right (g.unseenEdges_append_le _ _) _) ?_
    simp only [List.length_cons]
    omega

/-! ## Walks -/

/-- It matters what was seen before, not in which order. -/
theorem walk_congr (h : ∀ i, i ∈ seen ↔ i ∈ seen') (stack : List Identity) :
    g.walk seen stack = g.walk seen' stack := by
  induction seen, stack using walk.induct g generalizing seen' with
  | case1 seen => rw [walk, walk]
  | case2 seen i stack hi ih => rw [walk, walk, dif_pos hi, dif_pos ((h i).1 hi), ih h]
  | case3 seen i stack hi _ ih =>
    have hcons : ∀ j, j ∈ i :: seen ↔ j ∈ i :: seen' := fun j => by simp only [List.mem_cons, h j]
    rw [walk, walk, dif_neg hi, dif_neg (mt (h i).2 hi), ih hcons]

/-- What is on top of the stack is visited in preorder, before the rest of the stack. -/
theorem walk_append (seen starts stack : List Identity) :
    g.walk seen (starts ++ stack) =
      g.preorder seen starts ++ g.walk (g.preorder seen starts ++ seen) stack := by
  induction seen, starts using preorder.induct g generalizing stack with
  | case1 seen => rw [preorder]; rfl
  | case2 seen i rest hi ih => rw [List.cons_append, walk, dif_pos hi, ih, preorder, if_pos hi]
  | case3 seen i rest hi below ihbelow ihrest =>
    let after := g.preorder (below ++ i :: seen) rest
    have hpreorder : g.preorder seen (i :: rest) = i :: (below ++ after) := by
      rw [preorder, if_neg hi]
    -- `i` is marked before what is below it, and stands before it in preorder
    have hseen : ∀ j, j ∈ after ++ (below ++ i :: seen) ↔ j ∈ i :: (below ++ after) ++ seen := by
      intro j
      simp only [List.mem_append, List.mem_cons]
      grind
    calc g.walk seen (i :: rest ++ stack)
      _ = i :: g.walk (i :: seen) (g.targets i ++ (rest ++ stack)) := by
        rw [List.cons_append, walk, dif_neg hi]
      _ = i :: (below ++ g.walk (below ++ i :: seen) (rest ++ stack)) := by rw [ihbelow]
      _ = i :: (below ++ (after ++ g.walk (after ++ (below ++ i :: seen)) stack)) := by rw [ihrest]
      _ = i :: (below ++ after) ++ g.walk (i :: (below ++ after) ++ seen) stack := by
        simp only [walk_congr hseen, List.cons_append, List.append_assoc]
      _ = _ := by rw [hpreorder]

theorem reachable_eq_preorder (g : Graph) (i : Identity) : g.reachable i = g.preorder [] [i] := by
  have h := walk_append (g := g) [] [i] []
  rwa [List.append_nil, walk, List.append_nil] at h

theorem not_mem_seen_of_walk {stack : List Identity} (h : j ∈ g.walk seen stack) : j ∉ seen := by
  induction seen, stack using walk.induct g with
  | case1 seen => simp [walk] at h
  | case2 seen i stack hi ih => exact ih (by rwa [walk, dif_pos hi] at h)
  | case3 seen i stack hi _ ih =>
    rw [walk, dif_neg hi] at h
    rcases List.mem_cons.1 h with rfl | h
    · exact hi
    · exact fun hj => ih h (List.mem_cons_of_mem _ hj)

/-- A walk visits nothing twice. -/
theorem nodup_walk (g : Graph) (seen stack : List Identity) : (g.walk seen stack).Nodup := by
  induction seen, stack using walk.induct g with
  | case1 seen => simp [walk]
  | case2 seen i stack hi ih => rwa [walk, dif_pos hi]
  | case3 seen i stack hi _ ih =>
    rw [walk, dif_neg hi]
    exact List.nodup_cons.2 ⟨fun h => not_mem_seen_of_walk h List.mem_cons_self, ih⟩

/-! ## Closures -/

/-- The recursive visit comes to each artifact that can be reached, once; a closure lists what these
artifacts depend on, in the order of the visit and of the declarations, as far as it is accepted,
and of each identity the first. -/
theorem closure_eq_preorder (g : Graph) (start : Artifact) (keep : Artifact → Bool) :
    (g.preorder [] [start.identity]).Nodup ∧
    (∀ j, j ∈ g.preorder [] [start.identity] ↔
      Relation.ReflTransGen g.DependsOn start.identity j) ∧
    g.closure start.identity keep =
      if g.contains start.identity then
        Artifact.distinct
          (((g.preorder [] [start.identity]).flatMap g.dependencies).filter keep)
      else [] := by
  rw [← reachable_eq_preorder]
  exact ⟨nodup_walk g [] _, fun j => mem_reachable, closure_eq start.identity⟩

end TierIsolation.Graph
