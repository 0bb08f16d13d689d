import Mathlib.Logic.Relation
import TierIsolation.Proofs.Graph.Search

/-!
# What a walk visits

* `Graph.mem_reachable`: a walk from an artifact visits exactly what it depends on, directly or not,
  and itself. The order of the edges decides when something is visited, not whether.
* `Graph.met_of_mem_closure`, `Graph.exists_mem_closure`: a closure keeps one declaration of each
  accepted dependency of what can be reached.

While a walk is under way, whatever a visited artifact depends on was visited or is on the stack
(`Graph.Pursued`); so nothing is missing when the stack is empty.
-/

namespace TierIsolation.Graph

variable {g : Graph} {i j : Identity} {seen stack : List Identity}

/-- The artifact `i` directly depends on `j`. -/
def DependsOn (g : Graph) (i j : Identity) : Prop := j ∈ g.targets i

/-- What the artifacts in `seen` depend on is in `seen`, or in `rest`. -/
def Pursued (g : Graph) (seen rest : List Identity) : Prop :=
  ∀ i ∈ seen, ∀ j, g.DependsOn i j → j ∈ seen ∨ j ∈ rest

theorem exists_mem_stack (h : j ∈ g.walk seen stack) :
    ∃ i ∈ stack, Relation.ReflTransGen g.DependsOn i j := by
  induction seen, stack using walk.induct g with
  | case1 seen => simp [walk] at h
  | case2 seen i stack hi ih =>
    rw [walk, dif_pos hi] at h
    obtain ⟨k, hk, hpath⟩ := ih h
    exact ⟨k, List.mem_cons_of_mem _ hk, hpath⟩
  | case3 seen i stack hi _ ih =>
    rw [walk, dif_neg hi] at h
    rcases List.mem_cons.1 h with rfl | h
    · exact ⟨j, List.mem_cons_self, .refl⟩
    · obtain ⟨k, hk, hpath⟩ := ih h
      rcases List.mem_append.1 hk with hk | hk
      · exact ⟨i, List.mem_cons_self, .head hk hpath⟩
      · exact ⟨k, List.mem_cons_of_mem _ hk, hpath⟩

/-- A walk visits all that is on its stack, and all that the visited depend on. -/
theorem walk_complete (h : g.Pursued seen stack) :
    (∀ i ∈ stack, i ∈ seen ++ g.walk seen stack) ∧
      g.Pursued (seen ++ g.walk seen stack) [] := by
  induction seen, stack using walk.induct g with
  | case1 seen =>
    rw [walk, List.append_nil]
    exact ⟨fun i hi => absurd hi List.not_mem_nil, h⟩
  | case2 seen i stack hi ih =>
    have hrest : g.Pursued seen stack := by
      intro k hk j hj
      rcases h k hk j hj with hseen | hstack
      · exact .inl hseen
      · rcases List.mem_cons.1 hstack with rfl | hstack
        · exact .inl hi
        · exact .inr hstack
    obtain ⟨hall, hclosed⟩ := ih hrest
    rw [walk, dif_pos hi]
    refine ⟨fun k hk => ?_, hclosed⟩
    rcases List.mem_cons.1 hk with rfl | hk
    · exact List.mem_append_left _ hi
    · exact hall k hk
  | case3 seen i stack hi _ ih =>
    have hrest : g.Pursued (i :: seen) (g.targets i ++ stack) := by
      intro k hk j hj
      rcases List.mem_cons.1 hk with rfl | hk
      · exact .inr (List.mem_append_left _ hj)
      · rcases h k hk j hj with hseen | hstack
        · exact .inl (List.mem_cons_of_mem _ hseen)
        · rcases List.mem_cons.1 hstack with rfl | hstack
          · exact .inl List.mem_cons_self
          · exact .inr (List.mem_append_right _ hstack)
    obtain ⟨hall, hclosed⟩ := ih hrest
    -- `i` is visited now instead of seen before
    have hmem : ∀ k, k ∈ seen ++ g.walk seen (i :: stack) ↔
        k ∈ (i :: seen) ++ g.walk (i :: seen) (g.targets i ++ stack) := by
      intro k
      rw [walk, dif_neg hi]
      simp only [List.mem_append, List.mem_cons]
      exact or_left_comm.trans or_assoc.symm
    constructor
    · intro k hk
      rw [hmem]
      rcases List.mem_cons.1 hk with rfl | hk
      · exact List.mem_append_left _ List.mem_cons_self
      · exact hall k (List.mem_append_right _ hk)
    · intro k hk l hl
      rw [hmem] at hk ⊢
      exact hclosed k hk l hl

/-- A walk visits exactly what can be reached. -/
theorem mem_reachable : j ∈ g.reachable i ↔ Relation.ReflTransGen g.DependsOn i j := by
  constructor
  · intro h
    obtain ⟨k, hk, hpath⟩ := exists_mem_stack h
    rw [List.mem_singleton] at hk
    exact hk ▸ hpath
  · intro h
    have hstart : g.Pursued [] [i] := fun k hk => absurd hk List.not_mem_nil
    obtain ⟨hall, hclosed⟩ := walk_complete hstart
    rw [List.nil_append] at hall hclosed
    induction h with
    | refl => exact hall i List.mem_cons_self
    | @tail k l _ hkl ih =>
      rcases hclosed k ih l hkl with hl | hl
      · exact hl
      · cases hl

/-! ## Closures -/

section Closure

variable {keep : Artifact → Bool} {d : Artifact}

/-- Everything in a closure was declared as a dependency of something that can be reached. -/
theorem met_of_mem_closure (h : d ∈ g.closure i keep) :
    g.contains i = true ∧ keep d = true ∧
      ∃ j, Relation.ReflTransGen g.DependsOn i j ∧ d ∈ g.dependencies j := by
  rw [closure_eq] at h
  split at h
  · rename_i hi
    obtain ⟨hmet, hkeep⟩ := List.mem_filter.1 (Artifact.mem_distinctFrom h).1
    obtain ⟨j, hj, hd⟩ := List.mem_flatMap.1 hmet
    exact ⟨hi, hkeep, j, mem_reachable.1 hj, hd⟩
  · cases h

theorem keep_of_mem_closure (h : d ∈ g.closure i keep) : keep d = true :=
  (met_of_mem_closure h).2.1

/-- An accepted dependency is in the closure, perhaps as another declaration. -/
theorem exists_mem_closure (hi : g.contains i = true)
    (hpath : Relation.ReflTransGen g.DependsOn i j) (hd : d ∈ g.dependencies j)
    (hkeep : keep d = true) : ∃ d' ∈ g.closure i keep, d'.identity = d.identity := by
  have hmet : d ∈ (g.reachable i).flatMap g.dependencies :=
    List.mem_flatMap.2 ⟨j, mem_reachable.2 hpath, hd⟩
  rw [closure_eq, if_pos hi]
  exact Artifact.exists_mem_distinct (List.mem_filter.2 ⟨hmet, hkeep⟩)

end Closure

end TierIsolation.Graph
