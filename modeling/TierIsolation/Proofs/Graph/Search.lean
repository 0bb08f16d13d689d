import TierIsolation.Graph.Closure

/-!
# What a search finds

* `Graph.Search.found_run`: a search visits what a walk visits (`Graph.walk`), and finds the
  accepted dependencies of what it visits, the first of each identity.
* `Graph.closure_eq`: the same for a search that starts from one artifact.

A walk puts every dependency on its stack, a search only those that have not been expanded. The
difference does not show, since a walk passes over what it has seen (`Graph.walk_eq_of_filter_eq`).
-/

namespace TierIsolation.Graph

variable {g : Graph} {seen stack stack' : List Identity} {keep : Artifact → Bool}

/-! ## Walks that pass over what was seen -/

theorem walk_append_of_seen {passed : List Identity} (h : ∀ i ∈ passed, i ∈ seen) :
    g.walk seen (passed ++ stack) = g.walk seen stack := by
  induction passed with
  | nil => rfl
  | cons i rest ih =>
    rw [List.cons_append, walk, dif_pos (h i List.mem_cons_self)]
    exact ih fun j hj => h j (List.mem_cons_of_mem _ hj)

/-- What was seen may be taken from the stack, or put on it. -/
theorem walk_eq_of_filter_eq (h : stack.filter (· ∉ seen) = stack'.filter (· ∉ seen)) :
    g.walk seen stack = g.walk seen stack' := by
  induction seen, stack using walk.induct g generalizing stack' with
  | case1 seen =>
    have hseen : ∀ i ∈ stack', i ∈ seen := by simpa using h.symm
    rw [← List.append_nil stack', walk_append_of_seen hseen]
  | case2 seen i stack hi ih =>
    rw [walk, dif_pos hi]
    exact ih (by simpa [List.filter_cons, hi] using h)
  | case3 seen i stack hi _ ih =>
    -- the other stack has `i` on top, below what was seen
    rw [List.filter_cons_of_pos (by simpa using hi)] at h
    obtain ⟨passed, rest, rfl, hpassed, -, hrest⟩ := List.filter_eq_cons_iff.1 h.symm
    have hseen : ∀ j ∈ passed, j ∈ seen := fun j hj => by simpa using hpassed j hj
    rw [walk_append_of_seen hseen, walk, walk, dif_neg hi, dif_neg hi]
    refine congrArg (i :: ·) (ih ?_)
    have hagain : ∀ xs : List Identity,
        xs.filter (· ∉ i :: seen) = (xs.filter (· ∉ seen)).filter (· ≠ i) := by
      intro xs
      rw [List.filter_filter]
      exact List.filter_congr fun j _ => by simp
    rw [List.filter_append, List.filter_append, hagain stack, hagain rest, hrest]

/-! ## Searches -/

namespace Search

theorem found_foldl_meet (s : Search) (ds : List Artifact) :
    (ds.foldl (meet keep) s).found =
      s.found ++ Artifact.distinctFrom s.kept (ds.filter keep) := by
  induction ds generalizing s with
  | nil => simp [Artifact.distinctFrom]
  | cons d rest ih =>
    rw [List.foldl_cons, ih, meet]
    by_cases hkeep : keep d = true
    · by_cases hkept : d.identity ∈ s.kept <;>
        simp [Artifact.distinctFrom, hkeep, hkept]
    · simp [hkeep]

theorem mem_kept_foldl_meet (s : Search) (ds : List Artifact) (i : Identity) :
    i ∈ (ds.foldl (meet keep) s).kept ↔ i ∈ (ds.filter keep).map (·.identity) ++ s.kept := by
  induction ds generalizing s with
  | nil => simp
  | cons d rest ih =>
    rw [List.foldl_cons, ih, meet]
    by_cases hkeep : keep d = true
    · by_cases hkept : d.identity ∈ s.kept
      · by_cases hi : i = d.identity <;> simp [hkeep, hkept, hi]
      · simp [hkeep, hkept, or_left_comm]
    · simp [hkeep]

theorem found_expand (s : Search) (i : Identity) : (s.expand g keep i).found =
    s.found ++ Artifact.distinctFrom s.kept ((g.dependencies i).filter keep) :=
  found_foldl_meet _ _

theorem mem_kept_expand (s : Search) (i j : Identity) : j ∈ (s.expand g keep i).kept ↔
    j ∈ ((g.dependencies i).filter keep).map (·.identity) ++ s.kept :=
  mem_kept_foldl_meet _ _ j

/-- A search finds the accepted dependencies of what a walk from its stack visits. -/
theorem found_run (s : Search) :
    (s.run g keep).found = s.found ++ Artifact.distinctFrom s.kept
      (((g.walk s.expanded s.stack).flatMap g.dependencies).filter keep) := by
  induction s using run.induct g keep with
  | case1 s hstack =>
    rw [run, if_pos hstack, hstack]
    simp [walk, Artifact.distinctFrom]
  | case2 s hstack ih =>
    rw [run, if_neg hstack, ih]
    obtain ⟨i, stack, hs⟩ := List.exists_cons_of_ne_nil hstack
    by_cases hi : i ∈ s.expanded
    · have hstep : s.step g keep = { s with stack } := by simp [step, hs, hi]
      rw [hstep, hs, walk, dif_pos hi]
    · have hstep : s.step g keep = expand g keep { s with stack } i := by simp [step, hs, hi]
      -- the dependencies that are not put on the stack are passed over in the walk
      have hwalk : g.walk (i :: s.expanded)
            ((g.targets i).filter (· ∉ i :: s.expanded) ++ stack) =
          g.walk (i :: s.expanded) (g.targets i ++ stack) :=
        walk_eq_of_filter_eq (by simp [List.filter_append, List.filter_filter])
      rw [hstep, hs, walk, dif_neg hi, stack_expand, expanded_expand, hwalk, List.flatMap_cons,
        List.filter_append, Artifact.distinctFrom_append, ← List.append_assoc, found_expand,
        Artifact.distinctFrom_congr (mem_kept_expand { s with stack } i)]

end Search

/-- A closure lists the accepted dependencies of what can be reached, the first of each identity. -/
theorem closure_eq (start : Identity) :
    g.closure start keep =
      if g.contains start then
        Artifact.distinct (((g.reachable start).flatMap g.dependencies).filter keep)
      else [] := by
  simp only [closure, Search.found_run]
  rfl

end TierIsolation.Graph
