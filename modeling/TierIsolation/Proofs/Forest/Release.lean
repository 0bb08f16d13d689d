import TierIsolation.Proofs.Forest.Balance
import TierIsolation.Proofs.Forest.Remembered

/-!
# Releasing what is held

* `releaseAll_eq`, `release_eq`: handles are released in the order given, each once, and as many
  failures are counted as there are handles whose release fails. A failure stops nothing.
* `Balanced.released_numbers`: when nobody holds anything any more, every handle that was ever
  opened was released exactly once.
-/

namespace TierIsolation

/-- The events of releasing handles one after the other. -/
def History.releasing (fails : Handle → Bool) (hs : List Handle) : History :=
  (hs.map fun h => .released h (fails h)).reverse

theorem History.releasing_append (fails : Handle → Bool) (hs hs' : List Handle) :
    releasing fails (hs ++ hs') = releasing fails hs' ++ releasing fails hs := by
  simp [releasing]

theorem History.released_releasing (fails : Handle → Bool) (hs : List Handle) (h : History) :
    released (releasing fails hs ++ h) = released h ++ hs := by
  simp [released, releasing, List.filterMap_map]

namespace Forest

variable {F : Forest} {fails : Handle → Bool} {s : State} {p : Place} {c : State × Ledger}

/-- The handles whose release fails, each by the opener of the resolver that it was opened for. -/
def ReleasesFail (F : Forest) (fails : Handle → Bool) : Prop :=
  ∀ history h, ((F.opener h.place).release history h).isSome = fails h

/-- Entries held in memory fail to be released at the locations set to fail. -/
theorem releasesFail_memory {failing : Place → List String}
    (hmemory : ∀ p, ∃ stored, F.opener p = .memory stored (failing p)) :
    F.ReleasesFail fun h => decide (h.entry.location ∈ failing h.place) := by
  intro history h
  obtain ⟨stored, hopener⟩ := hmemory h.place
  simp only [hopener, Opener.memory]
  split
  · rename_i hmem
    simp [hmem]
  · rename_i hmem
    simp [hmem]

/-- Every resolver holds only what was opened for it. -/
def State.Placed (s : State) : Prop := ∀ p, ∀ x ∈ (s.resolver p).handles, x.2.place = p

theorem Balanced.placed (h : Balanced F c) : c.1.Placed := fun _ _ hx => h.held_place hx

/-- The handles that resolvers hold, one resolver after the other. -/
def State.heldAt (s : State) (ps : List Place) : List Handle :=
  ps.flatMap fun p => (s.resolver p).handles.map (·.2)

theorem releaseAll_eq (hfails : F.ReleasesFail fails) {hs : List Handle}
    (hplace : ∀ h ∈ hs, h.place = p) (s : State) :
    F.releaseAll p hs s =
      ({ s with history := .releasing fails hs ++ s.history }, hs.countP fails) := by
  induction hs generalizing s with
  | nil => rfl
  | cons h rest ih =>
    have hrelease : F.releaseHandle p h s = (s.record (.released h (fails h)), fails h) := by
      rw [releaseHandle, ← hplace h List.mem_cons_self, hfails]
    have hrest := ih fun h' hh' => hplace h' (List.mem_cons_of_mem _ hh')
    simp only [releaseAll, hrelease, hrest, List.countP_cons, State.record, History.releasing,
      List.map_cons, List.reverse_cons, List.append_assoc, List.singleton_append, Prod.mk.injEq,
      true_and]
    cases fails h <;> simp [Nat.add_comm]

theorem release_eq (hfails : F.ReleasesFail fails) (hs : s.Placed) (p : Place) :
    F.release p s =
      ({ s.update p ResolverState.release with
          history := .releasing fails (s.heldAt [p]) ++ s.history },
        (s.heldAt [p]).countP fails) := by
  have hplace : ∀ h ∈ (s.resolver p).handles.map (·.2), h.place = p := by
    intro h hh
    obtain ⟨x, hx, rfl⟩ := List.mem_map.1 hh
    exact hs p x hx
  rw [release, releaseAll_eq hfails hplace]
  simp [State.heldAt]

/-! ## When nothing is held -/

/-- Where there is nothing to search, nothing is held. -/
theorem Balanced.handles_eq_nil (h : Balanced F c) (hpath : (F.resolver p).searchPath = []) :
    (c.1.resolver p).handles = [] := by
  refine List.eq_nil_iff_forall_not_mem.2 fun x hx => ?_
  have := h.held_entry hx
  rw [hpath] at this
  cases this

theorem Balanced.pairwise_handles (h : Balanced F c) (p : Place) :
    ((c.1.resolver p).handles.map (·.1)).Pairwise (· < ·) :=
  List.pairwise_map.2 ((h.increasing p).imp fun hlt => Nat.compare_eq_lt.1 hlt)

theorem Balanced.opened_perm_released (h : Balanced F c) (hloose : c.2.loose = [])
    (hheld : ∀ p, (c.1.resolver p).handles = []) : c.2.opened.Perm c.2.released := by
  classical
  refine List.perm_iff_count.2 fun x => ?_
  -- all that is `x` belongs to the place of `x`
  have hcount : ∀ xs, (ofPlace x.place xs).count x = xs.count x := fun xs =>
    List.count_filter (decide_eq_true rfl)
  have hshares := (h.shares x.place).count_eq x
  rwa [State.tenures, hheld, hloose, List.map_nil, List.nil_append, List.count_append, hcount,
    hcount, hcount, List.count_nil, Nat.add_zero] at hshares

/-- **When nobody holds anything, everything was released**, each handle once. -/
theorem Balanced.released_numbers (h : Balanced F c) (hloose : c.2.loose = [])
    (hheld : ∀ p, (c.1.resolver p).handles = []) :
    (c.1.history.released.map (·.number)).Perm (List.range c.1.history.opens) := by
  have hperm := (h.opened_perm_released hloose hheld).map (·.handle.number)
  rw [h.numbers] at hperm
  rw [← h.releases, List.map_reverse, List.map_map]
  exact (List.reverse_perm _).trans (hperm.symm.trans (List.reverse_perm _))

end Forest

end TierIsolation
