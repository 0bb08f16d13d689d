import TierIsolation.Proofs.Chain.Isolation
import TierIsolation.Proofs.Forest.Release

/-!
# A chain is taken down

`release_takes_down`: whatever was resolved and released before, taking a chain down releases every
handle that is still held, once, the application's first, then those of the plugin tiers from the
last to the first, of the container and of the host, in each resolver by their positions; it counts
the failures and stops at none. From then on every tier refuses, and holds nothing.

Taking down is one walk along the places of a chain (`Chain.releaseOrder`, `releaseForest_eq`), and
a run of operations as any other (`releaseForest_eq_run`).
-/

namespace TierIsolation

namespace Chain

open Forest

variable {c : Chain} {fails : Handle → Bool} {s : Forest.State} {p : Place}

/-- All places of a chain, in the order in which it is taken down: the innermost tier first, the
host last. -/
def releaseOrder (c : Chain) : List Place := c.places.reverse ++ c.forest.hostPlaces 0

theorem mem_places {i : Nat} : .resolver i ∈ c.places ↔ i < c.size := by
  simp [places]

theorem nodup_releaseOrder (c : Chain) : c.releaseOrder.Nodup := by
  refine List.nodup_append.2 ⟨List.nodup_reverse.2 ?_, ?_, ?_⟩
  · exact List.nodup_range.map fun i j h => Place.resolver.inj h
  · unfold hostPlaces
    split <;> simp
  · rintro p hp q hq rfl
    obtain ⟨rfl, -⟩ := mem_hostPlaces.1 hq
    simp [places] at hp

/-! ## One resolver after the other -/

theorem releaseEach_append (ps qs : List Place) (s : Forest.State) :
    c.releaseEach (ps ++ qs) s =
      ((c.releaseEach qs (c.releaseEach ps s).1).1,
        (c.releaseEach ps s).2 + (c.releaseEach qs (c.releaseEach ps s).1).2) := by
  induction ps generalizing s with
  | nil => simp [releaseEach]
  | cons p rest ih => simp [releaseEach, ih, Nat.add_assoc]

/-- Taking the tiers and the host down is releasing all places in their order. -/
theorem releaseForest_eq (s : Forest.State) :
    c.releaseForest s = c.releaseEach c.releaseOrder s := by
  have hhost (t : Forest.State) :
      c.forest.releaseHost 0 t = c.releaseEach (c.forest.hostPlaces 0) t := by
    unfold releaseHost hostPlaces
    cases c.forest.hostSource 0 <;> simp [releaseEach]
  simp only [releaseOrder, releaseEach_append, releaseForest, hhost]

/-- Taking a chain down is a run of operations. -/
theorem releaseForest_eq_run (depth : Nat) (s : Forest.State) :
    (c.releaseForest s).1 = c.forest.run depth (c.releaseOrder.map .release) s := by
  have hrun (ps : List Place) (s : Forest.State) :
      (c.releaseEach ps s).1 = c.forest.run depth (ps.map .release) s := by
    induction ps generalizing s with
    | nil => rfl
    | cons p rest ih => exact ih (c.forest.release p s).1
  rw [releaseForest_eq, hrun]

theorem resolver_releaseEach (ps : List Place) (s : Forest.State) (q : Place) :
    (c.releaseEach ps s).1.resolver q =
      if q ∈ ps then (s.resolver q).release else s.resolver q := by
  induction ps generalizing s with
  | nil => rfl
  | cons p rest ih =>
    have hrest : (c.releaseEach (p :: rest) s).1 =
        (c.releaseEach rest (c.forest.release p s).1).1 := rfl
    rw [hrest, ih, resolver_release]
    by_cases hq : q = p
    · subst hq
      rw [State.update_same, if_pos List.mem_cons_self]
      -- to release a resolver twice is to release it once
      exact ite_self _
    · rw [State.update_other _ _ hq]
      simp [hq]

/-- Different resolvers release what each of them holds, one after the other. -/
theorem releaseEach_eq (hfails : c.forest.ReleasesFail fails) {ps : List Place}
    (hnodup : ps.Nodup) (hs : s.Placed) :
    (c.releaseEach ps s).1.history = .releasing fails (s.heldAt ps) ++ s.history ∧
      (c.releaseEach ps s).2 = (s.heldAt ps).countP fails := by
  induction ps generalizing s with
  | nil => exact ⟨rfl, rfl⟩
  | cons p rest ih =>
    obtain ⟨hp, hnodup⟩ := List.nodup_cons.1 hnodup
    have hplaced : (c.forest.release p s).1.Placed := by
      intro q
      rw [resolver_release]
      exact State.forall_update (P := fun q r => ∀ x ∈ r.handles, x.2.place = q)
        (f := ResolverState.release) (by simp [ResolverState.release]) hs q
    obtain ⟨hhistory, hcount⟩ := ih hnodup hplaced
    -- releasing one resolver takes nothing from another
    have hheld : (c.forest.release p s).1.heldAt rest = s.heldAt rest := by
      refine List.flatMap_congr fun q hq => ?_
      have hne : q ≠ p := fun h => hp (h ▸ hq)
      rw [resolver_release, State.update_other _ _ hne]
    have hsplit : s.heldAt (p :: rest) = s.heldAt [p] ++ s.heldAt rest := by simp [State.heldAt]
    simp only [releaseEach]
    rw [hhistory, hcount, hheld, release_eq hfails hs, hsplit, History.releasing_append,
      List.countP_append, List.append_assoc]
    exact ⟨rfl, rfl⟩

theorem releaseForest_accounted (s : Forest.State) :
    Accounted c.forest s (c.releaseForest s).1 := by
  rw [releaseForest_eq_run 0]
  exact run_accounted 0 _ s

/-- When a chain is taken down, all its places are released. -/
theorem released_releaseForest (s : Forest.State) (hp : p ∈ c.releaseOrder) :
    ((c.releaseForest s).1.resolver p).released = true := by
  rw [releaseForest_eq, resolver_releaseEach, if_pos hp]
  rfl

end Chain

/-! ## Nothing is held any more -/

namespace ChainRecipe

open Forest

variable {recipe : ChainRecipe} {tiers : Tiers}

/-- Only the places of a chain have anything to search. -/
theorem searchPath_eq_nil {p : Place} (hp : p ∉ (recipe.build tiers).releaseOrder) :
    ((recipe.build tiers).forest.resolver p).searchPath = [] := by
  rw [Chain.releaseOrder, List.mem_append, List.mem_reverse, not_or] at hp
  obtain ⟨hplace, hhost⟩ := hp
  cases p with
  | host k =>
    simp only [mem_hostPlaces, Place.host.injEq] at hhost
    show ((recipe.build tiers).forest.host k).resolver.searchPath = []
    cases h : (recipe.build tiers).forest.host k with
    | empty => rfl
    | table owner symbols => rfl
    | entries owner path =>
      -- a chain has no other host
      cases k with
      | zero => exact absurd ⟨rfl, owner, path, h⟩ hhost
      | succ k => cases h
  | resolver i =>
    rw [Chain.mem_places, Chain.size] at hplace
    have hnone : (recipe.build tiers).forest.resolvers[i]? = none :=
      List.getElem?_eq_none (by omega)
    simp only [Forest.resolver, hnone, Option.getD_none]
    rfl

/-- When all places of a chain are released, nobody holds anything. -/
theorem handles_eq_nil {s : State} {l : Ledger}
    (hb : Balanced (recipe.build tiers).forest (s, l))
    (hreleased : ∀ p ∈ (recipe.build tiers).releaseOrder, (s.resolver p).released = true)
    (p : Place) : (s.resolver p).handles = [] := by
  by_cases hp : p ∈ (recipe.build tiers).releaseOrder
  · exact hb.emptied p (hreleased p hp)
  · exact hb.handles_eq_nil (searchPath_eq_nil hp)

theorem mem_releaseOrder {k : Nat} {tier : PluginTier} (hk : (layers tiers)[k]? = some tier) :
    .resolver k ∈ (recipe.build tiers).releaseOrder := by
  obtain ⟨hlt, -⟩ := List.getElem?_eq_some_iff.1 hk
  exact List.mem_append_left _ (List.mem_reverse.2 (Chain.mem_places.2 (size_build ▸ hlt)))

/-- **Taking a chain down** after any run. All that is still held is released in order, and every
handle ever opened was released once then; the failures are counted. Whatever is tried later, every
tier refuses, nobody holds anything, and to take the chain down again does nothing. -/
theorem release_takes_down (recipe : ChainRecipe) (tiers : Tiers) {fails : Handle → Bool}
    (hfails : (recipe.build tiers).forest.ReleasesFail fails) (depth : Nat)
    (operations : List Operation) :
    let c := recipe.build tiers
    let s := c.forest.run depth operations {}
    let held := s.heldAt (c.places.reverse ++ c.forest.hostPlaces 0)
    let t := (c.release ⟨s, false⟩).1.forest
    c.release ⟨s, false⟩ = (⟨t, true⟩, held.countP fails) ∧
    t.history = .releasing fails held ++ s.history ∧
    t.history.released = s.history.released ++ held ∧
    (∀ p, ((s.resolver p).handles.map (·.1)).Pairwise (· < ·)) ∧
    (t.history.released.map (·.number)).Perm (List.range t.history.opens) ∧
    ∀ later, let u := c.forest.run depth later t
      (∀ p, (u.resolver p).handles = []) ∧
      (∀ k tier name, (layers tiers)[k]? = some tier →
        c.forest.resolve depth (.resolver k) name u = (u, .error (.released tier.name))) ∧
      c.release ⟨u, true⟩ = (⟨u, true⟩, 0) := by
  intro c s held t
  -- the ledger before, and after
  obtain ⟨l, hsteps, hloose⟩ := run_accounted (F := c.forest) depth operations {} {}
  have hs : Balanced c.forest (s, l) := hsteps.balanced (.start c.forest)
  obtain ⟨l', hsteps', hloose'⟩ := Chain.releaseForest_accounted (c := c) s l
  have hbalanced : Balanced c.forest (t, l') := hsteps'.balanced hs
  have hreleased : ∀ p ∈ c.releaseOrder, (t.resolver p).released = true :=
    fun p hp => Chain.released_releaseForest s hp
  have hlater (later : List Operation) : ∀ p ∈ c.releaseOrder,
      ((c.forest.run depth later t).resolver p).released = true :=
    fun p hp => (run_accounted depth later t).released_mono (hreleased p hp)
  obtain ⟨hhistory, hcount⟩ := Chain.releaseEach_eq (c := c) hfails c.nodup_releaseOrder hs.placed
  rw [← Chain.releaseForest_eq] at hhistory hcount
  have hhistory : t.history = .releasing fails held ++ s.history := hhistory
  have hcount : (c.releaseForest s).2 = held.countP fails := hcount
  refine ⟨?_, hhistory, ?_, fun p => hs.pairwise_handles p, ?_, fun later => ⟨fun p => ?_, ?_, rfl⟩⟩
  · rw [← hcount]
    rfl
  · rw [hhistory]
    exact History.released_releasing fails held s.history
  · exact hbalanced.released_numbers (hloose'.trans hloose) (handles_eq_nil hbalanced hreleased)
  · obtain ⟨l'', hsteps'', -⟩ := run_accounted (F := c.forest) depth later t l'
    exact handles_eq_nil (hsteps''.balanced hbalanced) (hlater later) p
  · intro k tier name hk
    rw [resolve_of_released _ (hlater later _ (mem_releaseOrder hk)), resolver_layer hk,
      (resolver_fields hk).1]

/-- As in `sample`, but the host has an entry, and an opener of its own. Releasing the entry of the
plugin fails, and releasing that of the host. -/
def sampleWithEntries : ChainRecipe where
  host := .entries "jre" [⟨"/jre/", .directory⟩]
  opener := .memory sampleFiles ["/plugin/"]
  hostOpener := .memory [⟨"/jre/", "java/Object.class", ⟨#[0]⟩⟩] ["/jre/"]
  bootPrefixes := ["java."]

def sampleFailing : Place → List String
  | .host _ => ["/jre/"]
  | .resolver _ => ["/plugin/"]

/-- A run that opens every entry. -/
def sampleSearch : List Operation :=
  [.resolve (.resolver 0) "java.Object", .resolve (.resolver 0) "lib.Tool",
    .resolve (.resolver 2) "lib.Tool"]

def sampleHeld : List Handle :=
  let c := sampleWithEntries.build sampleTiers
  (c.forest.run 1 sampleSearch {}).heldAt (c.places.reverse ++ c.forest.hostPlaces 0)

/-- Two entries fail to be released. The others are released all the same, and the application
refuses afterwards. -/
theorem sampleWithEntries_taken_down :
    sampleHeld.map (·.entry.location) = ["/app/", "/plugin/", "/container/", "/jre/"] ∧
    let c := sampleWithEntries.build sampleTiers
    let s := c.forest.run 1 sampleSearch {}
    let t := (c.release ⟨s, false⟩).1.forest
    c.release ⟨s, false⟩ = (⟨t, true⟩, 2) ∧
    t.history.released = s.history.released ++ sampleHeld ∧
    (t.history.released.map (·.number)).Perm (List.range t.history.opens) ∧
    ∀ later, let u := c.forest.run 1 later t
      c.forest.resolve 1 (.resolver 2) "lib.Tool" u = (u, .error (.released "application")) := by
  have hcount : sampleHeld.countP (fun h => decide (h.entry.location ∈ sampleFailing h.place)) =
      2 := by decide +kernel
  have hfails := @releasesFail_memory (sampleWithEntries.build sampleTiers).forest sampleFailing
    fun p => by cases p <;> exact ⟨_, rfl⟩
  obtain ⟨hrelease, -, hreleased, -, hperm, hlater⟩ :=
    release_takes_down sampleWithEntries sampleTiers hfails 1 sampleSearch
  refine ⟨by decide +kernel, hrelease.trans (congrArg (Prod.mk _) hcount), hreleased, hperm,
    fun later => ?_⟩
  obtain ⟨-, hrefuses, -⟩ := hlater later
  exact hrefuses 2 ⟨applicationName, .ofList [⟨"/app/", .directory⟩]⟩ "lib.Tool" rfl

end ChainRecipe

end TierIsolation
