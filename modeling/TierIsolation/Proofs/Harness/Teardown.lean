import TierIsolation.Harness
import TierIsolation.Proofs.Chain.Teardown
import TierIsolation.Proofs.Classification.Claims

/-!
# A run takes its chain down

`run_tears_down`: a harness that cannot be set up says why, and does nothing else. Otherwise a run
gives what the script gives, whatever releases fail, and when it is over every handle that was
opened is released, once.

What a script does is a run of operations, each chosen by the answers to those before it
(`Script.exists_operations`), and taking a chain down is one more (`Chain.releaseForest_eq_run`). So
the handles of a forest are in balance all along, from one chain to the next
(`Harness.Reachable.balanced`).
-/

namespace TierIsolation.Harness

open Forest

variable {α : Type} {h : Harness} {tiers : Tiers} {depth : Nat} {w : World} {failure : Failure}

/-! ## Scripts -/

/-- A script does operations one after the other. -/
theorem Script.exists_operations (script : Script α) (c : Chain) (depth : Nat) (s : Forest.State) :
    ∃ operations, (script.run c depth s).1 = c.forest.run depth operations s := by
  induction script generalizing s with
  | done result => exact ⟨[], rfl⟩
  | resolve p name next ih =>
    let outcome := c.forest.resolve depth p name s
    obtain ⟨operations, hrun⟩ := ih outcome.2 outcome.1
    exact ⟨.resolve p name :: operations, hrun⟩
  | tryResolve p name next ih =>
    let outcome := c.forest.tryResolve depth p name s
    obtain ⟨operations, hrun⟩ := ih outcome.2 outcome.1
    exact ⟨.tryResolve p name :: operations, hrun⟩
  | release p next ih =>
    let outcome := c.forest.release p s
    obtain ⟨operations, hrun⟩ := ih outcome.2 outcome.1
    exact ⟨.release p :: operations, hrun⟩

/-! ## Setting up -/

/-- Why a harness cannot be set up. Each step is taken only if those before it succeed. -/
inductive Fails (h : Harness) : Failure → Prop
  | configuration {fault : ConfigurationFault} :
      h.configuration.validate = .error fault → Fails h (.configuration fault)
  | classpath {failure : Failure} :
      h.configuration.validate = .ok () → h.readClasspath = .error failure → Fails h failure
  | graph {classpath : List Entry} {failure : Failure} :
      h.configuration.validate = .ok () → h.readClasspath = .ok classpath →
      h.readGraph = .error failure → Fails h failure
  | classification {classpath : List Entry} {graph : Graph} {failure : Failure} :
      h.configuration.validate = .ok () → h.readClasspath = .ok classpath →
      h.readGraph = .ok graph →
      Classification.classify ⟨h.configuration, classpath, graph, h.folders⟩ = .error failure →
      Fails h failure

theorem classify_eq_error : h.classify = .error failure ↔ h.Fails failure := by
  constructor
  · intro hf
    unfold classify at hf
    cases hv : h.configuration.validate with
    | error fault =>
      rw [hv] at hf
      obtain rfl := Except.error.inj hf
      exact .configuration hv
    | ok u =>
      cases hc : h.readClasspath with
      | error other =>
        rw [hv, hc] at hf
        obtain rfl := Except.error.inj hf
        exact .classpath hv hc
      | ok classpath =>
        cases hg : h.readGraph with
        | error other =>
          rw [hv, hc, hg] at hf
          obtain rfl := Except.error.inj hf
          exact .graph hv hc hg
        | ok graph =>
          rw [hv, hc, hg] at hf
          exact .classification hv hc hg hf
  · rintro (hv | ⟨hv, hc⟩ | ⟨hv, hc, hg⟩ | ⟨hv, hc, hg, hf⟩) <;> unfold classify <;> rw [hv]
    · rfl
    · rw [hc]
      rfl
    · rw [hc, hg]
      rfl
    · rw [hc, hg]
      exact hf

/-- A run that cannot be set up leaves everything as it is. -/
theorem run_of_classify_eq_error (hf : h.classify = .error failure) (script : Place → Script α) :
    h.run depth script w = (w, .error failure) := by
  simp only [run, construct, hf, Except.map]

theorem run_of_classify_eq_ok (ht : h.classify = .ok tiers) (script : Place → Script α) :
    let c := h.recipe.build tiers
    let outcome := (script c.application).run c depth w.start
    h.run depth script w = (.after (c.releaseForest outcome.1).1, outcome.2) := by
  simp only [run, construct, ht, Except.map]

/-! ## From one chain to the next -/

/-- What the uses of a harness lead to: one chain after the other, with any operations on its
resolvers and on the host, and left when its tiers hold nothing any more. -/
inductive Reachable (h : Harness) : World → Prop
  | fresh : Reachable h {}
  | chain {tiers : Tiers} {w : World} {depth : Nat} {operations : List Operation} :
      h.classify = .ok tiers → Reachable h w →
      (∀ i, (((h.recipe.build tiers).forest.run depth operations w.start).resolver
        (.resolver i)).handles = []) →
      Reachable h (.after ((h.recipe.build tiers).forest.run depth operations w.start))

/-- Where nobody but the host holds anything, the next chain takes over from the one before. -/
theorem balanced_start {F : Forest} {s : Forest.State} {l : Ledger} (hb : Balanced F (s, l))
    (hheld : ∀ p, p ≠ .host 0 → (s.resolver p).handles = []) :
    Balanced F ((World.after s).start, l) := by
  have hhandles (p : Place) : ((World.after s).start.resolver p).handles =
      (s.resolver p).handles := by
    by_cases hp : p = .host 0
    · subst hp
      rfl
    · rw [hheld p hp]
      simp only [World.start, if_neg hp]
  constructor
  case numbers => exact hb.numbers
  case releases => exact hb.releases
  case entries => exact hb.entries
  case places => exact hb.places
  case shares =>
    intro p
    rw [Forest.State.tenures, hhandles p]
    exact hb.shares p
  case increasing =>
    intro p
    rw [hhandles p]
    exact hb.increasing p
  case emptied =>
    intro p hreleased
    rw [hhandles p]
    by_cases hp : p = .host 0
    · subst hp
      exact hb.emptied (.host 0) hreleased
    · exact hheld p hp

/-- In a chain only the tiers and the host can hold anything. -/
theorem handles_eq_nil_of_tiers {s : Forest.State} {l : Ledger} {recipe : ChainRecipe}
    (hb : Balanced (recipe.build tiers).forest (s, l))
    (hheld : ∀ i, (s.resolver (.resolver i)).handles = []) {p : Place} (hp : p ≠ .host 0) :
    (s.resolver p).handles = [] := by
  cases p with
  | host k =>
    -- a chain has no other host
    have hk : k ≠ 0 := fun h => hp (h ▸ rfl)
    refine hb.handles_eq_nil (ChainRecipe.searchPath_eq_nil ?_)
    simp [Chain.releaseOrder, Chain.places, mem_hostPlaces, hk]
  | resolver i => exact hheld i

theorem World.start_fresh : World.start {} = {} := by
  simp only [World.start, ite_self]

/-- No handle is lost from one chain to the next. -/
theorem Reachable.balanced (hw : h.Reachable w) (ht : h.classify = .ok tiers) :
    ∃ l, Balanced (h.recipe.build tiers).forest (w.start, l) ∧ l.loose = [] := by
  induction hw with
  | fresh =>
    rw [World.start_fresh]
    exact ⟨{}, .start _, rfl⟩
  | chain ht' _ hheld ih =>
    obtain rfl := Except.ok.inj (ht.symm.trans ht')
    obtain ⟨l, hb, hloose⟩ := ih
    obtain ⟨l', hsteps, hloose'⟩ := run_accounted _ _ _ l
    have hend := hsteps.balanced hb
    exact ⟨l', balanced_start hend fun p => handles_eq_nil_of_tiers hend hheld,
      hloose'.trans hloose⟩

/-- How a run ends: the chain and its host are released, nobody holds a handle any more, and each
handle that was ever opened was released once. -/
theorem Reachable.end_of_run (hw : h.Reachable w) (ht : h.classify = .ok tiers) (depth : Nat)
    (script : Place → Script α) :
    let c := h.recipe.build tiers
    ∃ t, h.run depth script w = (.after t, ((script c.application).run c depth w.start).2) ∧
      h.Reachable (.after t) ∧ (∀ p ∈ c.releaseOrder, (t.resolver p).released = true) ∧
      (∀ p, (t.resolver p).handles = []) ∧
      (t.history.released.map (·.number)).Perm (List.range t.history.opens) := by
  intro c
  let s := ((script c.application).run c depth w.start).1
  let t := (c.releaseForest s).1
  -- the script and the release of the chain are one run of operations
  obtain ⟨operations, hrun⟩ := (script c.application).exists_operations c depth w.start
  let all := operations ++ c.releaseOrder.map .release
  have hall : t = c.forest.run depth all w.start := by
    rw [Forest.run, List.foldl_append]
    exact (Chain.releaseForest_eq_run depth s).trans (congrArg _ hrun)
  obtain ⟨l, hb, hloose⟩ := hw.balanced ht
  obtain ⟨l', hsteps, hloose'⟩ := run_accounted (F := c.forest) depth all w.start l
  rw [← hall] at hsteps
  have hbalanced : Balanced c.forest (t, l') := hsteps.balanced hb
  have hreleased : ∀ p ∈ c.releaseOrder, (t.resolver p).released = true :=
    fun p hp => Chain.released_releaseForest s hp
  have hheld : ∀ p, (t.resolver p).handles = [] := ChainRecipe.handles_eq_nil hbalanced hreleased
  have hreachable : h.Reachable (.after t) := by
    rw [hall]
    exact .chain ht hw fun i => hall ▸ hheld (.resolver i)
  exact ⟨t, run_of_classify_eq_ok ht script, hreachable, hreleased, hheld,
    hbalanced.released_numbers (hloose'.trans hloose) hheld⟩

/-- What a run leads to can be reached. -/
theorem Reachable.run (hw : h.Reachable w) (depth : Nat) (script : Place → Script α) :
    h.Reachable (h.run depth script w).1 := by
  cases ht : h.classify with
  | error failure =>
    rw [run_of_classify_eq_error ht]
    exact hw
  | ok tiers =>
    obtain ⟨t, hrun, hreachable, -⟩ := hw.end_of_run ht depth script
    rw [hrun]
    exact hreachable

/-! ## Runs -/

/-- **A run always takes its chain down, and never hides what came of the script.** A harness that
cannot be set up says why; the script is not run then, and the world stays as it is. Otherwise the
result is that of the script in the new chain, whichever releases fail, nobody holds a handle any
more, and of all handles that were ever opened each was released once. -/
theorem run_tears_down (h : Harness) (hw : h.Reachable w) (depth : Nat)
    (script : Place → Script α) :
    (∀ failure, h.Fails failure → h.run depth script w = (w, .error failure)) ∧
    ((∀ failure, ¬ h.Fails failure) → ∃ tiers t, h.classify = .ok tiers ∧
      h.run depth script w = (.after t, let c := h.recipe.build tiers
        ((script c.application).run c depth w.start).2) ∧
      (∀ p, (t.resolver p).handles = []) ∧
      (t.history.released.map (·.number)).Perm (List.range t.history.opens)) := by
  refine ⟨fun failure hf => run_of_classify_eq_error (classify_eq_error.2 hf) script,
    fun hnone => ?_⟩
  cases ht : h.classify with
  | error failure => exact absurd (classify_eq_error.1 ht) (hnone failure)
  | ok tiers =>
    obtain ⟨t, hrun, -, -, hheld, hperm⟩ := hw.end_of_run ht depth script
    exact ⟨tiers, t, rfl, hrun, hheld, hperm⟩

/-! ## A harness with a host -/

/-- There is one library, and the host has a test framework. The library fails to be released. -/
def sample : Harness where
  configuration := {}
  surroundings := ⟨⟨fun _ => none, []⟩, []⟩
  classpath := .fixed [⟨"/lib/", .directory⟩]
  graph := .fixed { nodes := [Classification.sampleJar "a" .compile], edges := [] }
  host := .entries "jre" [⟨"/jre/", .directory⟩]
  opener := .memory
    [⟨"/jre/", "org/junit/Test.class", ⟨#[0]⟩⟩, ⟨"/lib/", "a/B.class", ⟨#[1]⟩⟩] ["/lib/"]

def sampleTiers : Tiers where
  artifactUnderTest := Classification.sampleJar "a" .compile
  application := .ofList []
  container := .ofList [⟨"/lib/", .directory⟩]
  plugins := []

theorem sample_classify : sample.classify = .ok sampleTiers :=
  Except.toOption_eq_some.1 (by decide +kernel)

/-- The script uses both, releases the container and fails for that. -/
def sampleScript (application : Place) : Script Unit :=
  .resolve application "org.junit.Test" fun _ =>
  .tryResolve application "a.B" fun _ =>
  .release Chain.container fun _ =>
  .resolve application "a.C" fun
    | .ok _ => .done (.ok ())
    | .error fault => .done (.error (.resolution fault))

/-- The failure of the script comes out, and not that of the library. The host is released as
well. -/
theorem sample_torn_down : ∃ t result,
    sample.run 1 sampleScript {} = (.after t, result) ∧
    result.mapError Failure.message = .error "Resolver 'container' has been released" ∧
    (∀ p, (t.resolver p).handles = []) ∧
    (t.history.released.map (·.number)).Perm (List.range t.history.opens) := by
  have hsound : ∀ failure, ¬ sample.Fails failure := by
    intro failure hf
    have herror := classify_eq_error.2 hf
    rw [sample_classify] at herror
    cases herror
  obtain ⟨tiers, t, ht, hrun, hheld, hperm⟩ :=
    (run_tears_down sample .fresh 1 sampleScript).2 hsound
  obtain rfl := Except.ok.inj (sample_classify.symm.trans ht)
  exact ⟨t, _, hrun, by decide +kernel, hheld, hperm⟩

end TierIsolation.Harness
