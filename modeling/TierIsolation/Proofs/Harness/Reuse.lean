import TierIsolation.Proofs.Chain.ReleasedHost
import TierIsolation.Proofs.Harness.Teardown

/-!
# A harness that is used again

Every run has a new chain, but all runs share the host, and a run releases it at the end. A host
with entries refuses from then on: `run_again` says that a script that only asks the application
gets the same answers again, except for names with a boot prefix if the host has entries.

What such a script comes to follows from the answers alone (`Script.evaluate`). In the first run
they are those of the reference, later those of a chain whose host was released before
(`ChainRecipe.afterRelease`).
-/

namespace TierIsolation.Harness

open Forest

variable {α β : Type} {h : Harness} {tiers : Tiers} {a : Place → Answers} {depth : Nat} {w : World}

/-! ## Scripts that only ask -/

namespace Script

variable {script : Script α} {p : Place} {answer other : String → Except ResolutionFault Symbol}

/-- The script resolves names at one place and does nothing else. -/
def Asks (p : Place) : Script α → Prop
  | done _ => True
  | resolve q _ next => q = p ∧ ∀ found, (next found).Asks p
  | tryResolve q _ next => q = p ∧ ∀ found, (next found).Asks p
  | release _ _ => False

/-- What a script comes to with these answers, if releases do not fail. -/
def evaluate (answer : String → Except ResolutionFault Symbol) : Script α → Except Failure α
  | done result => result
  | resolve _ name next => (next (answer name)).evaluate answer
  | tryResolve _ name next => (next (orAbsent (answer name))).evaluate answer
  | release _ next => (next 0).evaluate answer

/-- The names that a script asks for, if it gets these answers. -/
def asked (answer : String → Except ResolutionFault Symbol) : Script α → List String
  | done _ => []
  | resolve _ name next => name :: (next (answer name)).asked answer
  | tryResolve _ name next => name :: (next (orAbsent (answer name))).asked answer
  | release _ next => (next 0).asked answer

theorem asks_resolveEach (p : Place) (found : List Symbol) (names : List String) :
    (resolveEach p found names).Asks p := by
  induction names generalizing found with
  | nil => trivial
  | cons name rest ih =>
    refine ⟨rfl, fun answer => ?_⟩
    cases answer with
    | ok symbol => exact ih (symbol :: found)
    | error fault => trivial

/-- Names resolved one after the other are asked for up to the first fault. -/
theorem mem_of_asked_resolveEach {p : Place} {found : List Symbol} {names : List String}
    {name : String} (h : name ∈ (resolveEach p found names).asked answer) : name ∈ names := by
  induction names generalizing found with
  | nil => cases h
  | cons first rest ih =>
    rcases List.mem_cons.1 h with rfl | h
    · exact List.mem_cons_self
    · cases hfirst : answer first with
      | ok symbol =>
        rw [hfirst] at h
        exact List.mem_cons_of_mem _ (ih h)
      | error fault =>
        rw [hfirst] at h
        cases h

/-- Only the answers to what is asked matter. -/
theorem evaluate_congr (h : ∀ name ∈ script.asked answer, other name = answer name) :
    script.evaluate other = script.evaluate answer := by
  induction script with
  | done result => rfl
  | resolve q name next ih =>
    have hname : other name = answer name := h name List.mem_cons_self
    have hrest := ih (answer name) fun x hx => h x (List.mem_cons_of_mem _ hx)
    rw [evaluate, evaluate, hname, hrest]
  | tryResolve q name next ih =>
    have hname : other name = answer name := h name List.mem_cons_self
    have hrest := ih (orAbsent (answer name)) fun x hx => h x (List.mem_cons_of_mem _ hx)
    rw [evaluate, evaluate, hname, hrest]
  | release q next ih => exact ih 0 h

/-- A script gets the answers that all states give which it can come to. -/
theorem run_eq_evaluate {c : Chain} {P : Forest.State → Prop}
    (hstep : ∀ name s, P s → P (c.forest.resolve depth p name s).1 ∧
      (c.forest.resolve depth p name s).2 = answer name)
    (hasks : script.Asks p) {s : Forest.State} (hs : P s) :
    (script.run c depth s).2 = script.evaluate answer := by
  induction script generalizing s with
  | done result => rfl
  | resolve q name next ih =>
    obtain ⟨rfl, hnext⟩ := hasks
    obtain ⟨hs', hanswer⟩ := hstep name s hs
    have hrest := ih (answer name) (hnext _) hs'
    rw [← hanswer] at hrest
    rw [evaluate, ← hanswer]
    exact hrest
  | tryResolve q name next ih =>
    obtain ⟨rfl, hnext⟩ := hasks
    obtain ⟨hs', hanswer⟩ := hstep name s hs
    have htry : (c.forest.tryResolve depth q name s).2 = orAbsent (answer name) := by
      rw [← hanswer]
      exact orNothing_snd _
    rw [← tryResolve_fst] at hs'
    have hrest := ih (orAbsent (answer name)) (hnext _) hs'
    rw [← htry] at hrest
    rw [evaluate, ← htry]
    exact hrest
  | release q next ih => cases hasks

end Script

/-! ## After a run -/

theorem exists_application (recipe : ChainRecipe) (tiers : Tiers) :
    ∃ k tier, (recipe.build tiers).application = .resolver k ∧
      (ChainRecipe.layers tiers)[k]? = some tier := by
  have hlt : (recipe.build tiers).size - 1 < (ChainRecipe.layers tiers).length := by
    rw [ChainRecipe.size_build]
    simp [ChainRecipe.layers]
  exact ⟨_, _, rfl, List.getElem?_eq_getElem hlt⟩

/-- In a new chain after a run, all is right but the host. -/
theorem Reachable.rightButHost (hw : h.Reachable w) (ht : h.classify = .ok tiers) (depth : Nat)
    (script : Place → Script α) (a : Place → Answers) :
    h.recipe.RightButHost tiers a (h.run depth script w).1.start := by
  obtain ⟨t, hrun, -, hreleased, -, hperm⟩ := hw.end_of_run ht depth script
  rw [hrun]
  constructor
  case released =>
    intro owner path hhost
    exact hreleased (.host 0)
      (List.mem_append_right _ (mem_hostPlaces.2 ⟨rfl, owner, path, hhost⟩))
  case faithful =>
    -- every resolver is new, and the handles that were released have old numbers
    have hnew (p : Place) : ((World.after t).start.put (.host 0) {}).resolver p = {} := by
      by_cases hp : p = .host 0
      · rw [hp]
        exact State.put_same _ _ _
      · rw [State.put_other _ _ hp]
        exact if_neg hp
    exact .of_new hnew fun handle hh =>
      List.mem_range.1 (hperm.mem_iff.1 (List.mem_map_of_mem hh))

/-! ## What runs come to -/

section Runs

variable (hgives : ∀ p, (h.recipe.openerAt p).Gives (a p))
  (hquiet : ∀ p, (h.recipe.openerAt p).Quiet) (ht : h.classify = .ok tiers)
  {script : Place → Script α} (hasks : ∀ p, (script p).Asks p)
include hgives hquiet ht hasks

/-- At first a script gets the answers of the reference. -/
theorem run_eq_evaluate_first :
    let c := h.recipe.build tiers
    (h.run depth script {}).2 =
      (script c.application).evaluate (c.forest.reference a c.application) := by
  intro c
  have hstep (name : String) (s : Forest.State) (hs : Faithful c.forest a s) :
      Faithful c.forest a (c.forest.resolve depth c.application name s).1 ∧
        (c.forest.resolve depth c.application name s).2 =
          c.forest.reference a c.application name := by
    obtain ⟨hadvances, hresult⟩ :=
      resolve_refines (F := c.forest) hgives (Quiet.onlyResolves hquiet) depth c.application name s
        hs
    exact ⟨hadvances.faithful, hresult⟩
  rw [run_of_classify_eq_ok ht, World.start_fresh]
  exact Script.run_eq_evaluate hstep (hasks _) .start

/-- After whatever run, a script gets the answers of a chain whose host was released before. -/
theorem run_eq_evaluate_later (hw : h.Reachable w) (before : Nat) (earlier : Place → Script β) :
    let c := h.recipe.build tiers
    (h.run depth script (h.run before earlier w).1).2 = (script c.application).evaluate
      (h.recipe.afterRelease (c.forest.reference a c.application)) := by
  intro c
  obtain ⟨k, tier, happlication, hk⟩ := exists_application h.recipe tiers
  rw [run_of_classify_eq_ok ht]
  refine Script.run_eq_evaluate (fun name s hs => ?_) (hasks _)
    (hw.rightButHost ht before earlier a)
  simp only [c, happlication]
  exact ChainRecipe.resolve_released_host rfl hgives hquiet hs hk depth name

end Runs

/-! ## A second run -/

/-- **A harness can be used again**, but for names that come from a host with entries. A script that
only asks the application is told in the second run what it was told in the first, except that a
host with entries refuses, since the first run released it. So the outcome is the same unless the
script asked, in the first run, for a name with a boot prefix and the host has entries. -/
theorem run_again (h : Harness) (hgives : ∀ p, (h.recipe.openerAt p).Gives (a p))
    (hquiet : ∀ p, (h.recipe.openerAt p).Quiet) {script : Place → Script α}
    (hasks : ∀ p, (script p).Asks p) (depth : Nat) :
    let first := h.run depth script {}
    let second := h.run depth script first.1
    (∀ failure, h.classify = .error failure → second = first) ∧
    ∀ tiers, h.classify = .ok tiers →
      let c := h.recipe.build tiers
      let answer := c.forest.reference a c.application
      first.2 = (script c.application).evaluate answer ∧
      second.2 = (script c.application).evaluate (h.recipe.afterRelease answer) ∧
      ((∀ name ∈ (script c.application).asked answer, h.recipe.IsBoot name →
        ∀ owner path, h.host ≠ .entries owner path) → second.2 = first.2) := by
  intro first second
  refine ⟨fun failure hf => ?_, fun tiers ht => ?_⟩
  · simp only [second, first, run_of_classify_eq_error hf]
  · intro c answer
    have hfirst : first.2 = (script c.application).evaluate answer :=
      run_eq_evaluate_first hgives hquiet ht hasks
    have hsecond :
        second.2 = (script c.application).evaluate (h.recipe.afterRelease answer) :=
      run_eq_evaluate_later hgives hquiet ht hasks .fresh depth script
    refine ⟨hfirst, hsecond, fun hnames => ?_⟩
    rw [hfirst, hsecond]
    exact Script.evaluate_congr fun name hname =>
      ChainRecipe.afterRelease_eq (hnames name hname)

/-! ## A harness whose host has entries -/

/-- What is observed of names resolved one after the other: which resolvers had them, and the fault
at the end. -/
def observe (outcome : Except Failure (List Symbol × Option ResolutionFault)) :
    Option (List String × Option ResolutionFault) :=
  outcome.toOption.map fun x => (x.1.map (·.resolver), x.2)

/-- The library is found again, and what is missing is missed again. -/
theorem sample_used_again :
    let script (p : Place) := Script.resolveEach p [] ["a.B", "a.C"]
    let first := sample.run 1 script {}
    let second := sample.run 1 script first.1
    second.2 = first.2 ∧
      observe first.2 = some (["container"], some (.notFound "a.C" "application")) := by
  intro script first second
  have hasks (p : Place) : (script p).Asks p := Script.asks_resolveEach p [] _
  obtain ⟨-, hruns⟩ := run_again sample
    (ChainRecipe.gives_openerAt (Opener.memory_gives _ _) (Opener.memory_gives _ _))
    (ChainRecipe.quiet_openerAt (Opener.memory_quiet _ _) (Opener.memory_quiet _ _)) hasks 1
  obtain ⟨-, -, hsame⟩ := hruns sampleTiers sample_classify
  have hboot : ∀ name ∈ ["a.B", "a.C"], ¬ sample.recipe.IsBoot name := by decide
  refine ⟨hsame fun name hname hname' => ?_, ?_⟩
  · exact absurd hname' (hboot name (Script.mem_of_asked_resolveEach hname))
  · simp only [first, run_of_classify_eq_ok sample_classify]
    decide +kernel

/-- The test framework comes from the host, and the host refuses in the second run. -/
theorem sample_refused_again :
    let script (p : Place) := Script.resolveEach p [] ["org.junit.Test"]
    let first := sample.run 1 script {}
    let second := sample.run 1 script first.1
    observe first.2 = some (["jre"], none) ∧
      observe second.2 = some ([], some (.released "jre")) ∧ second.2 ≠ first.2 := by
  intro script first second
  have hfirst : observe first.2 = some (["jre"], none) := by
    simp only [first, run_of_classify_eq_ok sample_classify]
    decide +kernel
  have hsecond : observe second.2 = some ([], some (.released "jre")) := by
    simp only [second, first, run_of_classify_eq_ok sample_classify]
    decide +kernel
  refine ⟨hfirst, hsecond, fun hsame => ?_⟩
  rw [hsame, hfirst] at hsecond
  exact absurd hsecond (by decide)

end TierIsolation.Harness
