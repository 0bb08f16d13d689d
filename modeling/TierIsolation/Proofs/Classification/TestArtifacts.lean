import TierIsolation.Proofs.Classification.Provided

/-!
# Test artifacts in the application

`exists_entry_of_isTest`: everything declared for tests, whether excluded or not, has an entry that
is in the application, unless the container has precedence and the entry is provided. It is the
entry of the declaration that is met first (`applicationMeets`), for tests or not. The scope of a
declaration matters to the entry of a `test-jar` alone: declared for tests it is the test output of
a module, otherwise the main output (`mixed_not_application`).
-/

namespace TierIsolation.Classification

open EntryLookup

variable {c : Classification} {t : Tiers} {a : Artifact} {e : Entry}

/-- The declarations that make up the application, in the order in which they are met. One artifact
may be met several times. -/
def applicationMeets (g : Graph) (exclusions : CoordinateMatcher) : List Artifact :=
  g.nodes.flatMap fun a =>
    if a.isTest then
      a :: g.closure a.identity fun dep => !exclusions.accepts dep
    else if a.isCompile && !exclusions.accepts a then
      g.closure a.identity fun dep => dep.isTest && !exclusions.accepts dep
    else []

theorem applicationArtifacts_eq (g : Graph) (exclusions : CoordinateMatcher) :
    applicationArtifacts g exclusions = Artifact.distinct (applicationMeets g exclusions) := rfl

/-- Everything declared for tests is met, whether it is excluded or not. -/
theorem mem_applicationMeets {g : Graph} {exclusions : CoordinateMatcher} (ha : a ∈ g.nodes)
    (ht : a.isTest = true) : a ∈ applicationMeets g exclusions := by
  refine List.mem_flatMap.2 ⟨a, ha, ?_⟩
  rw [if_pos ht]
  exact List.mem_cons_self

/-- What the application claims is in the application, unless it is provided and the container has
precedence. -/
theorem mem_application_of_isEntryOf {exclusions : CoordinateMatcher} (h : c.classify = .ok t)
    (hx : c.configuration.exclusions = .ok exclusions)
    (he : c.IsEntryOf (applicationArtifacts c.graph exclusions) e) :
    e ∈ t.application ↔ ¬(c.configuration.providedPrecedence = .container ∧
      c.IsEntryOf (providedArtifacts c.graph) e) := by
  obtain ⟨under, exclusions', claims, -, hx', hclaims, rfl⟩ := classify_eq_ok.1 h
  rw [hx, Except.ok.injEq] at hx'
  subst hx'
  obtain ⟨happ, -, hprov⟩ := claims_eq_ok.1 hclaims
  have hclaimed : e ∈ claims.application := (mem_applicationClaim happ).2 (.inl he)
  rw [Claims.mem_application, mem_providedClaim hprov, not_and]
  exact and_iff_right hclaimed

/-- **Test artifacts reach the application.** Whatever is declared for tests and carries code is
met by the application, excluded or not. The declaration of it that is met first has an entry, and
that is in the application unless it is provided and the container has precedence. It is the entry
of the artifact itself, too, unless this is a `test-jar` and was first met for something else. -/
theorem exists_entry_of_isTest (h : c.classify = .ok t) (ha : a ∈ c.graph.nodes)
    (ht : a.isTest = true) (hpom : a.isPom = false) :
    ∃ exclusions first e, c.configuration.exclusions = .ok exclusions ∧
      (applicationMeets c.graph exclusions).find? (·.identity == a.identity) = some first ∧
      c.lookup.locate first = .ok (some e) ∧
      (e ∈ t.application ↔ ¬(c.configuration.providedPrecedence = .container ∧
        c.IsEntryOf (providedArtifacts c.graph) e)) ∧
      (a.identity.kind ≠ "test-jar" ∨ first.isTest = true →
        c.lookup.locate a = .ok (some e)) := by
  obtain ⟨under, exclusions, claims, -, hx, hclaims, -⟩ := classify_eq_ok.1 h
  obtain ⟨happ, -, -⟩ := claims_eq_ok.1 hclaims
  have hmet : a ∈ applicationMeets c.graph exclusions := mem_applicationMeets ha ht
  obtain ⟨first, hfirst, hi⟩ := Artifact.exists_mem_distinct hmet
  have hfind := Artifact.mem_distinct_iff.1 hfirst
  rw [hi] at hfind
  rw [← applicationArtifacts_eq] at hfirst
  -- of all that was met, the first declaration of each artifact is looked up
  obtain ⟨entries, hentries, -⟩ := Except.bind_eq_ok.1 happ
  obtain ⟨found, hfound⟩ := locate_of_entriesOf hentries hfirst
  obtain ⟨e, rfl⟩ := exists_entry (by simpa [Artifact.isPom, hi] using hpom) hfound
  refine ⟨exclusions, first, e, hx, hfind, hfound, ?_, fun hsame => ?_⟩
  · exact mem_application_of_isEntryOf h hx ⟨first, hfirst, hfound⟩
  · have hout : first.isTestOutput = a.isTestOutput := by
      rcases hsame with hkind | hfirstTest
      · have hno : (a.identity.kind == "test-jar") = false := by simpa using hkind
        simp only [Artifact.isTestOutput, hi, hno, Bool.and_false]
      · simp [Artifact.isTestOutput, hi, hfirstTest, ht]
    exact locate_congr hi hout hfound

/-- In the sample `c` is declared for tests, and nothing provided is found where `c` is. -/
theorem sample_mem_application :
    ∃ t, sample.classify = .ok t ∧
      sample.lookup.locate (sampleJar "c" .test) = .ok (some ⟨"g/c/", .directory⟩) ∧
      ⟨"g/c/", .directory⟩ ∈ t.application := by
  obtain ⟨t, ht⟩ := sample_classify
  have hlocate : sample.lookup.locate (sampleJar "c" .test) =
      .ok (some ⟨"g/c/", .directory⟩) := rfl
  obtain ⟨exclusions, first, e, -, -, -, hmem, hsame⟩ :=
    exists_entry_of_isTest ht (a := sampleJar "c" .test) (by decide) rfl rfl
  have he := hsame (.inl (by decide))
  rw [hlocate] at he
  cases he
  have hb : sample.lookup.locate (sampleJar "b" .provided) = .ok (some ⟨"g/b/", .directory⟩) := rfl
  have hd : sample.lookup.locate (sampleJar "d" .compile) = .ok (some ⟨"g/d/", .directory⟩) := rfl
  refine ⟨t, ht, hlocate, hmem.2 ?_⟩
  rintro ⟨-, provided, hprovided, hentry⟩
  rw [sample_provided, List.mem_cons, List.mem_singleton] at hprovided
  rcases hprovided with rfl | rfl
  · simp [hb] at hentry
  · simp [hd] at hentry

/-! ## One artifact declared for two things -/

/-- The packaged tests of the module `m`. -/
def moduleTests (scope : Scope) : Artifact := ⟨⟨"g", "m", "test-jar"⟩, "1", scope⟩

/-- The tests of `m` are declared for tests, and as a compiled dependency of the tests in `t`, which
are mentioned earlier. -/
def mixedGraph : Graph where
  nodes := [sampleJar "a" .compile, sampleJar "t" .test, moduleTests .test]
  edges := [⟨⟨"g", "t", "jar"⟩, moduleTests .compile⟩]

def mixed : Classification where
  configuration := { projectDir := "/w/a" }
  classpath := [⟨"/r/g/t/1/t-1.jar", .archive⟩,
    ⟨"/w/m/target/classes/", .directory⟩, ⟨"/w/m/target/test-classes/", .directory⟩]
  graph := mixedGraph
  folders := .ofPairs [("m", "/m/")]

theorem mixed_application :
    applicationArtifacts mixedGraph {} = [sampleJar "t" .test, moduleTests .compile] := by
  cbv

theorem mixed_provided : providedArtifacts mixedGraph = [] := by cbv

theorem mixed_locate_tests : mixed.lookup.locate (sampleJar "t" .test) =
    .ok (some ⟨"/r/g/t/1/t-1.jar", .archive⟩) := rfl

theorem mixed_locate_main : mixed.lookup.locate (moduleTests .compile) =
    .ok (some ⟨"/w/m/target/classes/", .directory⟩) := rfl

theorem mixed_classify : ∃ t, mixed.classify = .ok t := by
  obtain ⟨application, ha⟩ : ∃ s, mixed.applicationClaim {} = .ok s := by
    rw [applicationClaim, show mixed.graph = mixedGraph from rfl, mixed_application]
    simp only [entriesOf, locateAll, mixed_locate_tests, mixed_locate_main]
    exact ⟨_, rfl⟩
  obtain ⟨provided, hv⟩ : ∃ s, mixed.providedClaim = .ok s := by
    rw [providedClaim, show mixed.graph = mixedGraph from rfl, mixed_provided]
    exact ⟨_, rfl⟩
  exact ⟨_, classify_eq_ok.2 ⟨_, _, ⟨application, [], provided⟩, rfl, rfl,
    claims_eq_ok.2 ⟨ha, rfl, hv⟩, rfl⟩⟩

/-- The own entry of something declared for tests need not be in the application, nor provided: the
application takes the main output of `m` for its tests, which stay in the container. -/
theorem mixed_not_application :
    ¬ ∀ (c : Classification) (t : Tiers) (a : Artifact), c.classify = .ok t → a ∈ c.graph.nodes →
      a.isTest = true → a.isPom = false → ∃ e, c.lookup.locate a = .ok (some e) ∧
        (e ∈ t.application ∨ c.configuration.providedPrecedence = .container ∧
          c.IsEntryOf (providedArtifacts c.graph) e) := by
  intro hall
  obtain ⟨t, ht⟩ := mixed_classify
  obtain ⟨e, he, hmem⟩ := hall mixed t (moduleTests .test) ht (by decide) rfl rfl
  have hlocate : mixed.lookup.locate (moduleTests .test) =
      .ok (some ⟨"/w/m/target/test-classes/", .directory⟩) := rfl
  rw [hlocate, Except.ok.injEq, Option.some.injEq] at he
  subst he
  rcases hmem with hmem | ⟨-, d, hd, -⟩
  · obtain ⟨under, exclusions, claims, -, hx, hclaims, rfl⟩ := classify_eq_ok.1 ht
    obtain ⟨happ, -, -⟩ := claims_eq_ok.1 hclaims
    have hnone : exclusions = {} := (Except.ok.inj hx).symm
    rcases (mem_applicationClaim happ).1 (Claims.mem_application.1 hmem).1 with
      ⟨d, hd, hentry⟩ | ⟨-, houtput⟩
    · rw [hnone, show mixed.graph = mixedGraph from rfl, mixed_application, List.mem_cons,
        List.mem_singleton] at hd
      rcases hd with rfl | rfl
      · simp [mixed_locate_tests] at hentry
      · simp [mixed_locate_main] at hentry
    · have hout : mixed.configuration.testOutput = "/w/a/target/test-classes/" := rfl
      simp [hout] at houtput
  · rw [show mixed.graph = mixedGraph from rfl, mixed_provided] at hd
    cases hd

end TierIsolation.Classification
