import TierIsolation.Proofs.Classification.Claims
import TierIsolation.Proofs.Graph.Reachability
import TierIsolation.Proofs.Settlement

/-!
# What the host provides stays in the container

`provided_isolated`: when the container has precedence, the entry of every provided artifact, and of
everything it leads to outside the tests, is in the container and in no other tier.

Of several declarations of one artifact only the first is looked up (`exists_provided`). All of them
are declared for other scopes than `test`, so none is the test output of a module, and they have the
same entry (`EntryLookup.locate_congr`).
-/

namespace TierIsolation

namespace Classification

variable {g : Graph} {p d : Artifact}

/-! ## Artifacts of the host -/

/-- Nothing that the host provides is declared for tests. -/
theorem isTest_providedArtifacts (h : d ∈ providedArtifacts g) : d.isTest = false := by
  have hmem := (Artifact.mem_distinctFrom h).1
  obtain ⟨p, hp, hd⟩ := List.mem_flatMap.1 hmem
  rcases List.mem_cons.1 hd with rfl | hd
  · have hprovided := (List.mem_filter.1 hp).2
    simp only [Artifact.isProvided, Artifact.isTest, beq_iff_eq] at hprovided ⊢
    rw [hprovided]
    rfl
  · simpa using Graph.keep_of_mem_closure hd

/-- A provided artifact, and whatever it leads to, is among the artifacts of the host, perhaps
as another declaration. -/
theorem exists_provided (hp : p ∈ g.nodes) (hs : p.isProvided = true)
    (hd : d = p ∨ d ∈ g.closure p.identity fun dep => !dep.isTest) :
    d.isTest = false ∧ ∃ d' ∈ providedArtifacts g, d'.identity = d.identity := by
  have hmem : d ∈ (g.nodes.filter (·.isProvided)).flatMap fun a =>
      a :: g.closure a.identity fun dep => !dep.isTest :=
    List.mem_flatMap.2 ⟨p, List.mem_filter.2 ⟨hp, hs⟩, List.mem_cons.2 hd⟩
  refine ⟨?_, Artifact.exists_mem_distinct hmem⟩
  rcases hd with rfl | hd
  · simp only [Artifact.isProvided, Artifact.isTest, beq_iff_eq] at hs ⊢
    rw [hs]
    rfl
  · simpa using Graph.keep_of_mem_closure hd

/-! ## Their entries -/

theorem mem_container_of_provided {claims : Claims} {classpath : List Entry} {a : Artifact}
    {e : Entry} (h : e ∈ claims.provided) :
    e ∈ (claims.settle .container classpath a).container ∧
      e ∉ (claims.settle .container classpath a).application ∧
      ∀ q ∈ (claims.settle .container classpath a).plugins, e ∉ q.entries := by
  have happ : e ∉ (claims.settle .container classpath a).application :=
    fun he => (Claims.mem_application.1 he).2 rfl h
  have hplugin : ∀ q ∈ (claims.settle .container classpath a).plugins, e ∉ q.entries := by
    intro q hq he
    obtain ⟨i, hi⟩ := List.mem_iff_getElem?.1 hq
    obtain ⟨_, -, -, hmem⟩ := Claims.mem_plugin hi
    exact ((hmem e).1 he).2.1 rfl h
  refine ⟨Claims.mem_container.2 ⟨.inr h, happ, fun he => ?_⟩, happ, hplugin⟩
  obtain ⟨q, hq, he⟩ := Tiers.mem_pluginEntries.1 he
  exact hplugin q hq he

/-- **Provided code is isolated**: it is found, and its entry belongs to the container alone. -/
theorem provided_isolated {c : Classification} {t : Tiers} {p d : Artifact}
    (h : c.classify = .ok t) (hc : c.configuration.providedPrecedence = .container)
    (hp : p ∈ c.graph.nodes) (hs : p.isProvided = true)
    (hd : d = p ∨ d ∈ c.graph.closure p.identity fun dep => !dep.isTest)
    (hpom : d.isPom = false) :
    ∃ e, c.lookup.locate d = .ok (some e) ∧ e ∈ t.container ∧ e ∉ t.application ∧
      ∀ q ∈ t.plugins, e ∉ q.entries := by
  obtain ⟨a, exclusions, claims, -, -, hclaims, rfl⟩ := classify_eq_ok.1 h
  obtain ⟨-, -, hv⟩ := claims_eq_ok.1 hclaims
  obtain ⟨htest, d', hd', hi⟩ := exists_provided hp hs hd
  -- the declaration that was looked up has an entry
  obtain ⟨entries, hentries, -⟩ := Except.bind_eq_ok.1 hv
  obtain ⟨found, hfound⟩ := locate_of_entriesOf hentries hd'
  obtain ⟨e, rfl⟩ := EntryLookup.exists_entry (by simpa [Artifact.isPom, hi] using hpom) hfound
  -- and `d` has the same one
  have hloc : c.lookup.locate d = .ok (some e) :=
    EntryLookup.locate_congr hi
      (by simp [Artifact.isTestOutput, htest, isTest_providedArtifacts hd']) hfound
  have he : e ∈ claims.provided := (mem_providedClaim hv).2 ⟨d', hd', hfound⟩
  rw [hc]
  exact ⟨e, hloc, mem_container_of_provided he⟩

/-- In the sample `d` is reached from `b`, and is in the container, although it is the artifact of
an extension and the tests lead to it. -/
theorem sample_provided_isolated :
    ∃ t e, sample.classify = .ok t ∧ sample.lookup.locate (sampleJar "d" .compile) = .ok (some e) ∧
      e ∈ t.container ∧ e ∉ t.application ∧ ∀ q ∈ t.plugins, e ∉ q.entries := by
  obtain ⟨t, ht⟩ := sample_classify
  have hd : sampleJar "d" .compile ∈
      sample.graph.closure (sampleJar "b" .provided).identity fun dep => !dep.isTest := by
    have : sample.graph.closure (sampleJar "b" .provided).identity (fun dep => !dep.isTest) =
      [sampleJar "d" .compile] := by cbv
    simp [this]
  obtain ⟨e, he⟩ := provided_isolated ht rfl (p := sampleJar "b" .provided) (by decide) rfl
    (.inr hd) rfl
  exact ⟨t, e, ht, he⟩

end Classification

end TierIsolation
