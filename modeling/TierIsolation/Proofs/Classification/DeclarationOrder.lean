import TierIsolation.Proofs.Classification.Provided
import TierIsolation.Proofs.Graph.Alike

/-!
# The order of declarations does not matter

`classify_statements`: if no artifact is mentioned with two scopes, the same statements in another
order lead to the same tiers. Only the artifact under test may be another one, as it is the first of
its kind.

Graphs that are alike bring the same artifacts along, in some order and with some versions
(`applicationArtifacts_covered` and the like); neither matters to the entries that are found for
them (`exists_entriesOf`). So all claims are equal, and they settle to the same tiers.
-/

namespace TierIsolation.Classification

open EntryLookup

/-- The same request with another graph. -/
def withGraph (c : Classification) (g : Graph) : Classification := { c with graph := g }

variable {c : Classification} {g k : Graph} {xs ys : List Artifact} {a b : Artifact} {e : Entry}

/-! ## Entries -/

theorem locate_of_role {found : Option Entry} (hrole : b.role = a.role)
    (h : c.lookup.locate b = .ok found) : c.lookup.locate a = .ok found := by
  obtain ⟨hi, hs⟩ := Artifact.role_eq_iff.1 hrole
  have hout : b.isTestOutput = a.isTestOutput := by
    simp [Artifact.isTestOutput, Artifact.isTest, hi, hs]
  exact locate_congr hi hout h

theorem IsEntryOf.covered (h : Artifact.Covered xs ys) (he : c.IsEntryOf xs e) :
    c.IsEntryOf ys e := by
  obtain ⟨a, ha, hentry⟩ := he
  obtain ⟨b, hb, hrole⟩ := h a ha
  exact ⟨b, hb, locate_of_role hrole.symm hentry⟩

/-- Artifacts that are the same but for order and versions have the same entries. -/
theorem exists_entriesOf (hxy : Artifact.Covered xs ys) (hyx : Artifact.Covered ys xs)
    {entries : List Entry} (h : c.entriesOf xs = .ok entries) :
    ∃ others, c.entriesOf ys = .ok others ∧ ∀ e, e ∈ others ↔ e ∈ entries := by
  have hlocate : ∀ b ∈ ys, ∃ found, c.lookup.locate b = .ok found := by
    intro b hb
    obtain ⟨a, ha, hrole⟩ := hyx b hb
    obtain ⟨found, hfound⟩ := locate_of_entriesOf h ha
    exact ⟨found, locate_of_role hrole hfound⟩
  obtain ⟨others, hothers⟩ := exists_locateAll_iff.2 hlocate
  have hys : c.entriesOf ys = .ok others := Except.mapError_eq_ok.2 hothers
  refine ⟨others, hys, fun e => ?_⟩
  rw [mem_entriesOf h, mem_entriesOf hys]
  exact ⟨.covered hyx, .covered hxy⟩

/-! ## Artifacts -/

/-- Artifacts that are brought along by others, in two graphs that are alike. -/
theorem distinct_flatMap_covered (h : g.Alike k) {f f' : Artifact → List Artifact}
    (hxy : Artifact.Covered xs ys) (hf : ∀ a b, b.role = a.role → Artifact.Covered (f a) (f' b))
    (hdeclared : ∀ b ∈ ys, f' b ⊆ k.declarations) :
    Artifact.Covered (Artifact.distinct (xs.flatMap f)) (Artifact.distinct (ys.flatMap f')) := by
  refine (hxy.flatMap hf).distinct (h.right.subset fun d hd => ?_)
  obtain ⟨b, hb, hd⟩ := List.mem_flatMap.1 hd
  exact hdeclared b hb hd

/-- An artifact of a graph is declared there, and so is its closure. -/
theorem cons_closure_subset {keep : Artifact → Bool} (hb : b ∈ k.nodes) :
    b :: k.closure b.identity keep ⊆ k.declarations :=
  List.cons_subset.2 ⟨List.mem_append_left _ hb, Graph.closure_subset⟩

theorem cons_closure_covered (h : g.Alike k) {keep : Artifact → Bool}
    (hkeep : Artifact.ByRole keep) (hrole : b.role = a.role) :
    Artifact.Covered (a :: g.closure a.identity keep) (b :: k.closure b.identity keep) := by
  rw [(Artifact.role_eq_iff.1 hrole).1]
  exact (h.closure hkeep a.identity).cons hrole

theorem compileClosure_covered (h : g.Alike k) (hxy : Artifact.Covered xs ys)
    (hys : ys ⊆ k.nodes) :
    Artifact.Covered (compileClosure g xs) (compileClosure k ys) := by
  refine distinct_flatMap_covered h hxy (fun a b hrole => ?_) fun b hb => ?_
  · exact cons_closure_covered h Artifact.byRole_isCompile hrole
  · exact cons_closure_subset (hys hb)

theorem providedArtifacts_covered (h : g.Alike k) :
    Artifact.Covered (providedArtifacts g) (providedArtifacts k) := by
  have hprovided := h.covered.nodes.filter Artifact.byRole_isProvided
  refine distinct_flatMap_covered h hprovided (fun a b hrole => ?_) fun b hb => ?_
  · exact cons_closure_covered h Artifact.byRole_isTest.not hrole
  · exact cons_closure_subset (List.mem_filter.1 hb).1

theorem applicationArtifacts_covered (h : g.Alike k) (exclusions : CoordinateMatcher) :
    Artifact.Covered (applicationArtifacts g exclusions) (applicationArtifacts k exclusions) := by
  have haccepts := (Artifact.byRole_accepts exclusions).not
  refine distinct_flatMap_covered h h.covered.nodes (fun a b hrole => ?_) fun b hb => ?_
  · rw [Artifact.byRole_isTest b a hrole, Artifact.byRole_isCompile b a hrole,
      Artifact.byRole_accepts exclusions b a hrole]
    split
    · exact cons_closure_covered h haccepts hrole
    · split
      · rw [(Artifact.role_eq_iff.1 hrole).1]
        exact h.closure (Artifact.byRole_isTest.and haccepts) a.identity
      · exact fun d hd => absurd hd List.not_mem_nil
  · split
    · exact cons_closure_subset hb
    · split
      · exact Graph.closure_subset
      · exact List.nil_subset _

/-! ## Claims -/

section Claims

variable (h : g.Alike k)
include h

theorem applicationClaim_alike {exclusions : CoordinateMatcher} {s : EntrySet}
    (hs : (c.withGraph g).applicationClaim exclusions = .ok s) :
    (c.withGraph k).applicationClaim exclusions = .ok s := by
  simp only [applicationClaim, Except.bind_eq_ok, Except.pure_eq_ok] at hs ⊢
  obtain ⟨entries, hentries, rfl⟩ := hs
  obtain ⟨others, hothers, hmem⟩ := exists_entriesOf (c := c)
    (applicationArtifacts_covered h exclusions) (applicationArtifacts_covered h.symm exclusions)
    hentries
  refine ⟨others, hothers, OrderedSet.ext fun e => ?_⟩
  simp only [OrderedSet.mem_ofList, List.mem_append, hmem, withGraph]

theorem providedClaim_alike {s : EntrySet} (hs : (c.withGraph g).providedClaim = .ok s) :
    (c.withGraph k).providedClaim = .ok s := by
  simp only [providedClaim, Except.bind_eq_ok, Except.pure_eq_ok] at hs ⊢
  obtain ⟨entries, hentries, rfl⟩ := hs
  obtain ⟨others, hothers, hmem⟩ := exists_entriesOf (c := c)
    (providedArtifacts_covered h) (providedArtifacts_covered h.symm) hentries
  refine ⟨others, hothers, OrderedSet.ext fun e => ?_⟩
  simp only [OrderedSet.mem_ofList, hmem]

/-- The entries of selected artifacts with their compile closure. -/
theorem exists_entriesOf_compileClosure {keep : Artifact → Bool} (hkeep : Artifact.ByRole keep)
    {entries : List Entry}
    (hentries : c.entriesOf (compileClosure g (g.nodes.filter keep)) = .ok entries) :
    ∃ others, c.entriesOf (compileClosure k (k.nodes.filter keep)) = .ok others ∧
      ∀ e, e ∈ others ↔ e ∈ entries :=
  exists_entriesOf
    (compileClosure_covered h (h.covered.nodes.filter hkeep) (List.filter_subset_self _))
    (compileClosure_covered h.symm (h.covers.nodes.filter hkeep) (List.filter_subset_self _))
    hentries

theorem extensionClaim_alike {x : Extension} {p : PluginTier}
    (hp : (c.withGraph g).extensionClaim x = .ok p) :
    (c.withGraph k).extensionClaim x = .ok p := by
  rw [extensionClaim_eq_ok] at hp ⊢
  obtain ⟨matcher, hmatcher, hseeds, entries, hentries, rfl⟩ := hp
  have hkeep := Artifact.byRole_accepts matcher
  obtain ⟨others, hothers, hmem⟩ := exists_entriesOf_compileClosure (c := c) h hkeep hentries
  obtain ⟨seed, hseed⟩ := List.exists_mem_of_ne_nil _ hseeds
  obtain ⟨seed', hseed', -⟩ := h.covered.nodes.filter hkeep seed hseed
  refine ⟨matcher, hmatcher, List.ne_nil_of_mem hseed', others, hothers, ?_⟩
  rw [PluginTier.mk.injEq]
  refine ⟨rfl, OrderedSet.ext fun e => ?_⟩
  simp only [OrderedSet.mem_ofList, List.mem_append, hmem]

theorem pluginClaims_alike {plugins : List PluginTier}
    (hp : (c.withGraph g).pluginClaims = .ok plugins) :
    (c.withGraph k).pluginClaims = .ok plugins := by
  unfold pluginClaims at hp ⊢
  simp only [withGraph] at hp ⊢
  cases hspace : c.configuration.pluginSpace with
  | disabled => simpa only [hspace] using hp
  | allCompile =>
    simp only [hspace, Except.bind_eq_ok, Except.pure_eq_ok] at hp ⊢
    obtain ⟨entries, hentries, rfl⟩ := hp
    obtain ⟨others, hothers, hmem⟩ :=
      exists_entriesOf_compileClosure (c := c) h Artifact.byRole_isCompile hentries
    refine ⟨others, hothers, ?_⟩
    have hset : OrderedSet.ofList others = OrderedSet.ofList entries :=
      OrderedSet.ext fun e => by simp only [OrderedSet.mem_ofList, hmem]
    rw [hset]
  | extensions =>
    simp only [hspace] at hp ⊢
    rw [Except.mapM_eq_ok] at hp ⊢
    exact hp.imp fun x p hx => extensionClaim_alike h hx

theorem claims_alike {exclusions : CoordinateMatcher} {claims : Claims}
    (hc : (c.withGraph g).claims exclusions = .ok claims) :
    (c.withGraph k).claims exclusions = .ok claims := by
  obtain ⟨happlication, hplugins, hprovided⟩ := claims_eq_ok.1 hc
  exact claims_eq_ok.2 ⟨applicationClaim_alike h happlication, pluginClaims_alike h hplugins,
    providedClaim_alike h hprovided⟩

theorem exists_artifactUnderTest (ha : g.artifactUnderTest? = some a) :
    ∃ b, k.artifactUnderTest? = some b := by
  obtain ⟨b, hb, hrole⟩ := h.covered.nodes a (List.mem_of_find?_eq_some ha)
  have hcompile : b.isCompile = true :=
    (Artifact.byRole_isCompile b a hrole).trans (List.find?_some ha)
  exact Option.isSome_iff_exists.1 (List.find?_isSome.2 ⟨b, hb, hcompile⟩)

/-- Graphs that are alike lead to the same tiers. -/
theorem classify_alike {t : Tiers} (ht : (c.withGraph g).classify = .ok t) :
    ∃ u, (c.withGraph k).classify = .ok u ∧ u.container = t.container ∧ u.plugins = t.plugins ∧
      u.application = t.application := by
  obtain ⟨a, exclusions, claims, ha, hx, hclaims, rfl⟩ := classify_eq_ok.1 ht
  obtain ⟨b, hb⟩ := exists_artifactUnderTest h ha
  exact ⟨_, classify_eq_ok.2 ⟨b, exclusions, claims, hb, hx, claims_alike h hclaims, rfl⟩,
    rfl, rfl, rfl⟩

end Claims

/-! ## Statements -/

/-- **The order of declarations does not matter** to the tiers, if no artifact is mentioned with two
scopes. -/
theorem classify_statements (c : Classification) (ss ts : List Graph.Statement)
    (hsame : ∀ s, s ∈ ss ↔ s ∈ ts)
    (hscopes : Artifact.Consistent (ss.flatMap Graph.Statement.mentions)) :
    ((∃ t, (c.withGraph (.ofStatements ss)).classify = .ok t) ↔
      ∃ u, (c.withGraph (.ofStatements ts)).classify = .ok u) ∧
    ∀ t u, (c.withGraph (.ofStatements ss)).classify = .ok t →
      (c.withGraph (.ofStatements ts)).classify = .ok u →
      t.container = u.container ∧ t.plugins = u.plugins ∧ t.application = u.application := by
  have halike := Graph.alike_ofStatements hsame hscopes
  refine ⟨⟨?_, ?_⟩, fun t u ht hu => ?_⟩
  · rintro ⟨t, ht⟩
    obtain ⟨u, hu, -⟩ := classify_alike halike ht
    exact ⟨u, hu⟩
  · rintro ⟨u, hu⟩
    obtain ⟨t, ht, -⟩ := classify_alike halike.symm hu
    exact ⟨t, ht⟩
  · obtain ⟨u', hu', hcontainer, hplugins, happlication⟩ := classify_alike halike ht
    obtain rfl := Except.ok.inj (hu.symm.trans hu')
    exact ⟨hcontainer.symm, hplugins.symm, happlication.symm⟩

/-- The tests in `c` and the module `a` both lead to `d`, which is also provided along with `b`. -/
def sampleStatements : List Graph.Statement := [
  .declaration (sampleJar "a" .compile),
  .dependency (sampleJar "a" .compile) (sampleJar "d" .compile),
  .dependency (sampleJar "c" .test) (sampleJar "b" .provided),
  .dependency (sampleJar "b" .provided) (sampleJar "d" .compile)]

/-- The sample with the statements as its graph, and all that is compiled as its plugin. -/
def stated : Classification :=
  { sample with
    configuration := { pluginSpace := .allCompile }
    graph := .ofStatements sampleStatements }

theorem stated_application :
    applicationArtifacts stated.graph {} =
      [sampleJar "c" .test, sampleJar "b" .provided, sampleJar "d" .compile] := by cbv

theorem stated_provided :
    providedArtifacts stated.graph = [sampleJar "b" .provided, sampleJar "d" .compile] := by cbv

theorem stated_closure :
    compileClosure stated.graph (stated.graph.nodes.filter (·.isCompile)) =
      [sampleJar "a" .compile, sampleJar "d" .compile] := by cbv

theorem stated_classify : ∃ t, stated.classify = .ok t := by
  obtain ⟨application, ha⟩ : ∃ s, stated.applicationClaim {} = .ok s := by
    rw [applicationClaim, stated_application]
    exact ⟨_, rfl⟩
  obtain ⟨provided, hv⟩ : ∃ s, stated.providedClaim = .ok s := by
    rw [providedClaim, stated_provided]
    exact ⟨_, rfl⟩
  obtain ⟨plugins, hp⟩ : ∃ s, stated.pluginClaims = .ok s := by
    rw [pluginClaims, show stated.configuration.pluginSpace = .allCompile from rfl]
    simp only [stated_closure]
    exact ⟨_, rfl⟩
  exact ⟨_, classify_eq_ok.2 ⟨_, _, ⟨application, plugins, provided⟩, rfl, rfl,
    claims_eq_ok.2 ⟨ha, hp, hv⟩, rfl⟩⟩

/-- Read from the last statement to the first, the tests come before `a` and reach `d` by another
way. -/
theorem stated_reversed :
    ∃ t u, (stated.withGraph (.ofStatements sampleStatements)).classify = .ok t ∧
      (stated.withGraph (.ofStatements sampleStatements.reverse)).classify = .ok u ∧
      t.container = u.container ∧ t.plugins = u.plugins ∧ t.application = u.application := by
  obtain ⟨hsuccess, hequal⟩ := classify_statements stated sampleStatements
    sampleStatements.reverse (fun s => List.mem_reverse.symm) (by decide)
  obtain ⟨t, ht⟩ := stated_classify
  obtain ⟨u, hu⟩ := hsuccess.1 ⟨t, ht⟩
  exact ⟨t, u, ht, hu, hequal t u ht hu⟩

end TierIsolation.Classification
