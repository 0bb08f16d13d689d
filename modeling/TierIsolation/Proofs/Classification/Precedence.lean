import TierIsolation.Proofs.Classification.Provided

/-!
# What the precedence of provided entries decides

`classify_withPrecedence`: one request under the two precedences. Either both classifications end in
the same fault, or the precedence of the container takes the provided entries, and no others, away
from the application and from every plugin tier, and gives them to the container.

The claims of the tiers do not depend on the precedence (`classify_eq_map`). Giving the provided
entries to the container shrinks what earlier tiers have taken as well, but only by provided
entries, which no later tier may keep (`settlePlugins_without`).
-/

namespace TierIsolation

/-- A plugin tier without the entries of a set. -/
def PluginTier.without (provided : EntrySet) (p : PluginTier) : PluginTier :=
  { p with entries := p.entries.filter fun e => e ∉ provided }

theorem Tiers.mem_pluginEntries_without {provided : EntrySet} {plugins : List PluginTier}
    {e : Entry} :
    e ∈ pluginEntries (plugins.map (PluginTier.without provided)) ↔
      e ∈ pluginEntries plugins ∧ e ∉ provided := by
  simp only [mem_pluginEntries, List.mem_map, exists_exists_and_eq_and, PluginTier.without,
    OrderedSet.mem_filter, decide_eq_true_eq]
  constructor
  · rintro ⟨p, hp, he, hnot⟩
    exact ⟨⟨p, hp, he⟩, hnot⟩
  · rintro ⟨⟨p, hp, he⟩, hnot⟩
    exact ⟨p, hp, he, hnot⟩

/-! ## The settlement of claims -/

namespace Claims

variable {c : Claims} {classpath : List Entry} {a : Artifact} {provided taken taken' : EntrySet}

/-- Plugin tiers that claim no provided entries get what they get otherwise, less those. It does
not matter which provided entries count as taken. -/
theorem settlePlugins_without (h : ∀ e, e ∉ provided → (e ∈ taken' ↔ e ∈ taken))
    (ps : List PluginTier) :
    settlePlugins taken' (ps.map (PluginTier.without provided)) =
      (settlePlugins taken ps).map (PluginTier.without provided) := by
  induction ps generalizing taken taken' with
  | nil => rfl
  | cons p rest ih =>
    have hmem (e : Entry) :
        e ∈ (p.without provided).entries.filter (fun e => e ∉ taken') ↔
          e ∈ p.entries ∧ e ∉ provided ∧ e ∉ taken := by
      simp only [PluginTier.without, OrderedSet.mem_filter, decide_eq_true_eq, and_assoc]
      refine and_congr_right fun _ => and_congr_right fun hnot => ?_
      rw [h e hnot]
    have hentries : (p.without provided).entries.filter (fun e => e ∉ taken') =
        (p.entries.filter fun e => e ∉ taken).filter fun e => e ∉ provided := by
      refine OrderedSet.ext fun e => ?_
      rw [hmem]
      simp only [OrderedSet.mem_filter, decide_eq_true_eq]
      tauto
    -- what the tier takes is the same, but for provided entries
    have htaken (e : Entry) (hnot : e ∉ provided) :
        e ∈ taken'.insertMany ((p.without provided).entries.filter fun e => e ∉ taken').toList ↔
          e ∈ taken.insertMany (p.entries.filter fun e => e ∉ taken).toList := by
      simp only [OrderedSet.mem_insertMany, OrderedSet.mem_toList, hmem, h e hnot,
        OrderedSet.mem_filter, decide_eq_true_eq]
      tauto
    simp only [List.map_cons, settlePlugins]
    rw [ih htaken, hentries]
    rfl

theorem application_settle_container :
    (c.settle .container classpath a).application =
      (c.settle .application classpath a).application.filter fun e => e ∉ c.provided := rfl

theorem plugins_settle_container :
    (c.settle .container classpath a).plugins =
      (c.settle .application classpath a).plugins.map (PluginTier.without c.provided) := by
  have happlication : (c.settle .application classpath a).plugins =
      settlePlugins c.application c.plugins := by
    simp only [settle, withoutProvided, List.map_id']
  have hcontainer : (c.settle .container classpath a).plugins =
      settlePlugins (c.application.filter fun e => e ∉ c.provided)
        (c.plugins.map (PluginTier.without c.provided)) := rfl
  rw [happlication, hcontainer]
  refine settlePlugins_without (fun e hnot => ?_) c.plugins
  simp [hnot]

theorem container_settle_container :
    (c.settle .container classpath a).container =
      (c.settle .application classpath a).container.insertMany c.provided.toList := by
  refine OrderedSet.ext fun e => ?_
  rw [mem_container, application_settle_container, plugins_settle_container,
    Tiers.mem_pluginEntries_without, OrderedSet.mem_insertMany, OrderedSet.mem_toList,
    mem_container, OrderedSet.mem_filter, decide_eq_true_eq]
  tauto

end Claims

/-! ## The classification -/

namespace Classification

/-- The same request with another precedence. -/
def withPrecedence (c : Classification) (precedence : Precedence) : Classification :=
  { c with configuration := { c.configuration with providedPrecedence := precedence } }

/-- The entry is that of a provided artifact, or of something it leads to outside the tests. -/
def IsProvided (c : Classification) (e : Entry) : Prop :=
  ∃ p ∈ c.graph.nodes, p.isProvided = true ∧ ∃ d,
    (d = p ∨ d ∈ c.graph.closure p.identity fun dep => !dep.isTest) ∧
      c.lookup.locate d = .ok (some e)

/-- What all tiers claim, before it is settled, with the artifact under test. -/
def demands (c : Classification) : Except Failure (Artifact × Claims) := do
  let some artifactUnderTest := c.graph.artifactUnderTest? | throw .noArtifactUnderTest
  let exclusions ← c.configuration.exclusions.mapError fun found =>
    .configuration (.ofPattern found)
  let claims ← c.claims exclusions
  return (artifactUnderTest, claims)

variable {c : Classification} {e : Entry}

theorem classify_eq_map (c : Classification) :
    c.classify = c.demands.map fun x =>
      x.2.settle c.configuration.providedPrecedence c.classpath x.1 := by
  unfold classify demands
  cases c.graph.artifactUnderTest? with
  | none => rfl
  | some a =>
    cases c.configuration.exclusions with
    | error found => rfl
    | ok exclusions =>
      simp only [Except.mapError, bind, Except.bind]
      cases c.claims exclusions with
      | error fault => rfl
      | ok claims => rfl

theorem demands_withPrecedence (c : Classification) (precedence : Precedence) :
    (c.withPrecedence precedence).demands = c.demands := rfl

/-- Of several declarations of something provided one is looked up, and all have its entry. -/
theorem isProvided_iff : c.IsProvided e ↔ c.IsEntryOf (providedArtifacts c.graph) e := by
  constructor
  · rintro ⟨p, hp, hs, d, hd, hentry⟩
    obtain ⟨htest, d', hd', hi⟩ := exists_provided hp hs hd
    have hout : d.isTestOutput = d'.isTestOutput := by
      simp [Artifact.isTestOutput, htest, isTest_providedArtifacts hd']
    exact ⟨d', hd', EntryLookup.locate_congr hi.symm hout hentry⟩
  · rintro ⟨d, hd, hentry⟩
    obtain ⟨p, hp, hmet⟩ := List.mem_flatMap.1 (Artifact.mem_distinctFrom hd).1
    obtain ⟨hnode, hs⟩ := List.mem_filter.1 hp
    exact ⟨p, hnode, hs, d, List.mem_cons.1 hmet, hentry⟩

theorem mem_provided_of_demands {a : Artifact} {claims : Claims}
    (h : c.demands = .ok (a, claims)) : e ∈ claims.provided ↔ c.IsProvided e := by
  unfold demands at h
  cases hunder : c.graph.artifactUnderTest? with
  | none =>
    rw [hunder] at h
    cases h
  | some under =>
    simp only [hunder, Except.bind_eq_ok, Except.pure_eq_ok, Prod.mk.injEq] at h
    obtain ⟨exclusions, -, found, hclaims, -, rfl⟩ := h
    obtain ⟨-, -, hprovided⟩ := claims_eq_ok.1 hclaims
    rw [mem_providedClaim hprovided, isProvided_iff]

/-- **The precedence moves the provided entries**, and nothing else. -/
theorem classify_withPrecedence (c : Classification) :
    (∃ fault, (c.withPrecedence .container).classify = .error fault ∧
      (c.withPrecedence .application).classify = .error fault) ∨
    ∃ t u provided, (c.withPrecedence .container).classify = .ok t ∧
      (c.withPrecedence .application).classify = .ok u ∧
      (∀ e, e ∈ provided ↔ c.IsProvided e) ∧
      t.artifactUnderTest = u.artifactUnderTest ∧
      t.application = u.application.filter (fun e => e ∉ provided) ∧
      t.plugins = u.plugins.map (PluginTier.without provided) ∧
      t.container = u.container.insertMany provided.toList := by
  rw [classify_eq_map, classify_eq_map, demands_withPrecedence, demands_withPrecedence]
  cases hdemands : c.demands with
  | error fault => exact .inl ⟨fault, rfl, rfl⟩
  | ok x =>
    obtain ⟨a, claims⟩ := x
    refine .inr ⟨claims.settle .container c.classpath a, claims.settle .application c.classpath a,
      claims.provided, rfl, rfl, fun e => mem_provided_of_demands hdemands, rfl, ?_, ?_, ?_⟩
    · exact Claims.application_settle_container
    · exact Claims.plugins_settle_container
    · exact Claims.container_settle_container

end Classification

end TierIsolation
