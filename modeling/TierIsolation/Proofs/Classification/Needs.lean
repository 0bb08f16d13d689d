import TierIsolation.Proofs.Classification.Claims

/-!
# What a classification fails for

`Classification.fails_first`: a classification succeeds exactly if there is an artifact to test, the
patterns are well formed and select something, and everything that is collected for a tier has an
entry. Otherwise it fails with the first fault, in the order of `Classification.needs`. Nothing else
on the class path or in the graph makes it fail.

A classification is put together from look-ups and other parts that may fail. Each part has one
lemma, by which it fails with the fault of its first need that is not met (`fault?_entriesOf`,
`fault?_extensionClaim` and so on).
-/

namespace TierIsolation.Classification

variable (c : Classification)

/-! ## Needs -/

/-- The artifacts that an extension selects. -/
def selected (x : Extension) : List Artifact :=
  match CoordinateMatcher.parse x.artifact.toList with
  | .ok matcher => c.graph.nodes.filter matcher.accepts
  | .error _ => []

/-- What has to be there for a classification. -/
inductive Need
  | artifactUnderTest
  /-- The patterns of what is excluded from the application. -/
  | exclusions
  /-- The entry of an artifact. -/
  | entry (a : Artifact)
  /-- The patterns of an extension. -/
  | patterns (x : Extension)
  /-- An artifact that an extension selects. -/
  | selection (x : Extension)

/-- What is wrong, if the need is not met. -/
def Need.fault? : Need → Option Failure
  | artifactUnderTest =>
    if c.graph.nodes.any (·.isCompile) then none else some .noArtifactUnderTest
  | exclusions => c.configuration.exclusions.fault?.map fun found =>
    .configuration (.ofPattern found)
  | entry a => (c.lookup.locate a).fault?.map .notLocated
  | patterns x => (CoordinateMatcher.parse x.artifact.toList).fault?.map fun found =>
    .configuration (.ofPattern found)
  | selection x =>
    if (c.selected x).isEmpty then some (.notLocated (.noMatch x.artifact x.name)) else none

/-- The artifacts collected for the application. -/
def applicationCollection : List Artifact :=
  match c.configuration.exclusions with
  | .ok exclusions => applicationArtifacts c.graph exclusions
  | .error _ => []

/-- Its patterns come before what they select, and that before what is collected from there. -/
def extensionNeeds (x : Extension) : List Need :=
  .patterns x :: .selection x :: (compileClosure c.graph (c.selected x)).map .entry

def pluginNeeds : List Need :=
  match c.configuration.pluginSpace with
  | .disabled => []
  | .allCompile =>
    (compileClosure c.graph (c.graph.nodes.filter (·.isCompile))).map .entry
  | .extensions => c.configuration.extensions.flatMap c.extensionNeeds

/-- All that a classification needs, in the order in which it is asked for. -/
def needs : List Need :=
  [.artifactUnderTest, .exclusions] ++
    (c.applicationCollection.map .entry ++
      (c.pluginNeeds ++ (providedArtifacts c.graph).map .entry))

/-- The artifacts collected for the plugins. -/
def pluginCollection : List Artifact :=
  match c.configuration.pluginSpace with
  | .disabled => []
  | .allCompile => compileClosure c.graph (c.graph.nodes.filter (·.isCompile))
  | .extensions =>
    c.configuration.extensions.flatMap fun x => compileClosure c.graph (c.selected x)

/-- The artifacts whose entries are looked for. -/
def collected : List Artifact :=
  c.applicationCollection ++ (c.pluginCollection ++ providedArtifacts c.graph)

section Needs

variable {c}

theorem forall_mem_pluginNeeds {p : Need → Prop} :
    (∀ n ∈ c.pluginNeeds, p n) ↔
      (c.configuration.pluginSpace = .extensions →
        ∀ x ∈ c.configuration.extensions, p (.patterns x) ∧ p (.selection x)) ∧
      ∀ a ∈ c.pluginCollection, p (.entry a) := by
  rw [pluginNeeds, pluginCollection]
  cases c.configuration.pluginSpace with
  | disabled => simp
  | allCompile => simp
  | extensions =>
    simp only [extensionNeeds, List.forall_mem_flatMap, List.forall_mem_cons, List.forall_mem_map]
    grind

/-- Something holds of all needs. -/
theorem forall_mem_needs {p : Need → Prop} :
    (∀ n ∈ c.needs, p n) ↔
      p .artifactUnderTest ∧ p .exclusions ∧
      (c.configuration.pluginSpace = .extensions →
        ∀ x ∈ c.configuration.extensions, p (.patterns x) ∧ p (.selection x)) ∧
      ∀ a ∈ c.collected, p (.entry a) := by
  simp only [needs, collected, List.forall_mem_append, forall_mem_pluginNeeds, List.forall_mem_map,
    List.forall_mem_cons]
  grind

end Needs

/-! ## Faults -/

theorem fault?_entriesOf (artifacts : List Artifact) :
    (c.entriesOf artifacts).fault? = (artifacts.map Need.entry).findSome? (Need.fault? c) := by
  rw [entriesOf, Except.fault?_mapError, EntryLookup.fault?_locateAll, List.map_findSome?,
    List.findSome?_map]
  rfl

theorem fault?_applicationClaim (exclusions : CoordinateMatcher) :
    (c.applicationClaim exclusions).fault? =
      ((applicationArtifacts c.graph exclusions).map Need.entry).findSome? (Need.fault? c) := by
  rw [applicationClaim, Except.fault?_bind fun _ _ => Except.fault?_pure _, Option.or_none,
    fault?_entriesOf]

theorem fault?_providedClaim :
    c.providedClaim.fault? =
      ((providedArtifacts c.graph).map Need.entry).findSome? (Need.fault? c) := by
  rw [providedClaim, Except.fault?_bind fun _ _ => Except.fault?_pure _, Option.or_none,
    fault?_entriesOf]

theorem fault?_extensionClaim (x : Extension) :
    (c.extensionClaim x).fault? = (c.extensionNeeds x).findSome? (Need.fault? c) := by
  rw [extensionNeeds, List.findSome?_cons, List.findSome?_cons, ← fault?_entriesOf, Need.fault?,
    Need.fault?, selected, extensionClaim]
  cases CoordinateMatcher.parse x.artifact.toList with
  | error found => rfl
  | ok matcher =>
    change Except.fault? (ite _ _ _) = _
    split
    · rfl
    · rw [Except.fault?_bind fun _ _ => Except.fault?_pure _, Option.or_none]
      rfl

theorem findSome?_flatMap {α β γ : Type} (xs : List α) (f : α → List β) (p : β → Option γ) :
    (xs.flatMap f).findSome? p = xs.findSome? fun x => (f x).findSome? p := by
  rw [← List.head?_filterMap, List.filterMap_flatMap, List.head?_flatMap]
  simp only [List.head?_filterMap]

theorem fault?_pluginClaims :
    c.pluginClaims.fault? = c.pluginNeeds.findSome? (Need.fault? c) := by
  cases hspace : c.configuration.pluginSpace with
  | disabled =>
    simp only [pluginClaims, pluginNeeds, hspace]
    rfl
  | allCompile =>
    simp only [pluginClaims, pluginNeeds, hspace]
    rw [Except.fault?_bind fun _ _ => Except.fault?_pure _, Option.or_none, fault?_entriesOf]
  | extensions =>
    simp only [pluginClaims, pluginNeeds, hspace]
    rw [Except.fault?_mapM, findSome?_flatMap]
    simp only [fault?_extensionClaim]

theorem fault?_claims (exclusions : CoordinateMatcher) :
    (c.claims exclusions).fault? = (c.applicationClaim exclusions).fault?.or
      (c.pluginClaims.fault?.or c.providedClaim.fault?) := by
  have hprovided (application : EntrySet) (plugins : List PluginTier) :
      (c.providedClaim >>= fun provided =>
        pure ({ application, plugins, provided } : Claims)).fault? = c.providedClaim.fault? := by
    rw [Except.fault?_bind fun _ _ => Except.fault?_pure _, Option.or_none]
  rw [Classification.claims, Except.fault?_bind fun application _ =>
    Except.fault?_bind fun plugins _ => hprovided application plugins]

theorem any_isCompile (g : Graph) :
    g.nodes.any (·.isCompile) = g.artifactUnderTest?.isSome := by
  rw [Graph.artifactUnderTest?, Bool.eq_iff_iff, List.any_eq_true, List.find?_isSome]

/-- A classification fails with the fault of its first need that is not met. -/
theorem fault?_classify : c.classify.fault? = c.needs.findSome? (Need.fault? c) := by
  rw [needs, List.findSome?_append, List.findSome?_append, List.findSome?_append,
    ← fault?_pluginClaims, ← fault?_providedClaim, List.findSome?_cons, List.findSome?_cons,
    Need.fault?, Need.fault?, any_isCompile, applicationCollection, classify]
  cases c.graph.artifactUnderTest? with
  | none => rfl
  | some a =>
    cases c.configuration.exclusions with
    | error found => rfl
    | ok exclusions =>
      change Except.fault? (c.claims exclusions >>= _) = _
      rw [Except.fault?_bind fun _ _ => Except.fault?_pure _, Option.or_none, fault?_claims,
        fault?_applicationClaim]
      rfl

/-! ## The result -/

section Met

variable {c}

theorem exists_classify_iff :
    (∃ t, c.classify = .ok t) ↔ ∀ n ∈ c.needs, n.fault? c = none := by
  rw [← Except.fault?_eq_none, fault?_classify, List.findSome?_eq_none_iff]

theorem fault?_entry_eq_none {a : Artifact} :
    Need.fault? c (.entry a) = none ↔
      (a.isPom = false → ∃ e, c.lookup.locate a = .ok (some e)) := by
  rw [Need.fault?, Option.map_eq_none_iff, Except.fault?_eq_none]
  constructor
  · rintro ⟨found, hfound⟩ hpom
    obtain ⟨e, rfl⟩ := EntryLookup.exists_entry hpom hfound
    exact ⟨e, hfound⟩
  · intro h
    cases hpom : a.isPom with
    | true => exact ⟨none, EntryLookup.locate_pom hpom⟩
    | false =>
      obtain ⟨e, he⟩ := h hpom
      exact ⟨some e, he⟩

theorem fault?_patterns_selection_eq_none {x : Extension} :
    Need.fault? c (.patterns x) = none ∧ Need.fault? c (.selection x) = none ↔
      ∃ matcher, CoordinateMatcher.parse x.artifact.toList = .ok matcher ∧
        ∃ a ∈ c.graph.nodes, matcher.accepts a = true := by
  rw [Need.fault?, Need.fault?, selected]
  cases CoordinateMatcher.parse x.artifact.toList with
  | error found => simp
  | ok matcher => simp

end Met

/-- **A classification fails for what it needs, and for nothing else.** It succeeds exactly if there
is an artifact to test, the patterns are well formed and select something, and every artifact that
is collected has an entry or carries no code. Otherwise the fault is that of the first need that is
not met; artifacts that are not collected have no part in it. -/
theorem fails_first (c : Classification) :
    ((∃ t, c.classify = .ok t) ↔
      (∃ a ∈ c.graph.nodes, a.isCompile = true) ∧
      (∃ exclusions, c.configuration.exclusions = .ok exclusions) ∧
      (c.configuration.pluginSpace = .extensions → ∀ x ∈ c.configuration.extensions,
        ∃ matcher, CoordinateMatcher.parse x.artifact.toList = .ok matcher ∧
          ∃ a ∈ c.graph.nodes, matcher.accepts a = true) ∧
      ∀ a ∈ c.collected, a.isPom = false → ∃ e, c.lookup.locate a = .ok (some e)) ∧
    (∀ fault, c.classify = .error fault ↔ c.needs.findSome? (Need.fault? c) = some fault) ∧
    ∀ d : Classification, d.configuration = c.configuration → d.graph = c.graph →
      (∀ a ∈ c.collected, d.lookup.locate a = c.lookup.locate a) →
      ∀ fault, d.classify = .error fault ↔ c.classify = .error fault := by
  refine ⟨?_, fun fault => ?_, ?_⟩
  · rw [exists_classify_iff, forall_mem_needs]
    refine and_congr ?_ (and_congr ?_ (and_congr ?_ ?_))
    · simp [Need.fault?]
    · rw [Need.fault?, Option.map_eq_none_iff, Except.fault?_eq_none]
    · simp only [fault?_patterns_selection_eq_none]
    · simp only [fault?_entry_eq_none]
  · rw [← Except.fault?_eq_some, fault?_classify]
  · rintro ⟨configuration, classpath, graph, folders⟩ rfl rfl hlocate fault
    let d : Classification := ⟨c.configuration, classpath, c.graph, folders⟩
    have hneeds : d.needs = c.needs := rfl
    have hfault : ∀ n ∈ c.needs, n.fault? d = n.fault? c :=
      forall_mem_needs.2 ⟨rfl, rfl, fun _ x _ => ⟨rfl, rfl⟩, fun a ha => by
        rw [Need.fault?, Need.fault?, hlocate a ha]⟩
    rw [← Except.fault?_eq_some, ← Except.fault?_eq_some, fault?_classify, fault?_classify, hneeds,
      ← List.head?_filterMap, ← List.head?_filterMap, List.filterMap_congr hfault]

/-- Nothing of the sample has a place here, and its application comes first. -/
example : { sample with classpath := [] }.classify.fault? =
    some (.notLocated (.noModuleFolder (sampleJar "c" .test) .none)) := by cbv

end TierIsolation.Classification
