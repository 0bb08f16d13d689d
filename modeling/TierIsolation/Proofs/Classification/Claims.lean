import TierIsolation.Classification
import TierIsolation.Proofs.EntryLookup
import TierIsolation.Proofs.Success

/-!
# What the tiers of a classification claim

* `classify_eq_ok`: a classification that succeeds settles claims made from its graph.
* `mem_applicationClaim`, `mem_providedClaim`, `mem_extensionClaim`: the members of each claim, by
  the artifacts whose entries they are.
* `mem_pluginClaims`: what plugin tiers claim is on the class path, or is the metadata of an
  extension.
-/

namespace TierIsolation.Classification

open EntryLookup

variable {c : Classification} {exclusions : CoordinateMatcher} {e : Entry}

/-- The entry is the metadata location of an extension that becomes a plugin tier. -/
def IsMetadata (c : Classification) (e : Entry) : Prop :=
  c.configuration.pluginSpace = .extensions ∧
    ∃ x ∈ c.configuration.extensions, ∃ m, x.metadataLocation = some m ∧ e = Entry.ofText m

/-- The entry was found for one of the artifacts. -/
def IsEntryOf (c : Classification) (artifacts : List Artifact) (e : Entry) : Prop :=
  ∃ a ∈ artifacts, c.lookup.locate a = .ok (some e)

theorem IsEntryOf.mem_classpath {artifacts : List Artifact} (h : c.IsEntryOf artifacts e) :
    e ∈ c.classpath := by
  obtain ⟨a, -, ha⟩ := h
  exact EntryLookup.mem_classpath ha

/-! ## Success -/

theorem classify_eq_ok {t : Tiers} :
    c.classify = .ok t ↔
      ∃ a exclusions claims, c.graph.artifactUnderTest? = some a ∧
        c.configuration.exclusions = .ok exclusions ∧ c.claims exclusions = .ok claims ∧
        claims.settle c.configuration.providedPrecedence c.classpath a = t := by
  unfold classify
  cases ha : c.graph.artifactUnderTest? with
  | none => simp [Except.throw_ne_ok]
  | some a =>
    simp only [Except.bind_eq_ok, Except.mapError_eq_ok, Except.pure_eq_ok, Option.some.injEq]
    constructor
    · rintro ⟨x, hx, claims, hc, rfl⟩
      exact ⟨a, x, claims, rfl, hx, hc, rfl⟩
    · rintro ⟨_, x, claims, rfl, hx, hc, rfl⟩
      exact ⟨x, hx, claims, hc, rfl⟩

theorem claims_eq_ok {claims : Claims} :
    c.claims exclusions = .ok claims ↔
      c.applicationClaim exclusions = .ok claims.application ∧
        c.pluginClaims = .ok claims.plugins ∧ c.providedClaim = .ok claims.provided := by
  simp only [Classification.claims, Except.bind_eq_ok, Except.pure_eq_ok]
  constructor
  · rintro ⟨application, ha, plugins, hp, provided, hv, rfl⟩
    exact ⟨ha, hp, hv⟩
  · rintro ⟨ha, hp, hv⟩
    exact ⟨_, ha, _, hp, _, hv, rfl⟩

theorem mem_entriesOf {artifacts : List Artifact} {entries : List Entry}
    (h : c.entriesOf artifacts = .ok entries) : e ∈ entries ↔ c.IsEntryOf artifacts e :=
  mem_locateAll (Except.mapError_eq_ok.1 h)

/-- Artifacts whose entries were found all have a place, or are without code. -/
theorem locate_of_entriesOf {artifacts : List Artifact} {entries : List Entry} {a : Artifact}
    (h : c.entriesOf artifacts = .ok entries) (ha : a ∈ artifacts) :
    ∃ found, c.lookup.locate a = .ok found :=
  exists_locateAll_iff.1 ⟨entries, Except.mapError_eq_ok.1 h⟩ a ha

/-! ## Members -/

theorem mem_applicationClaim {s : EntrySet} (h : c.applicationClaim exclusions = .ok s) :
    e ∈ s ↔ c.IsEntryOf (applicationArtifacts c.graph exclusions) e ∨
      e ∈ c.classpath ∧ e.location = c.configuration.testOutput := by
  simp only [applicationClaim, Except.bind_eq_ok, Except.pure_eq_ok] at h
  obtain ⟨entries, he, rfl⟩ := h
  simp [mem_entriesOf he]

theorem mem_providedClaim {s : EntrySet} (h : c.providedClaim = .ok s) :
    e ∈ s ↔ c.IsEntryOf (providedArtifacts c.graph) e := by
  simp only [providedClaim, Except.bind_eq_ok, Except.pure_eq_ok] at h
  obtain ⟨entries, he, rfl⟩ := h
  simp [mem_entriesOf he]

theorem extensionClaim_eq_ok {x : Extension} {p : PluginTier} :
    c.extensionClaim x = .ok p ↔
      ∃ matcher, CoordinateMatcher.parse x.artifact.toList = .ok matcher ∧
        c.graph.nodes.filter matcher.accepts ≠ [] ∧
        ∃ entries, c.entriesOf (compileClosure c.graph (c.graph.nodes.filter matcher.accepts)) =
            .ok entries ∧
          ⟨x.name, .ofList (entries ++ (x.metadataLocation.map Entry.ofText).toList)⟩ = p := by
  simp only [extensionClaim, Except.bind_eq_ok, Except.mapError_eq_ok]
  refine exists_congr fun matcher => and_congr_right fun _ => ?_
  cases hs : c.graph.nodes.filter matcher.accepts with
  | nil =>
    simp only [List.isEmpty_nil, if_true, Except.bind_eq_ok, Except.throw_ne_ok, false_and,
      exists_false, ne_eq, not_true_eq_false]
  | cons a rest =>
    simp only [List.isEmpty_cons, Bool.false_eq_true, if_false, Except.bind_eq_ok,
      Except.pure_eq_ok, ne_eq, reduceCtorEq, not_false_eq_true, true_and]

theorem mem_extensionClaim {x : Extension} {p : PluginTier} (h : c.extensionClaim x = .ok p) :
    p.name = x.name ∧ ∃ matcher, CoordinateMatcher.parse x.artifact.toList = .ok matcher ∧
      ∀ e, e ∈ p.entries ↔
        c.IsEntryOf (compileClosure c.graph (c.graph.nodes.filter matcher.accepts)) e ∨
          ∃ m, x.metadataLocation = some m ∧ e = Entry.ofText m := by
  obtain ⟨matcher, hm, -, entries, he, rfl⟩ := extensionClaim_eq_ok.1 h
  refine ⟨rfl, matcher, hm, fun e => ?_⟩
  simp [mem_entriesOf he, eq_comm]

theorem mem_pluginClaims {plugins : List PluginTier} (h : c.pluginClaims = .ok plugins) :
    (e ∈ Tiers.pluginEntries plugins → e ∈ c.classpath ∨ c.IsMetadata e) ∧
      (c.IsMetadata e → e ∈ Tiers.pluginEntries plugins) := by
  unfold pluginClaims at h
  split at h
  · rename_i hs
    cases h
    simp [Tiers.pluginEntries, IsMetadata, hs]
  · rename_i hs
    simp only [Except.bind_eq_ok, Except.pure_eq_ok] at h
    obtain ⟨entries, he, rfl⟩ := h
    simp only [Tiers.pluginEntries, IsMetadata, hs]
    constructor
    · intro hm
      exact .inl ((mem_entriesOf he).1 (by simpa [OrderedSet.mem_toList] using hm)).mem_classpath
    · rintro ⟨hs, -⟩
      cases hs
  · rename_i hs
    simp only [Tiers.pluginEntries, List.mem_flatMap, OrderedSet.mem_toList]
    constructor
    · rintro ⟨p, hp, hep⟩
      obtain ⟨x, hx, hxp⟩ := (Except.mem_mapM h).1 hp
      obtain ⟨-, matcher, -, hmem⟩ := mem_extensionClaim hxp
      rcases (hmem e).1 hep with he | he
      · exact .inl he.mem_classpath
      · exact .inr ⟨hs, x, hx, he⟩
    · rintro ⟨-, x, hx, he⟩
      obtain ⟨p, hp, hxp⟩ := Except.exists_of_mapM h hx
      obtain ⟨-, matcher, -, hmem⟩ := mem_extensionClaim hxp
      exact ⟨p, hp, (hmem e).2 (.inr he)⟩

/-! ## A sample -/

/-- A jar of the sample. -/
def sampleJar (name : String) (scope : Scope) : Artifact := ⟨⟨"g", name, "jar"⟩, "1", scope⟩

/-- What `b` provides is also needed by `a`, by the tests in `c` and by the extension `x`, whose
metadata it is besides; `d` is provided along with `b`, and is what the extension `y` is made of. -/
def sample : Classification where
  configuration := {
    pluginSpace := .extensions
    extensions := [⟨"x", "g:a:*", some "g/b/"⟩, ⟨"y", "g:d:*", some "m"⟩] }
  classpath := ["g/a/", "g/b/", "g/c/", "g/d/", "h/", "h/"].map fun location =>
    ⟨location, .directory⟩
  graph := {
    nodes := [sampleJar "a" .compile, sampleJar "b" .provided, sampleJar "c" .test,
      sampleJar "d" .compile]
    edges := [⟨⟨"g", "a", "jar"⟩, sampleJar "b" .compile⟩,
      ⟨⟨"g", "c", "jar"⟩, sampleJar "b" .test⟩, ⟨⟨"g", "b", "jar"⟩, sampleJar "d" .compile⟩] }
  folders := .none

theorem sample_application :
    applicationArtifacts sample.graph {} =
      [sampleJar "c" .test, sampleJar "b" .test, sampleJar "d" .compile] := by cbv

theorem sample_provided :
    providedArtifacts sample.graph = [sampleJar "b" .provided, sampleJar "d" .compile] := by cbv

theorem sample_closure_a :
    compileClosure sample.graph [sampleJar "a" .compile] =
      [sampleJar "a" .compile, sampleJar "b" .compile, sampleJar "d" .compile] := by cbv

theorem sample_closure_d :
    compileClosure sample.graph [sampleJar "d" .compile] = [sampleJar "d" .compile] := by cbv

/-- The sample can be classified. -/
theorem sample_classify : ∃ t, sample.classify = .ok t := by
  obtain ⟨application, ha⟩ : ∃ s, sample.applicationClaim {} = .ok s := by
    rw [applicationClaim, sample_application]
    exact ⟨_, rfl⟩
  obtain ⟨provided, hv⟩ : ∃ s, sample.providedClaim = .ok s := by
    rw [providedClaim, sample_provided]
    exact ⟨_, rfl⟩
  obtain ⟨x, hx⟩ : ∃ p, sample.extensionClaim ⟨"x", "g:a:*", some "g/b/"⟩ = .ok p := by
    have hm : CoordinateMatcher.parse "g:a:*".toList =
      .ok ⟨[⟨.exactly ['g'], .exactly ['a'], .startingWith []⟩]⟩ := rfl
    have he : sample.entriesOf (compileClosure sample.graph [sampleJar "a" .compile]) =
        .ok [⟨"g/a/", .directory⟩, ⟨"g/b/", .directory⟩, ⟨"g/d/", .directory⟩] := by
      rw [sample_closure_a]
      rfl
    exact ⟨_, extensionClaim_eq_ok.2 ⟨_, hm, by decide, _, he, rfl⟩⟩
  obtain ⟨y, hy⟩ : ∃ p, sample.extensionClaim ⟨"y", "g:d:*", some "m"⟩ = .ok p := by
    have hm : CoordinateMatcher.parse "g:d:*".toList =
      .ok ⟨[⟨.exactly ['g'], .exactly ['d'], .startingWith []⟩]⟩ := rfl
    have he : sample.entriesOf (compileClosure sample.graph [sampleJar "d" .compile]) =
        .ok [⟨"g/d/", .directory⟩] := by
      rw [sample_closure_d]
      rfl
    exact ⟨_, extensionClaim_eq_ok.2 ⟨_, hm, by decide, _, he, rfl⟩⟩
  have hp : sample.pluginClaims = .ok [x, y] :=
    Except.mapM_eq_ok.2 (.cons hx (.cons hy .nil))
  exact ⟨_, classify_eq_ok.2 ⟨_, _, ⟨application, [x, y], provided⟩, rfl, rfl,
    claims_eq_ok.2 ⟨ha, hp, hv⟩, rfl⟩⟩

end TierIsolation.Classification
