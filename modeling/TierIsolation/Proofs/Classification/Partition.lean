import TierIsolation.Proofs.Classification.Claims
import TierIsolation.Proofs.Settlement

/-!
# The tiers partition the class path

`classify_partitions`: the tiers of a classification share out the class path and the metadata
locations of the extensions. No entry is in two tiers, none is left over, and no other entry comes
in; so the number of entries of all tiers is the number of assigned ones.
-/

namespace TierIsolation.Classification

variable {c : Classification} {exclusions : CoordinateMatcher} {e : Entry}

/-- All that is claimed is on the class path or metadata, and all metadata is claimed. -/
theorem mem_claims {claims : Claims} (h : c.claims exclusions = .ok claims) :
    e ∈ c.classpath ∨ e ∈ claims.provided ∨ e ∈ claims.application ∨
        e ∈ Tiers.pluginEntries claims.plugins ↔
      e ∈ c.classpath ∨ c.IsMetadata e := by
  obtain ⟨ha, hp, hv⟩ := claims_eq_ok.1 h
  obtain ⟨hp₁, hp₂⟩ := mem_pluginClaims hp (e := e)
  constructor
  · rintro (he | he | he | he)
    · exact .inl he
    · exact .inl ((mem_providedClaim hv).1 he).mem_classpath
    · rcases (mem_applicationClaim ha).1 he with he | ⟨he, -⟩
      · exact .inl he.mem_classpath
      · exact .inl he
    · exact hp₁ he
  · rintro (he | he)
    · exact .inl he
    · exact .inr (.inr (.inr (hp₂ he)))

/-- **The tiers are a partition** of the class path and the metadata locations. -/
theorem classify_partitions {c : Classification} {t : Tiers} (h : c.classify = .ok t) :
    t.sets.Pairwise OrderedSet.Disjoint ∧
      (∀ e, (∃ s ∈ t.sets, e ∈ s) ↔ e ∈ c.classpath ∨ c.IsMetadata e) ∧
      t.unassigned c.classpath = [] ∧ t.entryCount = t.assigned.size := by
  obtain ⟨a, exclusions, claims, -, -, hc, rfl⟩ := classify_eq_ok.1 h
  have hdisjoint : (claims.settle c.configuration.providedPrecedence c.classpath a).sets.Pairwise
      OrderedSet.Disjoint := Claims.pairwise_sets
  have hunion (e : Entry) :
      (∃ s ∈ (claims.settle c.configuration.providedPrecedence c.classpath a).sets, e ∈ s) ↔
        e ∈ c.classpath ∨ c.IsMetadata e := Claims.mem_sets.trans (mem_claims hc)
  exact ⟨hdisjoint, hunion,
    Tiers.unassigned_eq_nil fun e he => (hunion e).2 (.inl he), Tiers.entryCount_eq hdisjoint⟩

/-- The sample has an entry that four tiers ask for, and metadata that is not on its class path. -/
theorem sample_partition :
    ∃ t, sample.classify = .ok t ∧ t.sets.Pairwise OrderedSet.Disjoint ∧
      (∀ e, (∃ s ∈ t.sets, e ∈ s) ↔ e ∈ sample.classpath ∨ sample.IsMetadata e) ∧
      t.unassigned sample.classpath = [] ∧ t.entryCount = t.assigned.size := by
  obtain ⟨t, ht⟩ := sample_classify
  exact ⟨t, ht, classify_partitions ht⟩

end TierIsolation.Classification
