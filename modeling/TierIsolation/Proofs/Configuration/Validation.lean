import Mathlib.Data.List.Nodup
import TierIsolation.Configuration.Validation

/-!
# Which configurations are valid

`Configuration.validate_eq_ok_iff`: exactly those are accepted whose patterns are well formed, whose
extensions go together with the plugin space, and whose extensions have names, different ones, and
patterns (`Configuration.IsValid`).

The names are checked in one pass that remembers those it has met;
`Configuration.validateExtensions_eq_ok_iff` says what it accepts.
-/

namespace TierIsolation

/-- The extension has a name, and patterns by which it may select artifacts. -/
structure Extension.IsValid (x : Extension) : Prop where
  named : Text.blank x.name.toList = false
  patterns : ∃ matcher, CoordinateMatcher.parse x.artifact.toList = .ok matcher ∧
    matcher.patterns ≠ []

namespace Configuration

/-- What validation looks for. -/
structure IsValid (c : Configuration) : Prop where
  exclusions : ∃ exclusions, c.exclusions = .ok exclusions
  delimiter : Text.blank c.edgeDelimiter.toList = false
  /-- Extensions are declared if and only if plugin tiers are built from them. -/
  space : c.pluginSpace = .extensions ↔ c.extensions ≠ []
  extensions : ∀ x ∈ c.extensions, x.IsValid
  names : (c.extensions.map (·.name)).Nodup

variable {c : Configuration} {seen : List String} {x : Extension} {xs : List Extension}

theorem validateExtensions_cons_eq_ok_iff :
    validateExtensions seen (x :: xs) = .ok () ↔
      x.IsValid ∧ x.name ∉ seen ∧ validateExtensions (x.name :: seen) xs = .ok () := by
  rw [validateExtensions]
  constructor
  · intro h
    split at h
    · cases h
    · rename_i hnamed
      split at h
      · cases h
      · rename_i hnew
        split at h
        · cases h
        · rename_i matcher hmatcher
          split at h
          · cases h
          · rename_i hpatterns
            have hvalid : x.IsValid :=
              ⟨by simpa using hnamed, matcher, hmatcher, by simpa using hpatterns⟩
            exact ⟨hvalid, hnew, h⟩
  · rintro ⟨⟨hnamed, matcher, hmatcher, hpatterns⟩, hnew, hrest⟩
    simp [hnamed, hnew, hmatcher, hpatterns, hrest]

theorem validateExtensions_eq_ok_iff :
    validateExtensions seen xs = .ok () ↔
      (∀ x ∈ xs, x.IsValid) ∧ (xs.map (·.name)).Nodup ∧ ∀ x ∈ xs, x.name ∉ seen := by
  induction xs generalizing seen with
  | nil => simp [validateExtensions]
  | cons x rest ih =>
    -- the rest must do without the names met before, and without that of `x`
    have hrest : (∀ y ∈ rest, y.name ∉ x.name :: seen) ↔
        x.name ∉ rest.map (·.name) ∧ ∀ y ∈ rest, y.name ∉ seen := by
      simp only [List.mem_cons, not_or, List.mem_map, not_exists, not_and]
      grind
    rw [validateExtensions_cons_eq_ok_iff, ih, hrest, List.forall_mem_cons, List.forall_mem_cons,
      List.map_cons, List.nodup_cons]
    tauto

theorem validateSpace_eq_ok_iff :
    c.validateSpace = .ok () ↔ (c.pluginSpace = .extensions ↔ c.extensions ≠ []) := by
  unfold validateSpace
  cases c.pluginSpace <;> cases c.extensions <;> simp

theorem validate_eq_ok_iff : c.validate = .ok () ↔ c.IsValid := by
  unfold validate
  constructor
  · intro h
    split at h
    · cases h
    · rename_i exclusions hexclusions
      split at h
      · cases h
      · rename_i hdelimiter
        split at h
        · cases h
        · rename_i hspace
          obtain ⟨hextensions, hnames, -⟩ := validateExtensions_eq_ok_iff.1 h
          exact ⟨⟨exclusions, hexclusions⟩, by simpa using hdelimiter,
            validateSpace_eq_ok_iff.1 hspace, hextensions, hnames⟩
  · rintro ⟨⟨exclusions, hexclusions⟩, hdelimiter, hspace, hextensions, hnames⟩
    have hall : validateExtensions [] c.extensions = .ok () :=
      validateExtensions_eq_ok_iff.2 ⟨hextensions, hnames, fun _ _ => List.not_mem_nil⟩
    simp [hexclusions, hdelimiter, validateSpace_eq_ok_iff.2 hspace, hall]

end Configuration

end TierIsolation
