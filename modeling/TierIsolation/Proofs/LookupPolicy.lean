import TierIsolation.LookupPolicy

/-!
# The mode of a name

A policy is a default mode to which rules were added one after the other. `modeFor_addRules` says
what they come to: a name has the mode that was added last (`latest?`) for the longest beginning
that it has (`IsLongest`), and the default mode if it has none.

* `exists_isLongest`, `modeFor_of_isLongest`: in every policy the longest beginning decides. The
  beginnings of one name are beginnings of each other, so that it makes no difference whether their
  characters are counted or the bytes of their encodings.
* `modeFor_congr`: in which order the rules were added makes no difference either.
-/

namespace String

variable {s t : String}

theorem exists_append_of_prefix (h : s.toList <+: t.toList) : ∃ rest, t = s ++ rest := by
  obtain ⟨rest, hrest⟩ := h
  refine ⟨.ofList rest, ?_⟩
  rw [← toList_inj, toList_append, toList_ofList, hrest]

theorem utf8ByteSize_le_of_prefix (h : s.toList <+: t.toList) :
    s.utf8ByteSize ≤ t.utf8ByteSize := by
  obtain ⟨rest, rfl⟩ := exists_append_of_prefix h
  rw [utf8ByteSize_append]
  omega

/-- Nothing follows a beginning that is as large as the whole. -/
theorem eq_of_prefix (h : s.toList <+: t.toList) (hsize : t.utf8ByteSize ≤ s.utf8ByteSize) :
    s = t := by
  obtain ⟨rest, rfl⟩ := exists_append_of_prefix h
  rw [utf8ByteSize_append] at hsize
  obtain rfl : rest = "" := utf8ByteSize_eq_zero_iff.1 (by omega)
  rw [append_empty]

end String

namespace TierIsolation.LookupPolicy

/-! ## The longest beginning -/

/-- The longest of some beginnings that a name has, by the size of its encoding. -/
structure IsLongest (stems : List String) (name stem : String) : Prop where
  mem : stem ∈ stems
  starts : stem.toList <+: name.toList
  longest : ∀ other ∈ stems, other.toList <+: name.toList → other.utf8ByteSize ≤ stem.utf8ByteSize

section Longest

variable {stems stems' : List String} {name stem other : String}

theorem IsLongest.eq (h : IsLongest stems name stem) (h' : IsLongest stems name other) :
    stem = other := by
  obtain hprefix | hprefix := List.prefix_or_prefix_of_prefix h.starts h'.starts
  · exact String.eq_of_prefix hprefix (h.longest other h'.mem h'.starts)
  · exact (String.eq_of_prefix hprefix (h'.longest stem h.mem h.starts)).symm

/-- It matters which beginnings there are, not in which order they are listed. -/
theorem IsLongest.congr (hsame : ∀ s, s ∈ stems ↔ s ∈ stems') (h : IsLongest stems name stem) :
    IsLongest stems' name stem where
  mem := (hsame stem).1 h.mem
  starts := h.starts
  longest := fun other hother => h.longest other ((hsame other).2 hother)

/-- Of two beginnings of a name, the one with more characters is the larger one. -/
theorem utf8ByteSize_le_of_length_le (hstem : stem.toList <+: name.toList)
    (hother : other.toList <+: name.toList) (h : other.length ≤ stem.length) :
    other.utf8ByteSize ≤ stem.utf8ByteSize := by
  rw [← String.length_toList, ← String.length_toList] at h
  exact String.utf8ByteSize_le_of_prefix (List.prefix_of_prefix_length_le hother hstem h)

end Longest

/-! ## Policies -/

variable {p q : LookupPolicy} {name stem : String}

/-- The beginnings of names that a policy has rules for. -/
def stems (p : LookupPolicy) : List String := p.rules.entries.map (·.1)

theorem mem_stems : stem ∈ p.stems ↔ ∃ mode, p.rules.get? stem = some mode := by
  simp [stems, ← Table.mem_entries]

theorem mem_applicable {rule : String × LookupMode} :
    rule ∈ p.applicable name ↔
      p.rules.get? rule.1 = some rule.2 ∧ rule.1.toList <+: name.toList := by
  rw [applicable, List.mem_filter, ← Table.mem_entries, List.isPrefixOf_iff_prefix]

theorem applicable_eq_nil_iff :
    p.applicable name = [] ↔ ∀ stem ∈ p.stems, ¬ stem.toList <+: name.toList := by
  simp only [List.eq_nil_iff_forall_not_mem, Prod.forall, mem_applicable, mem_stems]
  grind

/-- Of the rule that was longest so far and one more, one is kept, and it is not shorter. -/
theorem exists_longer (best : Option (String × LookupMode)) (rule : String × LookupMode) :
    ∃ kept ∈ best.toList ++ [rule], longer best rule = some kept ∧
      ∀ other ∈ best.toList ++ [rule], other.1.length ≤ kept.1.length := by
  cases best with
  | none => exact ⟨rule, by simp, rfl, by simp⟩
  | some other =>
    by_cases h : rule.1.length < other.1.length
    · exact ⟨other, by simp, by simp [longer, h], by simp [Nat.le_of_lt h]⟩
    · exact ⟨rule, by simp, by simp [longer, h], by simp [Nat.le_of_not_lt h]⟩

/-- Of some rules, one that no other is longer than is kept. -/
theorem exists_foldl_longer {rules : List (String × LookupMode)}
    {best : Option (String × LookupMode)} (h : best.toList ++ rules ≠ []) :
    ∃ kept ∈ best.toList ++ rules, rules.foldl longer best = some kept ∧
      ∀ other ∈ best.toList ++ rules, other.1.length ≤ kept.1.length := by
  induction rules generalizing best with
  | nil =>
    obtain ⟨rule, rfl⟩ : ∃ rule, best = some rule := by cases best <;> simp_all
    exact ⟨rule, by simp, rfl, by simp⟩
  | cons first rest ih =>
    obtain ⟨kept, hkept, hlonger, hle⟩ := exists_longer best first
    obtain ⟨last, hlast, hfold, hmax⟩ := @ih (some kept) (by simp)
    rw [List.foldl_cons, hlonger]
    have hkept_le := hmax kept (by simp)
    refine ⟨last, ?_, hfold, fun other hother => ?_⟩
    · grind
    · grind

/-- If a name has one of the beginnings, the rule for the longest one decides. -/
theorem exists_isLongest (h : p.applicable name ≠ []) :
    ∃ stem, IsLongest p.stems name stem ∧ p.rules.get? stem = some (p.modeFor name) := by
  obtain ⟨kept, hkept, hfold, hmax⟩ := @exists_foldl_longer (p.applicable name) none h
  obtain ⟨hget, hstarts⟩ := mem_applicable.1 hkept
  have hmode : p.modeFor name = kept.2 := by rw [modeFor, hfold]
  refine ⟨kept.1, ⟨mem_stems.2 ⟨_, hget⟩, hstarts, fun other hother hprefix => ?_⟩,
    by rw [hget, hmode]⟩
  obtain ⟨mode, hother⟩ := mem_stems.1 hother
  exact utf8ByteSize_le_of_length_le hstarts hprefix
    (hmax (other, mode) (mem_applicable.2 ⟨hother, hprefix⟩))

theorem modeFor_of_isLongest (h : IsLongest p.stems name stem) :
    p.rules.get? stem = some (p.modeFor name) := by
  obtain ⟨mode, hget⟩ := mem_stems.1 h.mem
  have happlies : (stem, mode) ∈ p.applicable name := mem_applicable.2 ⟨hget, h.starts⟩
  obtain ⟨found, hlongest, hfound⟩ := exists_isLongest (List.ne_nil_of_mem happlies)
  rw [h.eq hlongest, hfound]

/-- A name with none of the beginnings has the default mode. -/
theorem modeFor_eq_default (h : ∀ stem ∈ p.stems, ¬ stem.toList <+: name.toList) :
    p.modeFor name = p.default := by
  rw [modeFor, applicable_eq_nil_iff.2 h]
  rfl

/-- Policies with the same rules and the same default agree on every name. -/
theorem modeFor_congr (hrules : ∀ stem, p.rules.get? stem = q.rules.get? stem)
    (hdefault : p.default = q.default) (name : String) : p.modeFor name = q.modeFor name := by
  have hsame (stem : String) : stem ∈ p.stems ↔ stem ∈ q.stems := by
    rw [mem_stems, mem_stems, hrules]
  by_cases hnone : p.applicable name = []
  · rw [applicable_eq_nil_iff] at hnone
    rw [modeFor_eq_default hnone, hdefault, modeFor_eq_default]
    exact fun stem hstem => hnone stem ((hsame stem).2 hstem)
  · obtain ⟨stem, hlongest, hp⟩ := exists_isLongest hnone
    have hq := modeFor_of_isLongest (hlongest.congr hsame)
    rw [← hrules, hp] at hq
    exact Option.some.inj hq

/-! ## Rules that are added -/

/-- The mode that was added last for the names that start with `stem`. -/
def latest? (rules : List (String × LookupMode)) (stem : String) : Option LookupMode :=
  rules.reverse.lookup stem

section Added

variable {rules own : List (String × LookupMode)} {mode default : LookupMode}

theorem latest?_append (stem : String) :
    latest? (rules ++ own) stem = (latest? own stem).or (latest? rules stem) := by
  rw [latest?, List.reverse_append, List.lookup_append, latest?, latest?]

theorem latest?_cons (rule : String × LookupMode) (stem : String) :
    latest? (rule :: rules) stem =
      (latest? rules stem).or (if stem = rule.1 then some rule.2 else none) := by
  obtain ⟨first, mode⟩ := rule
  have hone : latest? [(first, mode)] stem = if stem = first then some mode else none := by
    by_cases h : stem = first
    · simp [latest?, h]
    · simp [latest?, h, List.lookup_cons, beq_false_of_ne h]
  rw [← List.singleton_append, latest?_append, hone]

theorem latest?_eq_none_iff : latest? rules stem = none ↔ stem ∉ rules.map (·.1) := by
  simp only [latest?, List.lookup_eq_none_iff, List.mem_reverse, bne_iff_ne, List.mem_map,
    not_exists, not_and]
  exact forall₂_congr fun _ _ => ne_comm

/-- Rules of one mode give that mode. -/
theorem latest?_map (stems : List String) (mode : LookupMode) (stem : String) :
    latest? (stems.map fun stem => (stem, mode)) stem =
      if stem ∈ stems then some mode else none := by
  induction stems with
  | nil => rfl
  | cons first rest ih =>
    rw [List.map_cons, latest?_cons, ih]
    grind

theorem get?_addRules (stem : String) :
    (p.addRules rules).rules.get? stem = (latest? rules stem).or (p.rules.get? stem) := by
  induction rules generalizing p with
  | nil => rfl
  | cons rule rest ih =>
    have hstep : p.addRules (rule :: rest) = (p.addRule rule.1 rule.2).addRules rest := rfl
    rw [hstep, ih, latest?_cons, addRule, Table.get?_insert, Option.or_assoc]
    congr 1
    by_cases h : stem = rule.1 <;> simp [h]

theorem default_addRules : (p.addRules rules).default = p.default := by
  induction rules generalizing p with
  | nil => rfl
  | cons rule rest ih => exact ih

theorem addRules_append : p.addRules (rules ++ own) = (p.addRules rules).addRules own :=
  List.foldl_append

theorem mem_stems_addRules :
    stem ∈ (({ default } : LookupPolicy).addRules rules).stems ↔ stem ∈ rules.map (·.1) := by
  have hnone : ({ default } : LookupPolicy).rules.get? stem = none := rfl
  rw [mem_stems, get?_addRules, hnone, Option.or_none, ← Option.ne_none_iff_exists', ne_eq,
    latest?_eq_none_iff, Decidable.not_not]

/-- The mode that was added last for the longest beginning decides. -/
theorem modeFor_addRules (default : LookupMode) (rules : List (String × LookupMode))
    (name : String) :
    (∃ stem, IsLongest (rules.map (·.1)) name stem ∧
      latest? rules stem = some ((({ default } : LookupPolicy).addRules rules).modeFor name)) ∨
    (∀ stem ∈ rules.map (·.1), ¬ stem.toList <+: name.toList) ∧
      (({ default } : LookupPolicy).addRules rules).modeFor name = default := by
  by_cases hnone : (({ default } : LookupPolicy).addRules rules).applicable name = []
  · rw [applicable_eq_nil_iff] at hnone
    refine .inr ⟨fun stem hstem => hnone stem (mem_stems_addRules.2 hstem), ?_⟩
    rw [modeFor_eq_default hnone, default_addRules]
  · obtain ⟨stem, hlongest, hget⟩ := exists_isLongest hnone
    refine .inl ⟨stem, hlongest.congr fun _ => mem_stems_addRules, ?_⟩
    rw [← hget, get?_addRules]
    exact Option.or_none.symm

end Added

end TierIsolation.LookupPolicy
