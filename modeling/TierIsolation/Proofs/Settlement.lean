import Mathlib.Data.List.Nodup
import TierIsolation.Tiers

/-!
# Every entry in one tier

`Claims.settle` makes the claims of the tiers disjoint. In terms of members:

* `mem_application`: the application keeps what it claims, less the provided entries when the
  container has precedence.
* `mem_settled`: a plugin tier keeps what it claims, less the same provided entries, what the
  application keeps, and what an earlier plugin tier claims.
* `mem_container`: the container gets what is on the class path or provided and in no other tier.

From these follow `pairwise_sets` (no entry is in two tiers) and `mem_sets` (no entry is lost).
`Tiers.unassigned_eq_nil` and `Tiers.entryCount_eq` draw the conclusions for the counts of a
classification.
-/

namespace TierIsolation

/-! ## The sets of all tiers -/

namespace Tiers

/-- The sets of all tiers, outermost first. -/
def sets (t : Tiers) : List EntrySet := t.container :: t.plugins.map (·.entries) ++ [t.application]

theorem mem_pluginEntries {plugins : List PluginTier} {e : Entry} :
    e ∈ pluginEntries plugins ↔ ∃ p ∈ plugins, e ∈ p.entries := by
  simp [pluginEntries, OrderedSet.mem_toList]

theorem exists_mem_sets {t : Tiers} {e : Entry} :
    (∃ s ∈ t.sets, e ∈ s) ↔
      e ∈ t.container ∨ e ∈ pluginEntries t.plugins ∨ e ∈ t.application := by
  simp only [sets, mem_pluginEntries, List.mem_append, List.mem_cons, List.mem_map,
    List.not_mem_nil, or_false]
  grind

theorem mem_assigned {t : Tiers} {e : Entry} : e ∈ t.assigned ↔ ∃ s ∈ t.sets, e ∈ s := by
  rw [exists_mem_sets, assigned, OrderedSet.mem_ofList]
  simp [OrderedSet.mem_toList]

theorem unassigned_eq_nil {t : Tiers} {classpath : List Entry}
    (h : ∀ e ∈ classpath, ∃ s ∈ t.sets, e ∈ s) : t.unassigned classpath = [] := by
  simp only [unassigned, List.filter_eq_nil_iff]
  intro e he
  simp [mem_assigned.2 (h e he)]

theorem toList_assigned (t : Tiers) :
    t.assigned = .ofList (t.sets.map (·.toList)).flatten := by
  simp [assigned, sets, pluginEntries, List.flatMap_def, Function.comp_def]

/-- Every tier counted for itself gives the number of all entries, when no entry is in two tiers. -/
theorem entryCount_eq {t : Tiers} (h : t.sets.Pairwise OrderedSet.Disjoint) :
    t.entryCount = t.assigned.size := by
  have hnd : (t.sets.map (·.toList)).flatten.Nodup := by
    refine List.nodup_flatten.2 ⟨fun l hl => ?_, List.pairwise_map.2 (h.imp fun hd e he => hd e he)⟩
    obtain ⟨s, -, rfl⟩ := List.mem_map.1 hl
    exact s.nodup_toList
  rw [toList_assigned, OrderedSet.size_ofList hnd, List.length_flatten]
  simp only [entryCount, sets, OrderedSet.size, List.map_cons, List.map_append, List.map_map,
    List.map_nil, List.sum_cons, List.sum_append, List.sum_nil, List.cons_append]
  simp [List.sum, Function.comp_def]
  omega

end Tiers

namespace Claims

variable {precedence : Precedence} {taken s provided : EntrySet} {ps : List PluginTier} {e : Entry}

/-! ## Provided entries -/

theorem mem_withoutProvided :
    e ∈ withoutProvided precedence provided s ↔
      e ∈ s ∧ (precedence = .container → e ∉ provided) := by
  cases precedence <;> simp [withoutProvided]

/-! ## Plugin tiers -/

/-- Nothing taken is given to a plugin tier. -/
theorem not_mem_taken {p : PluginTier} (hp : p ∈ settlePlugins taken ps) (he : e ∈ p.entries) :
    e ∉ taken := by
  induction ps generalizing taken with
  | nil => cases hp
  | cons q rest ih =>
    simp only [settlePlugins, List.mem_cons] at hp
    rcases hp with rfl | hp
    · simpa using (OrderedSet.mem_filter.1 he).2
    · intro ht
      exact ih hp (OrderedSet.mem_insertMany.2 (.inl ht))

theorem pairwise_settlePlugins :
    ((settlePlugins taken ps).map (·.entries)).Pairwise OrderedSet.Disjoint := by
  induction ps generalizing taken with
  | nil => exact .nil
  | cons q rest ih =>
    refine List.pairwise_cons.2 ⟨fun s hs e he hes => ?_, ih⟩
    obtain ⟨p, hp, rfl⟩ := List.mem_map.1 hs
    -- what the first tier gets is taken for all later ones
    exact not_mem_taken hp hes (OrderedSet.mem_insertMany.2 (.inr he))

/-- The tiers stay in order and keep their names, and an entry goes to the first of the tiers that
ask for it. -/
theorem mem_settled {i : Nat} {p : PluginTier} (h : (settlePlugins taken ps)[i]? = some p) :
    ∃ q, ps[i]? = some q ∧ p.name = q.name ∧ ∀ e, e ∈ p.entries ↔
      e ∈ q.entries ∧ e ∉ taken ∧ ∀ j r, j < i → ps[j]? = some r → e ∉ r.entries := by
  induction ps generalizing taken i with
  | nil => simp [settlePlugins] at h
  | cons first rest ih =>
    cases i with
    | zero =>
      simp only [settlePlugins, List.getElem?_cons_zero, Option.some.injEq] at h
      subst h
      exact ⟨first, rfl, rfl, fun e => by simp⟩
    | succ i =>
      simp only [settlePlugins, List.getElem?_cons_succ] at h
      obtain ⟨q, hq, hname, hmem⟩ := ih h
      refine ⟨q, hq, hname, fun e => (hmem e).trans (and_congr_right fun _ => ?_)⟩
      simp only [OrderedSet.mem_insertMany, OrderedSet.mem_toList, OrderedSet.mem_filter, not_or]
      constructor
      · rintro ⟨⟨ht, hf⟩, hr⟩
        refine ⟨ht, fun j r hj hjr => ?_⟩
        cases j with
        | zero => simp at hjr; subst hjr; simpa [ht] using hf
        | succ j => exact hr j r (by omega) (by simpa using hjr)
      · rintro ⟨ht, hr⟩
        exact ⟨⟨ht, by simp [ht, hr 0 first (by omega) rfl]⟩,
          fun j r hj hjr => hr (j + 1) r (by omega) (by simpa using hjr)⟩

theorem map_name_settlePlugins : (settlePlugins taken ps).map (·.name) = ps.map (·.name) := by
  induction ps generalizing taken with
  | nil => rfl
  | cons q rest ih => rw [settlePlugins, List.map_cons, ih, List.map_cons]

/-- Nothing that a plugin tier asks for is lost: it was taken before or is in a plugin tier. -/
theorem mem_taken_or_settled :
    e ∈ taken ∨ e ∈ Tiers.pluginEntries (settlePlugins taken ps) ↔
      e ∈ taken ∨ e ∈ Tiers.pluginEntries ps := by
  induction ps generalizing taken with
  | nil => rfl
  | cons q rest ih =>
    have h := @ih (taken.insertMany (q.entries.filter fun e => e ∉ taken).toList)
    simp only [Tiers.mem_pluginEntries, OrderedSet.mem_insertMany, OrderedSet.mem_toList,
      OrderedSet.mem_filter] at h
    simp only [Tiers.mem_pluginEntries, settlePlugins, List.mem_cons, exists_eq_or_imp,
      OrderedSet.mem_filter]
    grind

/-! ## All tiers -/

section Settle

variable {c : Claims} {classpath : List Entry} {a : Artifact}

theorem mem_application :
    e ∈ (c.settle precedence classpath a).application ↔
      e ∈ c.application ∧ (precedence = .container → e ∉ c.provided) :=
  mem_withoutProvided

theorem mem_plugin {i : Nat} {p : PluginTier}
    (h : (c.settle precedence classpath a).plugins[i]? = some p) :
    ∃ q, c.plugins[i]? = some q ∧ p.name = q.name ∧ ∀ e, e ∈ p.entries ↔
      e ∈ q.entries ∧ (precedence = .container → e ∉ c.provided) ∧
        e ∉ (c.settle precedence classpath a).application ∧
        ∀ j r, j < i → c.plugins[j]? = some r → e ∉ r.entries := by
  obtain ⟨q', hq', hname, hmem⟩ := mem_settled h
  rw [List.getElem?_map, Option.map_eq_some_iff] at hq'
  obtain ⟨q, hq, rfl⟩ := hq'
  refine ⟨q, hq, hname, fun e => (hmem e).trans ?_⟩
  simp only [mem_withoutProvided, mem_application, List.getElem?_map, Option.map_eq_some_iff]
  constructor
  · rintro ⟨⟨he, hp⟩, ht, hr⟩
    exact ⟨he, hp, ht, fun j r hj hjr her =>
      hr j _ hj ⟨r, hjr, rfl⟩ (mem_withoutProvided.2 ⟨her, hp⟩)⟩
  · rintro ⟨he, hp, ht, hr⟩
    refine ⟨⟨he, hp⟩, ht, ?_⟩
    rintro j _ hj ⟨r, hjr, rfl⟩ her
    exact hr j r hj hjr (mem_withoutProvided.1 her).1

/-- Plugin tiers are settled in their order, under their names. -/
theorem map_name_plugins :
    (c.settle precedence classpath a).plugins.map (·.name) = c.plugins.map (·.name) := by
  rw [settle, map_name_settlePlugins, List.map_map]
  rfl

theorem length_plugins :
    (c.settle precedence classpath a).plugins.length = c.plugins.length := by
  rw [← List.length_map PluginTier.name, map_name_plugins, List.length_map]

theorem mem_container :
    e ∈ (c.settle precedence classpath a).container ↔
      (e ∈ classpath ∨ e ∈ c.provided) ∧ e ∉ (c.settle precedence classpath a).application ∧
        e ∉ Tiers.pluginEntries (c.settle precedence classpath a).plugins := by
  simp only [settle, OrderedSet.mem_ofList, List.mem_filter, List.mem_append,
    OrderedSet.mem_toList, OrderedSet.mem_insertMany, decide_eq_true_eq, not_or]

/-- No entry is in two tiers. -/
theorem pairwise_sets :
    (c.settle precedence classpath a).sets.Pairwise OrderedSet.Disjoint := by
  unfold Tiers.sets
  refine List.pairwise_append.2 ⟨List.pairwise_cons.2 ⟨fun s hs e he hes => ?_, ?_⟩,
    List.pairwise_singleton _ _, fun s hs s' hs' e he he' => ?_⟩
  · obtain ⟨p, hp, rfl⟩ := List.mem_map.1 hs
    exact (mem_container.1 he).2.2 (Tiers.mem_pluginEntries.2 ⟨p, hp, hes⟩)
  · exact pairwise_settlePlugins
  · rw [List.mem_singleton] at hs'
    subst hs'
    rcases List.mem_cons.1 hs with rfl | hs
    · exact (mem_container.1 he).2.1 he'
    · obtain ⟨p, hp, rfl⟩ := List.mem_map.1 hs
      exact not_mem_taken hp he he'

/-- No entry is lost: the tiers share out the class path and all that they claim. -/
theorem mem_sets :
    (∃ s ∈ (c.settle precedence classpath a).sets, e ∈ s) ↔
      e ∈ classpath ∨ e ∈ c.provided ∨ e ∈ c.application ∨ e ∈ Tiers.pluginEntries c.plugins := by
  let plugins := c.plugins.map fun p =>
    { p with entries := withoutProvided precedence c.provided p.entries }
  have hsettled : e ∈ (c.settle precedence classpath a).application ∨
      e ∈ Tiers.pluginEntries (c.settle precedence classpath a).plugins ↔
      e ∈ (c.settle precedence classpath a).application ∨ e ∈ Tiers.pluginEntries plugins :=
    mem_taken_or_settled
  simp only [plugins, Tiers.mem_pluginEntries, List.mem_map, exists_exists_and_eq_and,
    mem_withoutProvided] at hsettled
  rw [Tiers.exists_mem_sets, mem_container, Tiers.mem_pluginEntries, Tiers.mem_pluginEntries]
  rw [mem_application] at hsettled ⊢
  grind

end Settle

end Claims

end TierIsolation
