import TierIsolation.EntryLookup
import TierIsolation.Proofs.Success

/-!
# What is found on a class path

* `EntryLookup.mem_classpath`: whatever is found stands on the class path.
* `EntryLookup.locate_congr`: two declarations of one artifact have the same entry, if both or none
  of them declare the test output of a module; their versions do not matter, nor do other scopes.
* `EntryLookup.mem_locateAll`: the entries of several artifacts are those found for one of them;
  `EntryLookup.fault?_locateAll`: if one of them is not found, the first such one is at fault.
-/

namespace TierIsolation.EntryLookup

variable {l : EntryLookup} {a b : Artifact} {e : Entry}

/-! ## One artifact -/

theorem locate_pom (h : a.isPom = true) : l.locate a = .ok none := by
  simp [locate, h]

theorem inModule_eq_ok (h : l.inModule a = .ok e) :
    ∃ folder, l.folders.folderFor a.identity.name = some folder ∧
      (l.classpath.find? fun e => isModuleOutput a (folder ++ buildFolder) e.location) =
        some e := by
  unfold inModule at h
  split at h
  · cases h
  · rename_i folder hf
    dsimp only at h
    split at h
    · rename_i e' he
      cases h
      exact ⟨folder, hf, he⟩
    · cases h

/-- An entry is found in the repository, else in the build output of a module. -/
theorem locate_eq_some (h : l.locate a = .ok (some e)) :
    l.inRepository? a = some e ∨ l.inRepository? a = none ∧ l.inModule a = .ok e := by
  unfold locate at h
  split at h
  · cases h
  · split at h
    · rename_i e' he
      cases h
      exact .inl he
    · rename_i hn
      obtain ⟨e', hm, he⟩ := Except.map_eq_ok.1 h
      cases he
      exact .inr ⟨hn, hm⟩

/-- An artifact that carries code has an entry whenever the look-up succeeds. -/
theorem exists_entry {found : Option Entry} (hp : a.isPom = false) (h : l.locate a = .ok found) :
    ∃ e, found = some e := by
  unfold locate at h
  rw [hp] at h
  simp only [Bool.false_eq_true, if_false] at h
  split at h
  · cases h; exact ⟨_, rfl⟩
  · obtain ⟨e, -, rfl⟩ := Except.map_eq_ok.1 h
    exact ⟨e, rfl⟩

theorem mem_classpath (h : l.locate a = .ok (some e)) : e ∈ l.classpath := by
  rcases locate_eq_some h with hr | ⟨-, hm⟩
  · exact List.mem_of_find?_eq_some hr
  · obtain ⟨folder, -, hf⟩ := inModule_eq_ok hm
    exact List.mem_of_find?_eq_some hf

/-! ## Two declarations of one artifact -/

theorem inRepository?_congr (hi : a.identity = b.identity) :
    l.inRepository? a = l.inRepository? b := by
  simp only [inRepository?, repositoryPath, Artifact.groupPath, hi]

theorem isModuleOutput_congr (ht : a.isTestOutput = b.isTestOutput) (folder location : String) :
    isModuleOutput a folder location = isModuleOutput b folder location := by
  simp only [isModuleOutput, explodedFolder, isPackaged, ht]

theorem locate_congr {found : Option Entry} (hi : a.identity = b.identity)
    (ht : a.isTestOutput = b.isTestOutput) (h : l.locate a = .ok found) :
    l.locate b = .ok found := by
  have hpom : b.isPom = a.isPom := by simp [Artifact.isPom, hi]
  by_cases hp : a.isPom = true
  · rw [locate_pom hp] at h
    rw [locate_pom (hpom.trans hp), h]
  obtain ⟨e, rfl⟩ := exists_entry (by simpa using hp) h
  unfold locate
  simp only [hpom, hp, Bool.false_eq_true, if_false]
  rcases locate_eq_some h with hr | ⟨hr, hm⟩
  · rw [← inRepository?_congr hi, hr]
  · obtain ⟨folder, hf, he⟩ := inModule_eq_ok hm
    rw [← inRepository?_congr hi, hr]
    simp only [isModuleOutput_congr ht] at he
    simp [inModule, ← hi, hf, he, Except.map]

/-! ## Several artifacts -/

theorem locateAll_cons {rest : List Artifact} {entries : List Entry}
    (h : l.locateAll (a :: rest) = .ok entries) :
    ∃ found others, l.locate a = .ok found ∧ l.locateAll rest = .ok others ∧
      entries = found.toList ++ others := by
  simp only [locateAll] at h
  split at h
  · cases h
  · rename_i found hf
    split at h
    · cases h
    · rename_i others ho
      cases h
      exact ⟨found, others, hf, ho, rfl⟩

/-- The look-up of several artifacts fails with the first fault. -/
theorem fault?_locateAll (l : EntryLookup) (artifacts : List Artifact) :
    (l.locateAll artifacts).fault? = artifacts.findSome? fun a => (l.locate a).fault? := by
  induction artifacts with
  | nil => rfl
  | cons a rest ih =>
    rw [List.findSome?_cons, ← ih, locateAll]
    cases l.locate a with
    | error fault => rfl
    | ok found => cases l.locateAll rest <;> rfl

/-- The entries of several artifacts are found if the look-up of each of them succeeds. -/
theorem exists_locateAll_iff {artifacts : List Artifact} :
    (∃ entries, l.locateAll artifacts = .ok entries) ↔
      ∀ a ∈ artifacts, ∃ found, l.locate a = .ok found := by
  rw [← Except.fault?_eq_none, fault?_locateAll, List.findSome?_eq_none_iff]
  simp only [Except.fault?_eq_none]

theorem mem_locateAll {artifacts : List Artifact} {entries : List Entry}
    (h : l.locateAll artifacts = .ok entries) :
    e ∈ entries ↔ ∃ a ∈ artifacts, l.locate a = .ok (some e) := by
  induction artifacts generalizing entries with
  | nil => cases h; simp
  | cons b rest ih =>
    obtain ⟨found, others, hf, ho, rfl⟩ := locateAll_cons h
    simp only [List.mem_append, Option.mem_toList, List.mem_cons, exists_eq_or_imp, ih ho, hf,
      Except.ok.injEq]

end TierIsolation.EntryLookup
