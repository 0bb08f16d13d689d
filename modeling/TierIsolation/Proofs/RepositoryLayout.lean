import Mathlib.Data.List.Infix
import TierIsolation.Proofs.EntryLookup
import TierIsolation.Proofs.Text

/-!
# Class paths laid out as a repository

In a repository the archive of an artifact lies in a folder for its version, below the folders for
its group and its name (`EntryLookup.repositoryLocation`). `EntryLookup.locate_of_repository` says
what is found when all entries of a class path lie so: the first entry whose location contains the
folders for group and name as a text. Folders are not compared one by one, so this may be an entry
of another artifact (`overlapping_not_own`), and is one exactly if such an entry stands before all
those of the artifact (`EntryLookup.Hidden`).
-/

namespace TierIsolation

namespace EntryLookup

/-! ## The layout -/

/-- Where a repository keeps an artifact. -/
def repositoryLocation (root : String) (a : Artifact) : String :=
  root ++ "/" ++ repositoryPath a ++ a.version ++ "/" ++ a.identity.name ++ "-" ++ a.version ++
    ".jar"

/-- The class path consists of entries of the artifacts, all of them in one repository. -/
structure IsRepository (root : String) (artifacts : List Artifact) (classpath : List Entry) :
    Prop where
  entry : ∀ a ∈ artifacts, ∃ e ∈ classpath, e.location = repositoryLocation root a
  artifact : ∀ e ∈ classpath, ∃ a ∈ artifacts, e.location = repositoryLocation root a

/-- The entry is that of one of the artifacts, with the group and the name of `a`. -/
def IsOwn (root : String) (artifacts : List Artifact) (a : Artifact) (e : Entry) : Prop :=
  ∃ b ∈ artifacts, b.identity.group = a.identity.group ∧ b.identity.name = a.identity.name ∧
    e.location = repositoryLocation root b

/-- The location of the entry contains the folders for the group and the name of the artifact. -/
def Mentions (a : Artifact) (e : Entry) : Prop :=
  (repositoryPath a).toList <:+: e.location.toList

/-- An entry of another artifact that mentions this one stands before all of its own entries. -/
def Hidden (root : String) (artifacts : List Artifact) (classpath : List Entry) (a : Artifact) :
    Prop :=
  ∃ before e after, classpath = before ++ e :: after ∧ Mentions a e ∧
    ¬ IsOwn root artifacts a e ∧ ∀ d ∈ before, ¬ IsOwn root artifacts a d

variable {root : String} {artifacts : List Artifact} {a : Artifact} {e : Entry} {l : EntryLookup}

/-- The entries of an artifact mention it. -/
theorem IsOwn.mentions (h : IsOwn root artifacts a e) : Mentions a e := by
  obtain ⟨b, -, hgroup, hname, hlocation⟩ := h
  have hpath : repositoryPath b = repositoryPath a := by
    simp only [repositoryPath, Artifact.groupPath, hgroup, hname]
  have hparts : (repositoryLocation root b).toList = (root ++ "/").toList ++
      (repositoryPath a).toList ++ (b.version ++ "/" ++ b.identity.name ++ "-" ++ b.version ++
        ".jar").toList := by
    simp only [repositoryLocation, hpath, String.toList_append, List.append_assoc]
  rw [Mentions, hlocation, hparts]
  exact List.infix_append _ _ _

/-! ## What is found -/

theorem inRepository?_eq_some :
    l.inRepository? a = some e ↔ ∃ before after, l.classpath = before ++ e :: after ∧
      Mentions a e ∧ ∀ d ∈ before, ¬ Mentions a d := by
  simp only [inRepository?, List.find?_eq_some_iff_append, Text.occurs_iff, Mentions,
    Bool.not_eq_true', ← Bool.not_eq_true]
  constructor
  · rintro ⟨hmentions, before, after, hsplit, hbefore⟩
    exact ⟨before, after, hsplit, hmentions, hbefore⟩
  · rintro ⟨before, after, hsplit, hmentions, hbefore⟩
    exact ⟨hmentions, before, after, hsplit, hbefore⟩

/-- Of the entries that mention an artifact, the first is its own unless the artifact is hidden. -/
theorem isOwn_iff_not_hidden {classpath before after : List Entry}
    (hsplit : classpath = before ++ e :: after) (he : Mentions a e)
    (hbefore : ∀ d ∈ before, ¬ Mentions a d) :
    IsOwn root artifacts a e ↔ ¬ Hidden root artifacts classpath a := by
  constructor
  · rintro hown ⟨before', f, after', hsplit', hf, hforeign, hbefore'⟩
    rw [hsplit, List.append_eq_append_iff] at hsplit'
    rcases hsplit' with ⟨between, hb, hcons⟩ | ⟨between, hb, hcons⟩
    · -- `f` is not before `e`
      rcases List.cons_eq_append_iff.1 hcons with ⟨-, heq⟩ | ⟨rest, hbetween, -⟩
      · rw [List.cons.injEq] at heq
        exact hforeign (heq.1 ▸ hown)
      · refine hbefore' e ?_ hown
        simp [hb, hbetween]
    · -- `e` is not before `f`
      rcases List.cons_eq_append_iff.1 hcons with ⟨-, heq⟩ | ⟨rest, hbetween, -⟩
      · rw [List.cons.injEq] at heq
        exact hforeign (heq.1 ▸ hown)
      · refine hbefore f ?_ hf
        simp [hb, hbetween]
  · intro hnot
    by_contra hforeign
    exact hnot ⟨before, e, after, hsplit, he, hforeign, fun d hd hown =>
      hbefore d hd hown.mentions⟩

/-- **What is found in a repository.** If a class path consists of entries in one repository, in any
order, every artifact that carries code is found. Its entry is the first whose location contains its
folders, and is one of an artifact with the same group and name unless these are hidden by an entry
of another. -/
theorem locate_of_repository (h : IsRepository root artifacts l.classpath) (ha : a ∈ artifacts)
    (hpom : a.isPom = false) :
    ∃ e before after, l.locate a = .ok (some e) ∧
      l.classpath = before ++ e :: after ∧ Mentions a e ∧ (∀ d ∈ before, ¬ Mentions a d) ∧
      (∃ b ∈ artifacts, e.location = repositoryLocation root b) ∧
      (IsOwn root artifacts a e ↔ ¬ Hidden root artifacts l.classpath a) := by
  obtain ⟨own, hown, hlocation⟩ := h.entry a ha
  have hmentions : Mentions a own := IsOwn.mentions ⟨a, ha, rfl, rfl, hlocation⟩
  obtain ⟨e, he⟩ : ∃ e, l.inRepository? a = some e := by
    refine Option.isSome_iff_exists.1 (List.find?_isSome.2 ⟨own, hown, ?_⟩)
    exact Text.occurs_iff.2 hmentions
  obtain ⟨before, after, hsplit, hfirst, hbefore⟩ := inRepository?_eq_some.1 he
  have hmem : e ∈ l.classpath := by simp [hsplit]
  refine ⟨e, before, after, ?_, hsplit, hfirst, hbefore, h.artifact e hmem,
    isOwn_iff_not_hidden hsplit hfirst hbefore⟩
  simp only [locate, hpom, he, Bool.false_eq_true, if_false]

/-! ## Two artifacts of one name -/

/-- A jar `core` of some group. -/
def coreJar (group : String) : Artifact := ⟨⟨group, "core", "jar"⟩, "1", .compile⟩

/-- The group `acme` is also the end of the folders of the group `org.acme`. -/
def overlapping : EntryLookup where
  classpath := [⟨"/repo/org/acme/core/1/core-1.jar", .archive⟩,
    ⟨"/repo/acme/core/1/core-1.jar", .archive⟩]
  folders := .none

theorem overlapping_isRepository :
    IsRepository "/repo" [coreJar "org.acme", coreJar "acme"] overlapping.classpath where
  entry := by
    simp only [List.forall_mem_cons, List.not_mem_nil, false_implies, implies_true, and_true]
    exact ⟨⟨⟨"/repo/org/acme/core/1/core-1.jar", .archive⟩, by decide, rfl⟩,
      ⟨⟨"/repo/acme/core/1/core-1.jar", .archive⟩, by decide, rfl⟩⟩
  artifact := by
    simp only [overlapping, List.forall_mem_cons, List.not_mem_nil, false_implies, implies_true,
      and_true]
    exact ⟨⟨coreJar "org.acme", by decide, rfl⟩, ⟨coreJar "acme", by decide, rfl⟩⟩

/-- The jar of `org.acme` is found: the only other entry does not mention it. -/
theorem overlapping_own :
    ∃ e, overlapping.locate (coreJar "org.acme") = .ok (some e) ∧
      IsOwn "/repo" [coreJar "org.acme", coreJar "acme"] (coreJar "org.acme") e := by
  obtain ⟨e, -, -, hlocate, -, -, -, -, hiff⟩ :=
    locate_of_repository overlapping_isRepository (a := coreJar "org.acme") (by decide) rfl
  refine ⟨e, hlocate, hiff.2 ?_⟩
  rintro ⟨before, f, after, hsplit, hf, hforeign, -⟩
  have hmem : f ∈ overlapping.classpath := by simp [hsplit]
  rw [overlapping, List.mem_cons, List.mem_singleton] at hmem
  rcases hmem with rfl | rfl
  · exact hforeign ⟨coreJar "org.acme", by decide, rfl, rfl, rfl⟩
  · revert hf
    rw [Mentions, ← Text.occurs_iff]
    decide

/-- For the jar of `acme` that of `org.acme` is found, which stands first. -/
theorem overlapping_not_own :
    ¬ ∀ (root : String) (artifacts : List Artifact) (l : EntryLookup) (a : Artifact),
      IsRepository root artifacts l.classpath → (∀ b ∈ artifacts, b.isPom = false) →
      a ∈ artifacts → ∃ e, l.locate a = .ok (some e) ∧ IsOwn root artifacts a e := by
  intro hall
  obtain ⟨e, he, b, hb, hgroup, -, hlocation⟩ := hall "/repo" _ overlapping (coreJar "acme")
    overlapping_isRepository (by decide) (by decide)
  have hlocate : overlapping.locate (coreJar "acme") =
      .ok (some ⟨"/repo/org/acme/core/1/core-1.jar", .archive⟩) := rfl
  rw [hlocate, Except.ok.injEq, Option.some.injEq] at he
  subst he
  rw [List.mem_cons, List.mem_singleton] at hb
  rcases hb with rfl | rfl
  · revert hgroup
    decide
  · revert hlocation
    decide

end EntryLookup

end TierIsolation
