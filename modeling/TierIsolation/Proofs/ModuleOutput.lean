import TierIsolation.Proofs.RepositoryLayout

/-!
# Where an artifact is found on a class path

An artifact is looked up in two ways: its folders in a repository, and the output of its module.

* `EntryLookup.locate_finds_first`: an entry that mentions the artifact comes before any with its
  output, wherever they stand, and of several the first one counts (`EntryLookup.Found`,
  `EntryLookup.Missing`).
* `EntryLookup.outputs_apart`: what is found as the test output of a module is never found as its
  main output. The two are told apart by the end of the location (`EntryLookup.EndsInTests`), and
  no later folder of the same module can cut that end short, because it ends in a slash.
-/

namespace TierIsolation

namespace EntryLookup

open Text (Follows FollowsLast)

variable {l : EntryLookup} {a b : Artifact} {d e : Entry} {folder : String} {fault : LocationFault}
  {name other : List Char}

/-! ## What output is called -/

/-- Output of tests: their folder, or an archive on one line. -/
def IsTestOutputName (name : List Char) : Prop :=
  name = "test-classes/".toList ∨ '\n' ∉ name ∧ "-tests.jar".toList <:+ name

/-- Any other output: its folder, or an archive on one line that is none of tests. -/
def IsMainOutputName (name : List Char) : Prop :=
  name = "classes/".toList ∨
    '\n' ∉ name ∧ ".jar".toList <:+ name ∧ ¬ "-tests.jar".toList <:+ name

/-- What the output of an artifact is called below the build folder of its module. -/
def IsOutputName (a : Artifact) (name : List Char) : Prop :=
  if a.isTestOutput then IsTestOutputName name else IsMainOutputName name

/-- What stands behind the last build folder of the module in the location of the entry is output of
the artifact. -/
def HoldsOutput (a : Artifact) (folder : String) (e : Entry) : Prop :=
  ∃ name, FollowsLast (folder ++ "target/").toList name e.location.toList ∧ IsOutputName a name

theorem isOutputName_iff :
    (name == (explodedFolder a).toList || isPackaged a name) = true ↔ IsOutputName a name := by
  have htests : testArchiveEnd <:+ name → archiveEnd <:+ name :=
    List.IsSuffix.trans ⟨"-tests".toList, rfl⟩
  simp only [Bool.or_eq_true, beq_iff_eq, isPackaged, Bool.and_eq_true, Bool.not_eq_true',
    List.contains_eq_mem, decide_eq_false_iff_not, List.isSuffixOf_iff_suffix, IsOutputName]
  cases ht : a.isTestOutput with
  | true =>
    simp only [explodedFolder, ht, if_true, List.isSuffixOf_iff_suffix, IsTestOutputName]
    exact or_congr_right ⟨fun h => ⟨h.1.1, h.2⟩, fun h => ⟨⟨h.1, htests h.2⟩, h.2⟩⟩
  | false =>
    simp only [explodedFolder, ht, Bool.false_eq_true, if_false, IsMainOutputName, and_assoc,
      ← Bool.not_eq_true, List.isSuffixOf_iff_suffix]
    rfl

theorem isModuleOutput_iff :
    isModuleOutput a (folder ++ buildFolder) e.location = true ↔ HoldsOutput a folder e := by
  have hafter (name : List Char) :
      Text.afterLast (folder ++ buildFolder).toList e.location.toList = some name ↔
        FollowsLast (folder ++ "target/").toList name e.location.toList :=
    Text.afterLast_eq_some_iff
  simp only [HoldsOutput, ← hafter, ← isOutputName_iff, isModuleOutput]
  cases Text.afterLast (folder ++ buildFolder).toList e.location.toList with
  | none => simp
  | some name => simp

/-! ## The first entry of a kind -/

/-- The first entry of a list with the property. -/
def IsFirst (p : Entry → Prop) (entries : List Entry) (e : Entry) : Prop :=
  ∃ before after, entries = before ++ e :: after ∧ p e ∧ ∀ d ∈ before, ¬ p d

/-- Where an artifact is found. -/
inductive Found (l : EntryLookup) (a : Artifact) (e : Entry) : Prop
  /-- In a repository, also if output of its module stands further in front. -/
  | repository (first : IsFirst (Mentions a) l.classpath e)
  /-- In the output of its module, if no entry mentions it. -/
  | output (folder : String) (unmentioned : ∀ d ∈ l.classpath, ¬ Mentions a d)
    (mapped : l.folders.folderFor a.identity.name = some folder)
    (first : IsFirst (HoldsOutput a folder) l.classpath e)

/-- Why an artifact is not found. -/
inductive Missing (l : EntryLookup) (a : Artifact) : LocationFault → Prop
  | noModuleFolder (unmentioned : ∀ d ∈ l.classpath, ¬ Mentions a d)
    (unmapped : l.folders.folderFor a.identity.name = none) :
    Missing l a (.noModuleFolder a l.folders)
  | noModuleOutput (folder : String) (unmentioned : ∀ d ∈ l.classpath, ¬ Mentions a d)
    (mapped : l.folders.folderFor a.identity.name = some folder)
    (absent : ∀ d ∈ l.classpath, ¬ HoldsOutput a folder d) :
    Missing l a (.noModuleOutput a (folder ++ "target/"))

theorem find?_eq_some_iff_isFirst {test : Entry → Bool} {p : Entry → Prop} {entries : List Entry}
    (h : ∀ e, test e = true ↔ p e) : entries.find? test = some e ↔ IsFirst p entries e := by
  simp only [List.find?_eq_some_iff_append, Bool.not_eq_true', ← Bool.not_eq_true, h, IsFirst]
  constructor
  · rintro ⟨he, before, after, hsplit, hbefore⟩
    exact ⟨before, after, hsplit, he, hbefore⟩
  · rintro ⟨before, after, hsplit, he, hbefore⟩
    exact ⟨he, before, after, hsplit, hbefore⟩

theorem inRepository?_eq_none : l.inRepository? a = none ↔ ∀ d ∈ l.classpath, ¬ Mentions a d := by
  simp only [inRepository?, List.find?_eq_none, Text.occurs_iff, Mentions]

/-- Output of a module is looked for entry by entry. -/
theorem find?_isModuleOutput_eq_none :
    (l.classpath.find? fun e => isModuleOutput a (folder ++ buildFolder) e.location) = none ↔
      ∀ d ∈ l.classpath, ¬ HoldsOutput a folder d := by
  simp only [List.find?_eq_none, isModuleOutput_iff]

theorem inModule_eq_ok_iff : l.inModule a = .ok e ↔
    ∃ folder, l.folders.folderFor a.identity.name = some folder ∧
      IsFirst (HoldsOutput a folder) l.classpath e := by
  refine ⟨fun h => ?_, fun ⟨folder, hfolder, hfirst⟩ => ?_⟩
  · obtain ⟨folder, hfolder, hfind⟩ := inModule_eq_ok h
    exact ⟨folder, hfolder, (find?_eq_some_iff_isFirst fun _ => isModuleOutput_iff).1 hfind⟩
  · have hfind := (find?_eq_some_iff_isFirst fun _ => isModuleOutput_iff).2 hfirst
    simp only [inModule, hfolder, hfind]

theorem inModule_eq_error_iff (hnone : l.inRepository? a = none) :
    l.inModule a = .error fault ↔ Missing l a fault := by
  have hunmentioned := inRepository?_eq_none.1 hnone
  constructor
  · intro h
    unfold inModule at h
    split at h
    · rename_i hfolder
      cases h
      exact .noModuleFolder hunmentioned hfolder
    · rename_i folder hfolder
      dsimp only at h
      split at h
      · cases h
      · rename_i hfind
        cases h
        exact .noModuleOutput folder hunmentioned hfolder (find?_isModuleOutput_eq_none.1 hfind)
  · rintro (⟨-, hfolder⟩ | ⟨folder, -, hfolder, habsent⟩)
    · simp only [inModule, hfolder]
    · simp only [inModule, hfolder, find?_isModuleOutput_eq_none.2 habsent]
      rfl

/-! ## What is found, and what is missing -/

theorem locate_eq_none_iff : l.locate a = .ok none ↔ a.isPom = true := by
  refine ⟨fun h => ?_, locate_pom⟩
  by_contra hpom
  obtain ⟨e, he⟩ := exists_entry (Bool.not_eq_true _ ▸ hpom) h
  cases he

/-- An artifact that carries code is looked up in the repository, then in its module. -/
theorem locate_of_not_isPom (hpom : a.isPom = false) : l.locate a =
    match l.inRepository? a with
    | some e => .ok (some e)
    | none => (l.inModule a).map some := by
  rw [locate, hpom]
  rfl

theorem locate_eq_some_iff : l.locate a = .ok (some e) ↔ a.isPom = false ∧ Found l a e := by
  cases hpom : a.isPom with
  | true => simp [locate_pom hpom]
  | false =>
    rw [locate_of_not_isPom hpom, eq_self, true_and]
    cases hr : l.inRepository? a with
    | some first =>
      dsimp only
      rw [Except.ok.injEq, ← hr]
      refine ⟨fun h => .repository (inRepository?_eq_some.1 h), ?_⟩
      rintro (hfirst | ⟨-, hunmentioned, -, -⟩)
      · exact inRepository?_eq_some.2 hfirst
      · rw [inRepository?_eq_none.2 hunmentioned] at hr
        cases hr
    | none =>
      have hmap : (l.inModule a).map some = .ok (some e) ↔ l.inModule a = .ok e := by
        simp [Except.map_eq_ok]
      dsimp only
      rw [hmap, inModule_eq_ok_iff]
      constructor
      · rintro ⟨folder, hfolder, hfirst⟩
        exact .output folder (inRepository?_eq_none.1 hr) hfolder hfirst
      · rintro (hfirst | ⟨folder, -, hfolder, hfirst⟩)
        · rw [inRepository?_eq_some.2 hfirst] at hr
          cases hr
        · exact ⟨folder, hfolder, hfirst⟩

theorem Missing.unmentioned (h : Missing l a fault) : l.inRepository? a = none := by
  obtain ⟨hunmentioned, -⟩ | ⟨-, hunmentioned, -, -⟩ := h
  · exact inRepository?_eq_none.2 hunmentioned
  · exact inRepository?_eq_none.2 hunmentioned

theorem locate_eq_error_iff : l.locate a = .error fault ↔ a.isPom = false ∧ Missing l a fault := by
  cases hpom : a.isPom with
  | true => simp [locate_pom hpom]
  | false =>
    rw [locate_of_not_isPom hpom, eq_self, true_and]
    constructor
    · intro h
      cases hr : l.inRepository? a with
      | some e =>
        rw [hr] at h
        cases h
      | none =>
        rw [hr] at h
        exact (inModule_eq_error_iff hr).1 (Except.map_eq_error.1 h)
    · intro h
      rw [h.unmentioned]
      exact Except.map_eq_error.2 ((inModule_eq_error_iff h.unmentioned).2 h)

/-- The fault names the artifact that was looked for. -/
theorem subject_of_locate (h : l.locate a = .error fault) : fault.subject = a.text := by
  cases (locate_eq_error_iff.1 h).2 with
  | noModuleFolder => rfl
  | noModuleOutput => rfl

/-- What is found depends on the declaration through the identity and on whether it declares test
output. -/
theorem toOption_locate_congr (hi : a.identity = b.identity)
    (ht : a.isTestOutput = b.isTestOutput) : (l.locate a).toOption = (l.locate b).toOption := by
  cases ha : l.locate a with
  | ok found => rw [locate_congr hi ht ha]
  | error fault =>
    cases hb : l.locate b with
    | ok found =>
      rw [locate_congr hi.symm ht.symm hb] at ha
      cases ha
    | error fault' => rfl

/-! ## Several artifacts -/

theorem locateAll_cons_eq_ok_iff {rest : List Artifact} {entries : List Entry} :
    l.locateAll (a :: rest) = .ok entries ↔ ∃ found others, l.locate a = .ok found ∧
      l.locateAll rest = .ok others ∧ entries = found.toList ++ others := by
  refine ⟨locateAll_cons, ?_⟩
  rintro ⟨found, others, hfound, hothers, rfl⟩
  simp only [locateAll, hfound, hothers]

/-- Every artifact that carries code has one entry, in order. -/
theorem locateAll_eq_ok_iff {artifacts : List Artifact} {entries : List Entry} :
    l.locateAll artifacts = .ok entries ↔
      List.Forall₂ (fun a e => l.locate a = .ok (some e)) (artifacts.filter (!·.isPom)) entries := by
  induction artifacts generalizing entries with
  | nil => simp [locateAll, eq_comm]
  | cons a rest ih =>
    simp only [locateAll_cons_eq_ok_iff, ih]
    cases hpom : a.isPom with
    | true =>
      rw [List.filter_cons_of_neg (by simp [hpom]), locate_pom hpom]
      constructor
      · rintro ⟨found, others, hfound, hothers, rfl⟩
        cases hfound
        exact hothers
      · exact fun h => ⟨none, entries, rfl, h, rfl⟩
    | false =>
      rw [List.filter_cons_of_pos (by simp [hpom])]
      constructor
      · rintro ⟨found, others, hfound, hothers, rfl⟩
        obtain ⟨e, rfl⟩ := exists_entry hpom hfound
        exact .cons hfound hothers
      · rintro (_ | ⟨hfound, hothers⟩)
        exact ⟨_, _, hfound, hothers, rfl⟩

theorem locateAll_eq_error_iff {artifacts : List Artifact} :
    l.locateAll artifacts = .error fault ↔
      ∃ before a after, artifacts = before ++ a :: after ∧ l.locate a = .error fault ∧
        ∀ b ∈ before, ∃ found, l.locate b = .ok found := by
  simp only [← Except.fault?_eq_some, fault?_locateAll, List.findSome?_eq_some_iff,
    Except.fault?_eq_none]

/-- **What is found first.** Look-up finds nothing for a `pom`, and for any other artifact the first
entry that mentions it or else, if none does, the first one with output of its module; otherwise it
names the artifact that is missing. So an entry stands on the class path, and which one it is
depends neither on the version nor, test output apart, on the scope. Of several artifacts each is
looked up in turn, up to the first that is missing. -/
theorem locate_finds_first (l : EntryLookup) :
    (∀ a, l.locate a = .ok none ↔ a.isPom = true) ∧
    (∀ a e, l.locate a = .ok (some e) ↔ a.isPom = false ∧ Found l a e) ∧
    (∀ a fault, l.locate a = .error fault ↔ a.isPom = false ∧ Missing l a fault) ∧
    (∀ a fault, l.locate a = .error fault → fault.subject = a.text) ∧
    (∀ a e, l.locate a = .ok (some e) → e ∈ l.classpath) ∧
    (∀ a b : Artifact, a.identity = b.identity → a.isTestOutput = b.isTestOutput →
      (l.locate a).toOption = (l.locate b).toOption) ∧
    ∀ artifacts,
      (∀ entries, l.locateAll artifacts = .ok entries ↔
        List.Forall₂ (fun a e => l.locate a = .ok (some e)) (artifacts.filter (!·.isPom)) entries) ∧
      ∀ fault, l.locateAll artifacts = .error fault ↔
        ∃ before a after, artifacts = before ++ a :: after ∧ l.locate a = .error fault ∧
          ∀ b ∈ before, ∃ found, l.locate b = .ok found := by
  refine ⟨fun _ => locate_eq_none_iff, fun _ _ => locate_eq_some_iff,
    fun _ _ => locate_eq_error_iff, fun _ _ => subject_of_locate, fun _ _ => mem_classpath,
    fun _ _ => toOption_locate_congr, fun artifacts => ⟨fun entries => ?_, fun fault => ?_⟩⟩
  · exact locateAll_eq_ok_iff
  · exact locateAll_eq_error_iff

/-- A module whose build folders are nested, and one that is in the repository as well. -/
def siblings : EntryLookup where
  classpath := [⟨"/w/lib/target/classes/", .directory⟩, ⟨"/w/core/target/classes/", .directory⟩,
    ⟨"/w/core/target/core/target/test-classes/", .directory⟩,
    ⟨"/repo/g/lib/1/lib-1.jar", .archive⟩]
  folders := .ofPairs [("lib", "/lib/"), ("core", "/core/")]

/-- The archive in the repository is found, though output of the module stands in front of it, and
another version makes no difference; what is missing is named. -/
theorem siblings_first :
    siblings.locate ⟨⟨"g", "lib", "jar"⟩, "1", .compile⟩ =
      .ok (some ⟨"/repo/g/lib/1/lib-1.jar", .archive⟩) ∧
    (siblings.locate ⟨⟨"g", "lib", "jar"⟩, "2", .test⟩).toOption =
      (siblings.locate ⟨⟨"g", "lib", "jar"⟩, "1", .compile⟩).toOption ∧
    ∃ fault, siblings.locate ⟨⟨"g", "file", "jar"⟩, "1", .test⟩ = .error fault ∧
      fault.subject = "g:file:jar:1:test" := by
  obtain ⟨-, hfound, hmissing, hsubject, -, hcongr, -⟩ := locate_finds_first siblings
  have hfirst : Found siblings ⟨⟨"g", "lib", "jar"⟩, "1", .compile⟩
      ⟨"/repo/g/lib/1/lib-1.jar", .archive⟩ := by
    refine .repository ⟨siblings.classpath.dropLast, [], rfl, ?_⟩
    simp only [Mentions, ← Text.occurs_iff]
    decide
  have habsent : Missing siblings ⟨⟨"g", "file", "jar"⟩, "1", .test⟩
      (.noModuleFolder ⟨⟨"g", "file", "jar"⟩, "1", .test⟩ siblings.folders) := by
    refine .noModuleFolder ?_ rfl
    simp only [Mentions, ← Text.occurs_iff]
    decide
  have herror := (hmissing _ _).2 ⟨rfl, habsent⟩
  exact ⟨(hfound _ _).2 ⟨rfl, hfirst⟩, hcongr _ _ rfl rfl, _, herror, hsubject _ _ herror⟩

/-! ## Test output and main output -/

/-- The endings by which output of tests is known. -/
def EndsInTests (location : List Char) : Prop :=
  "test-classes/".toList <:+ location ∨ "-tests.jar".toList <:+ location

theorem EndsInTests.of_suffix (h : EndsInTests name) (hsuffix : name <:+ other) :
    EndsInTests other :=
  h.imp (·.trans hsuffix) (·.trans hsuffix)

theorem IsTestOutputName.endsInTests (h : IsTestOutputName name) : EndsInTests name := by
  obtain rfl | ⟨-, hend⟩ := h
  · exact .inl List.suffix_rfl
  · exact .inr hend

theorem IsMainOutputName.ne_nil (h : IsMainOutputName name) : name ≠ [] := by
  rintro rfl
  obtain hfolder | ⟨-, hend, -⟩ := h
  · cases hfolder
  · exact absurd hend (by decide)

theorem not_test_folder_of_archive (hend : ".jar".toList <:+ name) :
    ¬ "test-classes/".toList <:+ name := fun h =>
  absurd (List.suffix_of_suffix_length_le hend h (by decide)) (by decide)

theorem IsMainOutputName.not_endsInTests (h : IsMainOutputName name) : ¬ EndsInTests name := by
  obtain rfl | ⟨-, hend, htests⟩ := h
  · rw [EndsInTests]
    decide
  · rintro (hfolder | harchive)
    · exact not_test_folder_of_archive hend hfolder
    · exact htests harchive

/-- An ending does not reach over a slash, if it has none but its last character. -/
theorem suffix_of_slash {ending : List Char} (hend : ending <:+ other)
    (hname : '/' :: name <:+ other) (hne : name ≠ []) (hslash : '/' ∉ ending.dropLast) :
    ending <:+ name := by
  obtain hlt | hge := Nat.lt_or_ge name.length ending.length
  · -- the ending would contain the slash
    obtain ⟨front, rfl⟩ := List.suffix_of_suffix_length_le hname hend hlt
    rw [List.dropLast_append_of_ne_nil (List.cons_ne_nil _ _), List.dropLast_cons_of_ne_nil hne]
      at hslash
    simp at hslash
  · exact List.suffix_of_suffix_length_le hend ((List.suffix_cons _ _).trans hname) hge

theorem EndsInTests.of_slash (h : EndsInTests other) (hname : '/' :: name <:+ other)
    (hne : name ≠ []) : EndsInTests name :=
  h.imp (suffix_of_slash · hname hne (by decide)) (suffix_of_slash · hname hne (by decide))

/-- Behind the last of several build folders, a slash stands in front of what is left. -/
theorem slash_suffix {location : List Char}
    (hlast : FollowsLast (folder ++ "target/").toList name location)
    (hother : Follows (folder ++ "target/").toList other location) :
    name = other ∨ '/' :: name <:+ other := by
  have hslash : '/' :: name <:+ (folder ++ "target/").toList ++ name := by
    rw [String.toList_append, List.append_assoc]
    exact List.suffix_append_of_suffix ⟨"target".toList, rfl⟩
  obtain heq | hlt := Nat.eq_or_lt_of_le (hlast.2 other hother)
  · exact .inl ((hlast.suffix hother).eq_of_length heq)
  · exact .inr (List.suffix_of_suffix_length_le (hslash.trans hlast.1)
      ((List.suffix_append _ _).trans hother) hlt)

/-- The output of an artifact ends as it should behind every build folder of its module. -/
theorem HoldsOutput.endsInTests_iff (h : HoldsOutput a folder e)
    (hother : Follows (folder ++ "target/").toList other e.location.toList) :
    EndsInTests other ↔ a.isTestOutput = true := by
  obtain ⟨name, hlast, hname⟩ := h
  unfold IsOutputName at hname
  split at hname
  · rename_i htests
    exact iff_of_true (hname.endsInTests.of_suffix (hlast.suffix hother)) htests
  · rename_i hmain
    refine iff_of_false (fun hend => hname.not_endsInTests ?_) hmain
    obtain rfl | hslash := slash_suffix hlast hother
    · exact hend
    · exact hend.of_slash hslash hname.ne_nil

/-- What is found without a repository is output of the module. -/
theorem holdsOutput_of_locate (h : l.locate a = .ok (some e))
    (hunmentioned : ∀ d ∈ l.classpath, ¬ Mentions a d)
    (hfolder : l.folders.folderFor a.identity.name = some folder) : HoldsOutput a folder e := by
  obtain ⟨before, after, hsplit, hfirst, -⟩ | ⟨folder', -, hfolder', -, -, -, hfirst, -⟩ :=
    (locate_eq_some_iff.1 h).2
  · exact absurd hfirst (hunmentioned e (by simp [hsplit]))
  · rw [hfolder, Option.some.injEq] at hfolder'
    rw [hfolder']
    exact hfirst

/-- **Test output and main output of a module are kept apart.** Of two artifacts with the same module
folder that no entry mentions, one is test output and the other is not. Wherever the build folder of
the module occurs in the entry of the first, neither the folder of main output nor an archive other
than of tests stands behind it, and the other way round for the second. So they have different
entries. -/
theorem outputs_apart (htests : a.isTestOutput = true) (hmain : b.isTestOutput = false)
    (hfolder : l.folders.folderFor a.identity.name = some folder)
    (hfolder' : l.folders.folderFor b.identity.name = some folder)
    (hunmentioned : ∀ d ∈ l.classpath, ¬ Mentions a d ∧ ¬ Mentions b d) :
    (∀ e, l.locate a = .ok (some e) → HoldsOutput a folder e ∧
      ∀ name, Follows (folder ++ "target/").toList name e.location.toList →
        name ≠ "classes/".toList ∧ (name.getLast? ≠ some '/' → "-tests.jar".toList <:+ name)) ∧
    (∀ e, l.locate b = .ok (some e) → HoldsOutput b folder e ∧
      ∀ name, Follows (folder ++ "target/").toList name e.location.toList →
        name ≠ "test-classes/".toList ∧ ¬ "-tests.jar".toList <:+ name) ∧
    ∀ d e, l.locate a = .ok (some d) → l.locate b = .ok (some e) → d.location ≠ e.location := by
  have ha (e : Entry) (he : l.locate a = .ok (some e)) : HoldsOutput a folder e :=
    holdsOutput_of_locate he (fun d hd => (hunmentioned d hd).1) hfolder
  have hb (e : Entry) (he : l.locate b = .ok (some e)) : HoldsOutput b folder e :=
    holdsOutput_of_locate he (fun d hd => (hunmentioned d hd).2) hfolder'
  refine ⟨fun e he => ⟨ha e he, fun name hname => ?_⟩, fun e he => ⟨hb e he, fun name hname => ?_⟩,
    fun d e hd he hsame => ?_⟩
  · have hend := ((ha e he).endsInTests_iff hname).2 htests
    constructor
    · rintro rfl
      revert hend
      rw [EndsInTests]
      decide
    · refine fun harchive => hend.resolve_left ?_
      rintro ⟨front, rfl⟩
      exact harchive (by simp)
  · have hend : ¬ EndsInTests name := by
      rw [(hb e he).endsInTests_iff hname, hmain]
      exact Bool.false_ne_true
    refine ⟨?_, fun harchive => hend (.inr harchive)⟩
    rintro rfl
    exact hend (.inl List.suffix_rfl)
  · obtain ⟨name, hlast, -⟩ := ha d hd
    have hend := ((ha d hd).endsInTests_iff hlast.1).2 htests
    rw [hsame] at hlast
    rw [(hb e he).endsInTests_iff hlast.1, hmain] at hend
    cases hend

/-- Main output and test output of `core`, the folder of the latter within a second build folder. -/
theorem siblings_apart :
    ∃ d e, siblings.locate ⟨⟨"g", "core", "test-jar"⟩, "1", .test⟩ = .ok (some d) ∧
      siblings.locate ⟨⟨"g", "core", "jar"⟩, "1", .compile⟩ = .ok (some e) ∧
      d.location = "/w/core/target/core/target/test-classes/" ∧ d.location ≠ e.location ∧
      HoldsOutput ⟨⟨"g", "core", "test-jar"⟩, "1", .test⟩ "/core/" d := by
  have hunmentioned : ∀ d ∈ siblings.classpath,
      ¬ Mentions ⟨⟨"g", "core", "test-jar"⟩, "1", .test⟩ d ∧
        ¬ Mentions ⟨⟨"g", "core", "jar"⟩, "1", .compile⟩ d := by
    simp only [Mentions, ← Text.occurs_iff]
    decide
  have htests : siblings.locate ⟨⟨"g", "core", "test-jar"⟩, "1", .test⟩ =
      .ok (some ⟨"/w/core/target/core/target/test-classes/", .directory⟩) := rfl
  have hmain : siblings.locate ⟨⟨"g", "core", "jar"⟩, "1", .compile⟩ =
      .ok (some ⟨"/w/core/target/classes/", .directory⟩) := rfl
  have hfolder (kind : String) :
      siblings.folders.folderFor (⟨"g", "core", kind⟩ : Identity).name = some "/core/" := rfl
  obtain ⟨hfirst, -, hapart⟩ := outputs_apart rfl rfl (hfolder "test-jar") (hfolder "jar")
    hunmentioned
  exact ⟨_, _, htests, hmain, rfl, hapart _ _ htests hmain, (hfirst _ htests).1⟩

end EntryLookup

end TierIsolation
