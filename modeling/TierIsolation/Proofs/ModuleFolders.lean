import TierIsolation.EntryLookup
import TierIsolation.Proofs.Text

/-!
# The normal form of module folders

Every folder that a mapping gives is in normal form (`IsNormal`), whatever the mapping was built
from (`Built`). A folder in normal form is left as it is (`normalize_eq_self`), so a mapping that is
built anew from its own folders is the same mapping (`RebuiltFrom.eq`). `folders_normal` puts this
together.
-/

namespace TierIsolation.ModuleFolders

/-! ## Folders -/

/-- The normal form of a folder: no backslash, and a slash at each end which stands alone there. -/
def IsNormal (folder : List Char) : Prop :=
  '\\' ∉ folder ∧ (folder = ['/'] ∨ ∃ inner, folder = '/' :: inner ++ ['/'] ∧ inner ≠ [] ∧
    inner.head? ≠ some '/' ∧ inner.getLast? ≠ some '/')

theorem isNormal_normalize (folder : String) : IsNormal (normalize folder).toList := by
  have hsubset :=
    (Text.dropBothWhile_infix (· == '/') (Text.slashes (Text.trim folder.toList))).subset
  obtain ⟨hhead, hlast⟩ :=
    Text.stripped_dropBothWhile (· == '/') (Text.slashes (Text.trim folder.toList))
  have hbackslash := Text.not_mem_slashes (Text.trim folder.toList)
  simp only [normalize]
  generalize Text.dropBothWhile (· == '/') (Text.slashes (Text.trim folder.toList)) = inner at *
  split
  · exact ⟨by decide, .inl rfl⟩
  · rename_i hne
    rw [String.toList_ofList]
    refine ⟨?_, .inr ⟨inner, rfl, by simpa using hne, ?_, ?_⟩⟩
    · simpa using fun hmem => hbackslash (hsubset hmem)
    · exact fun h => absurd (hhead '/' h) (by decide)
    · exact fun h => absurd (hlast '/' h) (by decide)

/-- White space is removed first, but the slashes at the ends keep all other white space inside. -/
theorem normalize_eq_self {folder : String} (h : IsNormal folder.toList) :
    normalize folder = folder := by
  obtain ⟨hbackslash, hends⟩ := h
  have hstripped : Text.Stripped Text.isBlank folder.toList := by
    obtain hone | ⟨inner, hinner, -⟩ := hends
    · rw [hone]
      exact Text.stripped_of_ends rfl rfl rfl rfl
    · rw [hinner]
      exact Text.stripped_of_ends rfl List.getLast?_concat rfl rfl
  rw [normalize, Text.trim_of_stripped hstripped, Text.slashes_eq_self hbackslash]
  obtain hone | ⟨inner, hinner, hne, hhead, hlast⟩ := hends
  · rw [← String.toList_inj, hone]
    rfl
  · have hslash : ∀ c ∈ ['/'], (c == '/') = true := by simp
    have hinside : Text.Stripped (· == '/') inner :=
      ⟨fun c hc => beq_false_of_ne (by rintro rfl; exact hhead hc),
        fun c hc => beq_false_of_ne (by rintro rfl; exact hlast hc)⟩
    have hdrop : Text.dropBothWhile (· == '/') folder.toList = inner := by
      rw [hinner, ← List.singleton_append, List.append_assoc,
        Text.dropBothWhile_of_all_append hslash, Text.dropBothWhile_append_of_all hslash,
        hinside.dropBothWhile_eq]
    simp only [hdrop, List.isEmpty_iff, if_neg hne]
    rw [← hinner, String.ofList_toList]

/-! ## Mappings -/

/-- The mappings that can be built: from pairs of a name and a folder, by adding a folder for one
more name, and with one folder for every name. -/
inductive Built : ModuleFolders → Prop
  | ofPairs (pairs : List (String × String)) : Built (.ofPairs pairs)
  | withFolder {folders : Table String} (h : Built (.byName folders)) (name folder : String) :
    Built (.byName (withFolder folders name folder))
  | fixed (folder : String) : Built (.fixed folder)

variable {m : ModuleFolders} {pairs : List (String × String)} {name folder : String}

/-- To list all pairs and to add one after the other is the same. -/
theorem ofPairs_eq_foldl (pairs : List (String × String)) :
    ofPairs pairs = .byName
      (pairs.foldl (fun folders (name, folder) => withFolder folders name folder) .empty) := by
  rw [ofPairs, Table.ofList, List.foldl_map]
  rfl

/-- A name has the folder of its last pair. -/
theorem folderFor_ofPairs (front : List (String × String)) {back : List (String × String)}
    (hback : ∀ pair ∈ back, pair.1 ≠ name) :
    (ofPairs (front ++ (name, folder) :: back)).folderFor name = some (normalize folder) := by
  rw [ofPairs, folderFor, Table.get?_ofList_eq_some_iff, List.map_append, List.map_cons]
  exact ⟨_, _, rfl, List.forall_mem_map.2 hback⟩

theorem folderFor_ofPairs_eq_none (h : ∀ pair ∈ pairs, pair.1 ≠ name) :
    (ofPairs pairs).folderFor name = Option.none := by
  rw [ofPairs, folderFor, Table.get?_ofList_eq_none_iff]
  exact List.forall_mem_map.2 h

theorem Built.isNormal (h : Built m) (hfolder : m.folderFor name = some folder) :
    IsNormal folder.toList := by
  induction h with
  | ofPairs pairs =>
    obtain ⟨front, back, hpairs, -⟩ := Table.get?_ofList_eq_some_iff.1 hfolder
    have hmem : (name, folder) ∈ pairs.map fun (name, folder) => (name, normalize folder) := by
      rw [hpairs]
      simp
    obtain ⟨⟨_, given⟩, -, hsame⟩ := List.mem_map.1 hmem
    cases hsame
    exact isNormal_normalize given
  | withFolder h other given ih =>
    simp only [folderFor, ModuleFolders.withFolder, Table.get?_insert] at hfolder
    split at hfolder
    · cases hfolder
      exact isNormal_normalize given
    · exact ih hfolder
  | fixed given =>
    cases hfolder
    exact isNormal_normalize given

/-- A mapping is built anew from the folders that another one gives: from all its names with their
folders, listed in whatever order, or from the one folder that it gives for every name. -/
inductive RebuiltFrom : ModuleFolders → ModuleFolders → Prop
  | pairs {folders : Table String} {pairs : List (String × String)}
    (h : ∀ name folder, (name, folder) ∈ pairs ↔ folders.get? name = some folder) :
    RebuiltFrom (.byName folders) (.ofPairs pairs)
  | fixed {folder given name : String} (h : (always folder).folderFor name = some given) :
    RebuiltFrom (.always folder) (.fixed given)

/-- A mapping that is built anew from its own folders is the same mapping. -/
theorem RebuiltFrom.eq {m' : ModuleFolders} (h : RebuiltFrom m m') (hbuilt : Built m) : m' = m := by
  cases h with
  | pairs hpairs =>
    rename_i folders pairs
    have hkeep : ∀ pair ∈ pairs, (pair.1, normalize pair.2) = id pair := by
      rintro ⟨name, folder⟩ hpair
      rw [normalize_eq_self (hbuilt.isNormal ((hpairs name folder).1 hpair))]
      rfl
    have hlist : (pairs.map fun (name, folder) => (name, normalize folder)) = pairs := by
      rw [List.map_congr_left hkeep, List.map_id]
    rw [ofPairs, hlist, Table.ofList_eq_of_mem_iff hpairs]
  | fixed hgiven =>
    rw [ModuleFolders.fixed, normalize_eq_self (hbuilt.isNormal hgiven)]
    cases hgiven
    rfl

/-- **Folders are in normal form, whatever a mapping is built from.** It makes no difference whether
pairs are listed or added one after the other: each name has the folder of its last pair. Every
folder that a mapping gives has slashes only, with one at each end, and is left as it is when it is
given to a mapping again. So all artifacts have the same entries, or the same faults, with a mapping
that is built anew from the folders of the first. -/
theorem folders_normal :
    (∀ pairs, ofPairs pairs = .byName
      (pairs.foldl (fun folders (name, folder) => withFolder folders name folder) .empty)) ∧
    (∀ front name folder back, (∀ pair ∈ back, pair.1 ≠ name) →
      (ofPairs (front ++ (name, folder) :: back)).folderFor name = some (normalize folder)) ∧
    (∀ pairs name, (∀ pair ∈ pairs, pair.1 ≠ name) →
      (ofPairs pairs).folderFor name = Option.none) ∧
    ∀ m, Built m →
      (∀ name folder, m.folderFor name = some folder →
        IsNormal folder.toList ∧ normalize folder = folder) ∧
      ∀ m', RebuiltFrom m m' → m' = m ∧ ∀ classpath a,
        (EntryLookup.mk classpath m').locate a = (EntryLookup.mk classpath m).locate a := by
  refine ⟨ofPairs_eq_foldl, fun front _ _ _ => folderFor_ofPairs front,
    fun _ _ => folderFor_ofPairs_eq_none, fun m hbuilt => ⟨fun name folder hfolder => ?_, ?_⟩⟩
  · have hnormal := hbuilt.isNormal hfolder
    exact ⟨hnormal, normalize_eq_self hnormal⟩
  · intro m' hrebuilt
    have hsame := hrebuilt.eq hbuilt
    refine ⟨hsame, fun classpath a => ?_⟩
    rw [hsame]

/-- Folders with white space and slashes at their ends, two of them for one name. -/
def untidy : List (String × String) :=
  [("core", "core"), ("app", " \\ \\ "), ("core", "\t//modules\\core /")]

/-- The folders of `untidy` in normal form, in another order. -/
theorem untidy_rebuilt :
    Built (ofPairs untidy) ∧ (ofPairs untidy).folderFor "core" = some "/modules/core /" ∧
    RebuiltFrom (ofPairs untidy) (ofPairs [("core", "/modules/core /"), ("app", "/ /")]) ∧
    IsNormal "/modules/core /".toList ∧ normalize "/modules/core /" = "/modules/core /" ∧
    ofPairs [("core", "/modules/core /"), ("app", "/ /")] = ofPairs untidy := by
  have hcore : (ofPairs untidy).folderFor "core" = some "/modules/core /" := rfl
  have hrebuilt : RebuiltFrom (ofPairs untidy)
      (ofPairs [("core", "/modules/core /"), ("app", "/ /")]) := by
    refine .pairs fun name folder => ?_
    rw [← Table.mem_entries]
    have hentries :
        (Table.ofList (untidy.map fun (name, folder) => (name, normalize folder))).entries =
          [("app", "/ /"), ("core", "/modules/core /")] := rfl
    rw [hentries]
    simp [or_comm]
  obtain ⟨-, -, -, hall⟩ := folders_normal
  obtain ⟨hfolders, hsame⟩ := hall (ofPairs untidy) (.ofPairs untidy)
  exact ⟨.ofPairs untidy, hcore, hrebuilt, (hfolders _ _ hcore).1, (hfolders _ _ hcore).2,
    (hsame _ hrebuilt).1⟩

end TierIsolation.ModuleFolders
