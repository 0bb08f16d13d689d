import TierIsolation.Opener.Disk
import TierIsolation.Proofs.Text

/-!
# The normal form of entry locations

The location of an entry that was read from a text is in normal form (`IsNormal`), so the entry is
read again from its location (`ofText_location`). Whatever is an archive by its location has a
format that can be read: the extensions of archives are those of the formats
(`exists_ofExtension?_iff`). `locations_normal` puts this together.
-/

namespace TierIsolation

namespace Path

variable {path : List Char}

theorem getLast?_asFolder (path : List Char) : (asFolder path).getLast? = some '/' := by
  unfold asFolder
  split
  · assumption
  · exact List.getLast?_concat

theorem asFolder_eq_self (h : path.getLast? = some '/') : asFolder path = path := if_pos h

theorem mem_asFolder {c : Char} (h : c ∈ asFolder path) : c ∈ path ∨ c = '/' := by
  unfold asFolder at h
  split at h
  · exact .inl h
  · simpa using h

theorem stripped_asFolder (h : Text.Stripped Text.isBlank path) :
    Text.Stripped Text.isBlank (asFolder path) := by
  constructor
  · unfold asFolder
    split
    · exact h.1
    · cases path with
      | nil =>
        rintro c ⟨⟩
        rfl
      | cons c rest => exact h.1
  · rw [getLast?_asFolder]
    rintro c ⟨⟩
    rfl

end Path

/-! ## Formats -/

namespace Opener

/-- The extensions of archives are the ones that name a format. -/
theorem exists_ofExtension?_iff {extension : List Char} :
    (∃ format, ArchiveFormat.ofExtension? extension = some format) ↔
      extension ∈ Entry.archiveExtensions := by
  unfold ArchiveFormat.ofExtension?
  split
  · simp_all [Entry.archiveExtensions]
  · split
    · simp_all [Entry.archiveExtensions]
    · simp_all [Entry.archiveExtensions]

theorem exists_formatOf?_of_namesArchive {location : String}
    (h : Entry.namesArchive location.toList = true) :
    ∃ format, formatOf? location = some format := by
  rw [Entry.namesArchive, Bool.and_eq_true] at h
  obtain ⟨-, h⟩ := h
  split at h
  · rename_i extension hextension
    rw [formatOf?, hextension, Option.getD_some]
    exact exists_ofExtension?_iff.2 (List.contains_iff_mem.1 h)
  · cases h

/-- An archive is refused if it is there and its location names no format. -/
theorem contentsOf_eq_unsupported_iff {readers : Archive.Readers} {fs : FileSystem} {e : Entry}
    {location : String} :
    contentsOf readers fs e = .error (.unsupportedFormat location) ↔
      e.kind = .archive ∧ (∃ file, fs.lookup e.location.toList = .ok (.file file)) ∧
        formatOf? e.location = none ∧ location = e.location := by
  rw [contentsOf]
  cases hkind : e.kind with
  | directory => simp
  | archive =>
    dsimp only
    split
    · rename_i file hfile
      rw [openArchive]
      cases formatOf? e.location with
      | some format =>
        dsimp only
        cases format.openFile readers file <;> simp [Except.map, Except.mapError]
      | none => simp [hfile, eq_comm]
    · rename_i hnone
      simpa using fun file hfile => absurd hfile (hnone file)

end Opener

/-! ## Entries -/

namespace Entry

/-- The normal form of a location: no backslash and no white space around it. -/
def IsNormal (location : List Char) : Prop :=
  '\\' ∉ location ∧ Text.Stripped Text.isBlank location

theorem isNormal_slashes_trim (s : List Char) : IsNormal (Text.slashes (Text.trim s)) :=
  ⟨Text.not_mem_slashes _, (Text.stripped_trim s).slashes⟩

theorem IsNormal.slashes_trim {s : List Char} (h : IsNormal s) :
    Text.slashes (Text.trim s) = s := by
  rw [Text.trim_of_stripped h.2, Text.slashes_eq_self h.1]

theorem IsNormal.asFolder {s : List Char} (h : IsNormal s) : IsNormal (Path.asFolder s) := by
  refine ⟨fun hmem => ?_, Path.stripped_asFolder h.2⟩
  obtain hmem | hslash := Path.mem_asFolder hmem
  · exact h.1 hmem
  · cases hslash

theorem namesArchive_of_getLast? {s : List Char} (h : s.getLast? = some '/') :
    namesArchive s = false := by
  simp [namesArchive, h]

/-- The kind of an entry is told from the normal form of its location. -/
theorem ofText_eq {x : String} {s : List Char} (h : Text.slashes (Text.trim x.toList) = s) :
    ofText x = if namesArchive s then ⟨.ofList s, .archive⟩
      else ⟨.ofList (Path.asFolder s), .directory⟩ := by
  have hs : Text.slashes s = s := Text.slashes_eq_self (h ▸ Text.not_mem_slashes _)
  rw [ofText, h]
  simp only [archive, directory, String.toList_ofList, hs]

/-- An entry that is read from a text has a location in normal form, which ends in a slash if it is
a directory, and otherwise names an archive. -/
theorem ofText_cases (x : String) : ∃ s, IsNormal s ∧ (ofText x).location = .ofList s ∧
    ((ofText x).kind = .archive ∧ namesArchive s = true ∨
      (ofText x).kind = .directory ∧ s.getLast? = some '/') := by
  have hnormal := isNormal_slashes_trim x.toList
  rw [ofText_eq rfl]
  split
  · rename_i harchive
    exact ⟨_, hnormal, rfl, .inl ⟨rfl, harchive⟩⟩
  · exact ⟨_, hnormal.asFolder, rfl, .inr ⟨rfl, Path.getLast?_asFolder _⟩⟩

/-- An entry is read again from its location. -/
theorem ofText_location (x : String) : ofText (ofText x).location = ofText x := by
  obtain ⟨s, hnormal, hlocation, hkind⟩ := ofText_cases x
  have hs : Text.slashes (Text.trim (String.ofList s).toList) = s := by
    rw [String.toList_ofList, hnormal.slashes_trim]
  have hentry (kind : EntryKind) (h : (ofText x).kind = kind) : ofText x = ⟨.ofList s, kind⟩ := by
    rw [← hlocation, ← h]
  rw [hlocation, ofText_eq hs]
  obtain ⟨hkind, harchive⟩ | ⟨hkind, hlast⟩ := hkind
  · rw [if_pos harchive, hentry _ hkind]
  · rw [namesArchive_of_getLast? hlast, Path.asFolder_eq_self hlast, hentry _ hkind]
    rfl

/-- A directory has one location, also if it is given with backslashes or without its last slash. -/
theorem directory_location (x : String) : directory (directory x).location = directory x := by
  have hslashes : '\\' ∉ Path.asFolder (Text.slashes x.toList) := by
    intro hmem
    obtain hmem | hslash := Path.mem_asFolder hmem
    · exact Text.not_mem_slashes _ hmem
    · cases hslash
  simp only [directory, String.toList_ofList, Text.slashes_eq_self hslashes,
    Path.asFolder_eq_self (Path.getLast?_asFolder _)]

/-- **Locations have a normal form.** An entry that is read from a text has a location without
backslashes and without white space around it, which ends in a slash exactly if it is a directory.
It is read again from its location, so it is a member of the same tiers as before. If it is an
archive, its location names a format, and whatever is on the disk, it is not refused as unsupported.
The location of a directory always ends in a slash and gives the same directory again. -/
theorem locations_normal (x : String) :
    IsNormal (ofText x).location.toList ∧
    ((ofText x).location.toList.getLast? = some '/' ↔ (ofText x).kind = .directory) ∧
    ofText (ofText x).location = ofText x ∧
    (∀ tier : EntrySet, ofText (ofText x).location ∈ tier ↔ ofText x ∈ tier) ∧
    ((ofText x).kind = .archive → ∃ format, Opener.formatOf? (ofText x).location = some format) ∧
    (∀ fs readers history location,
      ((Opener.disk fs readers).openEntry history (ofText x)).answer ≠
        .error (.unsupportedFormat location)) ∧
    (directory x).location.toList.getLast? = some '/' ∧
    directory (directory x).location = directory x := by
  obtain ⟨s, hnormal, hlocation, hkind⟩ := ofText_cases x
  have hs : (ofText x).location.toList = s := by rw [hlocation, String.toList_ofList]
  have hformat (harchive : (ofText x).kind = .archive) :
      ∃ format, Opener.formatOf? (ofText x).location = some format := by
    refine Opener.exists_formatOf?_of_namesArchive ?_
    obtain ⟨-, hnames⟩ | ⟨hdirectory, -⟩ := hkind
    · rwa [hs]
    · rw [harchive] at hdirectory
      cases hdirectory
  refine ⟨hs ▸ hnormal, ?_, ofText_location x, fun tier => by rw [ofText_location], hformat, ?_, ?_,
    directory_location x⟩
  · rw [hs]
    obtain ⟨harchive, hnames⟩ | ⟨hdirectory, hlast⟩ := hkind
    · rw [harchive]
      refine ⟨fun hlast => ?_, fun hdirectory => by cases hdirectory⟩
      rw [namesArchive_of_getLast? hlast] at hnames
      cases hnames
    · exact ⟨fun _ => hdirectory, fun _ => hlast⟩
  · intro fs readers history location hrefused
    obtain ⟨harchive, -, hnone, -⟩ := Opener.contentsOf_eq_unsupported_iff.1 hrefused
    obtain ⟨format, hsome⟩ := hformat harchive
    rw [hsome] at hnone
    cases hnone
  · rw [directory, String.toList_ofList]
    exact Path.getLast?_asFolder _

/-- White space, backslashes and capital letters in the location of an archive. -/
example : ofText "\tC:\\repo\\lib-1.JaR " = ⟨"C:/repo/lib-1.JaR", .archive⟩ := by decide

end Entry

end TierIsolation
