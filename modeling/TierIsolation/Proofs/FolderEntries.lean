import TierIsolation.Opener.Disk
import TierIsolation.Proofs.FileSystem
import TierIsolation.Proofs.Text
import TierIsolation.Symbol

/-!
# Symbols in folders

The path of a symbol leads down from the folder that it is looked up in, unless the name of the
symbol starts with a dot or a slash. So what such an entry gives for a name depends on the files
below the folder and on nothing else (`read_directory`). A name that starts with a dot or a slash
leads out (`Symbol.LeadsOut`): its path is absolute, and the folder plays no part.
-/

namespace TierIsolation

/-! ## The path of a symbol -/

namespace Symbol

/-- The path of a symbol leads out of every folder: its name starts with a dot or a slash. -/
def LeadsOut (name : String) : Prop :=
  name.toList.head? = some '.' ∨ name.toList.head? = some '/'

instance (name : String) : Decidable (LeadsOut name) := inferInstanceAs (Decidable (_ ∨ _))

variable (name : String)

theorem toList_path (suffix : String) :
    (path name suffix).toList = Text.replace '.' '/' name.toList ++ suffix.toList := by
  rw [path, String.toList_append, String.toList_ofList]

theorem isAbsolute_path :
    Path.isAbsolute (path name ".class").toList = true ↔ LeadsOut name := by
  rw [toList_path, LeadsOut, Path.isAbsolute, decide_eq_true_eq]
  cases name.toList with
  | nil => simp [Text.replace]
  | cons c rest =>
    simp only [Text.replace, List.map_cons, List.cons_append, List.head?_cons, Option.some.injEq]
    split <;> simp_all

theorem getLast?_path : (path name ".class").toList.getLast? = some 's' := by
  rw [toList_path, List.getLast?_append]
  rfl

theorem names_path :
    (∀ n ∈ Path.names (path name ".class").toList, Path.LeadsDown n) ∧
      Path.names (path name ".class").toList ≠ [] := by
  have hsuffix : '/' ∉ ".class".toList := by decide
  obtain ⟨hall, n, hn, hend⟩ :=
    Path.mem_names_append (Text.replace '.' '/' name.toList) hsuffix (by decide)
  rw [← toList_path] at hall hn
  constructor
  · intro n hn
    obtain hfront | hend := hall n hn
    · constructor
      · rintro rfl
        exact Text.not_mem_replace (by decide) name.toList (hfront (by simp))
      · rintro rfl
        exact Text.not_mem_replace (by decide) name.toList (hfront (by simp))
    · have hlength : ".class".toList.length ≤ n.length := hend.length_le
      constructor
      · rintro rfl
        exact absurd hlength (by decide)
      · rintro rfl
        exact absurd hlength (by decide)
  · exact List.ne_nil_of_mem hn

end Symbol

/-! ## Reading -/

namespace Opener

variable {fs fs' : FileSystem}

theorem readInFolder_eq_some_iff {folder path : String} {contents : ByteArray} :
    readInFolder fs folder path = some contents ↔
      fs.read? (Path.join folder.toList path.toList) = .ok contents := by
  rw [FileSystem.read?_eq_ok_iff, ← FileSystem.lookup_eq_ok_iff, readInFolder]
  split <;> simp_all

/-- A path that starts with a slash is read where it says. -/
theorem readInFolder_of_isAbsolute {path : String} (h : Path.isAbsolute path.toList = true)
    (folder : String) : readInFolder fs folder path = (fs.read? path.toList).toOption := by
  ext contents
  rw [readInFolder_eq_some_iff, Path.join, if_pos h]
  cases fs.read? path.toList <;> simp [Except.toOption]

/-- What a folder gives for a name that does not lead out is below the folder. -/
theorem readInFolder_eq_some_iff_of_not_leadsOut (hfs : fs.Rooted) {name : String}
    (hname : ¬ Symbol.LeadsOut name) {folder : String} {contents : ByteArray} :
    readInFolder fs folder (Symbol.path name ".class") = some contents ↔
      FileSystem.Admissible (Path.join folder.toList (Symbol.path name ".class").toList) ∧
      (∀ n ∈ Path.names (Symbol.path name ".class").toList,
        FileSystem.byteLength n ≤ FileSystem.nameLimit) ∧
      fs.fileBelow? folder.toList (Path.names (Symbol.path name ".class").toList) =
        some contents := by
  obtain ⟨hdown, hnames⟩ := Symbol.names_path name
  have hrelative : Path.isAbsolute (Symbol.path name ".class").toList = false := by
    rw [← Symbol.isAbsolute_path] at hname
    exact Bool.eq_false_iff.2 hname
  have hlast : (Symbol.path name ".class").toList.getLast? ≠ some '/' := by
    rw [Symbol.getLast?_path]
    decide
  rw [readInFolder_eq_some_iff]
  exact FileSystem.read?_join_eq_ok_iff hfs hrelative hlast hnames hdown

/-- **A folder gives what is below it, for names that do not lead out.** Two file systems have the
same files below a folder. To open the entry is the same in both, and so is what it gives for the
name of a symbol, unless the name starts with a dot or a slash. Such a name is read at an absolute
path, in whatever folder it is looked up. -/
theorem read_directory (readers : Archive.Readers) (hfs : fs.Rooted) (hfs' : fs'.Rooted)
    {e : Entry} (hkind : e.kind = .directory)
    (hbelow : ∀ ns, fs.fileBelow? e.location.toList ns = fs'.fileBelow? e.location.toList ns)
    (history : History) (number : Nat) (place : Place) (name : String) :
    let h : Handle := ⟨number, place, e, .folder e.location⟩
    let path := Symbol.path name ".class"
    (disk fs readers).openEntry history e = plain (.ok h.contents) ∧
    (disk fs' readers).openEntry history e = plain (.ok h.contents) ∧
    (¬ Symbol.LeadsOut name →
      (disk fs readers).read history h path = (disk fs' readers).read history h path) ∧
    (Symbol.LeadsOut name →
      (disk fs readers).read history h path = plain (.ok (fs.read? path.toList).toOption) ∧
      (disk fs' readers).read history h path = plain (.ok (fs'.read? path.toList).toOption)) := by
  intro h path
  have hopen : ∀ fs, (disk fs readers).openEntry history e = plain (.ok h.contents) := by
    intro fs
    simp only [disk, contentsOf, hkind, h]
  have hread : ∀ fs, (disk fs readers).read history h path =
      plain (.ok (readInFolder fs e.location path)) := fun _ => rfl
  refine ⟨hopen fs, hopen fs', fun hname => ?_, fun hname => ?_⟩
  · have hsame : readInFolder fs e.location path = readInFolder fs' e.location path := by
      ext contents
      rw [readInFolder_eq_some_iff_of_not_leadsOut hfs hname,
        readInFolder_eq_some_iff_of_not_leadsOut hfs' hname, hbelow]
    rw [hread, hread, hsame]
  · have habsolute := (Symbol.isAbsolute_path name).2 hname
    rw [hread, hread, readInFolder_of_isAbsolute habsolute, readInFolder_of_isAbsolute habsolute]
    exact ⟨rfl, rfl⟩

/-- A working folder with a library in it. -/
def withFolder : FileSystem := .ofFiles [['w']] [("lib/a/Lib.class", ⟨#[1]⟩)]

/-- The same, with another file elsewhere. -/
def withSecret : FileSystem :=
  .ofFiles [['w']] [("lib/a/Lib.class", ⟨#[1]⟩), ("/tmp/Key.class", ⟨#[2]⟩)]

def libraryFolder : Entry := ⟨"lib/", .directory⟩

/-- What is on the disk of `withFolder`. -/
def folderDisk : List (List (List Char) × FileNode) :=
  [([['w'], "lib".toList, ['a'], "Lib.class".toList], .file ⟨#[1]⟩), ([], .folder),
    ([['w']], .folder), ([['w'], "lib".toList], .folder), ([['w'], "lib".toList, ['a']], .folder),
    ([], .folder), ([['w']], .folder)]

theorem withFolder_eq : withFolder = ⟨fun place => List.lookup place folderDisk, [['w']]⟩ := by
  with_unfolding_all rfl

theorem withSecret_eq : withSecret = ⟨fun place => List.lookup place
    ((["tmp".toList, "Key.class".toList], .file ⟨#[2]⟩) :: ([], .folder) :: ([], .folder) ::
      (["tmp".toList], .folder) :: folderDisk), [['w']]⟩ := by
  with_unfolding_all rfl

theorem withFolder_rooted : withFolder.Rooted := by
  rw [withFolder_eq]
  refine FileSystem.rooted_of_forall ?_
  simp [folderDisk, List.lookup_cons]

theorem withSecret_rooted : withSecret.Rooted := by
  rw [withSecret_eq]
  refine FileSystem.rooted_of_forall ?_
  simp [folderDisk, List.lookup_cons]

theorem library_fileBelow (ns : List (List Char)) :
    withFolder.fileBelow? libraryFolder.location.toList ns =
      withSecret.fileBelow? libraryFolder.location.toList ns := by
  have hfolder : withFolder.locate (Path.join libraryFolder.location.toList ['.']) =
      .ok [['w'], "lib".toList] := by with_unfolding_all rfl
  have hsecret : withSecret.locate (Path.join libraryFolder.location.toList ['.']) =
      .ok [['w'], "lib".toList] := by with_unfolding_all rfl
  simp only [FileSystem.fileBelow?, hfolder, hsecret]
  simp [withFolder_eq, withSecret_eq, List.lookup_cons]

/-- The other file makes no difference to what the library has, and is not in the library. -/
theorem library_read :
    withFolder.Rooted ∧ withSecret.Rooted ∧
    let h : Handle := ⟨0, .resolver 0, libraryFolder, .folder "lib/"⟩
    (disk withSecret).read [] h (Symbol.path "a.Lib" ".class") =
      (disk withFolder).read [] h (Symbol.path "a.Lib" ".class") ∧
    ((disk withSecret).read [] h (Symbol.path "a.Lib" ".class")).answer = .ok (some ⟨#[1]⟩) ∧
    ((disk withSecret).read [] h (Symbol.path "tmp.Key" ".class")).answer = .ok none ∧
    (disk withSecret).read [] h (Symbol.path ".tmp.Key" ".class") =
      plain (.ok (withSecret.read? "/tmp/Key.class".toList).toOption) := by
  have hread := read_directory .standard withFolder_rooted withSecret_rooted (e := libraryFolder)
    rfl library_fileBelow [] 0 (.resolver 0)
  obtain ⟨-, -, hsame, -⟩ := hread "a.Lib"
  obtain ⟨-, -, -, hout⟩ := hread ".tmp.Key"
  exact ⟨withFolder_rooted, withSecret_rooted, (hsame (by decide)).symm,
    by with_unfolding_all rfl, by with_unfolding_all rfl, (hout (by decide)).2⟩

/-- The two file systems have the same files below the library, and yet a name that starts with a
dot is found in one of them only. -/
theorem secret_revealed :
    withFolder.Rooted ∧ withSecret.Rooted ∧
    (∀ ns, withFolder.fileBelow? libraryFolder.location.toList ns =
      withSecret.fileBelow? libraryFolder.location.toList ns) ∧
    let h : Handle := ⟨0, .resolver 0, libraryFolder, .folder "lib/"⟩
    ((disk withFolder).read [] h (Symbol.path ".tmp.Key" ".class")).answer = .ok none ∧
    ((disk withSecret).read [] h (Symbol.path ".tmp.Key" ".class")).answer =
      .ok (some ⟨#[2]⟩) :=
  ⟨withFolder_rooted, withSecret_rooted, library_fileBelow, by with_unfolding_all rfl,
    by with_unfolding_all rfl⟩

end Opener

end TierIsolation
