import TierIsolation.Opener.Disk
import TierIsolation.Proofs.Success

/-!
# Reading from open archives

An archive gives the contents of the last regular member that a path stands for (`IsLast`), as its
reader reports them (`Archive.Reported`), wherever the reads before have left its file.

* `Archive.get?_indexOf_eq_some`: the index that is made when an archive is opened has the last
  member for every path, those with several spellings of one path included (`Archive.StandsFor`).
* `FileAction.StartsAnywhere`: what is relied on of a reader for zip files. It goes to a member by
  itself (`Archive.Readers.Seek`), as the reader of this library does (`standard_seek`).
* `OpenArchive.Serves`: what holds of an open archive. Opening an archive makes it so
  (`serves_openFile`), reads and releases keep it so (`Serves.read`, `Serves.release`), and so does
  whatever else happens (`Serves.now`).
* `Serves.retrieves` and `Retrieves.eq`: a read comes to this, and to nothing else.
-/

namespace TierIsolation

/-! ## The last element with a property -/

/-- The last element of a list that has a property. -/
def IsLast {α : Type} (p : α → Prop) (xs : List α) (a : α) : Prop :=
  ∃ front back, xs = front ++ a :: back ∧ p a ∧ ∀ b ∈ back, ¬ p b

namespace IsLast

variable {α β : Type} {p : α → Prop} {xs : List α} {a b : α}

theorem property (h : IsLast p xs a) : p a := by
  obtain ⟨_, _, _, ha, _⟩ := h
  exact ha

theorem mem (h : IsLast p xs a) : a ∈ xs := by
  obtain ⟨front, back, rfl, _, _⟩ := h
  exact List.mem_append_right _ List.mem_cons_self

theorem eq (ha : IsLast p xs a) (hb : IsLast p xs b) : a = b := by
  obtain ⟨front, back, rfl, hpa, hback⟩ := ha
  obtain ⟨front', back', hsame, hpb, hback'⟩ := hb
  obtain ⟨middle, rfl, hrest⟩ | ⟨middle, rfl, hrest⟩ := List.append_eq_append_iff.1 hsame
  · cases middle with
    | nil =>
      cases hrest
      rfl
    | cons c middle =>
      cases hrest
      exact absurd hpb (hback b (by simp))
  · cases middle with
    | nil =>
      cases hrest
      rfl
    | cons c middle =>
      cases hrest
      exact absurd hpa (hback' a (by simp))

theorem of_map {f : β → α} {ys : List β} (h : IsLast p (ys.map f) a) :
    ∃ y, f y = a ∧ IsLast (fun y => p (f y)) ys y := by
  obtain ⟨front, back, hsplit, ha, hback⟩ := h
  obtain ⟨first, rest, rfl, rfl, hrest⟩ := List.map_eq_append_iff.1 hsplit
  obtain ⟨y, later, rfl, rfl, rfl⟩ := List.map_eq_cons_iff.1 hrest
  exact ⟨y, rfl, first, later, rfl, ha, fun b hb => hback _ (List.mem_map_of_mem hb)⟩

theorem map {f : α → β} {q : β → Prop} (h : IsLast (fun x => q (f x)) xs a) :
    IsLast q (xs.map f) (f a) := by
  obtain ⟨front, back, rfl, ha, hback⟩ := h
  exact ⟨front.map f, back.map f, by simp, ha, List.forall_mem_map.2 hback⟩

/-- In a list with the numbers of its elements. -/
theorem of_zipIdx {i : Nat} (h : IsLast (fun x => p x.1) xs.zipIdx (a, i)) :
    xs[i]? = some a ∧ IsLast p xs a := by
  have hmem : (a, i) ∈ xs.zipIdx := h.mem
  have hfst : xs.zipIdx.map Prod.fst = xs := List.zipIdx_map_fst 0 xs
  have hlast := h.map (q := p)
  rw [hfst] at hlast
  exact ⟨List.mem_zipIdx_iff_getElem?.1 hmem, hlast⟩

end IsLast

/-! ## Open files -/

namespace OpenFile

variable {α β : Type} (f : OpenFile)

@[simp] theorem bytes_perform (action : FileAction α) : (f.perform action).2.bytes = f.bytes := rfl

theorem perform_seek (position : Nat) :
    f.perform (.seek position) =
      if FileAction.reach ≤ position then (.error .outOfReach, f)
      else (.ok (), { f with position }) := by
  unfold FileAction.seek
  split <;> rfl

theorem perform_bind (action : FileAction α) (next : α → FileAction β) :
    f.perform (action >>= next) =
      match f.perform action with
      | (.error fault, f) => (.error fault, f)
      | (.ok x, f) => f.perform (next x) := by
  simp only [perform, bind, ReaderT.bind, ExceptT.bind, ExceptT.mk, ExceptT.bindCont, StateT.bind]
  rcases action f.bytes f.position with ⟨result, position⟩
  cases result <;> rfl

end OpenFile

namespace FileAction

variable {α β : Type} {file : ByteArray} {action : FileAction α}

/-- It makes no difference to an action where the file was left before: it goes to where it starts
by itself. -/
def StartsAnywhere (action : FileAction α) (file : ByteArray) : Prop :=
  ∀ p q, ((⟨file, p⟩ : OpenFile).perform action).1 = ((⟨file, q⟩ : OpenFile).perform action).1 ∧
    ∀ x, ((⟨file, p⟩ : OpenFile).perform action).1 = .ok x →
      ((⟨file, p⟩ : OpenFile).perform action).2 = ((⟨file, q⟩ : OpenFile).perform action).2

theorem startsAnywhere_seek (position : Nat) (file : ByteArray) :
    StartsAnywhere (.seek position) file := by
  intro p q
  simp only [OpenFile.perform_seek]
  split <;> simp

theorem startsAnywhere_throw (fault : ArchiveFault) (file : ByteArray) :
    StartsAnywhere (throw fault : FileAction α) file := by
  intro p q
  exact ⟨rfl, fun x hx => by cases hx⟩

/-- Only the beginning of an action has to go to where it starts. -/
theorem StartsAnywhere.bind (h : action.StartsAnywhere file) (next : α → FileAction β) :
    StartsAnywhere (action >>= next) file := by
  intro p q
  obtain ⟨hresult, hleft⟩ := h p q
  rw [OpenFile.perform_bind, OpenFile.perform_bind]
  rcases hp : (⟨file, p⟩ : OpenFile).perform action with ⟨result, f⟩
  rcases hq : (⟨file, q⟩ : OpenFile).perform action with ⟨result', f'⟩
  rw [hp, hq] at hresult
  obtain rfl : result = result' := hresult
  cases result with
  | error fault => exact ⟨rfl, fun x hx => by cases hx⟩
  | ok x =>
    have hsame : f = f' := by simpa [hp, hq] using hleft x (by rw [hp])
    rw [hsame]
    exact ⟨rfl, fun _ _ => rfl⟩

end FileAction

namespace Archive

/-! ## What readers report -/

/-- A member of an archive, as the reader of its format reports it. -/
structure Reported where
  name : List Char
  isRegular : Bool
  /-- The recorded size of the contents. -/
  size : Nat
  /-- Whether the contents can be gone to. -/
  entered : Except ArchiveFault Unit
  /-- What is unpacked there. -/
  unpacked : Except ArchiveFault ByteArray

/-- What is reported of a member, with its contents as a list. -/
def Reported.fields (m : Reported) : List Char × Bool × Nat × Except ArchiveFault Unit ×
    Except ArchiveFault (List UInt8) :=
  (m.name, m.isRegular, m.size, m.entered, m.unpacked.map (·.data.toList))

theorem Reported.fields_eq_iff {m m' : Reported} : m.fields = m'.fields ↔ m = m' := by
  constructor
  · obtain ⟨name, isRegular, size, entered, unpacked⟩ := m
    obtain ⟨name', isRegular', size', entered', unpacked'⟩ := m'
    simp only [fields, Prod.mk.injEq]
    rintro ⟨rfl, rfl, rfl, rfl, hbytes⟩
    cases unpacked <;> cases unpacked' <;> simp_all [Except.map, ByteArray.ext_iff]
  · rintro rfl
    rfl

instance : DecidableEq Reported := fun _ _ => decidable_of_iff _ Reported.fields_eq_iff

/-- The contents of a member, or why they cannot be read. -/
def Reported.contents (m : Reported) : Except ArchiveFault ByteArray :=
  m.entered.bind fun _ => m.unpacked

/-- The contents of a member can be gone to, but no memory can be set aside for as much as is
recorded of them. -/
def Reported.Oversized (m : Reported) : Prop := m.entered = .ok () ∧ OpenFile.capacity ≤ m.size

/-- The contents of a tar member stand in the file. -/
def TarMember.reported (file : ByteArray) (m : TarMember) : Reported where
  name := m.name
  isRegular := m.isFile
  size := m.extent.size
  entered := if FileAction.reach ≤ m.extent.offset then .error .outOfReach else .ok ()
  unpacked := .ok (file.extract m.extent.offset (m.extent.offset + m.extent.size))

/-- The contents of a zip member are what its reader makes of a file that was just opened. -/
def ZipMember.reported (file : ByteArray) (m : ZipMember) : Reported where
  name := m.name
  isRegular := !m.isDirectory
  size := m.size
  entered := ((⟨file, 0⟩ : OpenFile).perform m.enter).1
  unpacked := (((⟨file, 0⟩ : OpenFile).perform m.enter).2.perform m.unpack).1

/-- The reader for zip files goes to every member by itself, wherever the file was left. -/
def Readers.Seek (readers : Readers) : Prop :=
  ∀ file members position, readers.zip file = .ok (members, position) →
    ∀ m ∈ members, m.enter.StartsAnywhere file

theorem Zip.startsAnywhere_glance (e : Zip.DirectoryEntry) (file : ByteArray) :
    (Zip.glance e).StartsAnywhere file :=
  (FileAction.startsAnywhere_seek e.start file).bind _

theorem Zip.startsAnywhere_enter (e : Zip.DirectoryEntry) (file : ByteArray) :
    (Zip.enter e).StartsAnywhere file := by
  rw [Zip.enter]
  split
  · exact (FileAction.startsAnywhere_throw _ file).bind _
  · exact (Zip.startsAnywhere_glance e file).bind _

theorem standard_seek : Readers.standard.Seek := by
  intro file members position hlist m hm
  obtain ⟨⟨entries, _⟩, -, hmap⟩ := Except.map_eq_ok.1 hlist
  cases hmap
  obtain ⟨e, -, rfl⟩ := List.mem_map.1 hm
  exact Zip.startsAnywhere_enter e file

/-! ## Names -/

/-- The name of a member stands for this path: written with slashes, it is the path behind any
number of `./`, all that there are. -/
def StandsFor (name path : List Char) : Prop :=
  ∃ n, Text.slashes name = (List.replicate n ['.', '/']).flatten ++ path ∧ ¬ ['.', '/'] <+: path

variable {name path s : List Char}

theorem dropHere_append (n : Nat) (s : List Char) :
    dropHere ((List.replicate n ['.', '/']).flatten ++ s) = dropHere s := by
  induction n with
  | zero => rfl
  | succ n ih =>
    rw [List.replicate_succ, List.flatten_cons, List.append_assoc]
    exact ih

theorem exists_dropHere (s : List Char) :
    ∃ n, s = (List.replicate n ['.', '/']).flatten ++ dropHere s ∧ ¬ ['.', '/'] <+: dropHere s := by
  fun_induction dropHere s with
  | case1 rest ih =>
    obtain ⟨n, hrest, hend⟩ := ih
    refine ⟨n + 1, ?_, hend⟩
    conv_lhs => rw [hrest]
    rfl
  | case2 s hother =>
    refine ⟨0, rfl, ?_⟩
    rintro ⟨rest, rfl⟩
    exact hother rest rfl

theorem dropHere_eq_self (h : ¬ ['.', '/'] <+: s) : dropHere s = s := by
  obtain ⟨n, hs, -⟩ := exists_dropHere s
  cases n with
  | zero => exact hs.symm
  | succ n =>
    refine absurd ?_ h
    rw [hs]
    exact ⟨_, rfl⟩

theorem normalName_eq_iff : normalName name = path ↔ StandsFor name path := by
  constructor
  · rintro rfl
    exact exists_dropHere (Text.slashes name)
  · rintro ⟨n, hname, hpath⟩
    rw [normalName, hname, dropHere_append, dropHere_eq_self hpath]

/-! ## The index -/

/-- A regular member whose name stands for the path. -/
def IsAt (path : String) (name : List Char) (isRegular : Bool) : Prop :=
  isRegular = true ∧ StandsFor name path.toList

def Listed.IsAt {ι : Type} (path : String) (m : Listed ι) : Prop :=
  Archive.IsAt path m.name m.isRegular

def Reported.IsAt (path : String) (m : Reported) : Prop := Archive.IsAt path m.name m.isRegular

section Index

variable {ι : Type} {path : String} {place : ι} {m : Listed ι} {listed : List (Listed ι)}

theorem indexed?_eq_some_iff :
    m.indexed? = some (path, place) ↔ m.IsAt path ∧ m.place = place := by
  rw [Listed.indexed?, Listed.IsAt, IsAt, ← normalName_eq_iff]
  cases m.isRegular with
  | false => simp
  | true => simp [← String.toList_inj]

theorem forall_mem_indexed :
    (∀ pair ∈ listed.filterMap Listed.indexed?, pair.1 ≠ path) ↔ ∀ m ∈ listed, ¬ m.IsAt path := by
  constructor
  · intro h m hm hat
    exact h (path, m.place) (List.mem_filterMap.2 ⟨m, hm, indexed?_eq_some_iff.2 ⟨hat, rfl⟩⟩) rfl
  · rintro h ⟨_, place⟩ hpair rfl
    obtain ⟨m, hm, hindexed⟩ := List.mem_filterMap.1 hpair
    exact h m hm (indexed?_eq_some_iff.1 hindexed).1

/-- The index leads to the last of the members that are at a path. -/
theorem get?_indexOf_eq_some (h : (indexOf listed).get? path = some place) :
    ∃ m, IsLast (Listed.IsAt path) listed m ∧ m.place = place := by
  obtain ⟨front, back, hsplit, hback⟩ := Table.get?_ofList_eq_some_iff.1 h
  obtain ⟨first, rest, rfl, rfl, hrest⟩ := List.filterMap_eq_append_iff.1 hsplit
  obtain ⟨passed, found, later, rfl, -, hfound, rfl⟩ := List.filterMap_eq_cons_iff.1 hrest
  obtain ⟨hat, rfl⟩ := indexed?_eq_some_iff.1 hfound
  exact ⟨found, ⟨first ++ passed, later, by simp, hat, forall_mem_indexed.1 hback⟩, rfl⟩

theorem get?_indexOf_eq_none :
    (indexOf listed).get? path = none ↔ ∀ m ∈ listed, ¬ m.IsAt path := by
  rw [indexOf, Table.get?_ofList_eq_none_iff, forall_mem_indexed]

/-! ### Of tar and zip members -/

theorem exists_tarMember {members : List TarMember} {place : Extent}
    (h : (indexOf (members.map (·.listed))).get? path = some place) (file : ByteArray) :
    ∃ m : TarMember, m.extent = place ∧
      IsLast (Reported.IsAt path) (members.map (·.reported file)) (m.reported file) := by
  obtain ⟨_, last, hplace⟩ := get?_indexOf_eq_some h
  obtain ⟨m, rfl, hm⟩ := last.of_map
  have hreported : IsLast (fun m => (TarMember.reported file m).IsAt path) members m := hm
  exact ⟨m, hplace, hreported.map⟩

theorem forall_not_isAt_tarMember {members : List TarMember}
    (h : (indexOf (members.map (·.listed))).get? path = none) (file : ByteArray) :
    ∀ m ∈ members.map (·.reported file), ¬ m.IsAt path := by
  intro _ hreported
  obtain ⟨m, hm, rfl⟩ := List.mem_map.1 hreported
  exact get?_indexOf_eq_none.1 h m.listed (List.mem_map_of_mem hm)

theorem exists_zipMember {members : List ZipMember} {number : Nat}
    (h : (indexOf (members.zipIdx.map fun (m, i) => m.listed i)).get? path = some number)
    (file : ByteArray) :
    ∃ m : ZipMember, members[number]? = some m ∧
      IsLast (Reported.IsAt path) (members.map (·.reported file)) (m.reported file) := by
  obtain ⟨_, last, hplace⟩ := get?_indexOf_eq_some h
  obtain ⟨⟨m, i⟩, rfl, hm⟩ := last.of_map
  obtain rfl : i = number := hplace
  have hreported :
      IsLast (fun x => (ZipMember.reported file x.1).IsAt path) members.zipIdx (m, i) := hm
  obtain ⟨hnumber, hlast⟩ :=
    IsLast.of_zipIdx (p := fun m => (ZipMember.reported file m).IsAt path) hreported
  exact ⟨m, hnumber, hlast.map⟩

theorem forall_not_isAt_zipMember {members : List ZipMember}
    (h : (indexOf (members.zipIdx.map fun (m, i) => m.listed i)).get? path = none)
    (file : ByteArray) : ∀ m ∈ members.map (·.reported file), ¬ m.IsAt path := by
  intro _ hreported
  obtain ⟨m, hm, rfl⟩ := List.mem_map.1 hreported
  obtain ⟨i, hi⟩ := List.mem_iff_getElem?.1 hm
  have hmem : (m, i) ∈ members.zipIdx := List.mem_zipIdx_iff_getElem?.2 hi
  exact get?_indexOf_eq_none.1 h (m.listed i) (List.mem_map_of_mem hmem)

end Index

/-! ## Reading -/

/-- What reading a path comes to, in an archive with these members that is released or not. -/
inductive Retrieves (members : List Reported) (path : String) :
    Bool → Except OpenerFault (Option ByteArray) → Prop
  | contents {m : Reported} {bytes : ByteArray} (last : IsLast (Reported.IsAt path) members m)
    (fits : ¬ m.Oversized) (readable : m.contents = .ok bytes) :
    Retrieves members path false (.ok (some bytes))
  | fault {m : Reported} {fault : ArchiveFault} (last : IsLast (Reported.IsAt path) members m)
    (fits : ¬ m.Oversized) (failed : m.contents = .error fault) :
    Retrieves members path false (.error (.archive fault))
  | cutOff {m : Reported} (last : IsLast (Reported.IsAt path) members m) (large : m.Oversized) :
    Retrieves members path false (.error .capacityOverflow)
  | refused {m : Reported} (last : IsLast (Reported.IsAt path) members m) :
    Retrieves members path true (.error .alreadyReleased)
  | nothing {released : Bool} (absent : ∀ m ∈ members, ¬ m.IsAt path) :
    Retrieves members path released (.ok none)

/-- What reading a member comes to. -/
def Reported.outcome (m : Reported) : Except OpenerFault ByteArray :=
  match m.entered with
  | .error fault => .error (.archive fault)
  | .ok () =>
    if OpenFile.capacity ≤ m.size then .error .capacityOverflow
    else m.unpacked.mapError .archive

theorem Reported.outcome_of_oversized {m : Reported} (h : m.Oversized) :
    m.outcome = .error .capacityOverflow := by
  rw [outcome, h.1]
  exact if_pos h.2

theorem Reported.outcome_of_not_oversized {m : Reported} (h : ¬ m.Oversized) :
    m.outcome = m.contents.mapError .archive := by
  rw [Oversized] at h
  rw [outcome, contents]
  cases hentered : m.entered with
  | error fault => rfl
  | ok _ => exact if_neg fun hsize => h ⟨hentered, hsize⟩

section Retrieves

variable {members : List Reported} {path : String} {released : Bool} {m : Reported}
  {found : Except OpenerFault (Option ByteArray)}

/-- The answer to a path that the member `m` is the last at. -/
def Reported.answer (m : Reported) (released : Bool) : Except OpenerFault (Option ByteArray) :=
  if released then .error .alreadyReleased else m.outcome.map some

theorem retrieves_of_isLast (last : IsLast (Reported.IsAt path) members m) :
    Retrieves members path released (m.answer released) := by
  cases released with
  | true => exact .refused last
  | false =>
    change Retrieves members path false (m.outcome.map some)
    by_cases hlarge : m.Oversized
    · rw [Reported.outcome_of_oversized hlarge]
      exact .cutOff last hlarge
    · rw [Reported.outcome_of_not_oversized hlarge]
      cases hcontents : m.contents with
      | ok bytes => exact .contents last hlarge hcontents
      | error fault => exact .fault last hlarge hcontents

theorem Retrieves.eq_answer (h : Retrieves members path released found)
    (last : IsLast (Reported.IsAt path) members m) : found = m.answer released := by
  cases h with
  | contents last' fits readable =>
    obtain rfl := last.eq last'
    rw [Reported.answer, Reported.outcome_of_not_oversized fits, readable]
    rfl
  | fault last' fits failed =>
    obtain rfl := last.eq last'
    rw [Reported.answer, Reported.outcome_of_not_oversized fits, failed]
    rfl
  | cutOff last' large =>
    obtain rfl := last.eq last'
    rw [Reported.answer, Reported.outcome_of_oversized large]
    rfl
  | refused last' => rfl
  | nothing absent => exact absurd last.property (absent m last.mem)

theorem Retrieves.eq_none (h : Retrieves members path released found)
    (absent : ∀ m ∈ members, ¬ m.IsAt path) : found = .ok none := by
  cases h with
  | nothing _ => rfl
  | contents last | fault last | cutOff last | refused last =>
    exact absurd last.property (absent _ last.mem)

/-- A read comes to one thing only. -/
theorem Retrieves.eq {other : Except OpenerFault (Option ByteArray)}
    (h : Retrieves members path released found) (h' : Retrieves members path released other) :
    other = found := by
  cases h with
  | nothing absent => exact h'.eq_none absent
  | contents last fits readable =>
    rw [h'.eq_answer last, (Retrieves.contents last fits readable).eq_answer last]
  | fault last fits failed =>
    rw [h'.eq_answer last, (Retrieves.fault last fits failed).eq_answer last]
  | cutOff last large => rw [h'.eq_answer last, (Retrieves.cutOff last large).eq_answer last]
  | refused last => rw [h'.eq_answer last, (Retrieves.refused last).eq_answer last]

end Retrieves

/-! ## Reading through an index -/

section Indexed

variable {σ ι : Type} {a : Archive σ ι} {members : List Reported}

/-- The index leads to the members, and reading one of them gives what is reported of it and keeps
`good` of what the archive is read from. So it is for each read of a path. -/
theorem read_serves (readAt : σ → ι → Except OpenerFault ByteArray × σ) (good : σ → Prop)
    (path : String) (hgood : ∀ source ∈ a.source, good source)
    (hnone : a.index.get? path = none → ∀ m ∈ members, ¬ m.IsAt path)
    (hsome : ∀ place, a.index.get? path = some place →
      ∃ m, IsLast (Reported.IsAt path) members m ∧ ∀ source, good source →
        (readAt source place).1 = m.outcome ∧ good (readAt source place).2) :
    (a.read readAt path).2.index = a.index ∧
    (a.read readAt path).2.source.isNone = a.source.isNone ∧
    (∀ source ∈ (a.read readAt path).2.source, good source) ∧
    Retrieves members path a.source.isNone (a.read readAt path).1 := by
  obtain ⟨source, index⟩ := a
  rw [read]
  dsimp only at hnone hsome ⊢
  cases hindex : index.get? path with
  | none => exact ⟨rfl, rfl, hgood, .nothing (hnone hindex)⟩
  | some place =>
    obtain ⟨m, last, hread⟩ := hsome place hindex
    cases source with
    | none => exact ⟨rfl, rfl, hgood, .refused last⟩
    | some source =>
      obtain ⟨hresult, hkept⟩ := hread source (hgood source rfl)
      refine ⟨rfl, rfl, ?_, ?_⟩
      · rintro _ ⟨⟩
        exact hkept
      · dsimp only
        rw [hresult]
        exact retrieves_of_isLast last

end Indexed

end Archive

/-! ## Members -/

namespace OpenFile

open Archive (Reported)

variable {file : ByteArray} {f : OpenFile}

/-- What is read does not depend on where the file was left. -/
theorem readContents_eq {enter : FileAction Unit} {unpack : FileAction ByteArray} {size : Nat}
    {m : Reported} (hfile : f.bytes = file) (henter : enter.StartsAnywhere file)
    (hentered : m.entered = ((⟨file, 0⟩ : OpenFile).perform enter).1)
    (hunpacked : m.unpacked = (((⟨file, 0⟩ : OpenFile).perform enter).2.perform unpack).1)
    (hsize : m.size = size) :
    (f.readContents enter size unpack).1 = m.outcome ∧
      (f.readContents enter size unpack).2.bytes = file := by
  obtain ⟨bytes, position⟩ := f
  obtain rfl : bytes = file := hfile
  obtain ⟨hresult, hleft⟩ := henter position 0
  rw [readContents, Reported.outcome, hentered, hunpacked, hsize]
  rcases hp : (⟨bytes, position⟩ : OpenFile).perform enter with ⟨result, left⟩
  have hbytes : left.bytes = bytes := by
    have hkept := bytes_perform ⟨bytes, position⟩ enter
    rwa [hp] at hkept
  rw [hp] at hresult hleft
  rw [← hresult]
  cases result with
  | error fault => exact ⟨rfl, hbytes⟩
  | ok _ =>
    rw [← hleft () rfl]
    dsimp only
    split
    · exact ⟨rfl, hbytes⟩
    · exact ⟨rfl, by rw [bytes_perform, hbytes]⟩

theorem readExtent_eq {m : Archive.TarMember} (hfile : f.bytes = file) :
    (f.readExtent m.extent).1 = (m.reported file).outcome ∧
      (f.readExtent m.extent).2.bytes = file := by
  by_cases hreach : FileAction.reach ≤ m.extent.offset
  · rw [readExtent, readContents, perform_seek, if_pos hreach]
    refine ⟨?_, hfile⟩
    rw [Reported.outcome, Archive.TarMember.reported, if_pos hreach]
  · refine readContents_eq hfile (FileAction.startsAnywhere_seek _ file) ?_ ?_ rfl
    · rw [perform_seek, if_neg hreach]
      exact if_neg hreach
    · rw [perform_seek, if_neg hreach]
      rfl

end OpenFile

namespace Archive

variable {file : ByteArray} {z : ZipArchive} {members : List ZipMember}

theorem ZipArchive.readMember_eq {number : Nat} {m : ZipMember} (hfile : z.file.bytes = file)
    (hseek : m.enter.StartsAnywhere file) (hnumber : z.members[number]? = some m) :
    (z.readMember number).1 = (m.reported file).outcome ∧
      (z.readMember number).2.file.bytes = file ∧
      (z.readMember number).2.members = z.members := by
  obtain ⟨hresult, hkept⟩ :=
    OpenFile.readContents_eq (m := m.reported file) hfile hseek rfl rfl rfl
  rw [readMember, hnumber]
  exact ⟨hresult, hkept, rfl⟩

end Archive

/-! ## Open archives -/

namespace OpenArchive

open Archive (Reported TarMember ZipMember ZipArchive Retrieves Readers)

/-- An open archive gives what these members have in the file, unless it was released. -/
inductive Serves (file : ByteArray) : OpenArchive → List Reported → Bool → Prop
  | tar (members : List TarMember) (source : Option OpenFile)
    (sound : ∀ f ∈ source, f.bytes = file) :
    Serves file (.tar ⟨source, Archive.indexOf (members.map (·.listed))⟩)
      (members.map (·.reported file)) source.isNone
  | zip (members : List ZipMember) (source : Option ZipArchive)
    (seek : ∀ m ∈ members, m.enter.StartsAnywhere file)
    (sound : ∀ z ∈ source, z.file.bytes = file ∧ z.members = members) :
    Serves file (.zip ⟨source, Archive.indexOf (members.zipIdx.map fun (m, i) => m.listed i)⟩)
      (members.map (·.reported file)) source.isNone

variable {file : ByteArray} {a : OpenArchive} {members : List Reported} {released : Bool}

theorem Serves.read (h : Serves file a members released) (path : String) :
    Serves file (a.read path).2 members released ∧
      Retrieves members path released (a.read path).1 := by
  cases h with
  | tar members source sound =>
    let a : Archive OpenFile Archive.Extent := ⟨source, Archive.indexOf (members.map (·.listed))⟩
    have hread := Archive.read_serves OpenFile.readExtent (·.bytes = file) path sound
      (a := a) (fun hnone => Archive.forall_not_isAt_tarMember hnone file) fun place hplace => by
        obtain ⟨m, rfl, last⟩ := Archive.exists_tarMember hplace file
        exact ⟨_, last, fun f hf => OpenFile.readExtent_eq hf⟩
    change Serves file (.tar (a.read OpenFile.readExtent path).2) _ source.isNone ∧
      Retrieves _ path source.isNone (a.read OpenFile.readExtent path).1
    generalize a.read OpenFile.readExtent path = result at hread ⊢
    obtain ⟨found, source', index⟩ := result
    obtain ⟨rfl, hreleased, hsound, hretrieves⟩ := hread
    refine ⟨?_, hretrieves⟩
    have hserves := Serves.tar members source' hsound
    rwa [hreleased] at hserves
  | zip members source seek sound =>
    let a : Archive ZipArchive Nat :=
      ⟨source, Archive.indexOf (members.zipIdx.map fun (m, i) => m.listed i)⟩
    have hread := Archive.read_serves ZipArchive.readMember
      (fun z => z.file.bytes = file ∧ z.members = members) path sound
      (a := a) (fun hnone => Archive.forall_not_isAt_zipMember hnone file) fun number hnumber => by
        obtain ⟨m, hm, last⟩ := Archive.exists_zipMember hnumber file
        refine ⟨_, last, fun z hz => ?_⟩
        obtain ⟨hfile, hmembers⟩ := hz
        obtain ⟨hresult, hkept, hsame⟩ := ZipArchive.readMember_eq hfile
          (seek m (List.mem_of_getElem? hm)) (hmembers ▸ hm)
        exact ⟨hresult, hkept, hsame.trans hmembers⟩
    change Serves file (.zip (a.read ZipArchive.readMember path).2) _ source.isNone ∧
      Retrieves _ path source.isNone (a.read ZipArchive.readMember path).1
    generalize a.read ZipArchive.readMember path = result at hread ⊢
    obtain ⟨found, source', index⟩ := result
    obtain ⟨rfl, hreleased, hsound, hretrieves⟩ := hread
    refine ⟨?_, hretrieves⟩
    have hserves := Serves.zip members source' seek hsound
    rwa [hreleased] at hserves

theorem Serves.release (h : Serves file a members released) :
    Serves file a.release members true := by
  cases h with
  | tar members source sound => exact .tar members none (by simp)
  | zip members source seek sound => exact .zip members none seek (by simp)

/-- Whatever happens, an open archive gives what its members have in the file, until the release of
its handle. -/
theorem Serves.now (h : Serves file a members false) (handle : Handle) (history : History) :
    Serves file (a.now handle.number history) members (history.hasReleased handle) := by
  induction history with
  | nil => exact h
  | cons event past ih =>
    rw [History.hasReleased_cons]
    cases event with
    | opened | openFailed => simpa [OpenArchive.now] using ih
    | read other path | readFailed other path =>
      rw [OpenArchive.now, Bool.or_false]
      split
      · exact (ih.read path).1
      · exact ih
    | released other failed =>
      rw [OpenArchive.now]
      dsimp only
      split
      · rename_i hsame
        rw [beq_iff_eq.2 hsame, Bool.or_true]
        exact ih.release
      · rename_i hother
        rw [beq_false_of_ne hother, Bool.or_false]
        exact ih

end OpenArchive

/-! ## Opening -/

/-- The members of a file, as the reader of its format reports them. -/
def Archive.Readers.reports (readers : Archive.Readers) (file : ByteArray) :
    Opener.ArchiveFormat → Except ArchiveFault (List Archive.Reported)
  | .tar => (readers.tar file).map fun (members, _) => members.map (·.reported file)
  | .zip => (readers.zip file).map fun (members, _) => members.map (·.reported file)

namespace OpenArchive

open Archive (Reported Readers)

theorem serves_openFile {readers : Readers} {file : ByteArray} {format : Opener.ArchiveFormat}
    {a : OpenArchive} (hseek : readers.Seek) (h : format.openFile readers file = .ok a) :
    ∃ members, readers.reports file format = .ok members ∧ Serves file a members false := by
  cases format with
  | tar =>
    obtain ⟨⟨members, position⟩, hlist, hopen⟩ := Except.bind_eq_ok.1 h
    cases hopen
    refine ⟨members.map (·.reported file), ?_, .tar members (some ⟨file, position⟩) ?_⟩
    · rw [Readers.reports, hlist]
      rfl
    · rintro _ ⟨⟩
      rfl
  | zip =>
    obtain ⟨⟨members, position⟩, hlist, hopen⟩ := Except.bind_eq_ok.1 h
    dsimp only at hopen
    split at hopen
    · cases hopen
    · rename_i f hglance
      cases hopen
      have hbytes := OpenFile.bytes_perform ⟨file, position⟩ (members.forM (·.glance))
      rw [hglance] at hbytes
      refine ⟨members.map (·.reported file), ?_,
        .zip members (some ⟨f, members⟩) (hseek file members position hlist) ?_⟩
      · rw [Readers.reports, hlist]
        rfl
      · rintro _ ⟨⟩
        exact ⟨hbytes, rfl⟩

end OpenArchive

namespace Opener

variable {readers : Archive.Readers} {fs : FileSystem} {e : Entry} {a : OpenArchive}

/-- These are the entries on disk that are opened as archives. -/
theorem contentsOf_eq_archive_iff :
    contentsOf readers fs e = .ok (.archive a) ↔
      e.kind = .archive ∧ ∃ file format, fs.lookup e.location.toList = .ok (.file file) ∧
        formatOf? e.location = some format ∧ format.openFile readers file = .ok a := by
  constructor
  · intro h
    rw [contentsOf] at h
    cases hkind : e.kind with
    | directory => simp [hkind] at h
    | archive =>
      simp only [hkind] at h
      split at h
      · rename_i file hfile
        rw [openArchive] at h
        split at h
        · rename_i format hformat
          obtain ⟨_, ha, hsame⟩ := Except.map_eq_ok.1 (Except.mapError_eq_ok.1 h)
          cases hsame
          exact ⟨rfl, file, format, hfile, hformat, ha⟩
        · cases h
      · cases h
  · rintro ⟨hkind, file, format, hfile, hformat, ha⟩
    simp only [contentsOf, hkind, hfile, openArchive, hformat, ha]
    rfl

theorem exists_serves_of_contentsOf (hseek : readers.Seek)
    (h : contentsOf readers fs e = .ok (.archive a)) :
    ∃ file members, OpenArchive.Serves file a members false := by
  obtain ⟨-, file, format, -, -, ha⟩ := contentsOf_eq_archive_iff.1 h
  obtain ⟨members, -, hserves⟩ := OpenArchive.serves_openFile hseek ha
  exact ⟨file, members, hserves⟩

end Opener

end TierIsolation
