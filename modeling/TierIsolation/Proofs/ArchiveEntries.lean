import TierIsolation.Opener.Disk
import TierIsolation.Opener.Session
import TierIsolation.Proofs.OpenArchives

/-!
# Reading from archives in a session

An archive is opened, read and released with other entries in between, in any order. Each read of a
path comes to what is reported of the last regular member that it stands for, unless the archive was
released (`Opener.read_archive`).

* `Opener.Lists`: an entry is an archive that can be opened, and these are its members.
* `Session.Numbered`: in a session every handle has the number that it was opened with, so that it
  counts as released once that number was released, and not before (`hasReleased_run`).
* `oversized_cutOff`: the one case in which a member that can be unpacked is not read. Its recorded
  size is more than memory can be set aside for.
-/

namespace TierIsolation

namespace Opener

open Archive (Readers Reported Retrieves)

/-! ## What an archive gives -/

/-- The entry is an archive that is opened with these readers, which report these members in the
order of the file. -/
structure Lists (readers : Readers) (fs : FileSystem) (e : Entry) (members : List Reported) :
    Prop where
  kind : e.kind = .archive
  listed : ∃ file format, fs.lookup e.location.toList = .ok (.file file) ∧
    formatOf? e.location = some format ∧ readers.reports file format = .ok members ∧
    ∃ a, format.openFile readers file = .ok a

variable {readers : Readers} {fs : FileSystem} {e : Entry} {members : List Reported}

/-- Such an entry is opened as an archive that gives these members. -/
theorem Lists.opens (h : Lists readers fs e members) (hseek : readers.Seek) :
    ∃ file a, contentsOf readers fs e = .ok (.archive a) ∧
      OpenArchive.Serves file a members false := by
  obtain ⟨hkind, file, format, hfile, hformat, hreports, a, ha⟩ := h
  obtain ⟨reported, hreported, hserves⟩ := OpenArchive.serves_openFile hseek ha
  rw [hreports] at hreported
  cases hreported
  exact ⟨file, a, contentsOf_eq_archive_iff.2 ⟨hkind, file, format, hfile, hformat, ha⟩, hserves⟩

/-! ## Sessions -/

namespace Session

variable {o : Opener} {s s' : Session} {u : Use} {uses : List Use} {n : Nat} {h : Handle}

/-- What a use can make of a session, whatever the opener answers. -/
inductive Step (s : Session) : Use → Session → Prop
  | opened (e : Entry) (contents : Contents) :
    Step s (.opening e) ⟨.opened ⟨s.history.opens, place, e, contents⟩ :: s.history,
      s.handles ++ [⟨s.history.opens, place, e, contents⟩]⟩
  | openFailed (e : Entry) :
    Step s (.opening e) { s with history := .openFailed place e :: s.history }
  | read {n : Nat} {h : Handle} (path : String) (found : Bool) (hn : s.handles[n]? = some h) :
    Step s (.reading n path) { s with history := .read h path found :: s.history }
  | readFailed {n : Nat} {h : Handle} (path : String) (hn : s.handles[n]? = some h) :
    Step s (.reading n path) { s with history := .readFailed h path :: s.history }
  | readNothing {n : Nat} (path : String) (hn : s.handles[n]? = none) : Step s (.reading n path) s
  | released {n : Nat} {h : Handle} (failed : Bool) (hn : s.handles[n]? = some h) :
    Step s (.releasing n) { s with history := .released h failed :: s.history }
  | releasedNothing {n : Nat} (hn : s.handles[n]? = none) : Step s (.releasing n) s

theorem step_use (o : Opener) (s : Session) (u : Use) : Step s u (s.use o u).1 := by
  cases u with
  | opening e =>
    simp only [use, openNow]
    cases (o.openEntry s.history e).answer with
    | ok contents => exact .opened e contents
    | error fault => exact .openFailed e
  | reading n path =>
    simp only [use, readNow]
    cases hn : s.handles[n]? with
    | none => exact .readNothing path hn
    | some h =>
      dsimp only
      cases (o.read s.history h path).answer with
      | ok found => exact .read path _ hn
      | error fault => exact .readFailed path hn
  | releasing n =>
    simp only [use, releaseNow]
    cases hn : s.handles[n]? with
    | none => exact .releasedNothing hn
    | some h =>
      dsimp only
      cases o.release s.history h with
      | none => exact .released false hn
      | some fault => exact .released true hn

theorem run_append (uses more : List Use) : run o (uses ++ more) s = run o more (run o uses s) :=
  List.foldl_append

/-- What holds at the start and is kept by every step holds after the run. -/
theorem run_induction {P : Session → Prop} (hs : P s)
    (hstep : ∀ u ∈ uses, ∀ s s', P s → Step s u s' → P s') : P (run o uses s) := by
  induction uses generalizing s with
  | nil => exact hs
  | cons u rest ih =>
    exact ih (hstep u List.mem_cons_self s _ hs (step_use o s u))
      fun u hu => hstep u (List.mem_cons_of_mem _ hu)

/-- Handles are numbered in the order in which they were opened, and nothing else was released. -/
structure Numbered (s : Session) : Prop where
  numbers : s.handles.map (·.number) = List.range s.history.opens
  released : ∀ h ∈ s.history.released, h ∈ s.handles

theorem Numbered.opens_eq (hs : s.Numbered) : s.history.opens = s.handles.length := by
  simpa using (congrArg List.length hs.numbers).symm

theorem Numbered.number_eq (hs : s.Numbered) (hn : s.handles[n]? = some h) : h.number = n := by
  have hmap := congrArg (·[n]?) hs.numbers
  simp only [List.getElem?_map, hn, Option.map_some] at hmap
  obtain ⟨_, hget⟩ := List.getElem?_eq_some_iff.1 hmap.symm
  rw [List.getElem_range] at hget
  exact hget.symm

theorem Numbered.start : Numbered {} where
  numbers := rfl
  released h hh := by cases hh

theorem Numbered.step (hs : s.Numbered) (hstep : Step s u s') : s'.Numbered := by
  obtain ⟨hnumbers, hreleased⟩ := hs
  cases hstep with
  | opened e contents =>
    refine ⟨?_, fun h hh => List.mem_append_left _ (hreleased h ?_)⟩
    · simp [History.opens_cons, List.range_succ, hnumbers]
    · simpa [History.released_cons] using hh
  | openFailed | read | readFailed =>
    refine ⟨?_, ?_⟩
    · simpa [History.opens_cons] using hnumbers
    · simpa [History.released_cons] using hreleased
  | readNothing | releasedNothing => exact ⟨hnumbers, hreleased⟩
  | released failed hn =>
    refine ⟨by simpa [History.opens_cons] using hnumbers, fun h hh => ?_⟩
    simp only [History.released_cons, List.mem_append, List.mem_singleton] at hh
    obtain hh | rfl := hh
    · exact hreleased h hh
    · exact List.mem_of_getElem? hn

theorem numbered_run (o : Opener) (uses : List Use) : (run o uses {}).Numbered :=
  run_induction .start fun _ _ _ _ hs hstep => hs.step hstep

/-- Handles stay where they are. -/
theorem Step.handle (hstep : Step s u s') (hn : s.handles[n]? = some h) :
    s'.handles[n]? = some h := by
  cases hstep with
  | opened e contents => rw [List.getElem?_append_left (List.getElem?_eq_some_iff.1 hn).1, hn]
  | _ => exact hn

theorem handle_run (o : Opener) (uses : List Use) (hn : s.handles[n]? = some h) :
    (run o uses s).handles[n]? = some h :=
  run_induction (P := fun s => s.handles[n]? = some h) hn fun _ _ _ _ hn hstep => hstep.handle hn

/-- A handle counts as released once its number is released. -/
theorem Step.hasReleased (hstep : Step s u s') (hs : s.Numbered) (hn : s.handles[n]? = some h) :
    s'.history.hasReleased h = (s.history.hasReleased h || decide (u = .releasing n)) := by
  cases hstep with
  | released failed hother =>
    simp only [History.hasReleased, History.released_cons, List.any_append, List.any_cons,
      List.any_nil, Bool.or_false, hs.number_eq hn, hs.number_eq hother, Use.releasing.injEq]
    rfl
  | releasedNothing hother =>
    rw [decide_eq_false, Bool.or_false]
    rintro ⟨⟩
    rw [hn] at hother
    cases hother
  | _ => simp [History.hasReleased, History.released_cons]

theorem hasReleased_run (o : Opener) (uses : List Use) (hs : s.Numbered)
    (hn : s.handles[n]? = some h) :
    (run o uses s).history.hasReleased h =
      (s.history.hasReleased h || decide (.releasing n ∈ uses)) := by
  induction uses generalizing s with
  | nil => simp [run]
  | cons u rest ih =>
    have hstep := step_use o s u
    have hrest := ih (hs.step hstep) (hstep.handle hn)
    rw [hstep.hasReleased hs hn, Bool.or_assoc] at hrest
    rw [run, List.foldl_cons, ← run, hrest]
    simp [eq_comm]

/-- A handle that was just opened is a new one. -/
theorem Numbered.hasReleased_opened (hs : s.Numbered) (e : Entry) (contents : Contents) :
    s.history.hasReleased ⟨s.history.opens, place, e, contents⟩ = false := by
  rw [History.hasReleased_eq_false]
  intro other hother
  obtain ⟨k, hk⟩ := List.mem_iff_getElem?.1 (hs.released other hother)
  have hlt : k < s.handles.length := (List.getElem?_eq_some_iff.1 hk).1
  rw [hs.number_eq hk, hs.opens_eq]
  exact Nat.ne_of_lt hlt

theorem use_opening {e : Entry} {contents : Contents}
    (hanswer : (o.openEntry s.history e).answer = .ok contents) :
    s.use o (.opening e) = (⟨.opened ⟨s.history.opens, place, e, contents⟩ :: s.history,
      s.handles ++ [⟨s.history.opens, place, e, contents⟩]⟩, .opened (.ok s.history.opens)) := by
  simp only [use, openNow, hanswer]

theorem use_reading (hn : s.handles[n]? = some h) (path : String) :
    (s.use o (.reading n path)).2 = .read (o.read s.history h path).answer := by
  simp only [use, hn, readNow]
  cases (o.read s.history h path).answer <;> rfl

theorem use_releasing (hn : s.handles[n]? = some h) (hnone : o.release s.history h = none) :
    (s.use o (.releasing n)).2 = .released (.ok ()) := by
  simp only [use, hn, releaseNow, hnone]

/-- What was opened stays where it is, whatever the opener is used for, and counts as released if it
was released since. -/
theorem exists_handle_later (before after : List Use) {e : Entry} {contents : Contents}
    (hanswer : (o.openEntry (run o before {}).history e).answer = .ok contents) :
    let n := (run o before {}).handles.length
    let later := run o (before ++ .opening e :: after) {}
    ((run o before {}).use o (.opening e)).2 = .opened (.ok n) ∧
    ∃ h, h.contents = contents ∧ later.handles[n]? = some h ∧
      later.history.hasReleased h = decide (.releasing n ∈ after) := by
  intro n later
  have hs : (run o before {}).Numbered := numbered_run o before
  have hopened := use_opening hanswer
  rw [hs.opens_eq] at hopened
  have hstep := step_use o (run o before {}) (.opening e)
  have hlater : later = run o after ((run o before {}).use o (.opening e)).1 :=
    run_append before (.opening e :: after)
  have hnew := hs.hasReleased_opened e contents
  rw [hs.opens_eq] at hnew
  rw [hlater]
  rw [hopened] at hstep ⊢
  let h : Handle := ⟨n, place, e, contents⟩
  have hn : ((run o before {}).handles ++ [h])[n]? = some h := List.getElem?_concat_length
  refine ⟨rfl, h, rfl, handle_run o after hn, ?_⟩
  have hstill : History.hasReleased (.opened h :: (run o before {}).history) h = false := by
    rw [← hnew, History.hasReleased, History.released_cons, List.append_nil, History.hasReleased]
  rw [hasReleased_run o after (hs.step hstep) hn, hstill, Bool.false_or]

end Session

/-- The archive keeps its place, and a path comes to what there is at it, unless the archive was
released since. -/
theorem Lists.retrieves (hlists : Lists readers fs e members) (hseek : readers.Seek)
    (before after : List Use) (path : String) :
    let o := disk fs readers
    let s := Session.run o before {}
    let n := s.handles.length
    let later := Session.run o (before ++ .opening e :: after) {}
    (s.use o (.opening e)).2 = .opened (.ok n) ∧
    ∃ h, later.handles[n]? = some h ∧ Retrieves members path (decide (.releasing n ∈ after))
      (o.read later.history h path).answer := by
  intro o s n later
  obtain ⟨file, a, hcontents, hserves⟩ := hlists.opens hseek
  obtain ⟨hopened, h, hh, hn, hreleased⟩ :=
    Session.exists_handle_later (o := o) before after hcontents
  obtain ⟨-, hretrieves⟩ := (hserves.now h later.history).read path
  rw [hreleased] at hretrieves
  have hread : (o.read later.history h path).answer =
      ((a.now h.number later.history).read path).1 := by
    simp only [o, disk, hh, plain]
  exact ⟨hopened, h, hn, hread ▸ hretrieves⟩

/-- **Reads from an archive are independent of each other.** An entry is opened that is an archive
with the given members in the order of the file, by readers that go to every member by themselves.
It does not matter what else is opened, read and released before and after, nor what is read from
the archive, up to its own release: a path is read from the last regular member that stands for it,
or fails for the reason that this member cannot be unpacked, and nothing is found if there is no
such member. Only if there is no memory for as much as is recorded of a member that could be
unpacked, each read of it is cut off. Once the archive was released, a path that a member stands for
is refused. To release it succeeds every time. -/
theorem read_archive (hseek : readers.Seek) (hlists : Lists readers fs e members)
    (before after : List Use) (path : String) :
    let o := disk fs readers
    let s := Session.run o before {}
    let n := s.handles.length
    let later := Session.run o (before ++ .opening e :: after) {}
    (s.use o (.opening e)).2 = .opened (.ok n) ∧
    (∃ answer, (later.use o (.reading n path)).2 = .read answer ∧
      ∀ other, Retrieves members path (decide (.releasing n ∈ after)) other ↔ other = answer) ∧
    (later.use o (.releasing n)).2 = .released (.ok ()) ∧
    OpenerFault.alreadyReleased.message = "archive already released" := by
  intro o s n later
  obtain ⟨hopened, h, hn, hretrieves⟩ := hlists.retrieves hseek before after path
  refine ⟨hopened, ⟨_, Session.use_reading hn path, fun other => ?_⟩, Session.use_releasing hn rfl,
    rfl⟩
  constructor
  · intro hother
    exact hretrieves.eq hother
  · rintro rfl
    exact hretrieves

/-! ### Archives with stored members -/

/-- A number in some bytes, the lowest first. -/
def bytesOf : Nat → Nat → List UInt8
  | 0, _ => []
  | width + 1, n => UInt8.ofNat n :: bytesOf width (n / 256)

/-- A stored member of a zip file, with the size that is recorded for it. -/
structure Stored where
  name : String
  size : Nat
  contents : List UInt8

namespace Stored

variable (m : Stored)

def nameBytes : List UInt8 := m.name.toUTF8.data.toList

/-- The extra field of a size that is too large for its own. -/
def extra : List UInt8 :=
  if m.size < Archive.Zip.overflow32 then [] else bytesOf 2 1 ++ bytesOf 2 8 ++ bytesOf 8 m.size

/-- What both headers say of the member: version, flags, method and time, then its checksum, its
sizes and the lengths of its name and its extra fields. -/
def header : List UInt8 :=
  bytesOf 10 20 ++ bytesOf 4 (Archive.Checksum.ofBytes ⟨m.contents.toArray⟩).toNat ++
    bytesOf 4 m.contents.length ++ bytesOf 4 (min m.size Archive.Zip.overflow32) ++
    bytesOf 2 m.nameBytes.length ++ bytesOf 2 m.extra.length

/-- A zip file with some members behind the bytes that are there already. -/
def zipFrom (count : Nat) (front directory : List UInt8) : List Stored → List UInt8
  | [] =>
    front ++ directory ++ bytesOf 8 Archive.Zip.endingMark ++ bytesOf 2 count ++ bytesOf 2 count ++
      bytesOf 4 directory.length ++ bytesOf 6 front.length
  | m :: rest =>
    zipFrom (count + 1)
      (front ++ bytesOf 4 Archive.Zip.headerMark ++ m.header ++ m.nameBytes ++ m.extra ++
        m.contents)
      (directory ++ bytesOf 6 Archive.Zip.entryMark ++ m.header ++ bytesOf 10 0 ++
        bytesOf 4 front.length ++ m.nameBytes ++ m.extra) rest

def jar (members : List Stored) : ByteArray := ⟨(zipFrom 0 [] [] members).toArray⟩

/-- A disk with an archive of some members. -/
def shelf (members : List Stored) : FileSystem := .ofFiles [['w']] [("lib.jar", jar members)]

theorem lists_shelf {members : List Stored} {reported : List Reported}
    (hreports : Readers.standard.reports (jar members) .zip = .ok reported)
    (hopens : (ArchiveFormat.zip.openFile .standard (jar members)).isOk = true) :
    Lists .standard (shelf members) (.ofText "lib.jar") reported := by
  have hfile : (shelf members).lookup "lib.jar".toList = .ok (.file (jar members)) := by
    with_unfolding_all rfl
  refine ⟨by decide, jar members, .zip, hfile, by decide, hreports, ?_⟩
  cases ha : ArchiveFormat.zip.openFile .standard (jar members) with
  | ok a => exact ⟨a, rfl⟩
  | error fault =>
    rw [ha] at hopens
    cases hopens

end Stored

/-- Two members at one path, in two spellings, and a directory. -/
def spellings : List Stored := [⟨"a", 1, [1]⟩, ⟨".\\a", 1, [2]⟩, ⟨"d/", 0, []⟩]

def spellingsReported : List Reported :=
  [⟨"a".toList, true, 1, .ok (), .ok ⟨#[1]⟩⟩, ⟨".\\a".toList, true, 1, .ok (), .ok ⟨#[2]⟩⟩,
    ⟨"d/".toList, false, 0, .ok (), .ok ⟨#[]⟩⟩]

theorem lists_spellings :
    Lists .standard (Stored.shelf spellings) (.ofText "lib.jar") spellingsReported :=
  Stored.lists_shelf (by decide +kernel) (by decide +kernel)

theorem isLast_spellings :
    IsLast (Reported.IsAt "a") spellingsReported
      ⟨".\\a".toList, true, 1, .ok (), .ok ⟨#[2]⟩⟩ :=
  ⟨[_], [_], rfl, ⟨rfl, 1, by decide, by decide⟩, by simp [Reported.IsAt, Archive.IsAt]⟩

/-- The later spelling counts, also after the directory was looked for, and with another entry open;
once the archive is released it is refused. -/
theorem spellings_read :
    let o := disk (Stored.shelf spellings)
    let before := [Use.opening (.directory "classes")]
    let opened := before ++ .opening (.ofText "lib.jar") :: [.reading 1 "d/", .releasing 0]
    let released := before ++ .opening (.ofText "lib.jar") :: [.reading 1 "a", .releasing 1]
    Readers.standard.Seek ∧
    Lists .standard (Stored.shelf spellings) (.ofText "lib.jar") spellingsReported ∧
    ((Session.run o opened {}).use o (.reading 1 "a")).2 = .read (.ok (some ⟨#[2]⟩)) ∧
    ((Session.run o released {}).use o (.reading 1 "a")).2 = .read (.error .alreadyReleased) ∧
    ((Session.run o released {}).use o (.releasing 1)).2 = .released (.ok ()) := by
  intro o before opened released
  refine ⟨Archive.standard_seek, lists_spellings, ?_⟩
  have hn : (Session.run o before {}).handles.length = 1 := rfl
  obtain ⟨-, ⟨_, hread, hgives⟩, -⟩ :=
    read_archive Archive.standard_seek lists_spellings before [.reading 1 "d/", .releasing 0] "a"
  obtain ⟨-, ⟨_, hread', hgives'⟩, hreleased, -⟩ :=
    read_archive Archive.standard_seek lists_spellings before [.reading 1 "a", .releasing 1] "a"
  rw [hn] at hread hread' hreleased hgives hgives'
  have hfits : ¬ Reported.Oversized ⟨".\\a".toList, true, 1, .ok (), .ok ⟨#[2]⟩⟩ := by
    rintro ⟨-, hlarge⟩
    exact absurd hlarge (by decide)
  rw [hread, hread', ← (hgives _).1 (.contents isLast_spellings hfits rfl),
    ← (hgives' _).1 (.refused isLast_spellings)]
  exact ⟨rfl, rfl, hreleased⟩

/-- A member of two bytes whose recorded size is more than memory can be set aside for. -/
def oversized : List Stored := [⟨"a", OpenFile.capacity, [0x68, 0x69]⟩]

def oversizedReported : Reported :=
  ⟨"a".toList, true, OpenFile.capacity, .ok (), .ok ⟨#[0x68, 0x69]⟩⟩

/-- The two bytes are there and can be unpacked, but reading the member is cut off. -/
theorem oversized_cutOff :
    let o := disk (Stored.shelf oversized)
    let s := Session.run o [.opening (.ofText "lib.jar")] {}
    Lists .standard (Stored.shelf oversized) (.ofText "lib.jar") [oversizedReported] ∧
    IsLast (Reported.IsAt "a") [oversizedReported] oversizedReported ∧
    oversizedReported.contents = .ok ⟨#[0x68, 0x69]⟩ ∧
    (s.use o (.reading 0 "a")).2 = .read (.error .capacityOverflow) := by
  intro o s
  have hlists : Lists .standard (Stored.shelf oversized) (.ofText "lib.jar") [oversizedReported] :=
    Stored.lists_shelf (by decide +kernel) (by decide +kernel)
  have hlast : IsLast (Reported.IsAt "a") [oversizedReported] oversizedReported :=
    ⟨[], [], rfl, ⟨rfl, 0, by decide, by decide⟩, by simp⟩
  obtain ⟨-, h, hn, hretrieves⟩ := hlists.retrieves Archive.standard_seek [] [] "a"
  have hcutOff := hretrieves.eq (.cutOff hlast ⟨rfl, Nat.le_refl _⟩)
  refine ⟨hlists, hlast, rfl, ?_⟩
  rw [hcutOff]
  exact Session.use_reading hn "a"

end Opener

end TierIsolation
