import TierIsolation.Forest
import TierIsolation.Opener.Disk
import TierIsolation.Opener.Memory
import TierIsolation.Proofs.OpenArchives
import TierIsolation.ResolutionFault

/-!
# Resolution without a state

What a name resolves to when nothing is remembered and every entry is opened anew.

* `Answers`: what can be found in entries, settled by the entry and the path alone, faults included.
  `Opener.Gives` says that an opener answers so, whatever happened before; `memory_gives` and
  `disk_gives` are the openers of this library. `Forest.Gives`: each opener of a forest does.
* `Forest.reference`: resolution by recursion along the parents; `reference_eq` is one step of it.
* `Answers.unfailing`: the answers of entries that never fail.
-/

namespace TierIsolation

/-! ## Settled answers -/

/-- What opening entries and reading from them comes to. -/
structure Answers where
  opens : Entry → Except OpenerFault Contents
  reads : Entry → String → Except OpenerFault (Option ByteArray)

/-- What entries hold, if none of them ever fails. -/
def Answers.unfailing (contents : Entry → Contents) (holds : Entry → String → Option ByteArray) :
    Answers where
  opens e := .ok (contents e)
  reads e path := .ok (holds e path)

/-- A call that resolves a name. -/
def Call.isResolve : Call → Bool
  | resolve .. => true
  | release _ => false

namespace Opener

/-- The opener gives these answers at any time, as long as the entry is not released. -/
structure Gives (o : Opener) (a : Answers) : Prop where
  opening : ∀ history e, (o.openEntry history e).answer = a.opens e
  reading : ∀ history h path, a.opens h.entry = .ok h.contents → history.hasReleased h = false →
    (o.read history h path).answer = a.reads h.entry path

/-- While entries are opened and read, names may be resolved, but no resolver is released. -/
structure OnlyResolves (o : Opener) : Prop where
  opening : ∀ history e, ∀ c ∈ (o.openEntry history e).calls, c.isResolve = true
  reading : ∀ history h path, ∀ c ∈ (o.read history h path).calls, c.isResolve = true

/-- Nothing else takes place while entries are opened and read. -/
structure Quiet (o : Opener) : Prop where
  opening : ∀ history e, (o.openEntry history e).calls = []
  reading : ∀ history h path, (o.read history h path).calls = []

theorem Quiet.onlyResolves {o : Opener} (h : o.Quiet) : o.OnlyResolves where
  opening history e c hc := by simp [h.opening] at hc
  reading history e path c hc := by simp [h.reading] at hc

/-- What entries held in memory hold. -/
def memoryAnswers (stored : List StoredFile) : Answers :=
  .unfailing (fun e => .files (filesAt stored e.location))
    fun e path => (filesAt stored e.location).lookup path

theorem memory_gives (stored : List StoredFile) (failing : List String) :
    (memory stored failing).Gives (memoryAnswers stored) where
  opening _ _ := rfl
  reading _ h path hc _ := by
    simp only [memoryAnswers, Answers.unfailing, Except.ok.injEq] at hc
    simp [memory, memoryAnswers, Answers.unfailing, plain, ← hc]

theorem memory_quiet (stored : List StoredFile) (failing : List String) :
    (memory stored failing).Quiet where
  opening _ _ := rfl
  reading _ h path := by
    simp only [memory]
    split <;> rfl

variable (fs : FileSystem) (readers : Archive.Readers)

/-- What entries on disk hold: what a first read gives. -/
def diskAnswers : Answers where
  opens := contentsOf readers fs
  reads e path :=
    match contentsOf readers fs e with
    | .error fault => .error fault
    | .ok (.folder folder) => .ok (readInFolder fs folder path)
    | .ok (.archive a) => (a.read path).1
    | .ok (.files content) => .ok (content.lookup path)

theorem disk_gives (hseek : readers.Seek) :
    (disk fs readers).Gives (diskAnswers fs readers) where
  opening _ _ := rfl
  reading history h path hcontents hheld := by
    dsimp only [diskAnswers] at hcontents
    simp only [disk, diskAnswers, hcontents]
    cases hh : h.contents with
    | folder folder => rfl
    | files content => rfl
    | archive a =>
      rw [hh] at hcontents
      obtain ⟨file, members, hserves⟩ := exists_serves_of_contentsOf hseek hcontents
      have hnow := hserves.now h history
      rw [hheld] at hnow
      exact (hserves.read path).2.eq (hnow.read path).2

theorem disk_quiet : (disk fs readers).Quiet where
  opening _ _ := rfl
  reading _ h path := by
    simp only [disk]
    split <;> rfl

end Opener

/-! ## Searching in a fixed order -/

/-- The first of the entries that holds a path, and what it holds there. An entry that cannot be
opened or read ends the search. -/
def Answers.find (a : Answers) (resolver name path : String) :
    List Entry → Except ResolutionFault (Option Symbol)
  | [] => .ok none
  | e :: rest =>
    match a.opens e with
    | .error fault => .error (.entryFailed e.location resolver fault.message)
    | .ok _ =>
      match a.reads e path with
      | .error fault => .error (.entryFailed e.location resolver fault.message)
      | .ok (some bytes) => .ok (some ⟨name, e, resolver, bytes⟩)
      | .ok none => a.find resolver name path rest

/-- The first result, or the second one if the first is nothing. -/
def firstFound (first second : Except ResolutionFault (Option Symbol)) :
    Except ResolutionFault (Option Symbol) :=
  match first with
  | .ok none => second
  | found => found

/-- The result of a mode, by what a resolver is told from elsewhere and what it has itself. -/
def LookupMode.select (mode : LookupMode) (delegated own : Except ResolutionFault (Option Symbol)) :
    Except ResolutionFault (Option Symbol) :=
  match mode with
  | .parentOnly => delegated
  | .parentFirst => firstFound delegated own
  | .selfFirst => firstFound own delegated

theorem firstFound_ok (first second : Option Symbol) :
    firstFound (.ok first) (.ok second) = .ok (first.or second) := by
  cases first <;> rfl

/-- Not to be found is nothing; any other fault stays. -/
def orAbsent : Except ResolutionFault Symbol → Except ResolutionFault (Option Symbol)
  | .ok symbol => .ok (some symbol)
  | .error (.notFound ..) => .ok none
  | .error fault => .error fault

/-- Nothing is not to be found; any fault stays. -/
def orNotFound (name resolver : String) :
    Except ResolutionFault (Option Symbol) → Except ResolutionFault Symbol
  | .ok (some symbol) => .ok symbol
  | .ok none => .error (.notFound name resolver)
  | .error fault => .error fault

theorem Answers.find_ne_notFound (a : Answers) (resolver name path : String) (entries : List Entry)
    (other asked : String) :
    a.find resolver name path entries ≠ .error (.notFound other asked) := by
  induction entries with
  | nil => simp [find]
  | cons e rest ih =>
    unfold find
    split
    · simp
    · split <;> simp [ih]

theorem orAbsent_orNotFound {name resolver : String} {x : Except ResolutionFault (Option Symbol)}
    (h : ∀ other asked, x ≠ .error (.notFound other asked)) :
    orAbsent (orNotFound name resolver x) = x := by
  cases x with
  | ok found => cases found <;> rfl
  | error fault =>
    cases fault with
    | notFound other asked => exact absurd rfl (h other asked)
    | entryFailed => rfl
    | released => rfl

/-! ## The reference -/

/-- What a host answers. -/
def Host.answer (host : Host) (a : Answers) (name : String) :
    Except ResolutionFault (Option Symbol) :=
  match host with
  | .empty => .ok none
  | .table owner symbols => .ok ((symbols.get? name).map (Host.symbol owner name))
  | .entries owner searchPath => a.find owner name (Symbol.path name ".class") searchPath

/-- A host never says that something is not found; it has nothing then. -/
theorem Host.answer_ne_notFound (host : Host) (a : Answers) (name other asked : String) :
    host.answer a name ≠ .error (.notFound other asked) := by
  cases host with
  | empty => simp [answer]
  | table owner symbols => simp [answer]
  | entries owner path => exact a.find_ne_notFound owner name _ path other asked

namespace Forest

variable (F : Forest)

/-- The opener at each place gives the answers of that place. -/
def Gives (a : Place → Answers) : Prop := ∀ p, (F.opener p).Gives (a p)

/-- While entries are opened and read, names may be resolved, but no resolver is released. -/
def OnlyResolves : Prop := ∀ p, (F.opener p).OnlyResolves

/-- Nothing else takes place while entries are opened and read. -/
def Quiet : Prop := ∀ p, (F.opener p).Quiet

variable {F} in
theorem Quiet.onlyResolves (h : F.Quiet) : F.OnlyResolves := fun p => (h p).onlyResolves

/-- What the host of a resolver answers. -/
def hostAnswer (a : Place → Answers) (r : Resolver) (name : String) :
    Except ResolutionFault (Option Symbol) :=
  match r.host with
  | some k => (F.host k).answer (a (.host k)) name
  | none => .ok none

/-- What a name resolves to, by the answers of entries alone. -/
def reference (a : Place → Answers) (p : Place) (name : String) :
    Except ResolutionFault Symbol :=
  let r := F.resolver p
  let mode := r.policy.modeFor name
  let own := (a p).find r.name name (Symbol.path name r.suffix) r.searchPath
  let delegated : Except ResolutionFault (Option Symbol) :=
    match h : F.parent? p with
    | some q =>
      have := rank_parent h
      orAbsent (reference a q name)
    | none =>
      if mode = .parentOnly ∨ r.fallback = .delegate then F.hostAnswer a r name
      else .ok none
  orNotFound name r.name (mode.select delegated own)
termination_by p.rank

/-- What the resolver at a place is told from elsewhere: by its parent, or by the host. -/
def delegated (a : Place → Answers) (p : Place) (name : String) :
    Except ResolutionFault (Option Symbol) :=
  match F.parent? p with
  | some q => orAbsent (F.reference a q name)
  | none =>
    if (F.resolver p).policy.modeFor name = .parentOnly ∨ (F.resolver p).fallback = .delegate then
      F.hostAnswer a (F.resolver p) name
    else .ok none

theorem reference_eq (a : Place → Answers) (p : Place) (name : String) :
    F.reference a p name = orNotFound name (F.resolver p).name
      (((F.resolver p).policy.modeFor name).select (F.delegated a p name)
        ((a p).find (F.resolver p).name name (Symbol.path name (F.resolver p).suffix)
          (F.resolver p).searchPath)) := by
  rw [reference, delegated]
  dsimp only
  congr 2
  split <;> simp_all

/-- The resolver behind a host gives what the host has. -/
theorem reference_host {k : Nat} {owner : String} {path : List Entry}
    (h : F.host k = .entries owner path) (a : Place → Answers) (name : String) :
    orAbsent (F.reference a (.host k) name) = (F.host k).answer (a (.host k)) name := by
  have hr : F.resolver (.host k) =
      { name := owner, searchPath := path, fallback := .isolated } := by
    simp [resolver, h, Host.resolver]
  have hd : F.delegated a (.host k) name = .ok none := by
    simp [delegated, parent?, hr, hostAnswer]
  have hmode : (({} : LookupPolicy).modeFor name) = .selfFirst := rfl
  rw [reference_eq, hd, hr, h, hmode, LookupMode.select, Host.answer]
  have hfirst : firstFound ((a (.host k)).find owner name (Symbol.path name ".class") path)
      (.ok none) = (a (.host k)).find owner name (Symbol.path name ".class") path := by
    unfold firstFound
    split <;> simp_all
  rw [hfirst, orAbsent_orNotFound ((a (.host k)).find_ne_notFound owner name _ path)]

end Forest

/-! ## Entries that never fail -/

section Unfailing

variable {contents : Entry → Contents} {holds : Entry → String → Option ByteArray}

theorem Answers.find_unfailing (resolver name path : String) (entries : List Entry) :
    (unfailing contents holds).find resolver name path entries =
      .ok (entries.findSome? fun e => (holds e path).map (⟨name, e, resolver, ·⟩)) := by
  induction entries with
  | nil => rfl
  | cons e rest ih =>
    simp only [find, unfailing, List.findSome?_cons]
    cases h : holds e path with
    | some bytes => rfl
    | none => exact ih

theorem Host.exists_answer_unfailing (host : Host) (name : String) :
    ∃ found, host.answer (.unfailing contents holds) name = .ok found := by
  cases host with
  | empty => exact ⟨_, rfl⟩
  | table owner symbols => exact ⟨_, rfl⟩
  | entries owner path => exact ⟨_, Answers.find_unfailing owner name _ path⟩

end Unfailing

end TierIsolation
