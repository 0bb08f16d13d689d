import TierIsolation.Proofs.Forest.Faithful

/-!
# What is remembered does not show

`resolve_eq_reference`: after any run without a release, a name resolves to what the reference says,
symbols and faults alike. Neither the caches nor the open entries show in a result.

A computation *refines* a result if from every faithful state it gives that result and advances the
state (`Forest.Refines`). The parts of a resolution are taken in turn, from the handle of an entry
to the search of a whole resolver; the sources of a resolver are lower ones (`rank_source`), and the
calls that take place meanwhile are less deep, so that two inductions close the circle.
-/

namespace TierIsolation.Forest

variable {F : Forest} {a : Place → Answers} {s : State} {p : Place} {call : Call → State → State}

/-- From every faithful state the result is `x`, and the state that follows is faithful. -/
def Refines (F : Forest) (a : Place → Answers) {α : Type} (f : State → Outcome α)
    (x : Except ResolutionFault α) : Prop :=
  ∀ s, Faithful F a s → Advances F a s (f s).1 ∧ (f s).2 = x

/-- Carrying out a call that resolves a name advances every faithful state. -/
def Keeps (F : Forest) (a : Place → Answers) (call : Call → State → State) : Prop :=
  ∀ c, c.isResolve = true → ∀ s, Faithful F a s → Advances F a s (call c s)

/-! ## Entries -/

theorem Keeps.runCalls (hcall : Keeps F a call) {calls : List Call}
    (hcalls : ∀ c ∈ calls, c.isResolve = true) (hs : Faithful F a s) :
    Advances F a s (runCalls call calls s) := by
  induction calls generalizing s with
  | nil => exact hs.advances
  | cons c rest ih =>
    have hc := hcall c (hcalls c List.mem_cons_self) s hs
    exact hc.trans (ih (fun c hc => hcalls c (List.mem_cons_of_mem _ hc)) hc.faithful)

/-- A handle that was opened since `s₀` is held, or given back if the entry is held already. -/
theorem keepHandle_refines {s₀ : State} {index : Nat} {h : Handle} (hs : Advances F a s₀ s)
    (hf : Fresh s h) (hn : s₀.history.opens ≤ h.number)
    (he : (F.resolver p).searchPath[index]? = some h.entry)
    (hc : (a p).opens h.entry = .ok h.contents) :
    Advances F a s₀ (F.keepHandle p index h s).1 ∧ ∃ held, (F.keepHandle p index h s).2 = .ok held ∧
      ((F.keepHandle p index h s).1.resolver p).handle? index = some held := by
  unfold keepHandle
  rw [hs.faithful.live p]
  simp only [Bool.false_eq_true, if_false]
  split
  · rename_i held hheld
    exact ⟨hs.releaseHandle hf hn, held, rfl, hheld⟩
  · refine ⟨hs.hold hf hn he hc, h, rfl, ?_⟩
    rw [State.update_same, ResolverState.handle?_hold, if_pos rfl]

section Entries

variable (hgives : F.Gives a) (honly : F.OnlyResolves) (hcall : Keeps F a call)
include hgives honly hcall

/-- The handle of an entry: the entry opens as the answers say. -/
theorem handleAt_refines {index : Nat} {e : Entry} (hs : Faithful F a s)
    (he : (F.resolver p).searchPath[index]? = some e) :
    Advances F a s (F.handleAt call p index e s).1 ∧
      match (a p).opens e with
      | .error fault => (F.handleAt call p index e s).2 =
          .error (.entryFailed e.location (F.resolver p).name fault.message)
      | .ok _ => ∃ h, (F.handleAt call p index e s).2 = .ok h ∧
          ((F.handleAt call p index e s).1.resolver p).handle? index = some h := by
  unfold handleAt
  rw [hs.live p]
  simp only [Bool.false_eq_true, if_false, (hgives p).opening]
  have hcalls := (honly p).opening s.history e
  split
  · -- the entry is held already
    rename_i held hheld
    refine ⟨hs.advances, ?_⟩
    have hopens := (hs.held p index held hheld).contents
    rw [hs.held_eq he hheld] at hopens
    rw [hopens]
    exact ⟨held, rfl, hheld⟩
  · cases ho : (a p).opens e with
    | error fault =>
      have hr := hs.advances_record (e := .openFailed p e) (by simp)
      exact ⟨hr.trans (hcall.runCalls hcalls hr.faithful), rfl⟩
    | ok contents =>
      have hr := hs.advances_record (e := .opened ⟨s.history.opens, p, e, contents⟩) (by simp)
      have hlater := hcall.runCalls hcalls hr.faithful
      exact keepHandle_refines (hr.trans hlater)
        (hs.fresh rfl hlater.toLater) (Nat.le_refl _) he ho

/-- Reading from an entry that is held. -/
theorem readFrom_refines {index : Nat} {h : Handle} {path : String} (hs : Faithful F a s)
    (hh : (s.resolver p).handle? index = some h) :
    Advances F a s (F.readFrom call p h h.entry path s).1 ∧
      (F.readFrom call p h h.entry path s).2 = ((a p).reads h.entry path).mapError fun fault =>
        .entryFailed h.entry.location (F.resolver p).name fault.message := by
  have hcalls := hcall.runCalls ((honly p).reading s.history h path) hs
  simp only [readFrom,
    (hgives p).reading _ _ _ (hs.held p index h hh).contents (hs.held p index h hh).unreleased]
  cases hr : (a p).reads h.entry path with
  | error fault =>
    refine ⟨hcalls.trans (hcalls.faithful.advances_record (by simp)), ?_⟩
    simp [hcalls.faithful.live p, Except.mapError]
  | ok found => exact ⟨hcalls.trans (hcalls.faithful.advances_record (by simp)), rfl⟩

/-- Searching the rest of a search path. -/
theorem searchEntries_refines {name path : String} {index : Nat} {entries : List Entry}
    (he : (F.resolver p).searchPath.drop index = entries) :
    Refines F a (F.searchEntries call p name path index entries)
      ((a p).find (F.resolver p).name name path entries) := by
  induction entries generalizing index with
  | nil => exact fun s hs => ⟨hs.advances, rfl⟩
  | cons e rest ih =>
    have hindex : (F.resolver p).searchPath[index]? = some e := by
      rw [← List.head?_drop, he]
      rfl
    have hrest : (F.resolver p).searchPath.drop (index + 1) = rest := by
      rw [← List.tail_drop, he]
      rfl
    intro s hs
    obtain ⟨hadv, hres⟩ := handleAt_refines hgives honly hcall hs hindex
    simp only [searchEntries, Answers.find]
    rcases hopen : F.handleAt call p index e s with ⟨s₁, r⟩
    rw [hopen] at hadv hres
    cases ho : (a p).opens e with
    | error fault =>
      simp only [ho] at hres
      subst hres
      exact ⟨hadv, rfl⟩
    | ok contents =>
      simp only [ho] at hres
      obtain ⟨h, rfl, hheld⟩ := hres
      obtain rfl := hadv.faithful.held_eq hindex hheld
      obtain ⟨hadv', hres'⟩ := @readFrom_refines F a s₁ p call hgives honly hcall index h path
        hadv.faithful hheld
      simp only
      rcases hread : F.readFrom call p h h.entry path s₁ with ⟨s₂, r'⟩
      rw [hread] at hadv' hres'
      simp only at hres'
      subst hres'
      cases hr : (a p).reads h.entry path with
      | error fault => exact ⟨hadv.trans hadv', rfl⟩
      | ok found =>
        cases found with
        | some bytes => exact ⟨hadv.trans hadv', rfl⟩
        | none =>
          obtain ⟨hadv'', hres''⟩ := ih hrest s₂ hadv'.faithful
          exact ⟨(hadv.trans hadv').trans hadv'', hres''⟩

end Entries

/-! ## Names -/

theorem Refines.orNothing {f : State → Outcome Symbol} {x : Except ResolutionFault Symbol}
    (h : Refines F a f x) : Refines F a (fun s => orNothing (f s)) (orAbsent x) := by
  intro s hs
  obtain ⟨hadv, hres⟩ := h s hs
  rw [orNothing_fst, orNothing_snd, hres]
  exact ⟨hadv, rfl⟩

variable {first second : State → Outcome (Option Symbol)}
  {x y : Except ResolutionFault (Option Symbol)}

theorem Refines.orElse (hx : Refines F a first x) (hy : Refines F a second y) :
    Refines F a (orElse first second) (firstFound x y) := by
  intro s hs
  obtain ⟨hadv, hres⟩ := hx s hs
  unfold Forest.orElse
  rcases hf : first s with ⟨s₁, r⟩
  rw [hf] at hadv hres
  simp only at hres
  subst hres
  rcases r with fault | (_ | symbol)
  · exact ⟨hadv, rfl⟩
  · obtain ⟨hadv', hres'⟩ := hy s₁ hadv.faithful
    exact ⟨hadv.trans hadv', hres'⟩
  · exact ⟨hadv, rfl⟩

theorem Refines.searchBy (hx : Refines F a first x) (hy : Refines F a second y)
    (mode : LookupMode) : Refines F a (searchBy mode first second) (mode.select x y) := by
  cases mode with
  | parentOnly => exact hx
  | parentFirst => exact hx.orElse hy
  | selfFirst => exact hy.orElse hx

/-- Searching for a name that was not resolved before, and remembering what was found. -/
theorem Refines.resolveBy {name : String} (hx : Refines F a first x)
    (hr : F.reference a p name = orNotFound name (F.resolver p).name x) :
    Refines F a (F.resolveBy p name first) (F.reference a p name) := by
  intro s hs
  simp only [Forest.resolveBy, hs.live p, Bool.false_eq_true, if_false]
  split
  · rename_i symbol hsymbol
    exact ⟨hs.advances, (hs.cached p name symbol hsymbol).symm⟩
  · obtain ⟨hadv, hres⟩ := hx s hs
    rcases hf : first s with ⟨s₁, r⟩
    rw [hf] at hadv hres
    simp only at hres
    subst hres
    rw [hr]
    rcases r with fault | (_ | symbol)
    · exact ⟨hadv, rfl⟩
    · exact ⟨hadv, rfl⟩
    · exact ⟨hadv.trans (hadv.faithful.remember hr), rfl⟩

section Names

/-- Asking a host. -/
theorem hostSource_refines {k : Nat} {name : String}
    (h : Refines F a (F.resolveWith call (.host k) name) (F.reference a (.host k) name)) :
    Refines F a (F.askSource call name (F.hostSource k))
      ((F.host k).answer (a (.host k)) name) := by
  rw [hostSource]
  cases hhost : F.host k with
  | empty => exact fun s hs => ⟨hs.advances, rfl⟩
  | table owner symbols => exact fun s hs => ⟨hs.advances, rfl⟩
  | entries owner path =>
    have hanswer := F.reference_host hhost a name
    rw [hhost] at hanswer
    rw [← hanswer]
    exact h.orNothing

/-- Asking the source of a resolver, if those that stand lower are right. -/
theorem askSource_refines {name : String}
    (hlower : ∀ q : Place, q.rank < p.rank →
      Refines F a (F.resolveWith call q name) (F.reference a q name)) :
    Refines F a (F.askSource call name (F.source p ((F.resolver p).policy.modeFor name)))
      (F.delegated a p name) := by
  have nothing : Refines F a (F.askSource call name .nothing) (.ok none) :=
    fun s hs => ⟨hs.advances, rfl⟩
  cases hparent : F.parent? p with
  | some q =>
    simp only [source, delegated, hparent, askSource]
    exact (hlower q (rank_parent hparent)).orNothing
  | none =>
    cases p with
    | host k =>
      have hhost : (F.resolver (.host k)).host = none := by
        simp only [resolver]
        cases F.host k <;> rfl
      simp only [source, delegated, hparent, hostAnswer, hhost, ite_self]
      exact nothing
    | resolver i =>
      -- the host is asked if the resolver has one and the mode or the fallback says so
      have hasks : asksHost (F.resolver (.resolver i))
          ((F.resolver (.resolver i)).policy.modeFor name) = true ↔
          (F.resolver (.resolver i)).policy.modeFor name = .parentOnly ∨
            (F.resolver (.resolver i)).fallback = .delegate := by
        simp [asksHost]
      simp only [source, delegated, hparent, ← hasks]
      cases hhost : (F.resolver (.resolver i)).host with
      | none =>
        simp only [hostAnswer, hhost, ite_self]
        exact nothing
      | some k =>
        simp only [hostAnswer, hhost]
        split
        · exact hostSource_refines (hlower (.host k) (by simp [Place.rank]))
        · exact nothing

variable (hgives : F.Gives a) (honly : F.OnlyResolves)
include hgives honly

/-- Resolution is right at every place, if the calls that take place meanwhile keep states right.
The induction is on the height of the place. -/
theorem resolveWith_refines (hcall : Keeps F a call) (p : Place) (name : String) :
    Refines F a (F.resolveWith call p name) (F.reference a p name) := by
  induction hrank : p.rank using Nat.strongRecOn generalizing p with
  | _ rank ih =>
    rw [resolveWith_eq]
    have hsource := @askSource_refines F a p call name fun q hq =>
      ih q.rank (hrank ▸ hq) q rfl
    have hown : Refines F a (F.searchOwn call p name)
        ((a p).find (F.resolver p).name name (Symbol.path name (F.resolver p).suffix)
          (F.resolver p).searchPath) :=
      searchEntries_refines hgives honly hcall List.drop_zero
    exact (hsource.searchBy hown _).resolveBy (F.reference_eq a p name)

/-- Calls keep states right, however deeply they are followed. -/
theorem runCall_keeps (depth : Nat) : Keeps F a (F.runCall depth) := by
  induction depth with
  | zero => exact fun c _ s hs => hs.advances
  | succ depth ih =>
    intro c hc s hs
    cases c with
    | resolve p name => exact (resolveWith_refines hgives honly ih p name s hs).1
    | release p => cases hc

theorem resolve_refines (depth : Nat) (p : Place) (name : String) :
    Refines F a (F.resolve depth p name) (F.reference a p name) :=
  resolveWith_refines hgives honly (runCall_keeps hgives honly depth) p name

theorem hostLookup_refines (depth k : Nat) (name : String) :
    Refines F a (F.hostLookup depth k name) ((F.host k).answer (a (.host k)) name) := by
  rw [hostLookup_eq]
  exact hostSource_refines (resolve_refines hgives honly depth (.host k) name)

/-- An operation that releases nothing keeps a state right. -/
theorem perform_faithful (depth : Nat) {o : Operation} (ho : o.isRelease = false)
    (hs : Faithful F a s) : Faithful F a (F.perform depth s o) := by
  cases o with
  | resolve p name => exact (resolve_refines hgives honly depth p name s hs).1.faithful
  | tryResolve p name =>
    rw [perform, tryResolve_fst]
    exact (resolve_refines hgives honly depth p name s hs).1.faithful
  | release p => cases ho

theorem run_faithful (depth : Nat) {operations : List Operation}
    (ho : ∀ o ∈ operations, o.isRelease = false) : Faithful F a (F.run depth operations {}) :=
  run_induction .start fun o hmem _ hs => perform_faithful hgives honly depth (ho o hmem) hs

/-- After any run without a release, a name resolves to what the reference says. -/
theorem resolve_eq_reference (depth : Nat) {operations : List Operation}
    (ho : ∀ o ∈ operations, o.isRelease = false) (p : Place) (name : String) :
    (F.resolve depth p name (F.run depth operations {})).2 = F.reference a p name :=
  (resolve_refines hgives honly depth p name _ (run_faithful hgives honly depth ho)).2

end Names

/-! ## A forest with a host -/

/-- Files in memory: the host and the resolvers have one each, with openers of their own. -/
def sampleFiles : Place → List Opener.StoredFile
  | .host _ => [⟨"/jre/", "a/Host.class", ⟨#[1]⟩⟩]
  | .resolver _ => [⟨"/lib/", "a/Lib.class", ⟨#[2]⟩⟩]

/-- A resolver, and a parent of it that asks a host. -/
def sample : Forest where
  resolvers := [
    { name := "lib", searchPath := [⟨"/lib/", .directory⟩], host := some 0 },
    { name := "app", searchPath := [⟨"/app/", .directory⟩], parent := some 0 }]
  hosts := [.entries "jre" [⟨"/jre/", .directory⟩]]
  opener p := .memory (sampleFiles p) []

/-- The host is reached through the parent, whatever was asked for before. -/
theorem sample_resolve_host :
    (sample.resolve 1 (.resolver 1) "a.Host" (sample.run 1
      [.tryResolve (.resolver 1) "a.None", .resolve (.resolver 0) "a.Host",
        .resolve (.resolver 1) "a.Lib"] {})).2 =
      .ok ⟨"a.Host", ⟨"/jre/", .directory⟩, "jre", ⟨#[1]⟩⟩ := by
  have hreference :
      sample.reference (fun p => Opener.memoryAnswers (sampleFiles p)) (.resolver 1) "a.Host" =
        .ok ⟨"a.Host", ⟨"/jre/", .directory⟩, "jre", ⟨#[1]⟩⟩ := by decide +kernel
  rw [← hreference]
  exact resolve_eq_reference (fun p => Opener.memory_gives (sampleFiles p) [])
    (fun p => (Opener.memory_quiet (sampleFiles p) []).onlyResolves) 1 (by decide) (.resolver 1)
    "a.Host"

end TierIsolation.Forest
