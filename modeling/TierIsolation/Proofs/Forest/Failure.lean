import TierIsolation.Proofs.Forest.Cells
import TierIsolation.Proofs.Forest.Frame

/-!
# Resolutions that fail

What a resolution leaves behind that finds nothing or fails, if nothing else takes place meanwhile.

* `Forest.Fails` says where a resolution comes to a fault: at a released resolver, or at an entry
  that cannot be opened or read, each the first in the order of a look-up that is not without the
  name. `fails_iff`: these are the resolutions with a fault other than that nothing was found.
* `resolve_finds_or_keeps`: only what finds a symbol changes a cache.
* `resolve_failure` puts both together, and adds that no cell is left empty.
-/

namespace TierIsolation.Forest

variable {F : Forest} {s t u s₁ : State} {p : Place} {name : String} {fault : ResolutionFault}

/-! ## What remains -/

/-- The same symbols are remembered, and the same resolvers are released. -/
structure State.SameNames (s t : State) : Prop where
  cache : ∀ p, (t.resolver p).cache = (s.resolver p).cache
  released : ∀ p, (t.resolver p).released = (s.resolver p).released

theorem State.SameNames.refl (s : State) : s.SameNames s := ⟨fun _ => rfl, fun _ => rfl⟩

theorem State.SameNames.trans (h : s.SameNames t) (h' : t.SameNames u) : s.SameNames u :=
  ⟨fun p => (h'.cache p).trans (h.cache p), fun p => (h'.released p).trans (h.released p)⟩

theorem State.SameNames.record (s : State) (e : Event) : s.SameNames (s.record e) :=
  ⟨fun _ => rfl, fun _ => rfl⟩

theorem State.SameNames.hold (s : State) (p : Place) (index : Nat) (h : Handle) :
    s.SameNames (s.update p (·.hold index h)) where
  cache := State.keep_update ResolverState.cache (f := (·.hold index h)) (fun _ => rfl) s p
  released := State.keep_update ResolverState.released (f := (·.hold index h)) (fun _ => rfl) s p

theorem keepHandle_sameNames (p : Place) (index : Nat) (h : Handle) (s : State) :
    s.SameNames (F.keepHandle p index h s).1 := by
  unfold keepHandle
  split
  · exact .record s _
  · split
    · exact .record s _
    · exact .hold s p index h

theorem handleAt_sameNames (p : Place) (index : Nat) (e : Entry) (s : State) :
    s.SameNames (F.handleAt (F.runCall 0) p index e s).1 := by
  simp only [handleAt, runCalls_zero]
  split
  · exact .refl s
  · split
    · exact .refl s
    · split
      · exact .record s _
      · exact (State.SameNames.record s _).trans (keepHandle_sameNames p index _ _)

theorem readFrom_sameNames (p : Place) (h : Handle) (e : Entry) (path : String) (s : State) :
    s.SameNames (F.readFrom (F.runCall 0) p h e path s).1 := by
  simp only [readFrom, runCalls_zero]
  split
  · exact .record s _
  · exact .record s _

theorem askEntry_sameNames (p : Place) (name : String) (index : Nat) (e : Entry) (s : State) :
    s.SameNames (F.ask (F.runCall 0) p name (.entry index e) s).1 := by
  have hopen := @handleAt_sameNames F p index e s
  simp only [ask]
  split
  · rename_i s₁ fault hf
    rw [hf] at hopen
    exact hopen
  · rename_i s₁ h hf
    rw [hf] at hopen
    have hread := hopen.trans
      (@readFrom_sameNames F p h e (Symbol.path name (F.resolver p).suffix) s₁)
    split
    · rename_i s₂ fault hf
      rw [hf] at hread
      exact hread
    · rename_i s₂ found hf
      rw [hf] at hread
      exact hread

/-- What is asked has something, or leaves all that is remembered as it is. -/
def FindsOrKeeps (f : State → Outcome (Option Symbol)) : Prop :=
  ∀ s, (∃ symbol, (f s).2 = .ok (some symbol)) ∨ s.SameNames (f s).1

theorem FindsOrKeeps.askInOrder {asks : List (State → Outcome (Option Symbol))}
    (h : ∀ ask ∈ asks, FindsOrKeeps ask) : FindsOrKeeps (askInOrder asks) := by
  induction asks with
  | nil => exact fun s => .inr (.refl s)
  | cons first rest ih =>
    intro s
    have hfirst := h first List.mem_cons_self s
    rw [Forest.askInOrder]
    split
    · rename_i s₁ hf
      rw [hf] at hfirst
      obtain ⟨symbol, hs⟩ | hkeeps := hfirst
      · cases hs
      · refine (ih (fun ask hask => h ask (List.mem_cons_of_mem _ hask)) s₁).imp_right ?_
        exact hkeeps.trans
    · exact hfirst

theorem ask_finds_or_keeps_of {x : Asked}
    (h : ∀ q, x = .source (.resolver q) → ∀ s,
      (∃ symbol, (F.resolve 0 q name s).2 = .ok symbol) ∨ s.SameNames (F.resolve 0 q name s).1) :
    FindsOrKeeps (F.ask (F.runCall 0) p name x) := by
  intro s
  cases x with
  | entry index e => exact .inr (askEntry_sameNames p name index e s)
  | source asked =>
    cases asked with
    | nothing => exact .inr (.refl s)
    | table owner symbols => exact .inr (.refl s)
    | resolver q =>
      simp only [ask, askSource, orNothing_fst, orNothing_snd]
      obtain ⟨symbol, hs⟩ | hkeeps := h q rfl s
      · rw [resolve] at hs
        exact .inl ⟨symbol, by rw [hs, orAbsent]⟩
      · exact .inr hkeeps

/-- A resolution finds a symbol, or leaves all that is remembered as it is. -/
theorem resolve_finds_or_keeps (p : Place) (name : String) (s : State) :
    (∃ symbol, (F.resolve 0 p name s).2 = .ok symbol) ∨ s.SameNames (F.resolve 0 p name s).1 := by
  induction p using source_induction (F := F) generalizing s with
  | h p ih =>
    have hall : FindsOrKeeps
        (askInOrder ((F.lookupOrder p name).map (F.ask (F.runCall 0) p name))) :=
      .askInOrder fun ask hmem => by
        obtain ⟨x, hx, rfl⟩ := List.mem_map.1 hmem
        refine ask_finds_or_keeps_of fun q hq => ?_
        rcases mem_lookupOrder hx with hsource | ⟨index, e, hentry, -⟩
        · rw [hq, Asked.source.injEq] at hsource
          exact ih q _ hsource.symm
        · rw [hq] at hentry
          cases hentry
    rw [resolve, resolveWith_eq_askInOrder]
    obtain hs | ⟨hnot, hs⟩ | ⟨symbol, -, hs⟩ := F.resolveBy_cases p name
      (askInOrder ((F.lookupOrder p name).map (F.ask (F.runCall 0) p name))) s
    · rw [hs]
      exact .inr (.refl s)
    · rw [hs]
      obtain ⟨symbol, hfound⟩ | hkeeps := hall s
      · exact absurd hfound (hnot symbol)
      · exact .inr hkeeps
    · exact .inl ⟨symbol, by rw [hs]⟩

theorem ask_finds_or_keeps (p : Place) (name : String) (x : Asked) :
    FindsOrKeeps (F.ask (F.runCall 0) p name x) :=
  ask_finds_or_keeps_of fun q _ => resolve_finds_or_keeps q name

/-! ## Entries that fail -/

theorem handleAt_eq_error_iff {index : Nat} {e : Entry} (hlive : (s.resolver p).released = false) :
    F.handleAt (F.runCall 0) p index e s = (t, .error fault) ↔
      (s.resolver p).handle? index = none ∧ ∃ cause,
        ((F.opener p).openEntry s.history e).answer = .error cause ∧ t = s.record (.openFailed p e) ∧
        fault = .entryFailed e.location (F.resolver p).name cause.message := by
  simp only [handleAt, hlive, runCalls_zero, Bool.false_eq_true, if_false]
  cases hheld : (s.resolver p).handle? index with
  | some held => simp
  | none =>
    cases ((F.opener p).openEntry s.history e).answer with
    | error cause => simp [eq_comm]
    | ok contents => simp [keepHandle, hlive, hheld]

theorem readFrom_eq_error_iff {h : Handle} {e : Entry} {path : String}
    (hlive : (s.resolver p).released = false) :
    F.readFrom (F.runCall 0) p h e path s = (t, .error fault) ↔
      ∃ cause, ((F.opener p).read s.history h path).answer = .error cause ∧
        t = s.record (.readFailed h path) ∧
        fault = .entryFailed e.location (F.resolver p).name cause.message := by
  simp only [readFrom, hlive, runCalls_zero, Bool.false_eq_true, if_false]
  cases ((F.opener p).read s.history h path).answer with
  | error cause => simp [eq_comm]
  | ok found => simp

theorem askEntry_eq_error_iff {call : Call → State → State} {index : Nat} {e : Entry} :
    F.ask call p name (.entry index e) s = (t, .error fault) ↔
      F.handleAt call p index e s = (t, .error fault) ∨
      ∃ s₁ h, F.handleAt call p index e s = (s₁, .ok h) ∧
        F.readFrom call p h e (Symbol.path name (F.resolver p).suffix) s₁ = (t, .error fault) := by
  simp only [ask]
  rcases F.handleAt call p index e s with ⟨s₁, cause | h⟩
  · simp
  · constructor
    · intro heq
      refine .inr ⟨s₁, h, rfl, ?_⟩
      dsimp only at heq
      split at heq
      · rename_i s₂ cause hread
        cases heq
        exact hread
      · cases heq
    · rintro (heq | ⟨s₂, h₂, heq, hread⟩)
      · cases heq
      · cases heq
        simp only [hread]

/-- The faults of a source are those of a resolver, without that nothing was found. -/
theorem orNothing_eq_error_iff {o : Outcome Symbol} :
    orNothing o = (t, .error fault) ↔ o = (t, .error fault) ∧ fault.isNotFound = false := by
  obtain ⟨s₁, cause | symbol⟩ := o
  · cases hcause : cause.isNotFound with
    | true =>
      simp only [orNothing, hcause, if_true, Prod.mk.injEq, reduceCtorEq, and_false, false_iff]
      rintro ⟨⟨-, hf⟩, hfault⟩
      rw [← Except.error.inj hf, hcause] at hfault
      cases hfault
    | false =>
      simp only [orNothing, hcause, Bool.false_eq_true, if_false, Prod.mk.injEq, Except.error.injEq]
      constructor
      · rintro ⟨rfl, rfl⟩
        exact ⟨⟨rfl, rfl⟩, hcause⟩
      · exact And.left
  · simp [orNothing]

/-- What a source has, a resolver found. -/
theorem orNothing_eq_some_iff {o : Outcome Symbol} {symbol : Symbol} :
    orNothing o = (t, .ok (some symbol)) ↔ o = (t, .ok symbol) := by
  obtain ⟨s₁, cause | found⟩ := o
  · cases hcause : cause.isNotFound <;> simp [orNothing, hcause]
  · simp [orNothing]

/-! ## Where a resolution fails -/

/-- Resolving a name at a resolver comes to one of those that are asked: the name was not resolved
before, and all that are asked earlier have nothing. -/
structure Reaches (F : Forest) (name : String) (p : Place) (s : State) (x : Asked) (s₁ : State) :
    Prop where
  live : (s.resolver p).released = false
  missing : (s.resolver p).cached? name = none
  before : ∃ before after, F.lookupOrder p name = before ++ x :: after ∧
    askInOrder (before.map (F.ask (F.runCall 0) p name)) s = (s₁, .ok none)

/-- Whoever is asked after all before had nothing is reached. -/
theorem exists_reaches_of_asked (hlive : (s.resolver p).released = false)
    (hmissing : (s.resolver p).cached? name = none)
    {asks later : List (State → Outcome (Option Symbol))} {ask : State → Outcome (Option Symbol)}
    (horder : (F.lookupOrder p name).map (F.ask (F.runCall 0) p name) = asks ++ ask :: later)
    (hbefore : askInOrder asks s = (s₁, .ok none)) :
    ∃ x, Reaches F name p s x s₁ ∧ ask = F.ask (F.runCall 0) p name x := by
  obtain ⟨before, rest, hlist, rfl, hrest⟩ := List.map_eq_append_iff.1 horder
  obtain ⟨x, after, rfl, rfl, -⟩ := List.map_eq_cons_iff.1 hrest
  exact ⟨x, ⟨hlive, hmissing, before, after, hlist, hbefore⟩, rfl⟩

/-- Only the source is asked elsewhere. -/
theorem Reaches.source_eq {x : Source} (h : Reaches F name p s (.source x) s₁) :
    F.source p ((F.resolver p).policy.modeFor name) = x := by
  obtain ⟨before, after, horder, -⟩ := h.before
  have hmem : Asked.source x ∈ F.lookupOrder p name := by simp [horder]
  rcases mem_lookupOrder hmem with hsource | ⟨index, e, hentry, -⟩
  · rw [Asked.source.injEq] at hsource
    exact hsource.symm
  · cases hentry

/-- Resolving a name comes to a fault. The state `t` is the one right after the failure: nothing is
opened or read after it. -/
inductive Fails (F : Forest) (name : String) : Place → State → State → ResolutionFault → Prop
  /-- The resolver was released. -/
  | released {p : Place} {s : State} (h : (s.resolver p).released = true) :
      Fails F name p s s (.released (F.resolver p).name)
  /-- An entry of its own cannot be opened. -/
  | opening {p : Place} {s s₁ : State} {index : Nat} {e : Entry} {cause : OpenerFault}
      (hreach : Reaches F name p s (.entry index e) s₁)
      (hnew : (s₁.resolver p).handle? index = none)
      (hopen : ((F.opener p).openEntry s₁.history e).answer = .error cause) :
      Fails F name p s (s₁.record (.openFailed p e))
        (.entryFailed e.location (F.resolver p).name cause.message)
  /-- An entry of its own, open by then, cannot be read. -/
  | reading {p : Place} {s s₁ s₂ : State} {index : Nat} {e : Entry} {h : Handle}
      {cause : OpenerFault} (hreach : Reaches F name p s (.entry index e) s₁)
      (hheld : F.handleAt (F.runCall 0) p index e s₁ = (s₂, .ok h))
      (hread : ((F.opener p).read s₂.history h (Symbol.path name (F.resolver p).suffix)).answer =
        .error cause) :
      Fails F name p s (s₂.record (.readFailed h (Symbol.path name (F.resolver p).suffix)))
        (.entryFailed e.location (F.resolver p).name cause.message)
  /-- Where it turns to, the resolution comes to a fault. -/
  | source {p q : Place} {s s₁ t : State} {fault : ResolutionFault}
      (hreach : Reaches F name p s (.source (.resolver q)) s₁)
      (h : Fails F name q s₁ t fault) : Fails F name p s t fault

/-- The resolver is not released by the time it asks one of them. -/
theorem Reaches.live_then {x : Asked} (h : Reaches F name p s x s₁) :
    (s₁.resolver p).released = false := by
  obtain ⟨before, after, horder, hbefore⟩ := h.before
  have hkeeps : FindsOrKeeps (askInOrder (before.map (F.ask (F.runCall 0) p name))) :=
    .askInOrder fun ask hmem => by
      obtain ⟨x, -, rfl⟩ := List.mem_map.1 hmem
      exact ask_finds_or_keeps p name x
  have hs := hkeeps s
  rw [hbefore] at hs
  obtain ⟨symbol, hs⟩ | hs := hs
  · cases hs
  · rw [hs.released, h.live]

/-- The fault of the one that is asked is that of the resolution, which ends there. -/
theorem Reaches.resolve_eq {x : Asked} (h : Reaches F name p s x s₁)
    (hx : F.ask (F.runCall 0) p name x s₁ = (t, .error fault)) :
    F.resolve 0 p name s = (t, .error fault) := by
  obtain ⟨before, after, horder, hbefore⟩ := h.before
  have hsearch : askInOrder ((F.lookupOrder p name).map (F.ask (F.runCall 0) p name)) s =
      (t, .error fault) := by
    rw [horder, List.map_append, List.map_cons]
    exact askInOrder_eq_error_iff.2 ⟨_, _, _, s₁, rfl, hbefore, hx⟩
  rw [resolve, resolveWith_eq_askInOrder, resolveBy, h.live, h.missing, hsearch]
  rfl

/-- A fault of a resolution, other than that nothing was found, is that of one that is asked, unless
the resolver was released. -/
theorem exists_reaches (h : F.resolve 0 p name s = (t, .error fault))
    (hfault : fault.isNotFound = false) (hlive : (s.resolver p).released = false) :
    ∃ x s₁, Reaches F name p s x s₁ ∧ F.ask (F.runCall 0) p name x s₁ = (t, .error fault) := by
  rw [resolve, resolveWith_eq_askInOrder, resolveBy, hlive] at h
  cases hmissing : (s.resolver p).cached? name with
  | some symbol =>
    rw [hmissing] at h
    cases h
  | none =>
    simp only [hmissing, Bool.false_eq_true, if_false] at h
    split at h
    · cases h
    · cases h
      cases hfault
    · rename_i s₂ found hsearch
      cases h
      obtain ⟨asks, ask, later, s₁, horder, hbefore, hask⟩ := askInOrder_eq_error_iff.1 hsearch
      obtain ⟨x, hreach, rfl⟩ := exists_reaches_of_asked hlive hmissing horder hbefore
      exact ⟨x, s₁, hreach, hask⟩

/-- Where a resolution fails, it ends with that fault, and any other fault than that nothing was
found comes from there. -/
theorem fails_iff :
    Fails F name p s t fault ↔
      F.resolve 0 p name s = (t, .error fault) ∧ fault.isNotFound = false := by
  constructor
  · intro h
    induction h with
    | @released p s hreleased =>
      exact ⟨F.resolve_of_released hreleased, rfl⟩
    | opening hreach hnew hopen =>
      refine ⟨hreach.resolve_eq (askEntry_eq_error_iff.2 (.inl ?_)), rfl⟩
      exact (handleAt_eq_error_iff hreach.live_then).2 ⟨hnew, _, hopen, rfl, rfl⟩
    | @reading p s s₁ s₂ index e h cause hreach hheld hread =>
      have hkeeps := @handleAt_sameNames F p index e s₁
      rw [hheld] at hkeeps
      have hlive := (hkeeps.released p).trans hreach.live_then
      refine ⟨hreach.resolve_eq (askEntry_eq_error_iff.2 (.inr ⟨_, _, hheld, ?_⟩)), rfl⟩
      exact (readFrom_eq_error_iff hlive).2 ⟨_, hread, rfl, rfl⟩
    | source hreach _ ih => exact ⟨hreach.resolve_eq (orNothing_eq_error_iff.2 ih), ih.2⟩
  · rintro ⟨h, hfault⟩
    induction p using source_induction (F := F) generalizing s t with
    | h p ih =>
      cases hlive : (s.resolver p).released with
      | true =>
        rw [F.resolve_of_released hlive] at h
        cases h
        exact .released hlive
      | false =>
        obtain ⟨x, s₁, hreach, hask⟩ := exists_reaches h hfault hlive
        cases x with
        | entry index e =>
          obtain hopen | ⟨s₂, handle, hheld, hread⟩ := askEntry_eq_error_iff.1 hask
          · obtain ⟨hnew, cause, hanswer, rfl, rfl⟩ :=
              (handleAt_eq_error_iff hreach.live_then).1 hopen
            exact .opening hreach hnew hanswer
          · have hkeeps := @handleAt_sameNames F p index e s₁
            rw [hheld] at hkeeps
            have hlive₂ := (hkeeps.released p).trans hreach.live_then
            obtain ⟨cause, hanswer, rfl, rfl⟩ := (readFrom_eq_error_iff hlive₂).1 hread
            exact .reading hreach hheld hanswer
        | source asked =>
          cases asked with
          | nothing => cases hask
          | table owner symbols => cases hask
          | resolver q =>
            exact .source hreach (ih q _ hreach.source_eq (orNothing_eq_error_iff.1 hask).1)

/-! ## What a failure leaves behind -/

/-- **A resolution that fails changes no cache, and no failure is hidden.** If nothing else takes
place while a name is resolved, no cell is left empty; and if the resolution ends with a fault,
every resolver, those behind hosts included, remembers what it did before. A failure anywhere on
the way (`Fails`) ends the resolution with that very fault, in the state right after it; and a
fault other than that nothing was found never comes from elsewhere. -/
theorem resolve_failure (F : Forest) {depth : Nat} (hidle : depth = 0 ∨ F.Quiet)
    (p : Place) (name : String) (s : State) :
    let outcome := F.resolve depth p name s
    F.resolveInCells p name ⟨s, []⟩ = (⟨outcome.1, []⟩, outcome.2) ∧
    (∀ fault, outcome.2 = .error fault →
      ∀ q, (outcome.1.resolver q).cache = (s.resolver q).cache) ∧
    ∀ t fault, Fails F name p s t fault ↔
      outcome = (t, .error fault) ∧ fault.isNotFound = false := by
  intro outcome
  have hzero : outcome = F.resolve 0 p name s := by
    rcases hidle with rfl | hquiet
    · rfl
    · exact congrFun (resolveWith_quiet hquiet _ _ p name) s
  rw [hzero]
  refine ⟨resolveInCells_eq fun q _ => List.not_mem_nil, fun fault h => ?_,
    fun t fault => fails_iff⟩
  obtain ⟨symbol, hs⟩ | hkeeps := resolve_finds_or_keeps (F := F) p name s
  · rw [hs] at h
    cases h
  · exact hkeeps.cache

/-- A library, and a resolver that asks it first. -/
def withLibrary : Forest where
  resolvers := [
    { name := "lib", searchPath := [⟨"/lib/", .directory⟩] },
    { name := "app", searchPath := [⟨"/app/", .directory⟩], parent := some 0,
      policy := { default := .parentFirst } }]
  opener _ := .memory [⟨"/lib/", "a/Lib.class", ⟨#[1]⟩⟩, ⟨"/app/", "a/App.class", ⟨#[2]⟩⟩] []

/-- The library was used, and released. -/
def libraryReleased : State :=
  withLibrary.run 0 [.resolve (.resolver 1) "a.Lib", .release (.resolver 0)] {}

/-- The fault of the library is that of the resolver that asks it. The entry that has the name is
not opened, and the resolver remembers the one name that it did before. -/
theorem withLibrary_failure :
    ∃ t, Fails withLibrary "a.App" (.resolver 1) libraryReleased t (.released "lib") ∧
      (t.resolver (.resolver 1)).cache = (libraryReleased.resolver (.resolver 1)).cache ∧
      (libraryReleased.resolver (.resolver 1)).cache.map (·.1) = ["a.Lib"] ∧
      (withLibrary.resolveInCells (.resolver 1) "a.App" ⟨libraryReleased, []⟩).1 = ⟨t, []⟩ ∧
      t.history.hasOpened "/app/" = false := by
  have hfault : (withLibrary.resolve 1 (.resolver 1) "a.App" libraryReleased).2 =
      .error (.released "lib") := by decide +kernel
  obtain ⟨hcells, hcache, hfails⟩ := @resolve_failure withLibrary 1
    (.inr fun _ => Opener.memory_quiet _ _) (.resolver 1) "a.App" libraryReleased
  refine ⟨_, (hfails _ _).2 ⟨?_, rfl⟩, hcache _ hfault _, by decide +kernel, by rw [hcells],
    by decide +kernel⟩
  rw [← hfault]

end TierIsolation.Forest
