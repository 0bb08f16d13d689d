import TierIsolation.Proofs.Forest.Coherence

/-!
# The frame of a look-up

`resolve_frame`: if nothing takes place meanwhile, a resolution leaves every resolver alone that is
not in the lineage of its own, but for the one behind the host of the root. A name that is for the
parent alone uses no entry of the resolver itself, and has the symbol that the source has.

* `askSource_spares`: a source leaves the resolver alone that asks it.
* `Backed.source_has`: a resolver remembers of a name for the parent alone what its source has, or
  what the source had before it was released.
* `app_outlives_lib`: the second case does occur, and so does the exception for the host.
-/

namespace TierIsolation.Forest

variable {F : Forest} {s t : State} {p q : Place} {name : String} {symbol : Symbol} {depth : Nat}

/-! ## Resolvers outside the lineage -/

theorem undisturbed_of_idle (hidle : depth = 0 ∨ F.Quiet) :
    Undisturbed F (F.runCall depth) := by
  rcases hidle with rfl | hquiet
  · exact undisturbed_zero
  · exact undisturbed_of_quiet hquiet _

/-- A resolution leaves the others alone; only the root turns to the resolver behind its host. -/
theorem resolve_spares (hcalm : Undisturbed F (F.runCall depth)) (hq : q ∉ F.lineage p)
    (s : State) :
    ((F.resolve depth p name s).1.resolver q = s.resolver q) ∨
      ∃ k, q = .host k ∧ ∃ root ∈ F.lineage p, F.parent? root = none ∧
        F.source root ((F.resolver root).policy.modeFor name) = .resolver (.host k) := by
  by_cases hturns : TurnsTo F name p q
  · exact .inr (hturns.mem_lineage.resolve_left hq)
  · exact .inl (resolveWith_spares_of_not_turnsTo hcalm hturns s)

theorem askSource_idle (hidle : depth = 0 ∨ F.Quiet) (source : Source) :
    F.askSource (F.runCall depth) name source = F.askSource (F.runCall 0) name source := by
  cases source with
  | nothing => rfl
  | table owner symbols => rfl
  | resolver q =>
    funext s
    exact congrArg orNothing (congrFun (resolve_idle hidle q name) s)

/-! ## Names for the parent alone -/

/-- A source leaves the resolver alone that asks it. -/
theorem askSource_spares {call : Call → State → State} (hcalm : Undisturbed F call)
    (mode : LookupMode) : Spares p (F.askSource call name (F.source p mode)) := by
  have hlower : ∀ r : Place, r.rank < p.rank → p ≠ r := by
    rintro r hr rfl
    exact Nat.lt_irrefl _ hr
  exact (spares_stepwise (fun r _ => hcalm r) hlower).askSource fun r hr =>
    resolveWith_spares hcalm (rank_source hr)

section ParentOnly

variable (hmode : (F.resolver p).policy.modeFor name = .parentOnly)
include hmode

/-- A name for the parent alone is asked of the source. -/
theorem resolve_parentOnly (depth : Nat) :
    F.resolve depth p name =
      F.resolveBy p name (F.askSource (F.runCall depth) name (F.source p .parentOnly)) := by
  funext s
  rw [resolve, resolveWith_eq, hmode, searchBy]

theorem handles_resolve_parentOnly (hcalm : Undisturbed F (F.runCall depth)) (s : State) :
    ((F.resolve depth p name s).1.resolver p).handles = (s.resolver p).handles := by
  have hsource := @askSource_spares F p name _ hcalm .parentOnly s
  rw [resolve_parentOnly hmode]
  obtain hs | ⟨-, hs⟩ | ⟨symbol, -, hs⟩ := F.resolveBy_cases p name
    (F.askSource (F.runCall depth) name (F.source p .parentOnly)) s
  · rw [hs]
  · rw [hs, hsource]
  · rw [hs, State.update_same, ResolverState.handles_remember, hsource]

/-- What a resolver remembers of such a name, its source has, unless the source was released. -/
theorem Backed.source_has (h : Backed F s name symbol p) :
    F.askSource (F.runCall 0) name (F.source p .parentOnly) s = (s, .ok (some symbol)) ∨
      ∃ q, F.source p .parentOnly = .resolver q ∧ (s.resolver q).released = true ∧
        (s.resolver q).cached? name = some symbol := by
  have hasked : ∀ q, F.source p .parentOnly = .resolver q →
      (s.resolver q).cached? name = some symbol →
      F.askSource (F.runCall 0) name (F.source p .parentOnly) s = (s, .ok (some symbol)) ∨
        ∃ q, F.source p .parentOnly = .resolver q ∧ (s.resolver q).released = true ∧
          (s.resolver q).cached? name = some symbol := by
    intro q hsource hcached
    cases hlive : (s.resolver q).released with
    | true => exact .inr ⟨q, hsource, hlive, hcached⟩
    | false =>
      rw [hsource]
      exact .inl (orNothing_eq_some_iff.2 (F.resolve_of_cached hlive hcached))
  cases h with
  | own hcached hread => exact absurd hmode hread.mode
  | host hcached hroot hk hasks hhost =>
    rw [hmode] at hasks
    unfold HostHas at hhost
    split at hhost
    · exact hhost.elim
    · rename_i owner symbols hsource
      left
      rw [hasks, hsource, askSource, hhost]
    · rename_i q hsource
      exact hasked q (hasks.trans hsource) hhost.1
  | @parent _ q hcached hparent hq => exact hasked q (source_of_parent hparent _) hq.cached

/-- Such a name has the symbol that the source has. A source that was released has none, but what
it had before may be remembered. -/
theorem resolve_eq_ok_iff (hs : Coherent F s) :
    (F.resolve 0 p name s).2 = .ok symbol ↔
      (s.resolver p).released = false ∧
      ((F.askSource (F.runCall 0) name (F.source p .parentOnly) s).2 = .ok (some symbol) ∨
        (s.resolver p).cached? name = some symbol ∧
        ∃ q, F.source p .parentOnly = .resolver q ∧ (s.resolver q).released = true ∧
          (s.resolver q).cached? name = some symbol) := by
  cases hlive : (s.resolver p).released with
  | true => simp [F.resolve_of_released hlive]
  | false =>
    cases hcached : (s.resolver p).cached? name with
    | none =>
      simp only [resolve_parentOnly hmode, resolveBy, hlive, hcached]
      generalize F.askSource (F.runCall 0) name (F.source p .parentOnly) s = asked
      obtain ⟨t, fault | _ | found⟩ := asked <;> simp
    | some found =>
      rw [F.resolve_of_cached hlive hcached]
      simp only [Except.ok.injEq, Option.some.injEq, true_and]
      obtain hasked | ⟨q, hsource, hreleased, hq⟩ :=
        (hs.backed p name found hcached).source_has hmode
      · rw [hasked]
        constructor
        · rintro rfl
          exact .inl rfl
        · rintro (h | ⟨h, -⟩)
          · exact Option.some.inj (Except.ok.inj h)
          · exact h
      · constructor
        · rintro rfl
          exact .inr ⟨rfl, q, hsource, hreleased, hq⟩
        · rintro (h | ⟨h, -⟩)
          · -- the source refuses
            have hrefuses : F.resolveWith (F.runCall 0) q name s =
                (s, .error (.released (F.resolver q).name)) := F.resolve_of_released hreleased
            rw [hsource, askSource, orNothing_snd, hrefuses] at h
            cases h
          · exact h

end ParentOnly

/-- **The frame of a look-up.** A name is resolved with nothing else taking place meanwhile.

Every resolver outside the lineage of the one that is asked stays as it is: its cache, its handles
and whether it was released. The one exception is the resolver behind a host, if the root turns to
it for the name. If the name is for the parent alone, the resolver's own handles stay as they are,
and entries are used by its source, or not at all; after a run of operations, it has the symbol that
the source answers, or that both remember since the source was released. -/
theorem resolve_frame (F : Forest) {depth : Nat} (hidle : depth = 0 ∨ F.Quiet)
    (p : Place) (name : String) :
    (∀ s, ∀ q ∉ F.lineage p,
      (F.resolve depth p name s).1.resolver q = s.resolver q ∨
        ∃ k, q = .host k ∧ ∃ root ∈ F.lineage p, F.parent? root = none ∧
          F.source root ((F.resolver root).policy.modeFor name) = .resolver (.host k)) ∧
    ((F.resolver p).policy.modeFor name = .parentOnly →
      (∀ s, let outcome := F.resolve depth p name s
        let asked := F.askSource (F.runCall depth) name (F.source p .parentOnly) s
        (outcome.1.resolver p).handles = (s.resolver p).handles ∧
        (outcome.1.SameEntries s ∨ outcome.1.SameEntries asked.1)) ∧
      ∀ operations symbol,
        let s := F.run depth operations {}
        let asked := F.askSource (F.runCall depth) name (F.source p .parentOnly) s
        (F.resolve depth p name s).2 = .ok symbol ↔
          (s.resolver p).released = false ∧
          (asked.2 = .ok (some symbol) ∨
            (s.resolver p).cached? name = some symbol ∧
            ∃ q, F.source p .parentOnly = .resolver q ∧ (s.resolver q).released = true ∧
              (s.resolver q).cached? name = some symbol)) := by
  have hcalm := undisturbed_of_idle hidle
  refine ⟨fun s q hq => resolve_spares hcalm hq s, fun hmode => ⟨fun s => ⟨?_, ?_⟩, ?_⟩⟩
  · exact handles_resolve_parentOnly hmode hcalm s
  · rw [resolve_parentOnly hmode]
    exact resolveBy_sameEntries _ _ _ _
  · intro operations symbol s asked
    have hs : Coherent F s := by
      rw [show s = F.run 0 operations {} from run_idle hidle operations {}]
      exact run_coherent F operations
    rw [resolve_idle hidle, show asked = _ from congrFun (askSource_idle hidle _) s]
    exact resolve_eq_ok_iff hmode hs

/-- A library above a host with an entry, a resolver that leaves all names to it though it has an
entry of its own, and another one beside that. -/
def delegating : Forest where
  resolvers := [
    { name := "lib", searchPath := [⟨"/lib/", .directory⟩], host := some 0 },
    { name := "app", searchPath := [⟨"/app/", .directory⟩], parent := some 0,
      policy := { default := .parentOnly } },
    { name := "side", searchPath := [⟨"/side/", .directory⟩], parent := some 0 }]
  hosts := [.entries "jre" [⟨"/jre/", .directory⟩]]
  opener _ := .memory [⟨"/jre/", "a/Object.class", ⟨#[0]⟩⟩, ⟨"/lib/", "a/Lib.class", ⟨#[1]⟩⟩,
    ⟨"/app/", "a/Lib.class", ⟨#[2]⟩⟩, ⟨"/side/", "a/Side.class", ⟨#[3]⟩⟩] []

theorem lineage_delegating : delegating.lineage (.resolver 1) = [.resolver 1, .resolver 0] := by
  rw [lineage_of_parent (q := .resolver 0) (by decide), lineage_of_root (by decide)]

/-- The library has the name, so the resolver's own entry is not opened, and the resolver beside it
keeps what it holds. -/
theorem delegating_frame :
    let s := delegating.run 1 [.resolve (.resolver 2) "a.Side"] {}
    let outcome := delegating.resolve 1 (.resolver 1) "a.Lib" s
    (delegating.resolver (.resolver 1)).policy.modeFor "a.Lib" = .parentOnly ∧
    outcome.2 = .ok librarySymbol ∧
    (outcome.1.resolver (.resolver 1)).handles = (s.resolver (.resolver 1)).handles ∧
    outcome.1.resolver (.resolver 2) = s.resolver (.resolver 2) ∧
    (s.resolver (.resolver 2)).handles.length = 1 := by
  have hheld : ((delegating.run 1 [.resolve (.resolver 2) "a.Side"] {}).resolver
      (.resolver 2)).handles.length = 1 := by decide +kernel
  intro s outcome
  obtain ⟨hspares, hdelegates⟩ := @resolve_frame delegating 1
    (.inr fun _ => Opener.memory_quiet _ _) (.resolver 1) "a.Lib"
  have hmode : (delegating.resolver (.resolver 1)).policy.modeFor "a.Lib" = .parentOnly := by
    decide +kernel
  obtain ⟨hhandles, hfound⟩ := hdelegates hmode
  have hlib : (delegating.resolve 1 (.resolver 1) "a.Lib" s).2 = .ok librarySymbol :=
    (hfound [.resolve (.resolver 2) "a.Side"] librarySymbol).2
      ⟨by decide +kernel, .inl (by decide +kernel)⟩
  refine ⟨hmode, hlib, (hhandles s).1, ?_, hheld⟩
  obtain hsame | ⟨k, hhost, -⟩ := hspares s (.resolver 2) (by simp [lineage_delegating])
  · exact hsame
  · cases hhost

/-- A resolver has a symbol that its parent, asked for it, refuses: the parent was released since.
And the resolver behind the host, no ancestor of its, opens an entry for it. -/
theorem app_outlives_lib :
    delegating.parent? (.resolver 1) = some (.resolver 0) ∧
    (delegating.resolver (.resolver 1)).policy.modeFor "a.Lib" = .parentOnly ∧
    .host 0 ∉ delegating.lineage (.resolver 1) ∧
    ((delegating.resolve 0 (.resolver 1) "a.Object" {}).1.resolver (.host 0)).handles.length = 1 ∧
    let s := delegating.run 0 [.resolve (.resolver 1) "a.Lib", .release (.resolver 0)] {}
    (delegating.resolve 0 (.resolver 1) "a.Lib" s).2 = .ok librarySymbol ∧
    (delegating.resolve 0 (.resolver 0) "a.Lib" s).2 = .error (.released "lib") :=
  ⟨by decide, by decide +kernel, by simp [lineage_delegating], by decide +kernel,
    by decide +kernel, by decide +kernel⟩

end TierIsolation.Forest
