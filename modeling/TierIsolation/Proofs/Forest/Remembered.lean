import TierIsolation.Proofs.Forest.Balance
import TierIsolation.Proofs.Forest.Failure

/-!
# What resolvers remember

* `State.Grows`: resolvers never forget a name, whatever takes place.
* `Forest.Finds`: a resolution finds a symbol at its own resolver, or at one that it comes to from
  source to source. `cached?_resolve_iff`: these are the names that it adds to caches.
* `Forest.Resolved` says the same of a run. `cached?_run_iff`: what is remembered after a run is
  what was found in it.
* `resolve_again`: a name that was resolved is resolved to the same symbol ever after, until its
  resolver is released.
-/

namespace TierIsolation

/-! ## Growth -/

/-- All names remembered are remembered later on, with the same symbols, and no name twice. -/
structure ResolverState.Grows (r r' : ResolverState) : Prop where
  cached : ∀ name symbol, r.cached? name = some symbol → r'.cached? name = some symbol
  count : r.cache.length ≤ r'.cache.length
  nodup : (r.cache.map (·.1)).Nodup → (r'.cache.map (·.1)).Nodup

namespace ResolverState

theorem Grows.of_cache {r r' : ResolverState} (h : r'.cache = r.cache) : r.Grows r' where
  cached name symbol hc := by
    rw [cached?, h]
    exact hc
  count := h ▸ Nat.le_refl _
  nodup hn := h ▸ hn

theorem Grows.trans {r r' r'' : ResolverState} (h : r.Grows r') (h' : r'.Grows r'') :
    r.Grows r'' :=
  ⟨fun name symbol hc => h'.cached name symbol (h.cached name symbol hc),
    Nat.le_trans h.count h'.count, fun hn => h'.nodup (h.nodup hn)⟩

theorem grows_remember (r : ResolverState) (name : String) (symbol : Symbol) :
    r.Grows (r.remember name symbol) where
  cached other found h := by
    rw [cached?_remember]
    split
    · rename_i heq
      rw [← heq, h]
      rfl
    · exact h
  count := by
    unfold remember
    split
    · exact Nat.le_refl _
    · exact Nat.le_succ _
  nodup hn := by
    unfold remember
    split
    · exact hn
    · rename_i hmissing
      rw [List.map_cons, List.nodup_cons]
      refine ⟨fun hmem => ?_, hn⟩
      obtain ⟨x, hx, hname⟩ := List.mem_map.1 hmem
      have hne := List.lookup_eq_none_iff.1 hmissing x hx
      simp [hname] at hne

theorem grows_hold (r : ResolverState) (index : Nat) (h : Handle) : r.Grows (r.hold index h) :=
  .of_cache rfl

theorem grows_release (r : ResolverState) : r.Grows r.release := .of_cache rfl

end ResolverState

namespace Forest

variable {F : Forest} {s t u s₁ : State} {p q r : Place} {name other : String} {symbol : Symbol}

/-- No resolver forgets a name. -/
def State.Grows (s t : State) : Prop := ∀ p, (s.resolver p).Grows (t.resolver p)

theorem State.Grows.refl (s : State) : s.Grows s := fun _ => .of_cache rfl

theorem State.Grows.trans (h : s.Grows t) (h' : t.Grows u) : s.Grows u :=
  fun p => (h p).trans (h' p)

theorem State.Grows.update {f : ResolverState → ResolverState}
    (h : ∀ r : ResolverState, r.Grows (f r)) (s : State) (p : Place) : s.Grows (s.update p f) :=
  State.forall_update (P := fun q r => ResolverState.Grows (s.resolver q) r) (h _)
    fun _ => .of_cache rfl

theorem State.SameNames.grows (h : s.SameNames t) : s.Grows t := fun p => .of_cache (h.cache p)

theorem Step.grows {c c' : State × Ledger} (h : Step F c c') : c.1.Grows c'.1 := by
  cases h with
  | opened => exact .refl _
  | @held s l x rest _ _ _ => exact .update (fun r => r.grows_hold x.index x.handle) s x.place
  | released => exact .refl _
  | emptied p => exact .update ResolverState.grows_release _ p
  | noted => exact .refl _
  | remembered p name symbol => exact .update (fun r => r.grows_remember name symbol) _ p

theorem Steps.grows {c c' : State × Ledger} (h : Steps F c c') : c.1.Grows c'.1 := by
  induction h with
  | refl => exact .refl _
  | tail _ hstep ih => exact ih.trans hstep.grows

theorem Accounted.grows (h : Accounted F s t) : s.Grows t := by
  obtain ⟨l, hsteps, -⟩ := h {}
  exact hsteps.grows

theorem resolve_grows (depth : Nat) (p : Place) (name : String) :
    Along State.Grows (F.resolve depth p name) := fun s =>
  (resolve_along (fun _ => accounted_stepwise) release_accounted .refl depth p name s).grows

theorem run_grows (depth : Nat) (operations : List Operation) (s : State) :
    s.Grows (F.run depth operations s) :=
  (run_accounted depth operations s).grows

/-! ## One resolution -/

/-- Looks a name up that is not remembered. -/
def search (F : Forest) (p : Place) (name : String) : State → Outcome (Option Symbol) :=
  askInOrder ((F.lookupOrder p name).map (F.ask (F.runCall 0) p name))

theorem resolve_eq_resolveBy (F : Forest) (p : Place) (name : String) :
    F.resolve 0 p name = F.resolveBy p name (F.search p name) :=
  resolveWith_eq_askInOrder _ p name

theorem resolve_of_missing (hlive : (s.resolver p).released = false)
    (hmissing : (s.resolver p).cached? name = none) :
    (F.resolve 0 p name s).1 = (F.search p name s).1 ∧
      (∃ fault, (F.resolve 0 p name s).2 = .error fault) ∨
    ∃ symbol, F.resolve 0 p name s =
      ((F.search p name s).1.update p (·.remember name symbol), .ok symbol) := by
  rw [F.resolve_eq_resolveBy, resolveBy]
  simp only [hlive, hmissing, Bool.false_eq_true, if_false]
  rcases F.search p name s with ⟨s₁, fault | (_ | symbol)⟩
  · exact .inl ⟨rfl, _, rfl⟩
  · exact .inl ⟨rfl, _, rfl⟩
  · exact .inr ⟨symbol, rfl⟩

/-- Resolving `name` at `p` in the state `s` comes to resolving it at `r`, where it is found to be
`symbol`. -/
inductive Finds (F : Forest) (name : String) : Place → State → Place → Symbol → Prop
  | self {p : Place} {s : State} {symbol : Symbol} (h : (F.resolve 0 p name s).2 = .ok symbol) :
      Finds F name p s p symbol
  | source {p q r : Place} {s s₁ : State} {symbol : Symbol}
      (hreach : Reaches F name p s (.source (.resolver q)) s₁) (h : Finds F name q s₁ r symbol) :
      Finds F name p s r symbol

theorem Finds.rank_le (h : Finds F name p s r symbol) : r.rank ≤ p.rank := by
  induction h with
  | self => exact Nat.le_refl _
  | source hreach _ ih =>
    have hlt := rank_source hreach.source_eq
    omega

section Search

variable (hlive : (s.resolver p).released = false) (hmissing : (s.resolver p).cached? name = none)
  (ih : ∀ q mode, F.source p mode = .resolver q → ∀ s r other symbol,
    ((F.resolve 0 q name s).1.resolver r).cached? other = some symbol →
    (s.resolver r).cached? other = some symbol ∨ other = name ∧ Finds F name q s r symbol)
include hlive hmissing ih

/-- What is remembered after a search was so before, or the source found it. -/
theorem cached?_search_imp
    (h : ((F.search p name s).1.resolver r).cached? other = some symbol) :
    (s.resolver r).cached? other = some symbol ∨
      other = name ∧ ∃ q s₁, Reaches F name p s (.source (.resolver q)) s₁ ∧
        Finds F name q s₁ r symbol := by
  obtain h | ⟨asks, ask, later, s₁, horder, hbefore, hnot, hask⟩ :=
    askInOrder_imp (P := fun t : State => (t.resolver r).cached? other = some symbol) h
  · exact .inl h
  obtain ⟨x, hreach, rfl⟩ := exists_reaches_of_asked hlive hmissing horder hbefore
  cases x with
  | entry index e =>
    have hsame := (@askEntry_sameNames F p name index e s₁).cache r
    rw [ResolverState.cached?, hsame] at hask
    exact absurd hask hnot
  | source asked =>
    cases asked with
    | nothing => exact absurd hask hnot
    | table owner symbols => exact absurd hask hnot
    | resolver q =>
      simp only [Forest.ask, askSource, orNothing_fst] at hask
      obtain hcached | ⟨hname, hfinds⟩ := ih q _ hreach.source_eq s₁ r other symbol hask
      · exact absurd hcached hnot
      · exact .inr ⟨hname, q, s₁, hreach, hfinds⟩

/-- A search remembers nothing at its own resolver. -/
theorem cached?_search_eq_none : ((F.search p name s).1.resolver p).cached? name = none := by
  cases hcached : ((F.search p name s).1.resolver p).cached? name with
  | none => rfl
  | some found =>
    obtain h | ⟨-, q, s₁, hreach, hfinds⟩ := cached?_search_imp hlive hmissing ih hcached
    · rw [hmissing] at h
      cases h
    · have hlt := rank_source hreach.source_eq
      have hle := hfinds.rank_le
      omega

end Search

/-- What is remembered after a resolution was so before, or was found in it. -/
theorem cached?_resolve_imp
    (h : ((F.resolve 0 p name s).1.resolver r).cached? other = some symbol) :
    (s.resolver r).cached? other = some symbol ∨ other = name ∧ Finds F name p s r symbol := by
  induction p using source_induction (F := F) generalizing s r other symbol with
  | h p ih =>
    cases hlive : (s.resolver p).released with
    | true =>
      rw [F.resolve_of_released hlive] at h
      exact .inl h
    | false =>
      cases hmissing : (s.resolver p).cached? name with
      | some found =>
        rw [F.resolve_of_cached hlive hmissing] at h
        exact .inl h
      | none =>
        have hlower := fun q mode hq s r other symbol => @ih q mode hq s r other symbol
        have hsearch : ((F.search p name s).1.resolver r).cached? other = some symbol →
            (s.resolver r).cached? other = some symbol ∨
              other = name ∧ Finds F name p s r symbol := by
          intro h
          refine (cached?_search_imp hlive hmissing hlower h).imp_right ?_
          rintro ⟨hname, q, s₁, hreach, hfinds⟩
          exact ⟨hname, .source hreach hfinds⟩
        obtain ⟨hs, -⟩ | ⟨found, hs⟩ := @resolve_of_missing F s p name hlive hmissing
        · rw [hs] at h
          exact hsearch h
        · rw [hs] at h
          by_cases hr : r = p
          · subst hr
            rw [State.update_same, ResolverState.cached?_remember] at h
            split at h
            · rename_i hname
              rw [cached?_search_eq_none hlive hmissing hlower] at h
              obtain rfl := Option.some.inj h
              exact .inr ⟨hname, .self (by rw [hs]; rfl)⟩
            · exact hsearch h
          · rw [State.update_other _ _ hr] at h
            exact hsearch h

/-- A resolver remembers what it resolved. -/
theorem cached?_of_resolve (h : (F.resolve 0 p name s).2 = .ok symbol) :
    ((F.resolve 0 p name s).1.resolver p).cached? name = some symbol := by
  cases hlive : (s.resolver p).released with
  | true =>
    rw [F.resolve_of_released hlive] at h
    cases h
  | false =>
    cases hmissing : (s.resolver p).cached? name with
    | some found =>
      rw [F.resolve_of_cached hlive hmissing] at h ⊢
      obtain rfl := Except.ok.inj h
      exact hmissing
    | none =>
      obtain ⟨-, fault, hs⟩ | ⟨found, hs⟩ := @resolve_of_missing F s p name hlive hmissing
      · rw [hs] at h
        cases h
      · rw [hs] at h ⊢
        obtain rfl := Except.ok.inj h
        have hnone := @cached?_search_eq_none F s p name hlive hmissing
          fun _ _ _ _ _ _ _ => cached?_resolve_imp
        rw [State.update_same, ResolverState.cached?_remember, if_pos rfl, hnone]
        rfl

/-- A resolution leads along a relation to the one that is asked. -/
theorem Reaches.along {R : State → State → Prop} {x : Asked} (h : Reaches F name p s x s₁)
    (hR : Stepwise F (F.runCall 0) (fun _ => True) R) : R s s₁ := by
  obtain ⟨before, after, horder, hbefore⟩ := h.before
  have hsub : before ⊆ F.lookupOrder p name := by simp [horder]
  have halong := hR.askInOrder (fun _ _ => trivial) trivial hsub s
  rwa [hbefore] at halong

/-- From then on a resolution leads along a relation to its end. -/
theorem Reaches.along_rest {R : State → State → Prop} {x : Asked} (h : Reaches F name p s x s₁)
    (hR : Stepwise F (F.runCall 0) (fun _ => True) R)
    (hremember : ∀ s symbol, R s (s.update p (·.remember name symbol))) :
    R (F.ask (F.runCall 0) p name x s₁).1 (F.resolve 0 p name s).1 := by
  obtain ⟨before, after, horder, hbefore⟩ := h.before
  have hsearch : R (F.ask (F.runCall 0) p name x s₁).1 (F.search p name s).1 := by
    rw [search, horder, List.map_append, List.map_cons, askInOrder_append hbefore, askInOrder]
    split
    · rename_i s₂ hask
      rw [hask]
      have hsub : after ⊆ F.lookupOrder p name := fun y hy => by simp [horder, hy]
      exact hR.askInOrder (fun _ _ => trivial) trivial hsub s₂
    · exact hR.refl _
  obtain ⟨hs, -⟩ | ⟨found, hs⟩ := @resolve_of_missing F s p name h.live h.missing
  · rw [hs]
    exact hsearch
  · rw [hs]
    exact hR.trans hsearch (hremember _ found)

/-- What one of those asked leaves behind is there after the resolution. -/
theorem Reaches.accounted {x : Asked} (h : Reaches F name p s x s₁) :
    Accounted F (F.ask (F.runCall 0) p name x s₁).1 (F.resolve 0 p name s).1 :=
  h.along_rest (accounted_stepwise (runCall_accounted 0))
    fun _ symbol => .step fun _ => .remembered p name symbol

theorem Finds.cached? (h : Finds F name p s r symbol) :
    ((F.resolve 0 p name s).1.resolver r).cached? name = some symbol := by
  induction h with
  | self h => exact cached?_of_resolve h
  | @source p q r s s₁ symbol hreach _ ih =>
    have hgrows := hreach.accounted.grows
    simp only [ask, askSource, orNothing_fst] at hgrows
    exact (hgrows r).cached name symbol ih

/-- A resolution adds to caches what it finds, and nothing else. -/
theorem cached?_resolve_iff :
    ((F.resolve 0 p name s).1.resolver r).cached? other = some symbol ↔
      (s.resolver r).cached? other = some symbol ∨ other = name ∧ Finds F name p s r symbol := by
  constructor
  · exact cached?_resolve_imp
  · rintro (h | ⟨rfl, h⟩)
    · exact (resolve_grows 0 p name s r).cached other symbol h
    · exact h.cached?

/-! ## Runs -/

/-- The resolver that an operation asks, and for which name. -/
def Operation.asked? : Operation → Option (Place × String)
  | .resolve p name => some (p, name)
  | .tryResolve p name => some (p, name)
  | .release _ => none

/-- An operation that asks nobody releases a resolver. -/
theorem Operation.exists_release {o : Operation} (h : o.asked? = none) : ∃ p, o = .release p := by
  cases o with
  | resolve => cases h
  | tryResolve => cases h
  | release p => exact ⟨p, rfl⟩

/-- One of the operations, carried out from the state `s` on, comes to resolving `name` at `p`, and
it is found to be `symbol`. -/
def Resolved (F : Forest) (s : State) (operations : List Operation) (p : Place) (name : String)
    (symbol : Symbol) : Prop :=
  ∃ before o after q, operations = before ++ o :: after ∧ o.asked? = some (q, name) ∧
    Finds F name q (F.run 0 before s) p symbol

theorem resolver_releaseAll (p : Place) (handles : List Handle) (s : State) :
    (F.releaseAll p handles s).1.resolver = s.resolver := by
  induction handles generalizing s with
  | nil => rfl
  | cons h rest ih => exact ih _

theorem resolver_release (p q : Place) (s : State) :
    (F.release p s).1.resolver q = (s.update p ResolverState.release).resolver q :=
  congrFun (resolver_releaseAll _ _ _) q

theorem perform_of_asked {depth : Nat} {o : Operation} (h : o.asked? = some (p, name)) :
    F.perform depth s o = (F.resolve depth p name s).1 := by
  cases o with
  | resolve q asked =>
    cases h
    rfl
  | tryResolve q asked =>
    cases h
    exact F.tryResolve_fst depth p name s
  | release q => cases h

theorem cached?_perform_iff {o : Operation} :
    ((F.perform 0 s o).resolver r).cached? name = some symbol ↔
      (s.resolver r).cached? name = some symbol ∨
      ∃ q, o.asked? = some (q, name) ∧ Finds F name q s r symbol := by
  cases hasked : o.asked? with
  | none =>
    obtain ⟨p, rfl⟩ := Operation.exists_release hasked
    have hcache : ((s.update p ResolverState.release).resolver r).cached? name =
        (s.resolver r).cached? name :=
      State.keep_update (ResolverState.cached? · name) (f := ResolverState.release)
        (fun r => rfl) s p r
    rw [perform, resolver_release, hcache]
    simp
  | some x =>
    obtain ⟨p, asked⟩ := x
    rw [perform_of_asked hasked, cached?_resolve_iff]
    simp only [Option.some.injEq, Prod.mk.injEq]
    constructor
    · rintro (h | ⟨rfl, h⟩)
      · exact .inl h
      · exact .inr ⟨p, ⟨rfl, rfl⟩, h⟩
    · rintro (h | ⟨q, ⟨rfl, rfl⟩, h⟩)
      · exact .inl h
      · exact .inr ⟨rfl, h⟩

theorem resolved_cons {o : Operation} {rest : List Operation} :
    Resolved F s (o :: rest) p name symbol ↔
      (∃ q, o.asked? = some (q, name) ∧ Finds F name q s p symbol) ∨
      Resolved F (F.perform 0 s o) rest p name symbol := by
  constructor
  · rintro ⟨before, o', after, q, hlist, hasked, hfinds⟩
    obtain ⟨rfl, hlist⟩ | ⟨before, rfl, rfl⟩ := List.cons_eq_append_iff.1 hlist
    · obtain ⟨rfl, rfl⟩ := List.cons.inj hlist
      exact .inl ⟨q, hasked, hfinds⟩
    · exact .inr ⟨before, o', after, q, rfl, hasked, hfinds⟩
  · rintro (⟨q, hasked, hfinds⟩ | ⟨before, o', after, q, rfl, hasked, hfinds⟩)
    · exact ⟨[], o, rest, q, rfl, hasked, hfinds⟩
    · exact ⟨o :: before, o', after, q, rfl, hasked, hfinds⟩

/-- What is remembered after a run is what was so before, and what was found in it. -/
theorem cached?_run_iff {operations : List Operation} :
    ((F.run 0 operations s).resolver p).cached? name = some symbol ↔
      (s.resolver p).cached? name = some symbol ∨ Resolved F s operations p name symbol := by
  induction operations generalizing s with
  | nil => simp [run, Resolved]
  | cons o rest ih =>
    have hrun : F.run 0 (o :: rest) s = F.run 0 rest (F.perform 0 s o) := rfl
    rw [hrun, ih, cached?_perform_iff, resolved_cons, or_assoc]

/-! ## Released resolvers -/

theorem released_stepwise : Stepwise F (F.runCall 0) (fun _ => True) fun s t =>
    ∀ q, (t.resolver q).released = (s.resolver q).released where
  refl _ _ := rfl
  trans h h' q := (h' q).trans (h q)
  handleAt _ _ s := (handleAt_sameNames _ _ _ s).released
  readFrom _ h e path s := (readFrom_sameNames _ h e path s).released
  resolveBy {p search} _ hsearch name s q := by
    obtain hs | ⟨-, hs⟩ | ⟨symbol, -, hs⟩ := F.resolveBy_cases p name search s
    · rw [hs]
    · rw [hs]
      exact hsearch s q
    · rw [hs]
      exact (State.keep_update ResolverState.released
        (fun r => r.released_remember name symbol) _ p q).trans (hsearch s q)

/-- To resolve a name releases no resolver. -/
theorem released_resolve (p q : Place) (name : String) (s : State) :
    ((F.resolve 0 p name s).1.resolver q).released = (s.resolver q).released :=
  released_stepwise.resolveWith (fun _ _ => trivial) trivial s q

/-- Only its own release releases a resolver. -/
theorem released_run_of_not_mem {operations : List Operation} (h : .release p ∉ operations)
    (s : State) :
    ((F.run 0 operations s).resolver p).released = (s.resolver p).released := by
  refine run_induction (P := fun t : State => (t.resolver p).released = (s.resolver p).released)
    rfl fun o ho t ht => ?_
  rw [← ht]
  cases o with
  | resolve q name => exact released_resolve q p name t
  | tryResolve q name =>
    rw [perform, tryResolve_fst]
    exact released_resolve q p name t
  | release q =>
    have hq : p ≠ q := by
      rintro rfl
      exact h ho
    rw [perform, resolver_release, State.update_other _ _ hq]

/-! ## Resolving a name again -/

section Idle

variable {depth : Nat} (hidle : depth = 0 ∨ F.Quiet)
include hidle

/-- It does not matter how deeply calls are followed, if none take place. -/
theorem resolve_idle (p : Place) (name : String) :
    F.resolve depth p name = F.resolve 0 p name := by
  rcases hidle with rfl | hquiet
  · rfl
  · exact resolveWith_quiet hquiet _ _ p name

theorem run_idle (operations : List Operation) (s : State) :
    F.run depth operations s = F.run 0 operations s := by
  have hperform : F.perform depth = F.perform 0 := by
    funext s o
    cases o <;> simp only [perform, tryResolve_fst, resolve_idle hidle]
  rw [run, hperform, run]

/-- A name that was resolved is remembered as long as its resolver is not released. -/
theorem resolve_again_of_not_mem {operations : List Operation}
    (h : (F.resolve depth p name s).2 = .ok symbol) (hlater : .release p ∉ operations) :
    F.resolve depth p name (F.run depth operations (F.resolve depth p name s).1) =
      (F.run depth operations (F.resolve depth p name s).1, .ok symbol) := by
  rw [resolve_idle hidle] at h
  rw [run_idle hidle, resolve_idle hidle]
  have hlive : (s.resolver p).released = false := by
    cases hreleased : (s.resolver p).released with
    | false => rfl
    | true =>
      rw [F.resolve_of_released hreleased] at h
      cases h
  refine F.resolve_of_cached ?_ ?_
  · rw [released_run_of_not_mem hlater, released_resolve, hlive]
  · exact (run_grows 0 operations _ p).cached name symbol (cached?_of_resolve h)

end Idle

/-- **Resolved names stay resolved.** Operations are carried out one after the other, with nothing
else taking place meanwhile.

A name that was resolved is resolved to the same symbol later on, whatever is resolved and released
in between, as long as its own resolver is not released; and nothing changes then: no entry is
opened or read. What a resolver remembers is exactly what was found at it, when it was asked itself
or a resolver was that turned to it; and it never remembers less than before. -/
theorem resolve_again (F : Forest) {depth : Nat} (hidle : depth = 0 ∨ F.Quiet)
    (earlier later : List Operation) (p : Place) (name : String) :
    let s := F.run depth earlier {}
    (∀ symbol, (F.resolve depth p name s).2 = .ok symbol → .release p ∉ later →
      let t := F.run depth later (F.resolve depth p name s).1
      F.resolve depth p name t = (t, .ok symbol)) ∧
    (∀ symbol, (s.resolver p).cached? name = some symbol ↔
      Resolved F {} earlier p name symbol) ∧
    ((s.resolver p).cache.map (·.1)).Nodup ∧
    (s.resolver p).cache.length ≤ ((F.run depth later s).resolver p).cache.length := by
  intro s
  have hgrows : State.Grows {} s := run_grows depth earlier {}
  refine ⟨fun symbol h hlater => resolve_again_of_not_mem hidle h hlater, fun symbol => ?_,
    (hgrows p).nodup .nil, (run_grows depth later s p).count⟩
  have hrun : s = F.run 0 earlier {} := run_idle hidle earlier {}
  rw [hrun, cached?_run_iff]
  exact or_iff_right fun h => by cases h

/-- What the library has for `a.Lib`. -/
def librarySymbol : Symbol := ⟨"a.Lib", ⟨"/lib/", .directory⟩, "lib", ⟨#[1]⟩⟩

/-- The library is released and refuses the name it was asked for, and the resolver that asked it
resolves the name as before. Both remember it, though only one was asked. -/
theorem withLibrary_again :
    withLibrary.resolve 0 (.resolver 1) "a.Lib" libraryReleased =
      (libraryReleased, .ok librarySymbol) ∧
    (withLibrary.resolve 0 (.resolver 0) "a.Lib" libraryReleased).2 = .error (.released "lib") ∧
    Resolved withLibrary {} [.resolve (.resolver 1) "a.Lib"] (.resolver 0) "a.Lib"
      librarySymbol := by
  obtain ⟨hagain, -⟩ := @resolve_again withLibrary 0 (.inl rfl) []
    [.release (.resolver 0)] (.resolver 1) "a.Lib"
  obtain ⟨-, hremembered, -⟩ := @resolve_again withLibrary 0 (.inl rfl)
    [.resolve (.resolver 1) "a.Lib"] [] (.resolver 0) "a.Lib"
  refine ⟨hagain librarySymbol (by decide +kernel) (by decide), by decide +kernel, ?_⟩
  exact (hremembered librarySymbol).1 (by decide +kernel)

end Forest

end TierIsolation
