import TierIsolation.Proofs.Forest.Lineage
import TierIsolation.Proofs.Forest.Remembered

/-!
# Where remembered symbols come from

`remembered_coherent`: a symbol that a resolver remembers was read from an entry of the search path
of the resolver itself or of an ancestor, and all from the one to the other remember it; or the host
of the root gave it, and all ancestors remember it.

* `Forest.ReadFrom`: an opener gave the symbol's code when a file of an entry was read.
* `Forest.Backed`: what stands behind a symbol that a resolver remembers. It stays true whatever
  takes place, because no resolver forgets a name (`Backed.later`).
* `Forest.Coherent`: everything remembered is backed, at all resolvers. A resolution keeps states
  coherent (`Coherent.resolve`), and so does a release.
-/

namespace TierIsolation.Forest

variable {F : Forest} {s t u : State} {p q r : Place} {name : String} {symbol : Symbol}

/-! ## Later states -/

/-- What happened before, happened, and no name is forgotten. -/
structure State.Precedes (s t : State) : Prop where
  history : s.history <:+ t.history
  grows : s.Grows t

theorem Step.history_suffix {c c' : State × Ledger} (h : Step F c c') :
    c.1.history <:+ c'.1.history := by
  cases h with
  | opened => exact List.suffix_cons _ _
  | held => exact List.suffix_rfl
  | released => exact List.suffix_cons _ _
  | emptied p => exact List.suffix_rfl
  | noted => exact List.suffix_cons _ _
  | remembered p name symbol => exact List.suffix_rfl

theorem Steps.history_suffix {c c' : State × Ledger} (h : Steps F c c') :
    c.1.history <:+ c'.1.history := by
  induction h with
  | refl => exact List.suffix_rfl
  | tail _ hstep ih => exact ih.trans hstep.history_suffix

theorem Accounted.precedes (h : Accounted F s t) : s.Precedes t := by
  obtain ⟨l, hsteps, -⟩ := h {}
  exact ⟨hsteps.history_suffix, h.grows⟩

/-! ## What stands behind a symbol -/

/-- The symbol was read from an entry of the search path of a resolver, which looks among its own
entries for the name. -/
structure ReadFrom (F : Forest) (history : History) (name : String) (symbol : Symbol) (p : Place) :
    Prop where
  named : symbol.name = name
  resolver : symbol.resolver = (F.resolver p).name
  origin : symbol.origin ∈ (F.resolver p).searchPath
  mode : (F.resolver p).policy.modeFor name ≠ .parentOnly
  /-- Reading the file of the name in the entry gave the symbol's bytes. -/
  read : ∃ (h : Handle) (earlier : History),
    .read h (Symbol.path name (F.resolver p).suffix) true :: earlier <:+ history ∧
    h.entry = symbol.origin ∧
    ((F.opener p).read earlier h (Symbol.path name (F.resolver p).suffix)).answer =
      .ok (some symbol.bytes)

/-- A host has the symbol: in its table, or in an entry of its own. -/
def HostHas (F : Forest) (s : State) (name : String) (symbol : Symbol) (k : Nat) : Prop :=
  match F.hostSource k with
  | .nothing => False
  | .table host symbols => (symbols.get? name).map (Host.symbol host name) = some symbol
  | .resolver q => (s.resolver q).cached? name = some symbol ∧ ReadFrom F s.history name symbol q

/-- A resolver remembers the symbol that it read itself, that its host gave it, or that its parent
remembers on like grounds. -/
inductive Backed (F : Forest) (s : State) (name : String) (symbol : Symbol) : Place → Prop
  | own {p : Place} (hcached : (s.resolver p).cached? name = some symbol)
      (hread : ReadFrom F s.history name symbol p) : Backed F s name symbol p
  | host {p : Place} {k : Nat} (hcached : (s.resolver p).cached? name = some symbol)
      (hroot : F.parent? p = none) (hk : (F.resolver p).host = some k)
      (hasks : F.source p ((F.resolver p).policy.modeFor name) = F.hostSource k)
      (hhost : HostHas F s name symbol k) : Backed F s name symbol p
  | parent {p q : Place} (hcached : (s.resolver p).cached? name = some symbol)
      (hparent : F.parent? p = some q) (h : Backed F s name symbol q) : Backed F s name symbol p

theorem ReadFrom.later {history later : History} (h : ReadFrom F history name symbol p)
    (hlater : history <:+ later) : ReadFrom F later name symbol p where
  named := h.named
  resolver := h.resolver
  origin := h.origin
  mode := h.mode
  read := by
    obtain ⟨handle, earlier, hread, hanswer⟩ := h.read
    exact ⟨handle, earlier, hread.trans hlater, hanswer⟩

theorem HostHas.later {k : Nat} (h : HostHas F s name symbol k) (hlater : s.Precedes t) :
    HostHas F t name symbol k := by
  unfold HostHas at h ⊢
  split
  · rename_i hsource
    rwa [hsource] at h
  · rename_i hsource
    rwa [hsource] at h
  · rename_i q hsource
    rw [hsource] at h
    exact ⟨(hlater.grows q).cached name symbol h.1, h.2.later hlater.history⟩

theorem HostHas.name_eq {k : Nat} (h : HostHas F s name symbol k) : symbol.name = name := by
  unfold HostHas at h
  split at h
  · exact h.elim
  · obtain ⟨bytes, -, rfl⟩ := Option.map_eq_some_iff.1 h
    rfl
  · exact h.2.named

theorem Backed.later (h : Backed F s name symbol p) (hlater : s.Precedes t) :
    Backed F t name symbol p := by
  induction h with
  | @own p hcached hread =>
    exact .own ((hlater.grows p).cached name symbol hcached) (hread.later hlater.history)
  | @host p k hcached hroot hk hasks hhost =>
    exact .host ((hlater.grows p).cached name symbol hcached) hroot hk hasks (hhost.later hlater)
  | @parent p q hcached hparent _ ih =>
    exact .parent ((hlater.grows p).cached name symbol hcached) hparent ih

theorem Backed.cached (h : Backed F s name symbol p) :
    (s.resolver p).cached? name = some symbol := by
  cases h with
  | own hcached => exact hcached
  | host hcached => exact hcached
  | parent hcached => exact hcached

theorem Backed.name_eq (h : Backed F s name symbol p) : symbol.name = name := by
  induction h with
  | own _ hread => exact hread.named
  | host _ _ _ _ hhost => exact hhost.name_eq
  | parent _ _ _ ih => exact ih

/-- What backs a symbol at a resolver without a parent that turns to nobody, it read itself. -/
theorem Backed.readFrom_host {k : Nat} (h : Backed F s name symbol (.host k)) :
    ReadFrom F s.history name symbol (.host k) := by
  cases h with
  | own _ hread => exact hread
  | @host _ j _ _ _ hasks hhost =>
    have hnothing : F.hostSource j = .nothing := hasks.symm
    rw [HostHas, hnothing] at hhost
    exact hhost.elim
  | parent _ hparent => cases hparent

/-- Up to the one that read a symbol, or else up to the root, all ancestors remember it. -/
theorem Backed.exists_lineage (h : Backed F s name symbol p) :
    (∃ (k : Nat) (q : Place), (F.lineage p)[k]? = some q ∧ ReadFrom F s.history name symbol q ∧
      ∀ r ∈ (F.lineage p).take (k + 1), (s.resolver r).cached? name = some symbol) ∨
    (∃ k, HostHas F s name symbol k ∧ ∃ root ∈ F.lineage p, F.parent? root = none ∧
      (F.resolver root).host = some k ∧
      F.source root ((F.resolver root).policy.modeFor name) = F.hostSource k ∧
      ∀ r ∈ F.lineage p, (s.resolver r).cached? name = some symbol) := by
  induction h with
  | @own p hcached hread =>
    refine .inl ⟨0, p, by rw [lineage]; rfl, hread, fun r hr => ?_⟩
    rw [lineage, List.take_succ_cons, List.take_zero, List.mem_singleton] at hr
    exact hr ▸ hcached
  | @host p k hcached hroot hk hasks hhost =>
    refine .inr ⟨k, hhost, p, mem_lineage_self p, hroot, hk, hasks, fun r hr => ?_⟩
    rw [lineage_of_root hroot, List.mem_singleton] at hr
    exact hr ▸ hcached
  | @parent p q hcached hparent _ ih =>
    rw [lineage_of_parent hparent]
    obtain ⟨k, r, hk, hread, hall⟩ | ⟨k, hhost, root, hmem, hroot, hk, hasks, hall⟩ := ih
    · refine .inl ⟨k + 1, r, hk, hread, fun r hr => ?_⟩
      rw [List.take_succ_cons] at hr
      obtain rfl | hr := List.mem_cons.1 hr
      · exact hcached
      · exact hall r hr
    · refine .inr ⟨k, hhost, root, List.mem_cons_of_mem _ hmem, hroot, hk, hasks,
        fun r hr => ?_⟩
      obtain rfl | hr := List.mem_cons.1 hr
      · exact hcached
      · exact hall r hr

/-! ## Coherent states -/

/-- Everything remembered is backed, and every handle is where it belongs. -/
structure Coherent (F : Forest) (s : State) : Prop where
  balanced : ∃ l, Balanced F (s, l)
  backed : ∀ p name symbol, (s.resolver p).cached? name = some symbol → Backed F s name symbol p

theorem Coherent.start (F : Forest) : Coherent F {} where
  balanced := ⟨{}, .start F⟩
  backed _ _ _ h := by cases h

/-- Whatever leaves the caches as they are keeps a state coherent. -/
theorem Coherent.of_cache (hs : Coherent F s) (hacc : Accounted F s t)
    (h : ∀ p, (t.resolver p).cache = (s.resolver p).cache) : Coherent F t where
  balanced := by
    obtain ⟨l, hb⟩ := hs.balanced
    obtain ⟨l', hsteps, -⟩ := hacc l
    exact ⟨l', hsteps.balanced hb⟩
  backed p name symbol hcached := by
    rw [ResolverState.cached?, h p] at hcached
    exact (hs.backed p name symbol hcached).later hacc.precedes

/-- A resolver may remember a symbol on the grounds that would back it. -/
theorem Coherent.remember (hs : Coherent F s)
    (h : ∀ t, s.Precedes t → (t.resolver p).cached? name = some symbol →
      Backed F t name symbol p) :
    Coherent F (s.update p (·.remember name symbol)) := by
  have hacc : Accounted F s (s.update p (·.remember name symbol)) :=
    .step fun _ => .remembered p name symbol
  refine ⟨?_, fun q other found hfound => ?_⟩
  · obtain ⟨l, hb⟩ := hs.balanced
    exact ⟨l, hb.remember p name symbol⟩
  · by_cases hnew : (s.resolver q).cached? other = some found
    · exact (hs.backed q other found hnew).later hacc.precedes
    · -- only the new symbol was not remembered before
      have hq : q = p := by
        by_contra hq
        rw [State.update_other _ _ hq] at hfound
        exact hnew hfound
      subst hq
      have hcached := hfound
      rw [State.update_same, ResolverState.cached?_remember] at hfound
      split at hfound
      · rename_i hother
        subst hother
        cases hold : (s.resolver q).cached? other with
        | some old =>
          rw [hold] at hfound
          exact absurd (hold.trans hfound) hnew
        | none =>
          rw [hold] at hfound
          obtain rfl := Option.some.inj hfound
          exact h _ hacc.precedes hcached
      · exact absurd hfound hnew

/-! ## Asking -/

theorem askEntry_accounted {index : Nat} {e : Entry}
    (he : (F.resolver p).searchPath[index]? = some e) :
    Along (Accounted F) (F.ask (F.runCall 0) p name (.entry index e)) :=
  (accounted_stepwise (runCall_accounted 0)).askEntry trivial he

/-- A handle that an entry is read from is held. -/
theorem handle?_handleAt {call : Call → State → State} {index : Nat} {e : Entry} {h : Handle}
    (heq : F.handleAt call p index e s = (t, .ok h)) :
    (t.resolver p).handle? index = some h := by
  simp only [handleAt] at heq
  split at heq
  · cases heq
  · split at heq
    · rename_i held hheld
      cases heq
      exact hheld
    · split at heq
      · cases heq
      · simp only [keepHandle] at heq
        split at heq
        · cases heq
        · split at heq
          · rename_i held hheld
            cases heq
            exact hheld
          · cases heq
            rw [State.update_same, ResolverState.handle?_hold, if_pos rfl]

/-- It is the handle of the entry that it was asked for. -/
theorem entry_of_handleAt {call : Call → State → State} (hcall : ∀ c s, Accounted F s (call c s))
    {l : Ledger} (hb : Balanced F (s, l)) {index : Nat} {e : Entry} {h : Handle}
    (he : (F.resolver p).searchPath[index]? = some e)
    (heq : F.handleAt call p index e s = (t, .ok h)) : h.entry = e := by
  obtain ⟨l₁, hsteps, -⟩ := handleAt_accounted hcall he s l
  rw [heq] at hsteps
  have hb₁ := hsteps.balanced hb
  have hmem := (Increasing.mem_iff_lookup (hb₁.increasing p)).2 (handle?_handleAt heq)
  have hheld := hb₁.held_entry hmem
  rw [he, Option.some.injEq] at hheld
  exact hheld.symm

/-- What an entry has is read from it. -/
theorem readFrom_of_askEntry (hs : Coherent F s) {index : Nat} {e : Entry}
    (he : (F.resolver p).searchPath[index]? = some e)
    (hmode : (F.resolver p).policy.modeFor name ≠ .parentOnly)
    (h : F.ask (F.runCall 0) p name (.entry index e) s = (t, .ok (some symbol))) :
    ReadFrom F t.history name symbol p := by
  simp only [ask] at h
  split at h
  · cases h
  · rename_i s₁ handle hopen
    split at h
    · cases h
    · rename_i s₂ found hread
      cases found with
      | none => cases h
      | some bytes =>
        obtain ⟨rfl, rfl⟩ : s₂ = t ∧ ⟨name, e, (F.resolver p).name, bytes⟩ = symbol := by
          simpa using h
        obtain ⟨l, hb⟩ := hs.balanced
        have hentry : handle.entry = e := entry_of_handleAt (runCall_accounted 0) hb he hopen
        refine ⟨rfl, rfl, List.mem_of_getElem? he, hmode, handle, s₁.history, ?_, hentry, ?_⟩
        · simp only [readFrom, runCalls_zero] at hread
          split at hread
          · cases hread
            exact List.suffix_rfl
          · cases hread
        · simp only [readFrom, runCalls_zero] at hread
          split at hread
          · rename_i hanswer
            cases hread
            exact hanswer
          · cases hread

/-- Own entries are asked for names that are not for the parent alone. -/
theorem mode_of_mem_lookupOrder {index : Nat} {e : Entry}
    (h : .entry index e ∈ F.lookupOrder p name) :
    (F.resolver p).policy.modeFor name ≠ .parentOnly := by
  intro hmode
  simp only [lookupOrder, hmode, LookupMode.order, List.mem_singleton, reduceCtorEq] at h

/-- Asking a source keeps a state coherent if resolving the name there does. -/
theorem Coherent.askSource (hs : Coherent F s) {source : Source}
    (ih : ∀ q, source = .resolver q → Coherent F (F.resolve 0 q name s).1) :
    Coherent F (F.askSource (F.runCall 0) name source s).1 := by
  cases source with
  | nothing => exact hs
  | table owner symbols => exact hs
  | resolver q =>
    rw [Forest.askSource, orNothing_fst]
    exact ih q rfl

/-- What a resolver turned to has, it remembers, and something backs it there. -/
theorem backed_of_resolve (ht : Coherent F (F.resolve 0 q name s).1)
    (h : F.askSource (F.runCall 0) name (.resolver q) s = (t, .ok (some symbol))) :
    Backed F t name symbol q := by
  have hq : F.resolve 0 q name s = (t, .ok symbol) := orNothing_eq_some_iff.1 h
  have hfound := @cached?_of_resolve F s q name symbol (by rw [hq])
  rw [hq] at ht hfound
  exact ht.backed q name symbol hfound

/-- What a host has when it is asked, it has. -/
theorem hostHas_of_askSource {k : Nat}
    (ih : ∀ q, F.hostSource k = .resolver q → Coherent F (F.resolve 0 q name s).1)
    (h : F.askSource (F.runCall 0) name (F.hostSource k) s = (t, .ok (some symbol))) :
    HostHas F t name symbol k := by
  unfold HostHas
  split
  · rename_i hsource
    rw [hsource] at h
    cases h
  · rename_i owner symbols hsource
    rw [hsource, Forest.askSource, Prod.mk.injEq, Except.ok.injEq] at h
    exact h.2
  · rename_i q hsource
    rw [hsource] at h
    have hbacked := backed_of_resolve (ih q hsource) h
    obtain rfl := hostSource_eq_resolver hsource
    exact ⟨hbacked.cached, hbacked.readFrom_host⟩

/-- What its source has, a resolver may remember from then on. -/
theorem backed_of_askSource
    (ih : ∀ q, F.source p ((F.resolver p).policy.modeFor name) = .resolver q →
      Coherent F (F.resolve 0 q name s).1)
    (h : F.askSource (F.runCall 0) name (F.source p ((F.resolver p).policy.modeFor name)) s =
      (t, .ok (some symbol)))
    (hlater : t.Precedes u) (hcached : (u.resolver p).cached? name = some symbol) :
    Backed F u name symbol p := by
  obtain ⟨q, hparent, hsource⟩ | ⟨hroot, hnothing | ⟨k, hk, hhost⟩⟩ :=
    F.source_cases p ((F.resolver p).policy.modeFor name)
  · rw [hsource] at h
    exact .parent hcached hparent ((backed_of_resolve (ih q hsource) h).later hlater)
  · rw [hnothing] at h
    cases h
  · rw [hhost] at h ih
    exact .host hcached hroot hk hhost ((hostHas_of_askSource ih h).later hlater)

/-! ## Resolutions -/

section Search

variable (ih : ∀ q mode, F.source p mode = .resolver q → ∀ {s : State}, Coherent F s →
  Coherent F (F.resolve 0 q name s).1)
include ih

/-- Asking in order keeps a state coherent. -/
theorem Coherent.askInOrder (hs : Coherent F s) {xs : List Asked}
    (hxs : xs ⊆ F.lookupOrder p name) :
    Coherent F (askInOrder (xs.map (F.ask (F.runCall 0) p name)) s).1 := by
  refine Along.askInOrder (R := fun s t => Coherent F s → Coherent F t) (fun _ => id)
    (fun h h' => h' ∘ h) (fun ask hmem s hs => ?_) s hs
  obtain ⟨x, hx, rfl⟩ := List.mem_map.1 hmem
  obtain rfl | ⟨index, e, rfl, he⟩ := mem_lookupOrder (hxs hx)
  · exact hs.askSource fun q hq => ih q _ hq hs
  · exact hs.of_cache (askEntry_accounted he s) (askEntry_sameNames p name index e s).cache

/-- What a search found, a resolver may remember from then on. -/
theorem backed_of_search (hs : Coherent F s) (h : F.search p name s = (t, .ok (some symbol)))
    (hlater : t.Precedes u) (hcached : (u.resolver p).cached? name = some symbol) :
    Backed F u name symbol p := by
  obtain ⟨asks, ask, later, s₁, hlist, hbefore, hx⟩ := (askInOrder_eq_iff (by simp)).1 h
  obtain ⟨before, rest, hnames, rfl, hrest⟩ := List.map_eq_append_iff.1 hlist
  obtain ⟨x, after, rfl, rfl, -⟩ := List.map_eq_cons_iff.1 hrest
  have hs₁ : Coherent F s₁ := by
    have hlist : before ⊆ F.lookupOrder p name := by simp [hnames]
    have h := hs.askInOrder ih hlist
    rwa [hbefore] at h
  have hmem : x ∈ F.lookupOrder p name := by simp [hnames]
  obtain rfl | ⟨index, e, rfl, he⟩ := mem_lookupOrder hmem
  · exact backed_of_askSource (fun q hq => ih q _ hq hs₁) hx hlater hcached
  · have hread := readFrom_of_askEntry hs₁ he (mode_of_mem_lookupOrder hmem) hx
    exact .own hcached (hread.later hlater.history)

end Search

/-- A resolution keeps states coherent. -/
theorem Coherent.resolve (hs : Coherent F s) (p : Place) (name : String) :
    Coherent F (F.resolve 0 p name s).1 := by
  induction p using source_induction (F := F) generalizing s with
  | h p ih =>
    have hsearch : Coherent F (F.search p name s).1 :=
      hs.askInOrder (fun q mode hq _ => ih q mode hq) (List.Subset.refl _)
    rw [F.resolve_eq_resolveBy]
    obtain hsame | ⟨-, hsame⟩ | ⟨symbol, hfound, hsame⟩ :=
      F.resolveBy_cases p name (F.search p name) s
    · rw [hsame]
      exact hs
    · rw [hsame]
      exact hsearch
    · have hfound : F.search p name s = ((F.search p name s).1, .ok (some symbol)) := by
        rw [← hfound]
      rw [hsame]
      exact hsearch.remember fun u hlater hcached =>
        backed_of_search (fun q mode hq _ => ih q mode hq) hs hfound hlater hcached

/-! ## Runs -/

theorem Coherent.perform (hs : Coherent F s) (o : Operation) :
    Coherent F (F.perform 0 s o) := by
  cases o with
  | resolve p name => exact hs.resolve p name
  | tryResolve p name =>
    rw [Forest.perform, tryResolve_fst]
    exact hs.resolve p name
  | release p =>
    refine hs.of_cache (release_accounted p s) fun q => ?_
    rw [Forest.perform, resolver_release]
    exact State.keep_update ResolverState.cache (f := ResolverState.release) (fun r => rfl) s p q

theorem run_coherent (F : Forest) (operations : List Operation) :
    Coherent F (F.run 0 operations {}) :=
  run_induction (.start F) fun o _ _ hs => hs.perform o

/-- **Remembered symbols are coherent along the lineage.** Operations are carried out one after the
other, with nothing else taking place meanwhile; entries may fail to open, or to be read.

A symbol that a resolver remembers has the name it is remembered for. Either it was read from an
entry on the search path of the resolver or of an ancestor, and all from the resolver up to this one
remember it for the name; or the host of the root has it, that the root asks for the name, and the
resolver and all its ancestors remember it. -/
theorem remembered_coherent (F : Forest) {depth : Nat} (hidle : depth = 0 ∨ F.Quiet)
    (operations : List Operation) (p : Place) (name : String) (symbol : Symbol) :
    let s := F.run depth operations {}
    (s.resolver p).cached? name = some symbol →
      symbol.name = name ∧
      ((∃ (k : Nat) (q : Place), (F.lineage p)[k]? = some q ∧
          ReadFrom F s.history name symbol q ∧
          ∀ r ∈ (F.lineage p).take (k + 1), (s.resolver r).cached? name = some symbol) ∨
        (∃ k, HostHas F s name symbol k ∧ ∃ root ∈ F.lineage p, F.parent? root = none ∧
          (F.resolver root).host = some k ∧
          F.source root ((F.resolver root).policy.modeFor name) = F.hostSource k ∧
          ∀ r ∈ F.lineage p, (s.resolver r).cached? name = some symbol)) := by
  intro s hcached
  have hs : Coherent F s := by
    rw [show s = F.run 0 operations {} from run_idle hidle operations {}]
    exact run_coherent F operations
  have hbacked := hs.backed p name symbol hcached
  exact ⟨hbacked.name_eq, hbacked.exists_lineage⟩

/-- A library that asks a host with an entry, and a resolver above it whose own entry cannot be
opened. -/
def hosted : Forest where
  resolvers := [
    { name := "lib", searchPath := [⟨"/lib/", .directory⟩], host := some 0,
      policy := { default := .selfFirst } },
    { name := "app", searchPath := [⟨"/app/", .directory⟩], parent := some 0,
      policy := { default := .parentFirst } }]
  hosts := [.entries "jre" [⟨"/jre/", .directory⟩]]
  opener _ := .scripted [("/app/", .failOpen "gone")] (.memory
    [⟨"/jre/", "a/Object.class", ⟨#[0]⟩⟩, ⟨"/lib/", "a/Lib.class", ⟨#[1]⟩⟩] [])

/-- What the host has for `a.Object`. -/
def hostSymbol : Symbol := ⟨"a.Object", ⟨"/jre/", .directory⟩, "jre", ⟨#[0]⟩⟩

/-- Two names are found, for a third one an entry would have to be opened that cannot be, and the
library is released. -/
def hostedRun : List Operation :=
  [.resolve (.resolver 1) "a.Object", .resolve (.resolver 1) "a.Lib",
    .tryResolve (.resolver 1) "a.App", .release (.resolver 0)]

theorem lineage_hosted : hosted.lineage (.resolver 1) = [.resolver 1, .resolver 0] := by
  rw [lineage_of_parent (q := .resolver 0) (by decide), lineage_of_root (by decide)]

theorem host_hosted {p : Place} {k : Nat} (h : p ∈ hosted.lineage (.resolver 1))
    (hk : (hosted.resolver p).host = some k) : k = 0 := by
  rw [lineage_hosted] at h
  obtain rfl | rfl : p = .resolver 1 ∨ p = .resolver 0 := by simpa using h
  · cases hk
  · cases hk
    rfl

/-- The one symbol was read by the library, the other one by the host: the library and the resolver
above it remember both. -/
theorem hosted_coherent :
    let s := hosted.run 0 hostedRun {}
    (s.resolver (.resolver 1)).cached? "a.Lib" = some librarySymbol ∧
    ReadFrom hosted s.history "a.Lib" librarySymbol (.resolver 0) ∧
    (s.resolver (.resolver 1)).cached? "a.Object" = some hostSymbol ∧
    HostHas hosted s "a.Object" hostSymbol 0 ∧
    (s.resolver (.resolver 0)).cached? "a.Object" = some hostSymbol := by
  have hlib : ((hosted.run 0 hostedRun {}).resolver (.resolver 1)).cached? "a.Lib" =
      some librarySymbol := by with_unfolding_all rfl
  have hobject : ((hosted.run 0 hostedRun {}).resolver (.resolver 1)).cached? "a.Object" =
      some hostSymbol := by with_unfolding_all rfl
  obtain ⟨-, hlibrary⟩ := @remembered_coherent hosted 0 (.inl rfl) hostedRun
    (.resolver 1) "a.Lib" librarySymbol hlib
  obtain ⟨-, hhost⟩ := @remembered_coherent hosted 0 (.inl rfl) hostedRun
    (.resolver 1) "a.Object" hostSymbol hobject
  refine ⟨hlib, ?_, hobject, ?_⟩
  · obtain ⟨i, q, hq, hread, -⟩ | ⟨k, hhas, root, hroot, -, hk, -⟩ := hlibrary
    · obtain rfl | rfl : q = .resolver 1 ∨ q = .resolver 0 := by
        simpa [lineage_hosted] using List.mem_of_getElem? hq
      · exact absurd hread.resolver (by decide)
      · exact hread
    · obtain rfl := host_hosted hroot hk
      exact absurd hhas.2.resolver (by decide)
  · obtain ⟨i, q, hq, hread, -⟩ | ⟨k, hhas, root, hroot, -, hk, -, hall⟩ := hhost
    · obtain rfl | rfl : q = .resolver 1 ∨ q = .resolver 0 := by
        simpa [lineage_hosted] using List.mem_of_getElem? hq
      · exact absurd hread.resolver (by decide)
      · exact absurd hread.resolver (by decide)
    · obtain rfl := host_hosted hroot hk
      exact ⟨hhas, hall (.resolver 0) (by simp [lineage_hosted])⟩

end TierIsolation.Forest
