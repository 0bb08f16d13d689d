import Mathlib.Algebra.BigOperators.Group.List.Basic
import Mathlib.Algebra.GroupWithZero.Nat
import TierIsolation.Proofs.Forest.LookupFrame
import TierIsolation.Proofs.Forest.Openings

/-!
# Every symbol is read once

`memory_reads_once`: of entries held in memory, as many reads find something as there are symbols
that resolvers remember and have themselves; and as many entries are opened as were released and are
held, at no position of a search path twice.

* `Forest.places`: all resolvers of a forest, those behind hosts among them. Their names have to be
  different (`Forest.NamedApart`), for a symbol has the name of the resolver that read it.
* `Forest.Pays`: what a computation reads, and what resolvers remember of it. `resolve_pays`: a
  resolution that reads a symbol remembers it, once as the own symbol of a resolver.
* `Balanced.opens_eq`: entries that were opened are released or held.
-/

namespace TierIsolation

theorem History.hits_cons (e : Event) (h : History) :
    hits (e :: h) = hits h + match e with | .read _ _ true => 1 | _ => 0 := by
  cases e with
  | read handle path found => cases found <;> simp [hits]
  | _ => simp [hits]

namespace Forest

variable {F : Forest} {s t : State} {p q : Place} {name : String} {symbol : Symbol}

/-! ## Resolvers and their names -/

/-- Where the resolvers stand: those of the forest, and those behind its hosts. -/
def places (F : Forest) : List Place :=
  (List.range F.resolvers.length).map .resolver ++
    (List.range F.hosts.length).flatMap F.hostPlaces

/-- All resolvers have different names, and hosts with tables have other ones. -/
structure NamedApart (F : Forest) : Prop where
  names : (F.places.map fun p => (F.resolver p).name).Nodup
  table : ∀ k owner symbols, F.host k = .table owner symbols →
    ∀ p ∈ F.places, (F.resolver p).name ≠ owner

theorem NamedApart.eq (h : F.NamedApart) (hp : p ∈ F.places) (hq : q ∈ F.places)
    (hname : (F.resolver p).name = (F.resolver q).name) : p = q :=
  List.inj_on_of_nodup_map h.names hp hq hname

theorem nodup_places (F : Forest) : F.places.Nodup := by
  refine List.nodup_append.2 ⟨List.nodup_range.map fun i j h => Place.resolver.inj h, ?_, ?_⟩
  · refine List.nodup_flatMap.2 ⟨fun k _ => ?_, List.nodup_range.imp fun hne p hp hp' => ?_⟩
    · unfold hostPlaces
      split <;> simp
    · obtain ⟨rfl, -⟩ := mem_hostPlaces.1 hp
      obtain ⟨hsame, -⟩ := mem_hostPlaces.1 hp'
      exact hne (Place.host.inj hsame)
  · rintro p hp q hq rfl
    obtain ⟨k, -, hk⟩ := List.mem_flatMap.1 hq
    obtain ⟨rfl, -⟩ := mem_hostPlaces.1 hk
    simp at hp

/-- A number that no resolver has stands for one that has nothing and asks nobody. -/
theorem mem_places_or (F : Forest) (p : Place) :
    p ∈ F.places ∨ (F.resolver p).searchPath = [] ∧ ∀ mode, F.source p mode = .nothing := by
  cases p with
  | host k =>
    cases hhost : F.host k with
    | entries owner path =>
      have hk : k < F.hosts.length := by
        by_contra hge
        rw [host, List.getElem?_eq_none (Nat.le_of_not_lt hge)] at hhost
        cases hhost
      exact .inl (List.mem_append_right _ (List.mem_flatMap.2
        ⟨k, List.mem_range.2 hk, mem_hostPlaces.2 ⟨rfl, owner, path, hhost⟩⟩))
    | empty => exact .inr ⟨by simp [resolver, hhost, Host.resolver], fun _ => rfl⟩
    | table owner symbols => exact .inr ⟨by simp [resolver, hhost, Host.resolver], fun _ => rfl⟩
  | resolver i =>
    obtain hlt | hge := Nat.lt_or_ge i F.resolvers.length
    · exact .inl (List.mem_append_left _ (List.mem_map_of_mem (List.mem_range.2 hlt)))
    · have hdefault : F.resolver (.resolver i) = default := by
        rw [resolver, List.getElem?_eq_none hge, Option.getD_none]
      refine .inr ⟨by rw [hdefault]; rfl, fun mode => ?_⟩
      simp [source, parent?, hdefault, show (default : Resolver).parent = none from rfl,
        show (default : Resolver).host = none from rfl]

theorem mem_places_of_searchPath {e : Entry} (h : e ∈ (F.resolver p).searchPath) :
    p ∈ F.places := by
  refine (F.mem_places_or p).resolve_right fun hnone => ?_
  rw [hnone.1] at h
  cases h

theorem mem_places_of_source (mode : LookupMode) (h : F.source p mode ≠ .nothing) :
    p ∈ F.places :=
  (F.mem_places_or p).resolve_right fun hnone => h (hnone.2 mode)

theorem host_of_hostSource {k : Nat} {owner : String} {symbols : Table ByteArray}
    (h : F.hostSource k = .table owner symbols) : F.host k = .table owner symbols := by
  unfold hostSource at h
  split at h
  · cases h
  · rename_i hhost
    cases h
    exact hhost
  · cases h

/-- A remembered symbol has the name of a resolver that stands as high at most, or of the table that
a host has. -/
theorem Backed.definer (h : Backed F s name symbol p) :
    (∃ q ∈ F.places, q.rank ≤ p.rank ∧ symbol.resolver = (F.resolver q).name) ∨
      ∃ k symbols, F.host k = .table symbol.resolver symbols := by
  induction h with
  | @own p _ hread =>
    exact .inl ⟨p, mem_places_of_searchPath hread.origin, Nat.le_refl _, hread.resolver⟩
  | @host p k _ _ _ _ hhost =>
    unfold HostHas at hhost
    split at hhost
    · exact hhost.elim
    · rename_i owner symbols hsource
      obtain ⟨bytes, -, rfl⟩ := Option.map_eq_some_iff.1 hhost
      exact .inr ⟨k, symbols, host_of_hostSource hsource⟩
    · rename_i q hsource
      obtain rfl := hostSource_eq_resolver hsource
      exact .inl ⟨.host k, mem_places_of_searchPath hhost.2.origin, Nat.zero_le _, hhost.2.resolver⟩
  | parent _ hparent _ ih =>
    refine ih.imp_left ?_
    rintro ⟨q, hq, hrank, hname⟩
    exact ⟨q, hq, Nat.le_trans hrank (Nat.le_of_lt (rank_parent hparent)), hname⟩

theorem Backed.mem_places (h : Backed F s name symbol p) : p ∈ F.places := by
  cases h with
  | own _ hread => exact mem_places_of_searchPath hread.origin
  | host _ _ _ hasks hhost =>
    refine mem_places_of_source ((F.resolver p).policy.modeFor name) fun hnothing => ?_
    rw [HostHas, ← hasks, hnothing] at hhost
    exact hhost
  | parent _ hparent =>
    refine mem_places_of_source .parentFirst ?_
    rw [source_of_parent hparent]
    simp

/-! ## What is read and what is remembered -/

/-- The number of names that a resolver remembers and has the symbols of itself. -/
def State.ownCount (F : Forest) (s : State) (p : Place) : Nat :=
  (s.resolver p).cache.countP fun x => x.2.resolver == (F.resolver p).name

/-- The symbols that resolvers remember and have themselves, all together. -/
def State.ownTotal (F : Forest) (s : State) : Nat := (F.places.map (s.ownCount F)).sum

theorem ownTotal_start : ({} : State).ownTotal F = 0 := by
  have hcount : State.ownCount F {} = fun _ => 0 := rfl
  simp [State.ownTotal, hcount]

/-- One if a resolver found a symbol that it has itself. -/
def ownFound (F : Forest) (p : Place) : Except ResolutionFault (Option Symbol) → Nat
  | .ok (some symbol) => if symbol.resolver = (F.resolver p).name then 1 else 0
  | _ => 0

/-- From `s` to `t`, all but `due` of the symbols that were read came to be remembered as own
ones. -/
def Pays (F : Forest) (due : Nat) (s t : State) : Prop :=
  t.history.hits + s.ownTotal F = s.history.hits + t.ownTotal F + due

theorem Pays.refl (s : State) : Pays F 0 s s := rfl

theorem Pays.trans {u : State} {due : Nat} (h : Pays F 0 s t) (h' : Pays F due t u) :
    Pays F due s u := by
  unfold Pays at *
  omega

/-- Only what is remembered counts. -/
theorem ownTotal_of_cache (h : ∀ q, (t.resolver q).cache = (s.resolver q).cache) :
    t.ownTotal F = s.ownTotal F := by
  have hcount : t.ownCount F = s.ownCount F := by
    funext p
    rw [State.ownCount, State.ownCount, h]
  rw [State.ownTotal, State.ownTotal, hcount]

/-- Where only one summand changes, the sum changes as it does. -/
theorem sum_map_add {ps : List Place} (hnodup : ps.Nodup) (hp : p ∈ ps) {f g : Place → Nat}
    (h : ∀ q, q ≠ p → g q = f q) : (ps.map g).sum + f p = (ps.map f).sum + g p := by
  have hrest : (ps.erase p).map g = (ps.erase p).map f :=
    List.map_congr_left fun q hq => h q (hnodup.mem_erase_iff.1 hq).1
  have hf := List.sum_map_erase f hp
  have hg := List.sum_map_erase g hp
  rw [hrest] at hg
  omega

/-- A symbol that a resolver has itself is counted when the resolver remembers it. -/
theorem ownTotal_remember (hp : p ∈ F.places) (hmissing : (s.resolver p).cached? name = none)
    (symbol : Symbol) :
    (s.update p (·.remember name symbol)).ownTotal F =
      s.ownTotal F + F.ownFound p (.ok (some symbol)) := by
  have hother : ∀ q, q ≠ p →
      (s.update p (·.remember name symbol)).ownCount F q = s.ownCount F q := by
    intro q hq
    rw [State.ownCount, State.update_other _ _ hq, State.ownCount]
  have hsame : (s.update p (·.remember name symbol)).ownCount F p =
      s.ownCount F p + F.ownFound p (.ok (some symbol)) := by
    rw [State.ownCount, State.update_same, ResolverState.remember, hmissing, List.countP_cons,
      State.ownCount, ownFound]
    simp
  have hsum := sum_map_add F.nodup_places hp hother
  rw [State.ownTotal, State.ownTotal]
  omega

/-! ## Resolutions -/

theorem hits_handleAt (p : Place) (index : Nat) (e : Entry) (s : State) :
    (F.handleAt (F.runCall 0) p index e s).1.history.hits = s.history.hits := by
  simp only [handleAt, runCalls_zero]
  split
  · rfl
  · split
    · rfl
    · split
      · exact History.hits_cons _ _
      · exact (countP_keepHandle (fun _ _ => rfl) p index _ _).trans (History.hits_cons _ _)

/-- A read that finds something finds a symbol of the resolver that reads. -/
theorem hits_askEntry (p : Place) (name : String) (index : Nat) (e : Entry) (s : State) :
    (F.ask (F.runCall 0) p name (.entry index e) s).1.history.hits = s.history.hits +
      F.ownFound p (F.ask (F.runCall 0) p name (.entry index e) s).2 := by
  have hopen := hits_handleAt (F := F) p index e s
  rcases hhandle : F.handleAt (F.runCall 0) p index e s with ⟨s₁, fault | h⟩
  · rw [hhandle] at hopen
    simp only [ask, hhandle]
    exact hopen
  · rw [hhandle] at hopen
    simp only [ask, hhandle, readFrom, runCalls_zero]
    cases ((F.opener p).read s₁.history h (Symbol.path name (F.resolver p).suffix)).answer with
    | error fault => exact (History.hits_cons _ _).trans hopen
    | ok found =>
      simp only [State.history_record, History.hits_cons, hopen]
      cases found with
      | none => rfl
      | some bytes => simp [ownFound]

/-- What the table of the host has is no resolver's own. -/
theorem ownFound_table (hnames : F.NamedApart) {mode : LookupMode} {owner : String}
    {symbols : Table ByteArray} (hsource : F.source p mode = .table owner symbols) :
    F.ownFound p (.ok ((symbols.get? name).map (Host.symbol owner name))) = 0 := by
  have hp : p ∈ F.places := mem_places_of_source mode (by rw [hsource]; simp)
  have hne : (F.resolver p).name ≠ owner := by
    obtain ⟨q, -, hq⟩ | ⟨-, hnothing | ⟨k, -, hhost⟩⟩ := F.source_cases p mode
    · rw [hq] at hsource
      cases hsource
    · rw [hnothing] at hsource
      cases hsource
    · exact hnames.table k owner symbols (host_of_hostSource (hhost.symm.trans hsource)) p hp
  cases symbols.get? name with
  | none => rfl
  | some bytes => exact if_neg hne.symm

/-- What a resolver that stands lower has is not one's own. -/
theorem ownFound_of_backed (hnames : F.NamedApart) (hp : p ∈ F.places)
    (hrank : q.rank < p.rank) (h : Backed F s name symbol q) :
    F.ownFound p (.ok (some symbol)) = 0 := by
  refine if_neg fun hname => ?_
  obtain ⟨r, hr, hle, hresolver⟩ | ⟨k, symbols, hhost⟩ := h.definer
  · obtain rfl := hnames.eq hp hr (hname.symm.trans hresolver)
    omega
  · exact hnames.table k _ symbols hhost p hp hname.symm

section Search

variable (hnames : F.NamedApart)
  (ih : ∀ q mode, F.source p mode = .resolver q → ∀ {s : State}, Coherent F s →
    Pays F 0 s (F.resolve 0 q name s).1)
include hnames ih

/-- To ask a source pays for what it reads: nothing that it has is one's own. -/
theorem askSource_pays (hs : Coherent F s) {mode : LookupMode} :
    let asked := F.askSource (F.runCall 0) name (F.source p mode) s
    Pays F (F.ownFound p asked.2) s asked.1 := by
  cases hsource : F.source p mode with
  | nothing => exact .refl s
  | table owner symbols =>
    dsimp only [askSource]
    rw [ownFound_table hnames hsource]
    exact .refl s
  | resolver q =>
    intro asked
    have hpays : Pays F 0 s asked.1 := by
      rw [show asked = orNothing (F.resolve 0 q name s) from rfl, orNothing_fst]
      exact ih q mode hsource hs
    have hnone : F.ownFound p asked.2 = 0 := by
      rcases hasked : asked with ⟨t, fault | (_ | symbol)⟩
      · rfl
      · rfl
      · have hp : p ∈ F.places := mem_places_of_source mode (by rw [hsource]; simp)
        exact ownFound_of_backed hnames hp (rank_source hsource)
          (backed_of_resolve (hs.resolve q name) hasked)
    rw [hnone]
    exact hpays

theorem ask_pays (hs : Coherent F s) {x : Asked} (hx : x ∈ F.lookupOrder p name) :
    let asked := F.ask (F.runCall 0) p name x s
    Pays F (F.ownFound p asked.2) s asked.1 := by
  obtain rfl | ⟨index, e, rfl, -⟩ := mem_lookupOrder hx
  · exact askSource_pays hnames ih hs
  · have hhits := hits_askEntry (F := F) p name index e s
    have htotal := ownTotal_of_cache (F := F) (askEntry_sameNames (F := F) p name index e s).cache
    unfold Pays
    dsimp only
    omega

theorem askInOrder_pays (hs : Coherent F s) {xs : List Asked} (hxs : xs ⊆ F.lookupOrder p name) :
    let asked := askInOrder (xs.map (F.ask (F.runCall 0) p name)) s
    Pays F (F.ownFound p asked.2) s asked.1 := by
  induction xs generalizing s with
  | nil => exact .refl s
  | cons x rest hrest =>
    have hx : [x] ⊆ F.lookupOrder p name := by
      simpa using hxs List.mem_cons_self
    have hpays := ask_pays hnames ih hs (hx List.mem_cons_self)
    have hcoherent := hs.askInOrder (fun q _ _ _ hs => hs.resolve q name) hx
    rw [List.map_singleton, askInOrder_singleton] at hcoherent
    dsimp only at hpays ⊢
    rw [List.map_cons, askInOrder]
    split
    · rename_i s₁ hnone
      rw [hnone] at hpays hcoherent
      exact hpays.trans (hrest hcoherent fun y hy => hxs (List.mem_cons_of_mem _ hy))
    · exact hpays

end Search

/-- **A resolution remembers what it reads.** Every symbol that is read comes to be remembered by the
resolver that has it, and only these come to be remembered as one's own. -/
theorem resolve_pays (hnames : F.NamedApart) (hs : Coherent F s) (p : Place) (name : String) :
    Pays F 0 s (F.resolve 0 p name s).1 := by
  induction p using source_induction (F := F) generalizing s with
  | h p ih =>
    have hsearch : Pays F (F.ownFound p (F.search p name s).2) s (F.search p name s).1 :=
      askInOrder_pays hnames (fun q mode hq _ => ih q mode hq) hs (List.Subset.refl _)
    cases hlive : (s.resolver p).released with
    | true =>
      rw [F.resolve_of_released hlive]
      exact .refl s
    | false =>
      cases hmissing : (s.resolver p).cached? name with
      | some symbol =>
        rw [F.resolve_of_cached hlive hmissing]
        exact .refl s
      | none =>
        have hresolve := F.resolve_eq_resolveBy p name
        obtain hsame | ⟨hnothing, hsame⟩ | ⟨symbol, hfound, hsame⟩ :=
          F.resolveBy_cases p name (F.search p name) s
        · rw [hresolve, hsame]
          exact .refl s
        · rw [hresolve, hsame]
          have hnone : F.ownFound p (F.search p name s).2 = 0 := by
            rcases hresult : (F.search p name s).2 with fault | (_ | symbol)
            · rfl
            · rfl
            · exact absurd hresult (hnothing symbol)
          rwa [hnone] at hsearch
        · have hcached : ((F.resolve 0 p name s).1.resolver p).cached? name = some symbol :=
            cached?_of_resolve (by rw [hresolve, hsame])
          have hp := ((hs.resolve p name).backed p name symbol hcached).mem_places
          have hfree : ((F.search p name s).1.resolver p).cached? name = none :=
            cached?_search_eq_none hlive hmissing fun _ _ _ _ _ _ _ => cached?_resolve_imp
          rw [hresolve, hsame]
          rw [hfound] at hsearch
          have htotal := ownTotal_remember hp hfree symbol
          unfold Pays at hsearch ⊢
          dsimp only [State.history_update]
          omega

/-! ## Runs -/

/-- A resolver that is released remembers what it remembered. -/
theorem release_pays (p : Place) (s : State) : Pays F 0 s (F.release p s).1 := by
  have htotal : (F.release p s).1.ownTotal F = s.ownTotal F :=
    ownTotal_of_cache fun q => by
      rw [resolver_release]
      exact State.keep_update ResolverState.cache (f := ResolverState.release) (fun _ => rfl) s p q
  have hhits : (F.release p s).1.history.hits = s.history.hits :=
    countP_releaseAll (fun _ _ => rfl) p _ _
  rw [Pays, htotal, hhits, Nat.add_zero]

theorem perform_pays (hnames : F.NamedApart) (hs : Coherent F s) (o : Operation) :
    Pays F 0 s (F.perform 0 s o) := by
  cases o with
  | resolve p name => exact resolve_pays hnames hs p name
  | tryResolve p name =>
    rw [perform, tryResolve_fst]
    exact resolve_pays hnames hs p name
  | release p => exact release_pays p s

theorem run_pays (hnames : F.NamedApart) (operations : List Operation) :
    Pays F 0 {} (F.run 0 operations {}) := by
  have h : Coherent F (F.run 0 operations {}) ∧ Pays F 0 {} (F.run 0 operations {}) :=
    run_induction (P := fun s => Coherent F s ∧ Pays F 0 {} s) ⟨.start F, .refl _⟩
      fun o _ s hs => ⟨hs.1.perform o, hs.2.trans (perform_pays hnames hs.1 o)⟩
  exact h.2

/-! ## Entries that are opened -/

/-- Every handle belongs to one resolver. -/
theorem sum_ofPlace {xs : List Tenure} (h : ∀ x ∈ xs, x.place ∈ F.places) :
    (F.places.map fun p => (ofPlace p xs).length).sum = xs.length := by
  induction xs with
  | nil => simp [ofPlace]
  | cons x rest ih =>
    have hrest := ih fun y hy => h y (List.mem_cons_of_mem _ hy)
    have hother : ∀ q, q ≠ x.place → (ofPlace q (x :: rest)).length = (ofPlace q rest).length :=
      fun q hq => by rw [ofPlace_cons_other hq.symm]
    have hsum := sum_map_add F.nodup_places (h x List.mem_cons_self) hother
    rw [ofPlace_cons_self, List.length_cons] at hsum
    rw [List.length_cons]
    omega

/-- When nothing is loose, the entries that were opened are released or held. -/
theorem Balanced.opens_eq {l : Ledger} (hb : Balanced F (s, l)) (hloose : l.loose = []) :
    s.history.opens = s.history.released.length +
      (F.places.map fun p => (s.resolver p).handles.length).sum := by
  have hopened : ∀ x ∈ l.opened, x.place ∈ F.places := fun x hx =>
    mem_places_of_searchPath (List.mem_of_getElem? (hb.entries x hx))
  have hreleased : ∀ x ∈ l.released, x.place ∈ F.places := fun x hx =>
    hopened x (hb.released_subperm.subset hx)
  have hshare : ∀ p, (ofPlace p l.opened).length =
      (ofPlace p l.released).length + (s.resolver p).handles.length := by
    intro p
    have hshares := (hb.shares p).length_eq
    rw [hloose, List.length_append, List.length_append, length_tenures] at hshares
    exact hshares
  calc s.history.opens
    _ = l.opened.length := by simpa using (congrArg List.length hb.numbers).symm
    _ = (F.places.map fun p => (ofPlace p l.opened).length).sum := (sum_ofPlace hopened).symm
    _ = (F.places.map fun p => (ofPlace p l.released).length).sum +
        (F.places.map fun p => (s.resolver p).handles.length).sum := by
      rw [← List.sum_map_add, funext hshare]
    _ = s.history.released.length +
        (F.places.map fun p => (s.resolver p).handles.length).sum := by
      rw [sum_ofPlace hreleased, ← hb.releases, List.length_reverse, List.length_map]

/-- **Every symbol is read once.** Resolvers with different names have entries that are held in
memory, shared or not, and operations are carried out one after the other.

Then as many reads found something as there are names, over all resolvers and those behind hosts,
that a resolver remembers with a symbol of its own; and as many entries were opened as were released
and are held. The openings of a run are counted by the entries opened before, and no resolver opens
the entry at a position of its search path at two of them. -/
theorem memory_reads_once (F : Forest)
    (hopener : ∀ p, ∃ stored failing, F.opener p = .memory stored failing)
    (hnames : F.NamedApart) (depth : Nat) (operations : List Operation) :
    let s := F.run depth operations {}
    s.history.hits = (F.places.map fun p =>
      (s.resolver p).cache.countP fun x => x.2.resolver == (F.resolver p).name).sum ∧
    (∀ p, ((s.resolver p).cache.map (·.1)).Nodup) ∧
    s.history.opens = s.history.released.length +
      (F.places.map fun p => (s.resolver p).handles.length).sum ∧
    (∀ n, n < s.history.opens ↔ ∃ q index, Opened F {} operations q index n) ∧
    ∀ q index n m, Opened F {} operations q index n → Opened F {} operations q index m → n = m := by
  intro s
  have hquiet : F.Quiet := by
    intro p
    obtain ⟨stored, failing, hp⟩ := hopener p
    exact hp ▸ Opener.memory_quiet stored failing
  have hopens : F.AlwaysOpens := by
    intro p
    obtain ⟨stored, failing, hp⟩ := hopener p
    exact hp ▸ Opener.memory_alwaysOpens stored failing
  have hidle : depth = 0 ∨ F.Quiet := .inr hquiet
  have hrun : s = F.run 0 operations {} := run_idle hidle operations {}
  refine ⟨?_, fun p => (run_grows depth operations {} p).nodup List.nodup_nil, ?_, fun n => ?_,
    fun q index n m h h' => h.number_eq hopens h'⟩
  · have hpays := run_pays hnames operations
    have hhits : ({} : State).history.hits = 0 := rfl
    rw [Pays, ownTotal_start, hhits, ← hrun] at hpays
    change s.history.hits = s.ownTotal F
    omega
  · obtain ⟨l, hsteps, hloose⟩ := run_accounted (F := F) depth operations {} {}
    exact (hsteps.balanced (.start F)).opens_eq hloose
  · rw [hrun, ← exists_opened_iff hopens]
    exact (and_iff_right (Nat.zero_le n)).symm

/-- Symbols of the library, of the host and of one of the resolvers above are read; one name is
missing, and the library is released in the end. -/
def delegatingRun : List Operation :=
  [.resolve (.resolver 1) "a.Lib", .tryResolve (.resolver 2) "a.Object",
    .resolve (.resolver 2) "a.Side", .tryResolve (.resolver 1) "a.None", .release (.resolver 0)]

theorem namedApart_delegating : delegating.NamedApart where
  names := by decide
  table k owner symbols h := by
    cases k <;> cases h

/-- Three symbols were read, and they are remembered in six places. Of the three entries that were
opened one was released. -/
theorem delegating_reads_once :
    let s := delegating.run 1 delegatingRun {}
    (delegating.places.map fun p => (s.resolver p).cache.length).sum = 6 ∧
    (delegating.places.map fun p => (s.resolver p).cache.countP fun x =>
      x.2.resolver == (delegating.resolver p).name).sum = 3 ∧
    (delegating.places.map fun p => (s.resolver p).handles.length).sum = 2 ∧
    ∃ q index, Opened delegating {} delegatingRun q index 2 := by
  have hcache : (delegating.places.map fun p =>
      ((delegating.run 1 delegatingRun {}).resolver p).cache.length).sum = 6 := by decide +kernel
  have hhits : (delegating.run 1 delegatingRun {}).history.hits = 3 := by decide +kernel
  have hopens : (delegating.run 1 delegatingRun {}).history.opens = 3 := by decide +kernel
  have hreleased : (delegating.run 1 delegatingRun {}).history.released.length = 1 := by
    decide +kernel
  obtain ⟨hread, -, hbalance, hopened, -⟩ :=
    memory_reads_once delegating (fun _ => ⟨_, _, rfl⟩) namedApart_delegating 1 delegatingRun
  refine ⟨hcache, hread.symm.trans hhits, ?_, (hopened 2).1 (by rw [hopens]; decide)⟩
  rw [hopens, hreleased] at hbalance
  omega

end Forest

end TierIsolation
