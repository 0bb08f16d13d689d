import TierIsolation.Proofs.Forest.Along
import TierIsolation.Proofs.Forest.Lineage

/-!
# What a resolution depends on and what it leaves alone

* `resolveWith_congr`: a resolution depends on the resolvers that can be reached from its own, from
  source to source, and on nothing else of the forest.
* `resolveWith_quiet`: nor does it depend on how calls are carried out, if none take place.
* `resolveWith_spares_of_not_turnsTo`: if nothing takes place meanwhile, a resolution leaves every
  resolver alone that the name does not lead to.
* `resolveBy_sameEntries`: to resolve a name at a resolver uses entries as its search does, or not
  at all.
-/

namespace TierIsolation.Forest

variable {F G : Forest} {p q : Place} {name : String} {call : Call → State → State}

/-! ## Dependence -/

section Congruence

/-- The same resolver with the same opener stands at a place of two forests. -/
structure SameAt (F G : Forest) (p : Place) : Prop where
  resolver : F.resolver p = G.resolver p
  opener : F.opener p = G.opener p

section

variable (hp : SameAt F G p)
include hp

theorem handleAt_congr (index : Nat) (e : Entry) :
    F.handleAt call p index e = G.handleAt call p index e := by
  funext s
  simp only [handleAt, keepHandle, releaseHandle, hp.opener, hp.resolver]

theorem readFrom_congr (h : Handle) (e : Entry) (path : String) :
    F.readFrom call p h e path = G.readFrom call p h e path := by
  funext s
  simp only [readFrom, hp.opener, hp.resolver]

theorem searchEntries_congr (path : String) (index : Nat) (entries : List Entry) :
    F.searchEntries call p name path index entries =
      G.searchEntries call p name path index entries := by
  induction entries generalizing index with
  | nil => rfl
  | cons e rest ih =>
    funext s
    simp only [searchEntries, handleAt_congr hp, readFrom_congr hp, ih, hp.resolver]

theorem searchOwn_congr : F.searchOwn call p name = G.searchOwn call p name := by
  funext s
  simp only [searchOwn, hp.resolver, searchEntries_congr hp]

end

/-- Two forests resolve a name alike if they have the same resolvers, with the same sources for the
name, wherever a resolution can come to. -/
theorem resolveWith_congr {D : Place → Prop} (hsame : ∀ q, D q → SameAt F G q)
    (hsource : ∀ q, D q → F.source q ((F.resolver q).policy.modeFor name) =
      G.source q ((F.resolver q).policy.modeFor name))
    (hclosed : ∀ q r, D q →
      F.source q ((F.resolver q).policy.modeFor name) = .resolver r → D r) (hp : D p) :
    F.resolveWith call p name = G.resolveWith call p name := by
  induction p using source_induction (F := F) with
  | h p ih =>
    have hask : F.askSource call name (F.source p ((F.resolver p).policy.modeFor name)) =
        G.askSource call name (F.source p ((F.resolver p).policy.modeFor name)) := by
      cases hr : F.source p ((F.resolver p).policy.modeFor name) with
      | nothing => rfl
      | table owner symbols => rfl
      | resolver r =>
        simp only [askSource]
        rw [ih r _ hr (hclosed p r hp hr)]
    rw [resolveWith_eq, resolveWith_eq, hask, searchOwn_congr (hsame p hp), hsource p hp,
      (hsame p hp).resolver]
    funext s
    simp only [resolveBy, (hsame p hp).resolver]

end Congruence

/-! ## Calls that do not take place -/

section Quiet

variable (hquiet : F.Quiet)
include hquiet

/-- It does not matter how calls are carried out, if none take place. -/
theorem resolveWith_quiet (call call' : Call → State → State)
    (p : Place) (name : String) : F.resolveWith call p name = F.resolveWith call' p name := by
  induction p using source_induction (F := F) with
  | h p ih =>
    have hopen : ∀ index e, F.handleAt call p index e = F.handleAt call' p index e := by
      intro index e
      funext s
      simp only [handleAt, (hquiet p).opening, runCalls, List.foldl_nil]
    have hread : ∀ h e path, F.readFrom call p h e path = F.readFrom call' p h e path := by
      intro h e path
      funext s
      simp only [readFrom, (hquiet p).reading, runCalls, List.foldl_nil]
    have hask : ∀ x ∈ F.lookupOrder p name, F.ask call p name x = F.ask call' p name x := by
      intro x hx
      rcases mem_lookupOrder hx with rfl | ⟨index, e, rfl, -⟩
      · cases hq : F.source p ((F.resolver p).policy.modeFor name) with
        | nothing => rfl
        | table owner symbols => rfl
        | resolver q => simp only [ask, askSource, ih q _ hq]
      · simp only [ask, hopen, hread]
    rw [resolveWith_eq_askInOrder, resolveWith_eq_askInOrder, List.map_congr_left hask]

end Quiet

/-! ## Resolvers that are left alone -/

/-- The state of a resolver stays as it is. -/
def Spares (q : Place) {α : Type} (f : State → Outcome α) : Prop :=
  ∀ s, (f s).1.resolver q = s.resolver q

theorem resolveBy_spares (hq : q ≠ p) {search : State → Outcome (Option Symbol)}
    (h : Spares q search) (name : String) : Spares q (F.resolveBy p name search) := by
  intro s
  obtain hs | ⟨-, hs⟩ | ⟨symbol, -, hs⟩ := F.resolveBy_cases p name search s
  · rw [hs]
  · rw [hs]
    exact h s
  · rw [hs, State.update_other _ _ hq]
    exact h s

section UndisturbedAt

variable (hcalm : UndisturbedAt F call p)
include hcalm

theorem handleAt_spares (hq : q ≠ p) (index : Nat) (e : Entry) :
    Spares q (F.handleAt call p index e) := by
  intro s
  simp only [handleAt, hcalm.opening]
  split
  · rfl
  · split
    · rfl
    · split
      · rfl
      · simp only [keepHandle, releaseHandle]
        split
        · rfl
        · split
          · rfl
          · simp only [State.update_other _ _ hq, State.resolver_record]

theorem readFrom_spares (h : Handle) (e : Entry) (path : String) :
    Spares q (F.readFrom call p h e path) := by
  intro s
  simp only [readFrom, hcalm.reading]
  split <;> rfl

end UndisturbedAt

/-- Whatever other resolvers do leaves a resolver alone. -/
theorem spares_stepwise {D : Place → Prop} (hcalm : ∀ p, D p → UndisturbedAt F call p)
    (hD : ∀ p, D p → q ≠ p) :
    Stepwise F call D fun s t => t.resolver q = s.resolver q := by
  constructor
  case refl => exact fun s => rfl
  case trans => exact fun h₁ h₂ => h₂.trans h₁
  case handleAt => exact fun h _ => handleAt_spares (hcalm _ h) (hD _ h) _ _
  case readFrom => exact fun h => readFrom_spares (hcalm _ h)
  case resolveBy => exact fun h hsearch => resolveBy_spares (hD _ h) hsearch

/-- A resolution leaves every resolver alone that the name does not lead to. -/
theorem resolveWith_spares_of_not_turnsTo (hcalm : Undisturbed F call)
    (h : ¬ TurnsTo F name p q) : Spares q (F.resolveWith call p name) := by
  have hne : ∀ r, TurnsTo F name p r → q ≠ r := by
    rintro r hr rfl
    exact h hr
  exact (spares_stepwise (fun r _ => hcalm r) hne).resolveWith .tail .refl

theorem resolveWith_spares (hcalm : Undisturbed F call) (h : p.rank < q.rank) :
    Spares q (F.resolveWith call p name) :=
  resolveWith_spares_of_not_turnsTo hcalm fun hturns => Nat.not_lt.2 hturns.rank_le h

/-- A host leaves all resolvers of the forest alone, if its opener calls nobody. -/
theorem hostLookup_spares {k : Nat} (hquiet : (F.opener (.host k)).Quiet) (depth i : Nat) :
    Spares (.resolver i) (F.hostLookup depth k name) := by
  have hstep : Stepwise F (F.runCall depth) (· = .host k) fun s t =>
      t.resolver (.resolver i) = s.resolver (.resolver i) := by
    refine spares_stepwise ?_ ?_
    · rintro _ rfl
      exact undisturbedAt_of_quiet hquiet _
    · rintro _ rfl
      simp
  rw [hostLookup_eq]
  refine hstep.askSource fun r hr => hstep.resolveWith ?_ (hostSource_eq_resolver hr)
  -- the resolver behind a host turns to nobody
  rintro _ r rfl hr
  cases hr

/-! ## Entries that are not used -/

/-- The openers did the same, and the same entries are held. -/
structure State.SameEntries (s t : State) : Prop where
  history : s.history = t.history
  handles : ∀ p, (s.resolver p).handles = (t.resolver p).handles

theorem State.SameEntries.refl (s : State) : s.SameEntries s := ⟨rfl, fun _ => rfl⟩

theorem State.SameEntries.trans {s t u : State} (h : s.SameEntries t) (h' : t.SameEntries u) :
    s.SameEntries u :=
  ⟨h.history.trans h'.history, fun p => (h.handles p).trans (h'.handles p)⟩

/-- Remembering a symbol uses no entry. -/
theorem State.SameEntries.remember {s t : State} (h : s.SameEntries t) (p : Place) (name : String)
    (symbol : Symbol) : (s.update p (·.remember name symbol)).SameEntries t where
  history := h.history
  handles q := by
    rw [State.keep_update ResolverState.handles fun r => r.handles_remember name symbol]
    exact h.handles q

theorem resolveBy_sameEntries (p : Place) (name : String)
    (search : State → Outcome (Option Symbol)) (s : State) :
    (F.resolveBy p name search s).1.SameEntries s ∨
      (F.resolveBy p name search s).1.SameEntries (search s).1 := by
  obtain hs | ⟨-, hs⟩ | ⟨symbol, -, hs⟩ := F.resolveBy_cases p name search s
  · rw [hs]
    exact .inl (.refl s)
  · rw [hs]
    exact .inr (.refl _)
  · rw [hs]
    exact .inr ((State.SameEntries.refl _).remember p name symbol)

end TierIsolation.Forest
