import TierIsolation.Opener.Memory
import TierIsolation.Proofs.Forest.Coherence

/-!
# Which resolver opens what

* `Forest.Opens`: a resolution comes to the opening of an entry, by its own resolver or by one that
  it turns to. `exists_opens`: nobody else opens anything.
* `Forest.Opened` says the same of a run. `exists_opened_iff`: the openings of a run are numbered
  without gaps, by the entries that were opened before.
* `Opened.number_eq`: no resolver opens the entry at a position of its search path twice. It holds
  the entry from then on, until it is released (`Opens.held`), and a resolver that was released
  opens nothing.

All this is about operations that are carried out one after the other, with entries that can always
be opened.
-/

namespace TierIsolation

/-- Entries never fail to open. -/
def Opener.AlwaysOpens (o : Opener) : Prop :=
  ∀ history e, ∃ contents, (o.openEntry history e).answer = .ok contents

/-- Entries of a forest never fail to open. -/
def Forest.AlwaysOpens (F : Forest) : Prop := ∀ p, (F.opener p).AlwaysOpens

theorem Opener.memory_alwaysOpens (stored : List StoredFile) (failing : List String) :
    (memory stored failing).AlwaysOpens :=
  fun _ _ => ⟨_, rfl⟩

/-- What happened before opened no more. -/
theorem History.opens_le {h later : History} (hlater : h <:+ later) : h.opens ≤ later.opens :=
  hlater.sublist.countP_le

namespace Forest

variable {F : Forest} {s t u : State} {p q : Place} {name : String} {index n : Nat}

/-! ## What is held -/

/-- Nobody is released, and nobody gives anything back. -/
structure State.KeepsHeld (s t : State) : Prop where
  released : ∀ q, (t.resolver q).released = (s.resolver q).released
  handles : ∀ q index h, (s.resolver q).handle? index = some h →
    (t.resolver q).handle? index = some h

theorem State.KeepsHeld.refl (s : State) : s.KeepsHeld s := ⟨fun _ => rfl, fun _ _ _ => id⟩

theorem State.KeepsHeld.trans (h : s.KeepsHeld t) (h' : t.KeepsHeld u) : s.KeepsHeld u :=
  ⟨fun q => (h'.released q).trans (h.released q),
    fun q index x hx => h'.handles q index x (h.handles q index x hx)⟩

theorem State.KeepsHeld.record (s : State) (e : Event) : s.KeepsHeld (s.record e) :=
  ⟨fun _ => rfl, fun _ _ _ => id⟩

theorem State.KeepsHeld.remember (s : State) (p : Place) (name : String) (symbol : Symbol) :
    s.KeepsHeld (s.update p (·.remember name symbol)) where
  released :=
    State.keep_update ResolverState.released (fun r => r.released_remember name symbol) s p
  handles q index _ hheld :=
    (State.keep_update (ResolverState.handle? · index)
      (fun r => r.handle?_remember name symbol index) s p q).trans hheld

/-- A new handle takes the place of no other one. -/
theorem State.KeepsHeld.hold (hfree : (s.resolver p).handle? index = none) (h : Handle) :
    s.KeepsHeld (s.update p (·.hold index h)) where
  released := State.keep_update ResolverState.released (·.released_hold index h) s p
  handles q i x hx := by
    by_cases hq : q = p
    · subst hq
      have hi : i ≠ index := by
        rintro rfl
        rw [hfree] at hx
        cases hx
      rw [State.update_same, ResolverState.handle?_hold, if_neg hi]
      exact hx
    · rw [State.update_other _ _ hq]
      exact hx

theorem keepHandle_keepsHeld (p : Place) (index : Nat) (h : Handle) (s : State) :
    s.KeepsHeld (F.keepHandle p index h s).1 := by
  unfold keepHandle
  split
  · exact .record s _
  · split
    · exact .record s _
    · rename_i hfree
      exact .hold hfree h

theorem keepsHeld_stepwise :
    Stepwise F (F.runCall 0) (fun _ => True) State.KeepsHeld where
  refl := .refl
  trans := .trans
  handleAt {p index e} _ _ s := by
    simp only [handleAt, runCalls_zero]
    split
    · exact .refl s
    · split
      · exact .refl s
      · split
        · exact .record s _
        · exact (State.KeepsHeld.record s _).trans (keepHandle_keepsHeld p index _ _)
  readFrom _ h e path s := by
    simp only [readFrom, runCalls_zero]
    split
    · exact .record s _
    · exact .record s _
  resolveBy {p search} _ hsearch name s := by
    obtain hs | ⟨-, hs⟩ | ⟨symbol, -, hs⟩ := F.resolveBy_cases p name search s
    · rw [hs]
      exact .refl s
    · rw [hs]
      exact hsearch s
    · rw [hs]
      exact (hsearch s).trans (.remember _ p name symbol)

/-- The resolver may open the entry at a position: it is not released, and does not hold it. -/
structure State.Lacks (s : State) (q : Place) (index : Nat) : Prop where
  live : (s.resolver q).released = false
  free : (s.resolver q).handle? index = none

theorem State.KeepsHeld.lacks (h : s.KeepsHeld t) (ht : t.Lacks q index) : s.Lacks q index where
  live := (h.released q).symm.trans ht.live
  free := by
    cases hheld : (s.resolver q).handle? index with
    | none => rfl
    | some x => exact absurd ((h.handles q index x hheld).symm.trans ht.free) (by simp)

theorem lacks_of_perform {o : Operation} (h : (F.perform 0 s o).Lacks q index) :
    s.Lacks q index := by
  have hresolve (p : Place) (name : String) : s.KeepsHeld (F.resolve 0 p name s).1 :=
    keepsHeld_stepwise.resolveWith (fun _ _ => trivial) trivial s
  cases o with
  | resolve p name => exact (hresolve p name).lacks h
  | tryResolve p name =>
    rw [perform, tryResolve_fst] at h
    exact (hresolve p name).lacks h
  | release p =>
    obtain ⟨hlive, hfree⟩ := h
    rw [perform, resolver_release] at hlive hfree
    by_cases hq : q = p
    · subst hq
      rw [State.update_same] at hlive
      cases hlive
    · rw [State.update_other _ _ hq] at hlive hfree
      exact ⟨hlive, hfree⟩

theorem lacks_of_run {operations : List Operation} (h : (F.run 0 operations s).Lacks q index) :
    s.Lacks q index :=
  run_induction (P := fun t : State => t.Lacks q index → s.Lacks q index) id
    (fun _ _ _ ht h => ht (lacks_of_perform h)) h

/-! ## One resolution -/

/-- Resolving `name` at `p` from the state `s` on comes to the opening of the entry at a position of
the search path of `q`, in the state `t`. -/
inductive Opens (F : Forest) (name : String) : Place → State → Place → Nat → State → Prop
  | own {p : Place} {s t : State} {index : Nat} {e : Entry}
      (hreach : Reaches F name p s (.entry index e) t)
      (hfree : (t.resolver p).handle? index = none) : Opens F name p s p index t
  | source {p q r : Place} {s s₁ t : State} {index : Nat}
      (hreach : Reaches F name p s (.source (.resolver q)) s₁) (h : Opens F name q s₁ r index t) :
      Opens F name p s r index t

theorem Opens.lacks (h : Opens F name p s q index t) : s.Lacks q index := by
  induction h with
  | own hreach hfree => exact (hreach.along keepsHeld_stepwise).lacks ⟨hreach.live_then, hfree⟩
  | source hreach _ ih => exact (hreach.along keepsHeld_stepwise).lacks ih

theorem Opens.accounted (h : Opens F name p s q index t) : Accounted F s t := by
  induction h with
  | own hreach _ => exact hreach.along (accounted_stepwise (runCall_accounted 0))
  | source hreach _ ih => exact (hreach.along (accounted_stepwise (runCall_accounted 0))).trans ih

/-- An entry that is not held yet is opened, and held from then on. -/
theorem handleAt_of_lacks (h : t.Lacks p index) {e : Entry} {contents : Contents}
    (hanswer : ((F.opener p).openEntry t.history e).answer = .ok contents) :
    let x : Handle := ⟨t.history.opens, p, e, contents⟩
    F.handleAt (F.runCall 0) p index e t =
      ((t.record (.opened x)).update p (·.hold index x), .ok x) := by
  simp [handleAt, keepHandle, h.live, h.free, hanswer, runCalls_zero]

/-- To ask an entry is to read from it, when it is open. -/
theorem askEntry_fst {call : Call → State → State} {e : Entry} {h : Handle} (name : String)
    (hopen : F.handleAt call p index e s = (t, .ok h)) :
    (F.ask call p name (.entry index e) s).1 =
      (F.readFrom call p h e (Symbol.path name (F.resolver p).suffix) t).1 := by
  simp only [ask, hopen]
  split <;> simp_all

/-- The entry is opened, and the resolver holds it after the resolution. -/
theorem Opens.held (hopens : F.AlwaysOpens) (h : Opens F name p s q index t) :
    ∃ x : Handle, x.number = t.history.opens ∧
      .opened x :: t.history <:+ (F.resolve 0 p name s).1.history ∧
      ((F.resolve 0 p name s).1.resolver q).handle? index = some x := by
  induction h with
  | @own p s t index e hreach hfree =>
    obtain ⟨contents, hanswer⟩ := hopens p t.history e
    have hopen := handleAt_of_lacks (F := F) ⟨hreach.live_then, hfree⟩ hanswer
    have hask := askEntry_fst name hopen
    have hheld := hreach.along_rest keepsHeld_stepwise fun _ symbol => .remember _ p name symbol
    have hlater := hreach.accounted.precedes.history
    rw [hask] at hheld hlater
    refine ⟨⟨t.history.opens, p, e, contents⟩, rfl, ?_, ?_⟩
    · exact (readFrom_accounted (runCall_accounted 0) _ e _ _).precedes.history.trans hlater
    · refine hheld.handles p index _ ((keepsHeld_stepwise.readFrom trivial _ e _ _).handles _ _ _ ?_)
      rw [State.update_same, ResolverState.handle?_hold, if_pos rfl]
  | source hreach _ ih =>
    obtain ⟨x, hnumber, hevent, hheld⟩ := ih
    have hrest := hreach.along_rest keepsHeld_stepwise fun _ symbol => .remember _ _ name symbol
    have hlater := hreach.accounted.precedes.history
    simp only [ask, askSource, orNothing_fst] at hrest hlater
    exact ⟨x, hnumber, hevent.trans hlater, hrest.handles _ _ _ hheld⟩

section Count

variable {counts : Event → Bool} (hcounts : ∀ h failed, counts (.released h failed) = false)
include hcounts

/-- To keep a handle, or not to, makes no event but the release of the handle. -/
theorem countP_keepHandle (p : Place) (index : Nat) (h : Handle) (s : State) :
    (F.keepHandle p index h s).1.history.countP counts = s.history.countP counts := by
  have hreleased (failed : Bool) :
      (Event.released h failed :: s.history).countP counts = s.history.countP counts :=
    List.countP_cons_of_neg (by simp [hcounts])
  unfold keepHandle releaseHandle
  split
  · exact hreleased _
  · split
    · exact hreleased _
    · rfl

theorem countP_releaseAll (p : Place) (hs : List Handle) (s : State) :
    (F.releaseAll p hs s).1.history.countP counts = s.history.countP counts := by
  induction hs generalizing s with
  | nil => rfl
  | cons h rest ih => exact (ih _).trans (List.countP_cons_of_neg (by simp [hcounts]))

end Count

theorem opens_keepHandle (p : Place) (index : Nat) (h : Handle) (s : State) :
    (F.keepHandle p index h s).1.history.opens = s.history.opens :=
  countP_keepHandle (fun _ _ => rfl) p index h s

theorem opens_readFrom (p : Place) (h : Handle) (e : Entry) (path : String) (s : State) :
    (F.readFrom (F.runCall 0) p h e path s).1.history.opens = s.history.opens := by
  simp only [readFrom, runCalls_zero]
  split
  · exact History.opens_cons _ _
  · exact History.opens_cons _ _

/-- An entry is opened once at most, and only if it is not held. -/
theorem opens_handleAt (p : Place) (index : Nat) (e : Entry) (s : State) :
    (F.handleAt (F.runCall 0) p index e s).1.history.opens = s.history.opens ∨
      (s.resolver p).handle? index = none ∧
      (F.handleAt (F.runCall 0) p index e s).1.history.opens = s.history.opens + 1 := by
  simp only [handleAt, runCalls_zero]
  split
  · exact .inl rfl
  · split
    · exact .inl rfl
    · rename_i hfree
      split
      · exact .inl (History.opens_cons _ _)
      · rw [opens_keepHandle]
        exact .inr ⟨hfree, History.opens_cons _ _⟩

theorem opens_askEntry (p : Place) (name : String) (index : Nat) (e : Entry) (s : State) :
    (F.ask (F.runCall 0) p name (.entry index e) s).1.history.opens = s.history.opens ∨
      (s.resolver p).handle? index = none ∧
      (F.ask (F.runCall 0) p name (.entry index e) s).1.history.opens = s.history.opens + 1 := by
  have hopen := opens_handleAt (F := F) p index e s
  rcases hhandle : F.handleAt (F.runCall 0) p index e s with ⟨t, fault | h⟩
  · rw [hhandle] at hopen
    simpa only [ask, hhandle] using hopen
  · rw [hhandle] at hopen
    rwa [askEntry_fst name hhandle, opens_readFrom]

/-- Only what a resolution comes to is opened. -/
theorem exists_opens (hn : s.history.opens ≤ n)
    (h : n < (F.resolve 0 p name s).1.history.opens) :
    ∃ q index t, Opens F name p s q index t ∧ t.history.opens = n := by
  induction p using source_induction (F := F) generalizing s with
  | h p ih =>
    cases hlive : (s.resolver p).released with
    | true =>
      rw [F.resolve_of_released hlive] at h
      exact absurd hn (Nat.not_le.2 h)
    | false =>
      cases hmissing : (s.resolver p).cached? name with
      | some symbol =>
        rw [F.resolve_of_cached hlive hmissing] at h
        exact absurd hn (Nat.not_le.2 h)
      | none =>
        have hsearch : n < (F.search p name s).1.history.opens := by
          obtain ⟨hs, -⟩ | ⟨symbol, hs⟩ := @resolve_of_missing F s p name hlive hmissing
          · rwa [hs] at h
          · rwa [hs] at h
        obtain hbefore | ⟨asks, ask, later, s₁, horder, hbefore, hnot, hask⟩ :=
          askInOrder_imp (P := fun t : State => n < t.history.opens) hsearch
        · omega
        obtain ⟨x, hreach, rfl⟩ := exists_reaches_of_asked hlive hmissing horder hbefore
        cases x with
        | entry index e =>
          obtain hsame | ⟨hfree, hmore⟩ := opens_askEntry (F := F) p name index e s₁
          · rw [hsame] at hask
            exact absurd hask hnot
          · rw [hmore] at hask
            exact ⟨p, index, s₁, .own hreach hfree, by omega⟩
        | source asked =>
          cases asked with
          | nothing => exact absurd hask hnot
          | table owner symbols => exact absurd hask hnot
          | resolver q =>
            simp only [Forest.ask, askSource, orNothing_fst] at hask
            obtain ⟨r, index, t, hopens, ht⟩ := ih q _ hreach.source_eq (Nat.not_lt.1 hnot) hask
            exact ⟨r, index, t, .source hreach hopens, ht⟩

/-! ## Runs -/

/-- One of the operations, carried out from the state `s` on, opens the entry at a position of the
search path of `q`, when `n` entries were opened before. -/
def Opened (F : Forest) (s : State) (operations : List Operation) (q : Place) (index n : Nat) :
    Prop :=
  ∃ before o after p name t, operations = before ++ o :: after ∧ o.asked? = some (p, name) ∧
    Opens F name p (F.run 0 before s) q index t ∧ t.history.opens = n

theorem opened_cons {o : Operation} {rest : List Operation} :
    Opened F s (o :: rest) q index n ↔
      (∃ p name t, o.asked? = some (p, name) ∧ Opens F name p s q index t ∧ t.history.opens = n) ∨
      Opened F (F.perform 0 s o) rest q index n := by
  constructor
  · rintro ⟨before, o', after, p, name, t, hlist, hasked, hopens, hn⟩
    obtain ⟨rfl, hlist⟩ | ⟨before, rfl, rfl⟩ := List.cons_eq_append_iff.1 hlist
    · obtain ⟨rfl, rfl⟩ := List.cons.inj hlist
      exact .inl ⟨p, name, t, hasked, hopens, hn⟩
    · exact .inr ⟨before, o', after, p, name, t, rfl, hasked, hopens, hn⟩
  · rintro (⟨p, name, t, hasked, hopens, hn⟩ | ⟨before, o', after, p, name, t, rfl, hrest⟩)
    · exact ⟨[], o, rest, p, name, t, rfl, hasked, hopens, hn⟩
    · exact ⟨o :: before, o', after, p, name, t, rfl, hrest⟩

theorem opens_releaseAll (p : Place) (hs : List Handle) (s : State) :
    (F.releaseAll p hs s).1.history.opens = s.history.opens :=
  countP_releaseAll (fun _ _ => rfl) p hs s

/-- An operation opens what its resolution comes to. -/
theorem exists_opens_iff (hopens : F.AlwaysOpens) {o : Operation} :
    s.history.opens ≤ n ∧ n < (F.perform 0 s o).history.opens ↔
      ∃ q index p name t, o.asked? = some (p, name) ∧ Opens F name p s q index t ∧
        t.history.opens = n := by
  constructor
  · rintro ⟨hn, h⟩
    cases hasked : o.asked? with
    | none =>
      obtain ⟨p, rfl⟩ := Operation.exists_release hasked
      rw [perform, release, opens_releaseAll] at h
      exact absurd hn (Nat.not_le.2 h)
    | some x =>
      obtain ⟨p, name⟩ := x
      rw [perform_of_asked hasked] at h
      obtain ⟨q, index, t, ho, ht⟩ := exists_opens hn h
      exact ⟨q, index, p, name, t, rfl, ho, ht⟩
  · rintro ⟨q, index, p, name, t, hasked, ho, rfl⟩
    obtain ⟨x, -, hevent, -⟩ := ho.held hopens
    have hafter := History.opens_le hevent
    rw [History.opens_cons] at hafter
    rw [perform_of_asked hasked]
    exact ⟨History.opens_le ho.accounted.precedes.history, hafter⟩

/-- The openings of a run are numbered by the entries that were opened before. -/
theorem exists_opened_iff (hopens : F.AlwaysOpens) {operations : List Operation} :
    s.history.opens ≤ n ∧ n < (F.run 0 operations s).history.opens ↔
      ∃ q index, Opened F s operations q index n := by
  induction operations generalizing s with
  | nil =>
    simp only [run, List.foldl_nil, Opened, List.nil_eq, List.append_eq_nil_iff, reduceCtorEq,
      and_false, false_and, exists_false, iff_false]
    omega
  | cons o rest ih =>
    have hrun : F.run 0 (o :: rest) s = F.run 0 rest (F.perform 0 s o) := rfl
    have hfirst := History.opens_le (run_accounted (F := F) 0 [o] s).precedes.history
    have hrest := History.opens_le
      (run_accounted (F := F) 0 rest (F.perform 0 s o)).precedes.history
    rw [hrun]
    constructor
    · rintro ⟨hn, h⟩
      obtain hlt | hge := Nat.lt_or_ge n (F.perform 0 s o).history.opens
      · obtain ⟨q, index, hnow⟩ := (exists_opens_iff hopens).1 ⟨hn, hlt⟩
        exact ⟨q, index, opened_cons.2 (.inl hnow)⟩
      · obtain ⟨q, index, hlater⟩ := ih.1 ⟨hge, h⟩
        exact ⟨q, index, opened_cons.2 (.inr hlater)⟩
    · rintro ⟨q, index, h⟩
      obtain hnow | hlater := opened_cons.1 h
      · obtain ⟨hn, hlt⟩ := (exists_opens_iff hopens).2 ⟨q, index, hnow⟩
        exact ⟨hn, Nat.lt_of_lt_of_le hlt hrest⟩
      · obtain ⟨hge, hlt⟩ := ih.2 ⟨q, index, hlater⟩
        exact ⟨Nat.le_trans hfirst hge, hlt⟩

theorem Opened.lacks {operations : List Operation} (h : Opened F s operations q index n) :
    s.Lacks q index := by
  obtain ⟨before, o, after, p, name, t, -, -, hopens, -⟩ := h
  exact lacks_of_run hopens.lacks

/-- **No position is opened twice.** The resolver holds what it opened until it is released, and
opens nothing when it is released. -/
theorem Opened.number_eq (hopens : F.AlwaysOpens) {operations : List Operation} {m : Nat}
    (h : Opened F s operations q index n) (h' : Opened F s operations q index m) : n = m := by
  induction operations generalizing s with
  | nil =>
    obtain ⟨before, o, after, p, name, t, hlist, -⟩ := h
    simp at hlist
  | cons o rest ih =>
    have hthen (p name t) (hasked : o.asked? = some (p, name)) (ho : Opens F name p s q index t) :
        ∃ x : Handle, x.number = t.history.opens ∧
          ((F.perform 0 s o).resolver q).handle? index = some x := by
      obtain ⟨x, hnumber, -, hheld⟩ := ho.held hopens
      exact ⟨x, hnumber, perform_of_asked hasked ▸ hheld⟩
    obtain ⟨p, name, t, hasked, ho, rfl⟩ | h := opened_cons.1 h
    · obtain ⟨x, hx, hheld⟩ := hthen p name t hasked ho
      obtain ⟨p', name', t', hasked', ho', rfl⟩ | h' := opened_cons.1 h'
      · obtain ⟨y, hy, hheld'⟩ := hthen p' name' t' hasked' ho'
        rw [hheld, Option.some.injEq] at hheld'
        rw [← hx, ← hy, hheld']
      · exact absurd (hheld.symm.trans h'.lacks.free) (by simp)
    · obtain ⟨p', name', t', hasked', ho', rfl⟩ | h' := opened_cons.1 h'
      · obtain ⟨x, hx, hheld⟩ := hthen p' name' t' hasked' ho'
        exact absurd (hheld.symm.trans h.lacks.free) (by simp)
      · exact ih h h'

end Forest

end TierIsolation
