import TierIsolation.Opener.Memory
import TierIsolation.Opener.Scripted
import TierIsolation.Proofs.Forest.Along
import TierIsolation.Proofs.Forest.Ledger

/-!
# No handle is lost and none is released twice

`run_balanced`: whatever is resolved and released, also while entries are opened and read, and
whatever fails, between the operations every handle is either held by the resolver it was opened for
or was released by it, once; and a released resolver holds nothing.

A computation is *accounted* for if it can be taken apart into moves of handles (`Forest.Step`) that
leave no handle loose but those that were so before (`Forest.Accounted`). The loose ones that were
there before are those of whatever is under way around it.
-/

namespace TierIsolation.Forest

variable {F : Forest} {s t u : State} {l : Ledger} {p : Place} {name : String}
  {call : Call → State → State}

/-- The state `t` follows `s` by moves that leave no other handle loose. -/
def Accounted (F : Forest) (s t : State) : Prop :=
  ∀ l, ∃ l', Steps F (s, l) (t, l') ∧ l'.loose = l.loose

theorem Accounted.refl (s : State) : Accounted F s s := fun l => ⟨l, .refl, rfl⟩

theorem Accounted.trans (h₁ : Accounted F s t) (h₂ : Accounted F t u) : Accounted F s u := by
  intro l
  obtain ⟨l₁, hsteps₁, hloose₁⟩ := h₁ l
  obtain ⟨l₂, hsteps₂, hloose₂⟩ := h₂ l₁
  exact ⟨l₂, hsteps₁.trans hsteps₂, hloose₂.trans hloose₁⟩

/-- A move of no handle at all. -/
theorem Accounted.step (h : ∀ l, Step F (s, l) (t, l)) : Accounted F s t :=
  fun l => ⟨l, .single (h l), rfl⟩

theorem Accounted.record (s : State) {e : Event} (ho : ∀ h, e ≠ .opened h)
    (hr : ∀ h failed, e ≠ .released h failed) : Accounted F s (s.record e) :=
  .step fun _ => .noted ho hr

theorem Accounted.runCalls (hcall : ∀ c s, Accounted F s (call c s)) (calls : List Call)
    (s : State) : Accounted F s (runCalls call calls s) := by
  induction calls generalizing s with
  | nil => exact .refl s
  | cons c rest ih => exact (hcall c s).trans (ih _)

/-! ## Releasing -/

theorem releaseHandle_steps {x : Tenure} {rest : List Tenure} (hl : l.loose = x :: rest) :
    ∃ l', Steps F (s, l) ((F.releaseHandle x.place x.handle s).1, l') ∧ l'.loose = rest :=
  ⟨_, .single (.released _ (hl ▸ .refl _)), rfl⟩

/-- Loose handles of one resolver are released one after the other. -/
theorem releaseAll_steps (held : List (Nat × Handle)) (s : State) {l : Ledger}
    {rest : List Tenure} (hl : l.loose = held.map (fun x => ⟨p, x.1, x.2⟩) ++ rest) :
    ∃ l', Steps F (s, l) ((F.releaseAll p (held.map (·.2)) s).1, l') ∧ l'.loose = rest := by
  induction held generalizing s l with
  | nil => exact ⟨l, .refl, hl⟩
  | cons x others ih =>
    obtain ⟨l₁, hsteps₁, hloose₁⟩ := releaseHandle_steps (F := F) (s := s) hl
    obtain ⟨l₂, hsteps₂, hloose₂⟩ := ih (F.releaseHandle p x.2 s).1 hloose₁
    exact ⟨l₂, hsteps₁.trans hsteps₂, hloose₂⟩

theorem release_accounted (p : Place) (s : State) : Accounted F s (F.release p s).1 := by
  intro l
  obtain ⟨l', hsteps, hloose⟩ := releaseAll_steps (F := F) (p := p) (s.resolver p).handles
    (s.update p ResolverState.release) (l := { l with loose := s.tenures p ++ l.loose }) rfl
  exact ⟨l', .head (.emptied p) hsteps, hloose⟩

/-! ## Opening and reading -/

/-- A handle that is loose is held or released. -/
theorem keepHandle_steps {index : Nat} {h : Handle} {rest : List Tenure}
    (hl : l.loose = ⟨p, index, h⟩ :: rest) :
    ∃ l', Steps F (s, l) ((F.keepHandle p index h s).1, l') ∧ l'.loose = rest := by
  unfold keepHandle
  cases hreleased : (s.resolver p).released with
  | true => exact releaseHandle_steps hl
  | false =>
    cases hheld : (s.resolver p).handle? index with
    | some held => exact releaseHandle_steps hl
    | none =>
      have hx : l.loose.Perm (⟨p, index, h⟩ :: rest) := hl ▸ .refl _
      exact ⟨_, .single (.held hx hreleased hheld), rfl⟩

theorem handleAt_accounted (hcall : ∀ c s, Accounted F s (call c s)) {index : Nat} {e : Entry}
    (he : (F.resolver p).searchPath[index]? = some e) :
    Along (Accounted F) (F.handleAt call p index e) := by
  intro s
  unfold handleAt
  cases (s.resolver p).released with
  | true => exact .refl s
  | false =>
    cases (s.resolver p).handle? index with
    | some held => exact .refl s
    | none =>
      have hruns := Accounted.runCalls hcall ((F.opener p).openEntry s.history e).calls
      simp only [Bool.false_eq_true, if_false]
      cases ((F.opener p).openEntry s.history e).answer with
      | error fault =>
        exact (Accounted.record s (e := .openFailed p e) (by simp) (by simp)).trans (hruns _)
      | ok contents =>
        intro l
        let x : Tenure := ⟨p, index, ⟨s.history.opens, p, e, contents⟩⟩
        -- the new handle is loose while calls take place, and they leave it so
        obtain ⟨l₁, hsteps₁, hloose₁⟩ := hruns (s.record (.opened x.handle))
          { l with opened := x :: l.opened, loose := x :: l.loose }
        let later := runCalls call ((F.opener p).openEntry s.history e).calls
          (s.record (.opened x.handle))
        obtain ⟨l₂, hsteps₂, hloose₂⟩ := keepHandle_steps (F := F) (s := later) hloose₁
        exact ⟨l₂, .head (.opened he rfl rfl) (hsteps₁.trans hsteps₂), hloose₂⟩

theorem readFrom_accounted (hcall : ∀ c s, Accounted F s (call c s)) (h : Handle) (e : Entry)
    (path : String) : Along (Accounted F) (F.readFrom call p h e path) := by
  intro s
  have hruns := Accounted.runCalls hcall ((F.opener p).read s.history h path).calls s
  simp only [readFrom]
  cases ((F.opener p).read s.history h path).answer with
  | ok found => exact hruns.trans (.record _ (by simp) (by simp))
  | error fault => exact hruns.trans (.record _ (by simp) (by simp))

/-! ## Names -/

theorem resolveBy_accounted {search : State → Outcome (Option Symbol)}
    (hsearch : Along (Accounted F) search) (name : String) :
    Along (Accounted F) (F.resolveBy p name search) := by
  intro s
  obtain hs | ⟨-, hs⟩ | ⟨symbol, -, hs⟩ := F.resolveBy_cases p name search s
  · rw [hs]
    exact .refl s
  · rw [hs]
    exact hsearch s
  · rw [hs]
    exact (hsearch s).trans (.step fun _ => .remembered p name symbol)

theorem accounted_stepwise (hcall : ∀ c s, Accounted F s (call c s)) :
    Stepwise F call (fun _ => True) (Accounted F) where
  refl := .refl
  trans := .trans
  handleAt _ := handleAt_accounted hcall
  readFrom _ := readFrom_accounted hcall
  resolveBy _ := resolveBy_accounted

/-- Calls that are followed down to some depth leave no handle loose. -/
theorem runCall_accounted (depth : Nat) (c : Call) (s : State) :
    Accounted F s (F.runCall depth c s) :=
  runCall_along (fun _ => accounted_stepwise) release_accounted .refl depth c s

theorem run_accounted (depth : Nat) (operations : List Operation) (s : State) :
    Accounted F s (F.run depth operations s) :=
  run_along (fun _ => accounted_stepwise) release_accounted .refl depth operations s

/-! ## Released resolvers -/

/-- A resolver that is released stays so. -/
theorem Step.released_mono {c c' : State × Ledger} (h : Step F c c')
    (hp : (c.1.resolver p).released = true) : (c'.1.resolver p).released = true := by
  cases h with
  | opened => exact hp
  | @held s l x rest _ _ _ =>
    exact (State.keep_update ResolverState.released
      (fun r => r.released_hold x.index x.handle) s x.place p).trans hp
  | released => exact hp
  | emptied q =>
    by_cases hq : p = q
    · subst hq
      rw [State.update_same]
      rfl
    · rw [State.update_other _ _ hq]
      exact hp
  | noted => exact hp
  | remembered q name symbol =>
    exact (State.keep_update ResolverState.released
      (fun r => r.released_remember name symbol) _ _ p).trans hp

theorem Steps.released_mono {c c' : State × Ledger} (h : Steps F c c')
    (hp : (c.1.resolver p).released = true) : (c'.1.resolver p).released = true := by
  induction h with
  | refl => exact hp
  | tail _ hstep ih => exact hstep.released_mono ih

theorem Accounted.released_mono (h : Accounted F s t) (hp : (s.resolver p).released = true) :
    (t.resolver p).released = true := by
  obtain ⟨l, hsteps, -⟩ := h {}
  exact hsteps.released_mono hp

theorem released_release (p : Place) (s : State) :
    ((F.release p s).1.resolver p).released = true := by
  obtain ⟨l, hsteps, -⟩ := releaseAll_steps (F := F) (p := p) (s.resolver p).handles
    (s.update p ResolverState.release) (l := { loose := s.tenures p }) (List.append_nil _).symm
  refine hsteps.released_mono ?_
  rw [State.update_same]
  rfl

/-- Once a run released a resolver, the resolver is released. -/
theorem released_run {depth : Nat} {operations : List Operation} (h : .release p ∈ operations)
    (s : State) : ((F.run depth operations s).resolver p).released = true := by
  obtain ⟨before, after, rfl⟩ := List.append_of_mem h
  have hrun : F.run depth (before ++ .release p :: after) s =
      F.run depth after (F.release p (F.run depth before s)).1 := by
    simp [run, perform]
  rw [hrun]
  exact (run_accounted depth after _).released_mono (released_release p _)

/-! ## The balance of a run -/

/-- **No handle is lost, and none is released twice.** After any operations, for every resolver:
the handles opened for it are those it released and those it holds, one for a position of its search
path at most; and if it was released, it holds nothing, and released all that was opened for it. -/
theorem run_balanced (F : Forest) (depth : Nat) (operations : List Operation) :
    let s := F.run depth operations {}
    ∃ l : Ledger, Steps F ({}, {}) (s, l) ∧ l.loose = [] ∧
      l.opened.length = s.history.opens ∧
      (l.released.map (·.handle)).reverse = s.history.released ∧
      (s.history.released.map (·.number)).Nodup ∧
      ∀ p,
        (ofPlace p l.opened).length =
          (ofPlace p l.released).length + (s.resolver p).handles.length ∧
        ((s.resolver p).handles.map (·.1)).Nodup ∧
        (∀ x ∈ (s.resolver p).handles, (F.resolver p).searchPath[x.1]? = some x.2.entry) ∧
        (.release p ∈ operations → (s.resolver p).released = true) ∧
        ((s.resolver p).released = true →
          (s.resolver p).handles = [] ∧ (ofPlace p l.opened).Perm (ofPlace p l.released)) := by
  intro s
  obtain ⟨l, hsteps, hloose⟩ := run_accounted (F := F) depth operations {} {}
  have hb : Balanced F (s, l) := hsteps.balanced (.start F)
  have hshares : ∀ p, (ofPlace p l.opened).Perm (ofPlace p l.released ++ s.tenures p) := by
    intro p
    have h := hb.shares p
    rwa [hloose, show ofPlace p ({} : Ledger).loose = [] from rfl, List.append_nil] at h
  refine ⟨l, hsteps, hloose, ?_, hb.releases, hb.nodup_released, fun p =>
    ⟨?_, hb.nodup_handles p, fun x hx => hb.held_entry hx, fun h => released_run h {}, fun h => ?_⟩⟩
  · have := congrArg List.length hb.numbers
    simpa using this
  · rw [(hshares p).length_eq, List.length_append, length_tenures]
  · have hempty := hb.emptied p h
    have hnone : s.tenures p = [] := by rw [State.tenures, hempty, List.map_nil]
    refine ⟨hempty, ?_⟩
    have h := hshares p
    rwa [hnone, List.append_nil] at h

/-! ## Two opens at once -/

/-- A resolver whose entry cannot be released. While the entry is opened for the first time, another
name is resolved. -/
def race : Forest where
  resolvers := [{ name := "app", searchPath := [⟨"/lib/", .directory⟩] }]
  opener _ := .scripted [("/lib/", .resolveAtOpen (.resolver 0) "b.B")]
    (.memory [⟨"/lib/", "a/A.class", ⟨#[1]⟩⟩] ["/lib/"])

def raceRun : List Operation := [.resolve (.resolver 0) "a.A", .release (.resolver 0)]

/-- The entry is opened twice, and both handles are released. -/
theorem race_balanced :
    ∃ l : Ledger, Steps race ({}, {}) (race.run 1 raceRun {}, l) ∧ l.opened.length = 2 ∧
      (ofPlace (.resolver 0) l.opened).Perm (ofPlace (.resolver 0) l.released) ∧
      ((race.run 1 raceRun {}).history.released.map (·.number)) = [0, 1] := by
  obtain ⟨l, hsteps, -, hopens, -, -, hall⟩ := run_balanced race 1 raceRun
  obtain ⟨-, -, -, hreleased, hempty⟩ := hall (.resolver 0)
  have hcount : (race.run 1 raceRun {}).history.opens = 2 := by decide +kernel
  refine ⟨l, hsteps, hopens.trans hcount, (hempty (hreleased ?_)).2, by decide +kernel⟩
  simp [raceRun]

end TierIsolation.Forest
