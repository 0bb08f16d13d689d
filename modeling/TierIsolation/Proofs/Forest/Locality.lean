import TierIsolation.Proofs.Forest.Along

/-!
# What a resolution has nothing to do with

A computation is *apart* from a resolver if it gives the same and does the same whatever the state
of that resolver is, and leaves this state as it is (`Forest.Apart`).

`resolveWith_apart`: if nothing takes place while entries are opened and read, a resolution is apart
from every resolver that it cannot come to from source to source.
-/

namespace TierIsolation.Forest

variable {F : Forest} {p q : Place} {r : ResolverState} {call : Call → State → State}
  {name : String}

namespace State

/-- The state with another state of one resolver. -/
def put (s : State) (q : Place) (r : ResolverState) : State := s.update q fun _ => r

theorem put_same (s : State) (q : Place) (r : ResolverState) : (s.put q r).resolver q = r :=
  s.update_same q _

theorem put_other (s : State) (r : ResolverState) (h : p ≠ q) :
    (s.put q r).resolver p = s.resolver p :=
  s.update_other _ h

@[simp] theorem history_put (s : State) (q : Place) (r : ResolverState) :
    (s.put q r).history = s.history := rfl

@[simp] theorem record_put (s : State) (q : Place) (r : ResolverState) (e : Event) :
    (s.put q r).record e = (s.record e).put q r := rfl

/-- Changes to different resolvers do not interfere. -/
theorem update_put (s : State) (r : ResolverState) (f : ResolverState → ResolverState)
    (h : p ≠ q) : (s.put q r).update p f = (s.update p f).put q r := by
  have hresolver : ((s.put q r).update p f).resolver = ((s.update p f).put q r).resolver := by
    funext x
    by_cases hx : x = p
    · subst hx
      rw [update_same, put_other _ _ h, put_other _ _ h, update_same]
    · by_cases hx' : x = q
      · subst hx'
        rw [update_other _ _ hx, put_same, put_same]
      · rw [update_other _ _ hx, put_other _ _ hx', put_other _ _ hx', update_other _ _ hx]
  exact congrArg (State.mk · s.history) hresolver

end State

/-- The computation neither depends on the state of a resolver nor changes it. -/
def Apart (q : Place) {α : Type} (f : State → Outcome α) : Prop :=
  ∀ s r, f (s.put q r) = ((f s).1.put q r, (f s).2)

theorem State.put_resolver (s : State) (q : Place) : s.put q (s.resolver q) = s := by
  have hresolver : (s.put q (s.resolver q)).resolver = s.resolver := by
    funext p
    by_cases h : p = q
    · rw [h, put_same]
    · rw [put_other _ _ h]
  exact congrArg (State.mk · s.history) hresolver

/-- A computation leaves a resolver alone that it is apart from. -/
theorem Apart.resolver_eq {α : Type} {f : State → Outcome α} (h : Apart q f) (s : State) :
    (f s).1.resolver q = s.resolver q := by
  have hs := h s (s.resolver q)
  rw [State.put_resolver] at hs
  rw [hs]
  exact State.put_same _ _ _

/-! ## Asking -/

theorem Apart.orNothing {f : State → Outcome Symbol} (h : Apart q f) :
    Apart q fun s => orNothing (f s) := by
  intro s r
  refine Prod.ext ?_ ?_
  · rw [orNothing_fst, orNothing_fst, h s r]
  · rw [orNothing_snd, orNothing_snd, h s r]

theorem Apart.askInOrder {asks : List (State → Outcome (Option Symbol))}
    (h : ∀ ask ∈ asks, Apart q ask) : Apart q (askInOrder asks) := by
  induction asks with
  | nil => exact fun s r => rfl
  | cons first rest ih =>
    have hrest := ih fun ask hask => h ask (List.mem_cons_of_mem _ hask)
    intro s r
    rw [Forest.askInOrder, Forest.askInOrder, h first List.mem_cons_self s r]
    rcases first s with ⟨t, fault | (_ | symbol)⟩
    · rfl
    · exact hrest t r
    · rfl

theorem Apart.resolveBy (hq : p ≠ q) {search : State → Outcome (Option Symbol)}
    (h : Apart q search) (name : String) : Apart q (F.resolveBy p name search) := by
  intro s r
  simp only [Forest.resolveBy, State.put_other _ _ hq, h s r]
  split
  · rfl
  · split
    · rfl
    · rcases search s with ⟨t, fault | (_ | symbol)⟩
      · rfl
      · rfl
      · simp only [State.update_put _ _ _ hq]

/-! ## Entries and sources -/

section Undisturbed

variable (hcalm : Undisturbed F call)
include hcalm

theorem handleAt_apart (hq : p ≠ q) (index : Nat) (e : Entry) :
    Apart q (F.handleAt call p index e) := by
  intro s r
  simp only [handleAt, (hcalm p).opening, State.put_other _ _ hq,
    State.history_put, State.record_put]
  split
  · rfl
  · split
    · rfl
    · split
      · rfl
      · simp only [keepHandle, releaseHandle, State.put_other _ _ hq, State.history_put,
          State.record_put, State.update_put _ _ _ hq]
        split
        · rfl
        · split <;> rfl

theorem readFrom_apart (hq : p ≠ q) (h : Handle) (e : Entry) (path : String) :
    Apart q (F.readFrom call p h e path) := by
  intro s r
  simp only [readFrom, (hcalm p).reading, State.history_put,
    State.record_put]
  split
  · rfl
  · simp only [State.put_other _ _ hq]

theorem askEntry_apart (hq : p ≠ q) (index : Nat) (e : Entry) :
    Apart q (F.ask call p name (.entry index e)) := by
  intro s r
  simp only [ask, handleAt_apart hcalm hq index e s r]
  rcases F.handleAt call p index e s with ⟨t, fault | h⟩
  · rfl
  · simp only [readFrom_apart hcalm hq h e _ t r]
    rcases F.readFrom call p h e (Symbol.path name (F.resolver p).suffix) t with ⟨u, fault | found⟩
      <;> rfl

/-- A resolution is apart from a resolver if it stays at places `D` that this one is not among. -/
theorem resolveWith_apart {D : Place → Prop} (hD : ¬ D q)
    (hclosed : ∀ {p r mode}, D p → F.source p mode = .resolver r → D r) (hp : D p) :
    Apart q (F.resolveWith call p name) := by
  induction p using source_induction (F := F) with
  | h p ih =>
    have hq : p ≠ q := fun h => hD (h ▸ hp)
    rw [resolveWith_eq_askInOrder]
    refine .resolveBy hq (.askInOrder ?_) name
    intro ask hask
    obtain ⟨x, hx, rfl⟩ := List.mem_map.1 hask
    rcases mem_lookupOrder hx with rfl | ⟨index, e, rfl, -⟩
    · cases hsource : F.source p ((F.resolver p).policy.modeFor name) with
      | nothing => exact fun s r => rfl
      | table owner symbols => exact fun s r => rfl
      | resolver other => exact (ih other _ hsource (hclosed hp hsource)).orNothing
    · exact askEntry_apart hcalm hq index e

end Undisturbed

end TierIsolation.Forest
