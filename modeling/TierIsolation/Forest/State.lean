import TierIsolation.Forest

/-!
# The state of a forest

Every resolver remembers the symbols it resolved, holds the entries it opened, and knows whether it
was released (`ResolverState`). The state of a forest adds what happened so far. `update` changes the
state of one resolver; `update_same` and `update_other` say what it looks like then.
-/

namespace TierIsolation

/-- What a resolver remembers. -/
structure ResolverState where
  /-- The resolved symbols by their names, the newest first. -/
  cache : List (String × Symbol) := []
  /-- The opened entries by their positions on the search path, in that order. -/
  handles : List (Nat × Handle) := []
  released : Bool := false

namespace ResolverState

instance : Inhabited ResolverState := ⟨{}⟩

/-- The symbol that a name was resolved to. -/
def cached? (r : ResolverState) (name : String) : Option Symbol := r.cache.lookup name

/-- The handle of the entry at a position. -/
def handle? (r : ResolverState) (index : Nat) : Option Handle := r.handles.lookup index

/-- Remembers a symbol, unless the name was resolved before. -/
def remember (r : ResolverState) (name : String) (s : Symbol) : ResolverState :=
  match r.cached? name with
  | some _ => r
  | none => { r with cache := (name, s) :: r.cache }

/-- Holds the handle of the entry at a position. -/
def hold (r : ResolverState) (index : Nat) (h : Handle) : ResolverState :=
  { r with handles := Increasing.insert Prod.fst (index, h) r.handles }

/-- The state of a released resolver: it holds nothing. -/
def release (r : ResolverState) : ResolverState := { r with handles := [], released := true }

/-! ### What the changes do -/

theorem cached?_remember (r : ResolverState) (name other : String) (s : Symbol) :
    (r.remember name s).cached? other =
      if other = name then some ((r.cached? name).getD s) else r.cached? other := by
  unfold remember
  split
  · rename_i found hf
    by_cases h : other = name
    · simp [h, hf]
    · simp [h]
  · rename_i hf
    by_cases h : other = name
    · rw [hf, if_pos h, h]
      simp [cached?]
    · simp [h, cached?, List.lookup_cons, beq_eq_false_iff_ne.2 h]

@[simp] theorem handles_remember (r : ResolverState) (name : String) (s : Symbol) :
    (r.remember name s).handles = r.handles := by
  unfold remember
  split <;> rfl

@[simp] theorem released_remember (r : ResolverState) (name : String) (s : Symbol) :
    (r.remember name s).released = r.released := by
  unfold remember
  split <;> rfl

@[simp] theorem handle?_remember (r : ResolverState) (name : String) (s : Symbol) (i : Nat) :
    (r.remember name s).handle? i = r.handle? i := by
  simp [handle?]

theorem handle?_hold (r : ResolverState) (i j : Nat) (h : Handle) :
    (r.hold i h).handle? j = if j = i then some h else r.handle? j :=
  Increasing.lookup_insert

@[simp] theorem cached?_hold (r : ResolverState) (i : Nat) (h : Handle) (name : String) :
    (r.hold i h).cached? name = r.cached? name := rfl

@[simp] theorem released_hold (r : ResolverState) (i : Nat) (h : Handle) :
    (r.hold i h).released = r.released := rfl

end ResolverState

namespace Forest

structure State where
  resolver : Place → ResolverState := fun _ => {}
  history : History := []

namespace State

instance : Inhabited State := ⟨{}⟩

def record (s : State) (e : Event) : State := { s with history := e :: s.history }

def update (s : State) (p : Place) (f : ResolverState → ResolverState) : State :=
  { s with resolver := fun q => if q = p then f (s.resolver p) else s.resolver q }

@[simp] theorem update_same (s : State) (p : Place) (f : ResolverState → ResolverState) :
    (s.update p f).resolver p = f (s.resolver p) := by simp [update]

@[simp] theorem update_other (s : State) {p q : Place} (f : ResolverState → ResolverState)
    (h : q ≠ p) : (s.update p f).resolver q = s.resolver q := by simp [update, h]

/-- What holds of all resolvers, and of the one that is changed when it is, holds of all then. -/
theorem forall_update {P : Place → ResolverState → Prop} {s : State} {p : Place}
    {f : ResolverState → ResolverState} (hp : P p (f (s.resolver p)))
    (h : ∀ q, P q (s.resolver q)) (q : Place) : P q ((s.update p f).resolver q) := by
  by_cases hq : q = p
  · subst hq
    rw [update_same]
    exact hp
  · rw [update_other s f hq]
    exact h q

/-- What a change keeps of the resolvers it may be made to, it keeps of all resolvers. -/
theorem keep_update {α : Type} (g : ResolverState → α) {f : ResolverState → ResolverState}
    (h : ∀ r, g (f r) = g r) (s : State) (p q : Place) :
    g ((s.update p f).resolver q) = g (s.resolver q) :=
  forall_update (P := fun q r => g r = g (s.resolver q)) (h _) (fun _ => rfl) q

@[simp] theorem history_update (s : State) (p : Place) (f : ResolverState → ResolverState) :
    (s.update p f).history = s.history := rfl

@[simp] theorem resolver_record (s : State) (e : Event) : (s.record e).resolver = s.resolver :=
  rfl

@[simp] theorem history_record (s : State) (e : Event) :
    (s.record e).history = e :: s.history := rfl

end State

end Forest

end TierIsolation
