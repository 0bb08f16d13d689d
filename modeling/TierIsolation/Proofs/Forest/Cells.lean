import TierIsolation.Proofs.Forest.LookupOrder

/-!
# Cells

Before a resolver searches for a name, it puts an empty cell under the name into its cache, so that
others who ask for the name meanwhile wait instead of searching as well. What is found fills the
cell; if nothing is found, or the search fails, the cell is taken away (`Forest.resolveInCells`).

`resolveInCells_eq`: in the end no cell is empty that was not so before, and symbols, faults and
everything else are those of `Forest.resolve`, which does without empty cells.
-/

namespace TierIsolation.Forest

/-- A state in which some names have an empty cell. -/
structure Cells where
  state : State
  /-- The places and names of the empty cells. -/
  empty : List (Place × String)

namespace Cells

/-- Puts an empty cell under a name, unless there is one. -/
def put (c : Cells) (p : Place) (name : String) : Cells :=
  { c with empty := c.empty.insert (p, name) }

/-- Fills the cell under a name. -/
def fill (c : Cells) (p : Place) (name : String) (symbol : Symbol) : Cells where
  state := c.state.update p (·.remember name symbol)
  empty := c.empty.erase (p, name)

/-- Takes the cell under a name away. -/
def take (c : Cells) (p : Place) (name : String) : Cells :=
  { c with empty := c.empty.erase (p, name) }

end Cells

/-- A computation on the state that has nothing to do with cells. -/
def onState {α : Type} (f : State → Outcome α) (c : Cells) : Cells × Except ResolutionFault α :=
  ({ c with state := (f c.state).1 }, (f c.state).2)

variable (F : Forest)

/-- Resolves a name, with a cell that is empty while the name is searched for. Nothing else takes
place meanwhile. -/
def resolveInCells (p : Place) (name : String) (c : Cells) :
    Cells × Except ResolutionFault Symbol :=
  if (c.state.resolver p).released then (c, .error (.released (F.resolver p).name))
  else
    match (c.state.resolver p).cached? name with
    | some symbol => (c, .ok symbol)
    | none =>
      let elsewhere : Cells → Cells × Except ResolutionFault (Option Symbol) :=
        match h : F.source p ((F.resolver p).policy.modeFor name) with
        | .resolver q =>
          have := rank_source h
          fun c => ((resolveInCells q name c).1, orAbsent (resolveInCells q name c).2)
        | other => onState (F.askSource (F.runCall 0) name other)
      let asks := (F.lookupOrder p name).map fun
        | .entry index e => onState (F.ask (F.runCall 0) p name (.entry index e))
        | .source _ => elsewhere
      match askInOrder asks (c.put p name) with
      | (c, .ok (some symbol)) => (c.fill p name symbol, .ok symbol)
      | (c, .ok none) => (c.take p name, .error (.notFound name (F.resolver p).name))
      | (c, .error fault) => (c.take p name, .error fault)
termination_by p.rank

/-- Asks an entry or a source. Another resolver has a cell of its own for the name. -/
def askInCells (p : Place) (name : String) :
    Asked → Cells → Cells × Except ResolutionFault (Option Symbol)
  | .source (.resolver q) => fun c =>
    ((F.resolveInCells q name c).1, orAbsent (F.resolveInCells q name c).2)
  | x => onState (F.ask (F.runCall 0) p name x)

variable {F} {p : Place} {name : String}

theorem resolveInCells_eq_askInOrder (c : Cells) :
    F.resolveInCells p name c =
      if (c.state.resolver p).released then (c, .error (.released (F.resolver p).name))
      else
        match (c.state.resolver p).cached? name with
        | some symbol => (c, .ok symbol)
        | none =>
          match askInOrder ((F.lookupOrder p name).map (F.askInCells p name)) (c.put p name) with
          | (c, .ok (some symbol)) => (c.fill p name symbol, .ok symbol)
          | (c, .ok none) => (c.take p name, .error (.notFound name (F.resolver p).name))
          | (c, .error fault) => (c.take p name, .error fault) := by
  rw [resolveInCells]
  dsimp only
  rw [List.map_congr_left (g := F.askInCells p name)]
  intro x hx
  rcases mem_lookupOrder hx with rfl | ⟨index, e, rfl, -⟩
  · dsimp only
    split
    · rename_i q hq
      rw [hq]
      rfl
    · rename_i hnot
      cases hsource : F.source p ((F.resolver p).policy.modeFor name) with
      | resolver q => exact absurd hsource (hnot q)
      | table owner symbols => rfl
      | nothing => rfl
  · rfl

/-- Cells do not matter to asking in order, if they do not matter to each of those asked. -/
theorem askInOrder_onState {empty : List (Place × String)} {xs : List Asked}
    {f : Asked → State → Outcome (Option Symbol)}
    {g : Asked → Cells → Cells × Except ResolutionFault (Option Symbol)}
    (h : ∀ x ∈ xs, ∀ s, g x ⟨s, empty⟩ = onState (f x) ⟨s, empty⟩) (s : State) :
    askInOrder (xs.map g) ⟨s, empty⟩ = onState (askInOrder (xs.map f)) ⟨s, empty⟩ := by
  induction xs generalizing s with
  | nil => rfl
  | cons x rest ih =>
    have hrest := ih fun y hy => h y (List.mem_cons_of_mem _ hy)
    rw [List.map_cons, askInOrder, h x List.mem_cons_self s, onState, onState, List.map_cons,
      askInOrder]
    rcases f x s with ⟨s₁, fault | (_ | symbol)⟩
    · rfl
    · exact hrest s₁
    · rfl

/-- If the name has no empty cell at a resolver or below, the cells are as before after resolving
it, and the rest is as after a resolution without cells. -/
theorem resolveInCells_eq {c : Cells} (h : ∀ q, q.rank ≤ p.rank → (q, name) ∉ c.empty) :
    F.resolveInCells p name c = onState (F.resolve 0 p name) c := by
  induction p using source_induction (F := F) generalizing c with
  | h p ih =>
    have hp : (p, name) ∉ c.empty := h p (Nat.le_refl _)
    have hput : c.empty.insert (p, name) = (p, name) :: c.empty := List.insert_of_not_mem hp
    -- sources stand lower, so the cell of this resolver is not theirs
    have hask : ∀ x ∈ F.lookupOrder p name, ∀ s, F.askInCells p name x ⟨s, (p, name) :: c.empty⟩ =
        onState (F.ask (F.runCall 0) p name x) ⟨s, (p, name) :: c.empty⟩ := by
      intro x hx s
      rcases mem_lookupOrder hx with rfl | ⟨index, e, rfl, -⟩
      · cases hq : F.source p ((F.resolver p).policy.modeFor name) with
        | nothing => rfl
        | table owner symbols => rfl
        | resolver q =>
          have hrank : q.rank < p.rank := rank_source hq
          have hresolve := ih q _ hq (c := ⟨s, (p, name) :: c.empty⟩) fun r hr hmem => by
            rcases List.mem_cons.1 hmem with heq | hmem
            · have hrp : r = p := congrArg Prod.fst heq
              rw [hrp] at hr
              omega
            · exact h r (by omega) hmem
          simp only [askInCells, ask, askSource, hresolve, onState, orNothing_fst, orNothing_snd,
            resolve]
      · rfl
    rw [resolveInCells_eq_askInOrder, onState, resolve, resolveWith_eq_askInOrder, resolveBy]
    cases (c.state.resolver p).released with
    | true => rfl
    | false =>
      cases (c.state.resolver p).cached? name with
      | some symbol => rfl
      | none =>
        simp only [Bool.false_eq_true, if_false, Cells.put, hput]
        rw [askInOrder_onState hask, onState]
        rcases askInOrder ((F.lookupOrder p name).map (F.ask (F.runCall 0) p name)) c.state with
          ⟨s₁, fault | (_ | symbol)⟩
        all_goals simp only [Cells.take, Cells.fill, List.erase_cons_head]

end TierIsolation.Forest
