import TierIsolation.Forest.Resolution
import TierIsolation.Proofs.Forest.Reference

/-!
# Runs of a forest

A run carries out operations on the resolvers of a forest one after the other (`Forest.run`). What
holds at the start and is kept by every operation holds after the run (`run_induction`).

`resolveWith_eq` says what a resolution is in one step: a search of the own entries, and a question
to the source (`askSource`), in the order of the mode.
-/

namespace TierIsolation.Forest

variable (F : Forest)

/-! ## Operations -/

/-- What can be done with the resolvers of a forest. -/
inductive Operation
  | resolve (p : Place) (name : String)
  | tryResolve (p : Place) (name : String)
  | release (p : Place)
  deriving DecidableEq, Repr

/-- Does the operation release a resolver? -/
def Operation.isRelease : Operation → Bool
  | release _ => true
  | _ => false

/-- The state after an operation. -/
def perform (depth : Nat) (s : State) : Operation → State
  | .resolve p name => (F.resolve depth p name s).1
  | .tryResolve p name => (F.tryResolve depth p name s).1
  | .release p => (F.release p s).1

/-- The state after operations, one after the other. -/
def run (depth : Nat) (operations : List Operation) (s : State) : State :=
  operations.foldl (F.perform depth) s

theorem run_induction {F : Forest} {depth : Nat} {P : State → Prop}
    {operations : List Operation} {s : State} (h : P s)
    (hstep : ∀ o ∈ operations, ∀ s, P s → P (F.perform depth s o)) :
    P (F.run depth operations s) := by
  induction operations generalizing s with
  | nil => exact h
  | cons o rest ih =>
    exact ih (hstep o List.mem_cons_self s h) fun o ho => hstep o (List.mem_cons_of_mem _ ho)

/-! ## Resolution in one step -/

/-- Whether a fault only says that nothing was found, the state is the same. -/
@[simp] theorem orNothing_fst (o : Outcome Symbol) : (orNothing o).1 = o.1 := by
  obtain ⟨s, r⟩ := o
  cases r with
  | ok symbol => rfl
  | error fault => cases h : fault.isNotFound <;> simp [orNothing, h]

theorem orNothing_snd (o : Outcome Symbol) : (orNothing o).2 = orAbsent o.2 := by
  obtain ⟨s, r⟩ := o
  cases r with
  | ok symbol => rfl
  | error fault => cases fault <;> rfl

@[simp] theorem tryResolve_fst (depth : Nat) (p : Place) (name : String) (s : State) :
    (F.tryResolve depth p name s).1 = (F.resolve depth p name s).1 :=
  orNothing_fst _

/-- Asks a source for a name. -/
def askSource (call : Call → State → State) (name : String) :
    Source → State → Outcome (Option Symbol)
  | .nothing => fun s => (s, .ok none)
  | .table host symbols => fun s => (s, .ok ((symbols.get? name).map (Host.symbol host name)))
  | .resolver q => fun s => orNothing (F.resolveWith call q name s)

theorem resolveWith_eq (call : Call → State → State) (p : Place) (name : String) :
    F.resolveWith call p name =
      F.resolveBy p name (searchBy ((F.resolver p).policy.modeFor name)
        (F.askSource call name (F.source p ((F.resolver p).policy.modeFor name)))
        (F.searchOwn call p name)) := by
  rw [resolveWith]
  dsimp only
  congr 2
  split <;> simp_all [askSource]

/-- A released resolver refuses. -/
theorem resolve_of_released {depth : Nat} {p : Place} {name : String} {s : State}
    (h : (s.resolver p).released = true) :
    F.resolve depth p name s = (s, .error (.released (F.resolver p).name)) := by
  rw [resolve, resolveWith_eq, resolveBy, if_pos h]

/-- What was resolved before needs no search. -/
theorem resolve_of_cached {depth : Nat} {p : Place} {name : String} {s : State} {symbol : Symbol}
    (hlive : (s.resolver p).released = false)
    (h : (s.resolver p).cached? name = some symbol) :
    F.resolve depth p name s = (s, .ok symbol) := by
  simp [resolve, resolveWith_eq, resolveBy, hlive, h]

/-- To resolve a name changes nothing, or what the search changes; what was found is remembered. -/
theorem resolveBy_cases (p : Place) (name : String) (search : State → Outcome (Option Symbol))
    (s : State) :
    (F.resolveBy p name search s).1 = s ∨
    (∀ symbol, (search s).2 ≠ .ok (some symbol)) ∧
      (F.resolveBy p name search s).1 = (search s).1 ∨
    ∃ symbol, (search s).2 = .ok (some symbol) ∧ F.resolveBy p name search s =
      ((search s).1.update p (·.remember name symbol), .ok symbol) := by
  unfold resolveBy
  split
  · exact .inl rfl
  · split
    · exact .inl rfl
    · rcases search s with ⟨s₁, fault | (_ | symbol)⟩
      · exact .inr (.inl ⟨by rintro symbol ⟨⟩, rfl⟩)
      · exact .inr (.inl ⟨by rintro symbol ⟨⟩, rfl⟩)
      · exact .inr (.inr ⟨symbol, rfl, rfl⟩)

/-- A host is asked as any other source. -/
theorem hostLookup_eq (depth k : Nat) (name : String) :
    F.hostLookup depth k name = F.askSource (F.runCall depth) name (F.hostSource k) := by
  funext s
  unfold hostLookup
  split <;> simp_all [askSource, tryResolve, resolve]

end TierIsolation.Forest
