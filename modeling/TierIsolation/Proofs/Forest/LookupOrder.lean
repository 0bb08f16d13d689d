import TierIsolation.Proofs.Forest.Run

/-!
# The order of a look-up

To find a name a resolver asks its own entries and its source one after the other, in an order that
its policy settles (`Forest.lookupOrder`), until one of them has the name or fails
(`resolveWith_eq_askInOrder`). Who is asked gets to speak only if all before had nothing
(`askInOrder_append`, `askInOrder_eq_iff`).
-/

namespace TierIsolation

/-- Elsewhere and one's own in the order of a mode. -/
def LookupMode.order {α : Type} (mode : LookupMode) (elsewhere : α) (own : List α) : List α :=
  match mode with
  | .parentOnly => [elsewhere]
  | .parentFirst => elsewhere :: own
  | .selfFirst => own ++ [elsewhere]

theorem LookupMode.mem_order {α : Type} {mode : LookupMode} {elsewhere x : α} {own : List α}
    (h : x ∈ mode.order elsewhere own) : x = elsewhere ∨ x ∈ own := by
  cases mode with
  | parentOnly => exact .inl (List.mem_singleton.1 h)
  | parentFirst => exact List.mem_cons.1 h
  | selfFirst =>
    rcases List.mem_append.1 h with h | h
    · exact .inr h
    · exact .inl (List.mem_singleton.1 h)

theorem LookupMode.map_order {α β : Type} (f : α → β) (mode : LookupMode) (elsewhere : α)
    (own : List α) : (mode.order elsewhere own).map f = mode.order (f elsewhere) (own.map f) := by
  cases mode <;> simp [order]

namespace Forest

variable (F : Forest)

/-- One of those that a resolver asks for a name. -/
inductive Asked
  /-- The entry at a position of its own search path. -/
  | entry (index : Nat) (e : Entry)
  /-- Where it turns if not to its own entries. -/
  | source (x : Source)

/-- The entries of a resolver, each with its position. -/
def ownEntries (p : Place) : List Asked :=
  (F.resolver p).searchPath.zipIdx.map fun x => .entry x.2 x.1

/-- All that a resolver asks for a name, in this order. -/
def lookupOrder (p : Place) (name : String) : List Asked :=
  let mode := (F.resolver p).policy.modeFor name
  mode.order (.source (F.source p mode)) (F.ownEntries p)

/-- Asks an entry or a source. -/
def ask (call : Call → State → State) (p : Place) (name : String) :
    Asked → State → Outcome (Option Symbol)
  | .entry index e => fun s =>
    match F.handleAt call p index e s with
    | (s, .error fault) => (s, .error fault)
    | (s, .ok h) =>
      match F.readFrom call p h e (Symbol.path name (F.resolver p).suffix) s with
      | (s, .error fault) => (s, .error fault)
      | (s, .ok found) => (s, .ok (found.map (⟨name, e, (F.resolver p).name, ·⟩)))
  | .source x => F.askSource call name x

/-- Asks one after the other, until one has something or fails. -/
def askInOrder {σ : Type} :
    List (σ → σ × Except ResolutionFault (Option Symbol)) →
      σ → σ × Except ResolutionFault (Option Symbol)
  | [], s => (s, .ok none)
  | first :: rest, s =>
    match first s with
    | (s, .ok none) => askInOrder rest s
    | found => found

variable {F} {call : Call → State → State} {p : Place} {name : String}

/-- A resolver asks only the entries of its own search path, and its source. -/
theorem mem_lookupOrder {x : Asked} (h : x ∈ F.lookupOrder p name) :
    x = .source (F.source p ((F.resolver p).policy.modeFor name)) ∨
      ∃ index e, x = .entry index e ∧ (F.resolver p).searchPath[index]? = some e := by
  rcases LookupMode.mem_order h with h | h
  · exact .inl h
  · obtain ⟨y, hy, rfl⟩ := List.mem_map.1 h
    exact .inr ⟨y.2, y.1, rfl, List.mem_zipIdx_iff_getElem?.1 hy⟩

/-! ## Asking in order -/

section

variable {σ : Type} {xs ys : List (σ → σ × Except ResolutionFault (Option Symbol))}
  {x : σ → σ × Except ResolutionFault (Option Symbol)} {s t : σ} {fault : ResolutionFault}

@[simp] theorem askInOrder_singleton : askInOrder [x] = x := by
  funext s
  rw [askInOrder]
  split
  · rename_i s₁ h
    exact h.symm
  · rfl

/-- Those before have nothing: then it is the turn of the others. -/
theorem askInOrder_append (h : askInOrder xs s = (t, .ok none)) :
    askInOrder (xs ++ ys) s = askInOrder ys t := by
  induction xs generalizing s with
  | nil =>
    cases h
    rfl
  | cons first rest ih =>
    rw [askInOrder] at h
    rw [List.cons_append, askInOrder]
    split at h
    · exact ih h
    · rename_i found hnot
      rw [h] at hnot
      exact absurd rfl (hnot t)

/-- Asking in order ends with something, or with a fault, exactly if asking one of them does after
all before had nothing. -/
theorem askInOrder_eq_iff {found : Except ResolutionFault (Option Symbol)}
    (hfound : found ≠ .ok none) :
    askInOrder xs s = (t, found) ↔ ∃ before x after s₁, xs = before ++ x :: after ∧
      askInOrder before s = (s₁, .ok none) ∧ x s₁ = (t, found) := by
  constructor
  · intro h
    induction xs generalizing s with
    | nil =>
      rw [askInOrder, Prod.mk.injEq] at h
      exact absurd h.2.symm hfound
    | cons first rest ih =>
      rw [askInOrder] at h
      split at h
      · rename_i s₁ hf
        obtain ⟨before, x, after, s₂, rfl, hbefore, hx⟩ := ih h
        refine ⟨first :: before, x, after, s₂, rfl, ?_, hx⟩
        rw [askInOrder, hf]
        exact hbefore
      · exact ⟨[], first, rest, s, rfl, rfl, h⟩
  · rintro ⟨before, x, after, s₁, rfl, hbefore, hx⟩
    rw [askInOrder_append hbefore, askInOrder, hx]
    split
    · rename_i s₂ hnone
      exact absurd (Prod.ext_iff.1 hnone).2 hfound
    · rfl

/-- Asking in order fails exactly if one fails after all before had nothing. -/
theorem askInOrder_eq_error_iff :
    askInOrder xs s = (t, .error fault) ↔ ∃ before x after s₁, xs = before ++ x :: after ∧
      askInOrder before s = (s₁, .ok none) ∧ x s₁ = (t, .error fault) :=
  askInOrder_eq_iff (by simp)

/-- What comes about while asking in order comes about as one of them is asked. -/
theorem askInOrder_imp {P : σ → Prop} (h : P (askInOrder xs s).1) :
    P s ∨ ∃ before x after s₁, xs = before ++ x :: after ∧
      askInOrder before s = (s₁, .ok none) ∧ ¬ P s₁ ∧ P (x s₁).1 := by
  induction xs generalizing s with
  | nil => exact .inl h
  | cons first rest ih =>
    by_cases hs : P s
    · exact .inl hs
    refine .inr ?_
    rw [askInOrder] at h
    split at h
    · rename_i s₁ hf
      rcases ih h with h | ⟨before, x, after, s₂, rfl, hbefore, hnot, hx⟩
      · exact ⟨[], first, rest, s, rfl, rfl, hs, by rwa [hf]⟩
      · refine ⟨first :: before, x, after, s₂, rfl, ?_, hnot, hx⟩
        rw [askInOrder, hf]
        exact hbefore
    · exact ⟨[], first, rest, s, rfl, rfl, hs, h⟩

end

/-! ## The search of a resolver -/

theorem askInOrder_cons_eq_orElse (first : State → Outcome (Option Symbol))
    (rest : List (State → Outcome (Option Symbol))) :
    askInOrder (first :: rest) = orElse first (askInOrder rest) := by
  funext s
  rw [askInOrder, orElse]
  rcases first s with ⟨s₁, fault | (_ | symbol)⟩ <;> rfl

theorem askInOrder_append_eq_orElse (xs ys : List (State → Outcome (Option Symbol))) :
    askInOrder (xs ++ ys) = orElse (askInOrder xs) (askInOrder ys) := by
  induction xs with
  | nil => rfl
  | cons first rest ih =>
    rw [List.cons_append, askInOrder_cons_eq_orElse, askInOrder_cons_eq_orElse, ih]
    funext s
    simp only [orElse]
    split
    · rfl
    · rename_i found hnot
      split
      · rename_i s₁ h
        exact absurd h (hnot s₁)
      · rfl

theorem searchEntries_eq_askInOrder (index : Nat) (entries : List Entry) :
    F.searchEntries call p name (Symbol.path name (F.resolver p).suffix) index entries =
      askInOrder (((entries.zipIdx index).map fun x => Asked.entry x.2 x.1).map
        (F.ask call p name)) := by
  induction entries generalizing index with
  | nil => rfl
  | cons e rest ih =>
    funext s
    rw [List.zipIdx_cons, List.map_cons, List.map_cons, askInOrder, searchEntries]
    simp only [ask]
    rcases F.handleAt call p index e s with ⟨s₁, fault | h⟩
    · rfl
    · simp only
      rcases F.readFrom call p h e (Symbol.path name (F.resolver p).suffix) s₁ with
        ⟨s₂, fault | found⟩
      · rfl
      · cases found with
        | some bytes => rfl
        | none => exact congrFun (ih (index + 1)) s₂

/-- A resolution asks all in the order of the look-up. -/
theorem resolveWith_eq_askInOrder (call : Call → State → State) (p : Place) (name : String) :
    F.resolveWith call p name =
      F.resolveBy p name (askInOrder ((F.lookupOrder p name).map (F.ask call p name))) := by
  have hown : F.searchOwn call p name = askInOrder ((F.ownEntries p).map (F.ask call p name)) :=
    searchEntries_eq_askInOrder 0 _
  rw [resolveWith_eq, lookupOrder, LookupMode.map_order, hown]
  cases (F.resolver p).policy.modeFor name with
  | parentOnly =>
    rw [LookupMode.order, askInOrder_singleton]
    rfl
  | parentFirst =>
    rw [LookupMode.order, askInOrder_cons_eq_orElse]
    rfl
  | selfFirst =>
    rw [LookupMode.order, askInOrder_append_eq_orElse, askInOrder_singleton]
    rfl

end Forest

end TierIsolation
