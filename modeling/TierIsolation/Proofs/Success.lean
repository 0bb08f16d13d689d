import Mathlib.Data.List.Forall2
import Mathlib.Data.List.Perm.Basic

/-!
# Computations that succeed or fail

A computation in `Except` that is put together from others succeeds exactly if its parts do.
`Except.bind_eq_ok`, `Except.mapError_eq_ok` and `Except.mapM_eq_ok` take such a success apart;
`Except.exists_mapM_perm` carries it over to another order.

Otherwise it fails with the fault of the first part that does (`Except.fault?`).
-/

namespace Except

variable {ε ε' α β : Type}

theorem bind_eq_ok {x : Except ε α} {f : α → Except ε β} {b : β} :
    (x >>= f) = .ok b ↔ ∃ a, x = .ok a ∧ f a = .ok b := by
  cases x with
  | error e => simp [bind, Except.bind]
  | ok a => simp [bind, Except.bind]

theorem pure_eq_ok {a b : α} : (pure a : Except ε α) = .ok b ↔ a = b := by
  simp [pure, Except.pure]

theorem throw_ne_ok {e : ε} {a : α} : (throw e : Except ε α) ≠ .ok a := by
  simp [throw, throwThe, MonadExceptOf.throw]

theorem toOption_eq_some {x : Except ε α} {a : α} : x.toOption = some a ↔ x = .ok a := by
  cases x with
  | error e => simp [Except.toOption]
  | ok b => simp [Except.toOption]

theorem map_eq_ok {x : Except ε α} {f : α → β} {b : β} :
    x.map f = .ok b ↔ ∃ a, x = .ok a ∧ f a = b := by
  cases x with
  | error e => simp [Except.map]
  | ok a => simp [Except.map]

theorem map_eq_error {x : Except ε α} {f : α → β} {e : ε} : x.map f = .error e ↔ x = .error e := by
  cases x with
  | error e => simp [Except.map]
  | ok a => simp [Except.map]

theorem mapError_eq_ok {x : Except ε α} {f : ε → ε'} {a : α} :
    x.mapError f = .ok a ↔ x = .ok a := by
  cases x with
  | error e => simp [Except.mapError]
  | ok b => simp [Except.mapError]

/-- A list of computations succeeds if each of them does. -/
theorem mapM_eq_ok {f : α → Except ε β} {xs : List α} {ys : List β} :
    xs.mapM f = .ok ys ↔ List.Forall₂ (fun x y => f x = .ok y) xs ys := by
  induction xs generalizing ys with
  | nil => cases ys <;> simp [pure_eq_ok]
  | cons x xs ih =>
    rw [List.mapM_cons, bind_eq_ok]
    simp only [bind_eq_ok, pure_eq_ok, ih]
    constructor
    · rintro ⟨y, hy, ys', hys, rfl⟩
      exact .cons hy hys
    · intro h
      cases h with
      | cons hy hys => exact ⟨_, hy, _, hys, rfl⟩

theorem exists_of_mapM {f : α → Except ε β} {xs : List α} {ys : List β} (h : xs.mapM f = .ok ys)
    {x : α} (hx : x ∈ xs) : ∃ y ∈ ys, f x = .ok y := by
  replace h := mapM_eq_ok.1 h
  induction h with
  | nil => cases hx
  | cons hy _ ih =>
    rcases List.mem_cons.1 hx with rfl | hx
    · exact ⟨_, List.mem_cons_self, hy⟩
    · obtain ⟨y, hm, hy⟩ := ih hx
      exact ⟨y, List.mem_cons_of_mem _ hm, hy⟩

theorem mem_mapM {f : α → Except ε β} {xs : List α} {ys : List β} (h : xs.mapM f = .ok ys)
    {y : β} : y ∈ ys ↔ ∃ x ∈ xs, f x = .ok y := by
  constructor
  · intro hy
    replace h := mapM_eq_ok.1 h
    induction h with
    | nil => cases hy
    | cons hxy _ ih =>
      rcases List.mem_cons.1 hy with rfl | hy
      · exact ⟨_, List.mem_cons_self, hxy⟩
      · obtain ⟨x, hm, hx⟩ := ih hy
        exact ⟨x, List.mem_cons_of_mem _ hm, hx⟩
  · rintro ⟨x, hx, hxy⟩
    obtain ⟨y', hy', hx'⟩ := exists_of_mapM h hx
    rw [hxy] at hx'
    cases hx'
    exact hy'

/-- Results stand where the computations do that gave them. -/
theorem getElem?_mapM {f : α → Except ε β} {xs : List α} {ys : List β} (h : xs.mapM f = .ok ys)
    {i : Nat} {y : β} : ys[i]? = some y ↔ ∃ x, xs[i]? = some x ∧ f x = .ok y := by
  replace h := mapM_eq_ok.1 h
  induction h generalizing i with
  | nil => simp
  | cons hxy _ ih =>
    cases i with
    | zero => simp [hxy]
    | succ i => exact ih

/-- In another order the computations succeed as well, with the results in another order. -/
theorem exists_mapM_perm {f : α → Except ε β} {xs xs' : List α} {ys : List β}
    (h : xs.mapM f = .ok ys) (hperm : xs.Perm xs') : ∃ ys', xs'.mapM f = .ok ys' ∧ ys.Perm ys' := by
  obtain ⟨ys', hys', hp⟩ := List.perm_comp_forall₂ hperm.symm (mapM_eq_ok.1 h)
  exact ⟨ys', mapM_eq_ok.2 hys', hp.symm⟩

/-! ## Faults -/

/-- Why the computation fails, if it does. -/
def fault? : Except ε α → Option ε
  | .error e => some e
  | .ok _ => none

@[simp] theorem fault?_error (e : ε) : (.error e : Except ε α).fault? = some e := rfl

@[simp] theorem fault?_ok (a : α) : (.ok a : Except ε α).fault? = none := rfl

@[simp] theorem fault?_pure (a : α) : (pure a : Except ε α).fault? = none := rfl

theorem fault?_eq_some {x : Except ε α} {e : ε} : x.fault? = some e ↔ x = .error e := by
  cases x <;> simp

theorem fault?_eq_none {x : Except ε α} : x.fault? = none ↔ ∃ a, x = .ok a := by
  cases x <;> simp

theorem fault?_mapError (x : Except ε α) (f : ε → ε') :
    (x.mapError f).fault? = x.fault?.map f := by
  cases x <;> rfl

/-- What is computed next matters if there is a first result, and it may make use of it. -/
theorem fault?_bind {x : Except ε α} {f : α → Except ε β} {next : Option ε}
    (h : ∀ a, x = .ok a → (f a).fault? = next) : (x >>= f).fault? = x.fault?.or next := by
  cases x with
  | error e => rfl
  | ok a => exact h a rfl

theorem fault?_mapM (f : α → Except ε β) (xs : List α) :
    (xs.mapM f).fault? = xs.findSome? fun x => (f x).fault? := by
  induction xs with
  | nil => rfl
  | cons x xs ih =>
    have hrest (y : β) : (xs.mapM f >>= fun ys => pure (y :: ys)).fault? = (xs.mapM f).fault? := by
      rw [fault?_bind fun ys _ => fault?_pure _, Option.or_none]
    rw [List.mapM_cons, fault?_bind fun y _ => hrest y, ih, List.findSome?_cons]
    cases (f x).fault? <;> rfl

end Except
