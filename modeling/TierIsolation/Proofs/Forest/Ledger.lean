import Mathlib.Data.List.Nodup
import Mathlib.Data.List.Perm.Subperm
import Mathlib.Logic.Relation
import TierIsolation.Forest.Resolution

/-!
# Where every handle is

A `Ledger` says of every handle which resolver it was opened for, and which resolver released it.
Between the two a handle stands in the table of its resolver, or it is *loose*: just opened, or just
taken out of the table, and about to be held or released. `Forest.Step` is one such move of one
handle, together with what it does to the state of the forest; `Forest.Steps` is any number of them,
in any order and by any resolvers.

* `Balanced`: the handles opened for a resolver are those it released, those it holds and its loose
  ones, none of them twice.
* `Step.balanced`, `Steps.balanced`: every move keeps the balance.
-/

namespace TierIsolation.Forest

open scoped List

/-- A handle, with the resolver it was opened for and the position of its entry on the search path
of that resolver. -/
structure Tenure where
  place : Place
  index : Nat
  handle : Handle

/-- What became of the handles, newest first. -/
structure Ledger where
  opened : List Tenure := []
  released : List Tenure := []
  /-- Opened or taken out of a table, and neither held nor released yet. -/
  loose : List Tenure := []

/-- Those that belong to one resolver. -/
def ofPlace (p : Place) (xs : List Tenure) : List Tenure := xs.filter (·.place = p)

/-- The handles in the table of a resolver. -/
def State.tenures (s : State) (p : Place) : List Tenure :=
  (s.resolver p).handles.map fun x => ⟨p, x.1, x.2⟩

/-! ## Moves -/

/-- One move of one handle, or anything else that leaves all handles where they are. -/
inductive Step (F : Forest) : State × Ledger → State × Ledger → Prop
  | opened {s : State} {l : Ledger} {x : Tenure} :
      (F.resolver x.place).searchPath[x.index]? = some x.handle.entry →
      x.handle.number = s.history.opens → x.handle.place = x.place →
      Step F (s, l) (s.record (.opened x.handle),
        { l with opened := x :: l.opened, loose := x :: l.loose })
  /-- A loose handle is put into the table of a resolver that is not released and holds no other
  handle for this position. -/
  | held {s : State} {l : Ledger} {x : Tenure} {rest : List Tenure} :
      l.loose.Perm (x :: rest) → (s.resolver x.place).released = false →
      (s.resolver x.place).handle? x.index = none →
      Step F (s, l) (s.update x.place (·.hold x.index x.handle), { l with loose := rest })
  | released {s : State} {l : Ledger} {x : Tenure} {rest : List Tenure} (failed : Bool) :
      l.loose.Perm (x :: rest) →
      Step F (s, l) (s.record (.released x.handle failed),
        { l with released := x :: l.released, loose := rest })
  /-- A resolver is released: from now on all that it held is loose. -/
  | emptied {s : State} {l : Ledger} (p : Place) :
      Step F (s, l) (s.update p ResolverState.release, { l with loose := s.tenures p ++ l.loose })
  /-- An entry is read, or fails to open or to be read. -/
  | noted {s : State} {l : Ledger} {e : Event} : (∀ h, e ≠ .opened h) →
      (∀ h failed, e ≠ .released h failed) → Step F (s, l) (s.record e, l)
  | remembered {s : State} {l : Ledger} (p : Place) (name : String) (symbol : Symbol) :
      Step F (s, l) (s.update p (·.remember name symbol), l)

/-- Moves one after the other. -/
def Steps (F : Forest) : State × Ledger → State × Ledger → Prop := Relation.ReflTransGen (Step F)

/-! ## Handles of one resolver -/

theorem ofPlace_cons_self (x : Tenure) (xs : List Tenure) :
    ofPlace x.place (x :: xs) = x :: ofPlace x.place xs := by simp [ofPlace]

theorem ofPlace_cons_other {p : Place} {x : Tenure} (h : x.place ≠ p) (xs : List Tenure) :
    ofPlace p (x :: xs) = ofPlace p xs := by simp [ofPlace, h]

theorem ofPlace_append (p : Place) (xs ys : List Tenure) :
    ofPlace p (xs ++ ys) = ofPlace p xs ++ ofPlace p ys := by simp [ofPlace]

theorem ofPlace_perm {p : Place} {xs ys : List Tenure} (h : xs.Perm ys) :
    (ofPlace p xs).Perm (ofPlace p ys) := h.filter _

variable {s : State} {p q : Place}

theorem place_of_mem_tenures {x : Tenure} (h : x ∈ s.tenures p) : x.place = p := by
  obtain ⟨y, -, rfl⟩ := List.mem_map.1 h
  rfl

theorem ofPlace_tenures_self : ofPlace p (s.tenures p) = s.tenures p :=
  List.filter_eq_self.2 fun _ h => decide_eq_true (place_of_mem_tenures h)

theorem ofPlace_tenures_other (h : q ≠ p) : ofPlace p (s.tenures q) = [] :=
  List.filter_eq_nil_iff.2 fun x hx => by simpa [place_of_mem_tenures hx] using h

theorem length_tenures : (s.tenures p).length = (s.resolver p).handles.length := by
  simp [State.tenures]

theorem tenures_update_other (f : ResolverState → ResolverState) (h : q ≠ p) :
    (s.update q f).tenures p = s.tenures p := by
  rw [State.tenures, State.update_other s f h.symm]
  rfl

theorem tenures_hold {i : Nat} {h : Handle} (hi : (s.resolver p).handle? i = none) :
    ((s.update p (·.hold i h)).tenures p).Perm (⟨p, i, h⟩ :: s.tenures p) := by
  simp only [State.tenures, State.update_same]
  exact (Increasing.perm_insert hi).map _

/-! ## Balance -/

/-- Everything that was opened is in one place: released, held in a table, or loose. -/
structure Balanced (F : Forest) (c : State × Ledger) : Prop where
  numbers : c.2.opened.map (·.handle.number) = (List.range c.1.history.opens).reverse
  releases : (c.2.released.map (·.handle)).reverse = c.1.history.released
  entries : ∀ x ∈ c.2.opened, (F.resolver x.place).searchPath[x.index]? = some x.handle.entry
  places : ∀ x ∈ c.2.opened, x.handle.place = x.place
  shares : ∀ p, (ofPlace p c.2.opened).Perm
    (ofPlace p c.2.released ++ (c.1.tenures p ++ ofPlace p c.2.loose))
  increasing : ∀ p, Increasing.ByKey Prod.fst (c.1.resolver p).handles
  emptied : ∀ p, (c.1.resolver p).released = true → (c.1.resolver p).handles = []

variable {F : Forest} {c c' : State × Ledger}

theorem Balanced.start (F : Forest) : Balanced F ({}, {}) where
  numbers := rfl
  releases := rfl
  entries _ h := by cases h
  places _ h := by cases h
  shares _ := .refl _
  increasing _ := .nil
  emptied _ _ := rfl

/-- An event that opens and releases nothing leaves every handle where it is. -/
theorem Balanced.record (h : Balanced F c) {e : Event} (ho : ∀ h, e ≠ .opened h)
    (hr : ∀ h failed, e ≠ .released h failed) : Balanced F (c.1.record e, c.2) := by
  have hopens : History.opens (e :: c.1.history) = c.1.history.opens := by
    rw [History.opens_cons]
    cases e with
    | opened h => exact absurd rfl (ho h)
    | _ => rfl
  have hreleased : History.released (e :: c.1.history) = c.1.history.released := by
    rw [History.released_cons]
    cases e with
    | released h failed => exact absurd rfl (hr h failed)
    | _ => exact List.append_nil _
  constructor
  case numbers => exact h.numbers.trans (by rw [← hopens]; rfl)
  case releases => exact h.releases.trans hreleased.symm
  case entries => exact h.entries
  case places => exact h.places
  case shares => exact h.shares
  case increasing => exact h.increasing
  case emptied => exact h.emptied

/-- An entry that is opened gives a loose handle. -/
theorem Balanced.opened (h : Balanced F c) {x : Tenure}
    (he : (F.resolver x.place).searchPath[x.index]? = some x.handle.entry)
    (hn : x.handle.number = c.1.history.opens) (hplace : x.handle.place = x.place) :
    Balanced F (c.1.record (.opened x.handle),
      { c.2 with opened := x :: c.2.opened, loose := x :: c.2.loose }) := by
  constructor
  case numbers =>
    simp only [State.history_record, History.opens_cons, List.range_succ, List.reverse_append,
      List.map_cons, h.numbers, hn]
    rfl
  case releases =>
    rw [State.history_record, History.released_cons, List.append_nil]
    exact h.releases
  case entries =>
    intro y hy
    rcases List.mem_cons.1 hy with rfl | hy
    · exact he
    · exact h.entries y hy
  case places =>
    intro y hy
    rcases List.mem_cons.1 hy with rfl | hy
    · exact hplace
    · exact h.places y hy
  case shares =>
    intro p
    by_cases hp : x.place = p
    · subst hp
      simp only [ofPlace_cons_self]
      refine ((h.shares x.place).cons x).trans ?_
      rw [← List.append_assoc, ← List.append_assoc]
      exact List.perm_middle.symm
    · simp only [ofPlace_cons_other hp]
      exact h.shares p
  case increasing => exact h.increasing
  case emptied => exact h.emptied

/-- A loose handle goes into a table. -/
theorem Balanced.held (h : Balanced F c) {x : Tenure} {rest : List Tenure}
    (hx : c.2.loose.Perm (x :: rest)) (hlive : (c.1.resolver x.place).released = false)
    (hfree : (c.1.resolver x.place).handle? x.index = none) :
    Balanced F (c.1.update x.place (·.hold x.index x.handle), { c.2 with loose := rest }) := by
  constructor
  case numbers => exact h.numbers
  case releases => exact h.releases
  case entries => exact h.entries
  case places => exact h.places
  case shares =>
    intro p
    refine (h.shares p).trans (.append_left _ ?_)
    have hloose := ofPlace_perm (p := p) hx
    by_cases hp : x.place = p
    · subst hp
      rw [ofPlace_cons_self] at hloose
      calc c.1.tenures x.place ++ ofPlace x.place c.2.loose
        _ ~ c.1.tenures x.place ++ x :: ofPlace x.place rest := hloose.append_left _
        _ ~ x :: c.1.tenures x.place ++ ofPlace x.place rest := List.perm_middle
        _ ~ _ := (tenures_hold hfree).symm.append_right _
    · rw [ofPlace_cons_other hp] at hloose
      rw [tenures_update_other _ hp]
      exact hloose.append_left _
  case increasing =>
    exact State.forall_update (P := fun _ r => Increasing.ByKey Prod.fst r.handles)
      (f := (·.hold x.index x.handle)) (Increasing.byKey_insert (h.increasing x.place))
      h.increasing
  case emptied =>
    refine State.forall_update (P := fun _ r => r.released = true → r.handles = [])
      (f := (·.hold x.index x.handle)) (fun hreleased => ?_) h.emptied
    rw [ResolverState.released_hold, hlive] at hreleased
    cases hreleased

/-- A loose handle is released. -/
theorem Balanced.released (h : Balanced F c) {x : Tenure} {rest : List Tenure} (failed : Bool)
    (hx : c.2.loose.Perm (x :: rest)) :
    Balanced F (c.1.record (.released x.handle failed),
      { c.2 with released := x :: c.2.released, loose := rest }) := by
  constructor
  case numbers => exact h.numbers
  case releases =>
    rw [State.history_record, History.released_cons, ← h.releases]
    simp
  case entries => exact h.entries
  case places => exact h.places
  case shares =>
    intro p
    refine (h.shares p).trans ?_
    have hloose := ofPlace_perm (p := p) hx
    by_cases hp : x.place = p
    · subst hp
      rw [ofPlace_cons_self] at hloose ⊢
      rw [← List.append_assoc]
      refine (hloose.append_left _).trans (List.perm_middle.trans ?_)
      rw [List.append_assoc]
      exact .refl _
    · rw [ofPlace_cons_other hp] at hloose ⊢
      exact (hloose.append_left _).append_left _
  case increasing => exact h.increasing
  case emptied => exact h.emptied

/-- All that a resolver holds becomes loose. -/
theorem Balanced.empty (h : Balanced F c) (p : Place) :
    Balanced F (c.1.update p ResolverState.release,
      { c.2 with loose := c.1.tenures p ++ c.2.loose }) := by
  constructor
  case numbers => exact h.numbers
  case releases => exact h.releases
  case entries => exact h.entries
  case places => exact h.places
  case shares =>
    intro q
    refine (h.shares q).trans (.append_left _ ?_)
    rw [ofPlace_append]
    by_cases hq : p = q
    · subst hq
      have hnone : (c.1.update p ResolverState.release).tenures p = [] := by
        simp [State.tenures, ResolverState.release]
      rw [ofPlace_tenures_self, hnone]
      exact .refl _
    · rw [ofPlace_tenures_other hq, tenures_update_other _ hq]
      exact .refl _
  case increasing =>
    exact State.forall_update (P := fun _ r => Increasing.ByKey Prod.fst r.handles)
      (f := ResolverState.release) .nil h.increasing
  case emptied =>
    exact State.forall_update (P := fun _ r => r.released = true → r.handles = [])
      (f := ResolverState.release) (fun _ => rfl) h.emptied

/-- Remembering a symbol leaves every handle where it is. -/
theorem Balanced.remember (h : Balanced F c) (p : Place) (name : String) (symbol : Symbol) :
    Balanced F (c.1.update p (·.remember name symbol), c.2) := by
  have hhandles := State.keep_update ResolverState.handles (f := (·.remember name symbol))
    (fun r => r.handles_remember name symbol) c.1 p
  have hreleased := State.keep_update ResolverState.released (f := (·.remember name symbol))
    (fun r => r.released_remember name symbol) c.1 p
  constructor
  case numbers => exact h.numbers
  case releases => exact h.releases
  case entries => exact h.entries
  case places => exact h.places
  case shares =>
    intro q
    rw [State.tenures, hhandles q]
    exact h.shares q
  case increasing => exact fun q => (hhandles q) ▸ h.increasing q
  case emptied =>
    intro q hr
    rw [hreleased q] at hr
    exact (hhandles q).trans (h.emptied q hr)

/-- Every move keeps the balance. -/
theorem Step.balanced (h : Step F c c') (hb : Balanced F c) : Balanced F c' := by
  cases h with
  | opened he hn hplace => exact hb.opened he hn hplace
  | held hx hlive hfree => exact hb.held hx hlive hfree
  | released failed hx => exact hb.released failed hx
  | emptied p => exact hb.empty p
  | noted ho hr => exact hb.record ho hr
  | remembered p name symbol => exact hb.remember p name symbol

theorem Steps.balanced (h : Steps F c c') (hb : Balanced F c) : Balanced F c' := by
  induction h with
  | refl => exact hb
  | tail _ hstep ih => exact hstep.balanced ih

/-! ## What the balance comes to -/

section

variable (h : Balanced F c)
include h

/-- Whatever was released was opened, and is released as often as it was opened at most. -/
theorem Balanced.released_subperm : c.2.released <+~ c.2.opened := by
  classical
  refine List.subperm_iff_count.2 fun x => ?_
  -- all that is `x` belongs to the place of `x`
  have hcount : ∀ xs, (ofPlace x.place xs).count x = xs.count x := fun xs =>
    List.count_filter (decide_eq_true rfl)
  rw [← hcount c.2.released, ← hcount c.2.opened]
  exact ((List.sublist_append_left _ _).subperm.trans (h.shares x.place).symm.subperm).count_le x

theorem Balanced.nodup_released : (c.1.history.released.map (·.number)).Nodup := by
  have hopened : (c.2.opened.map (·.handle.number)).Nodup := by
    rw [h.numbers]
    exact List.nodup_reverse.2 List.nodup_range
  obtain ⟨xs, hperm, hsub⟩ := h.released_subperm
  have hreleased : (c.2.released.map (·.handle.number)).Nodup :=
    (hperm.map _).nodup_iff.1 ((hsub.map _).nodup hopened)
  rw [← h.releases, List.map_reverse, List.map_map]
  exact List.nodup_reverse.2 hreleased

/-- The positions of the held handles are different. -/
theorem Balanced.nodup_handles (p : Place) : ((c.1.resolver p).handles.map (·.1)).Nodup := by
  refine List.pairwise_map.2 ((h.increasing p).imp fun {x y} hlt heq => ?_)
  have hself : compare y.1 y.1 = .eq := Std.ReflCmp.compare_self
  rw [heq, hself] at hlt
  cases hlt

/-- A held handle was opened. -/
theorem Balanced.held_opened {p : Place} {x : Nat × Handle} (hx : x ∈ (c.1.resolver p).handles) :
    ⟨p, x.1, x.2⟩ ∈ c.2.opened := by
  have hheld : (⟨p, x.1, x.2⟩ : Tenure) ∈ c.1.tenures p := List.mem_map_of_mem hx
  have hopened := (h.shares p).mem_iff.2
    (List.mem_append_right _ (List.mem_append_left _ hheld))
  exact (List.mem_filter.1 hopened).1

/-- A held handle is that of an entry of the search path. -/
theorem Balanced.held_entry {p : Place} {x : Nat × Handle} (hx : x ∈ (c.1.resolver p).handles) :
    (F.resolver p).searchPath[x.1]? = some x.2.entry := h.entries _ (h.held_opened hx)

/-- A resolver holds only what was opened for it. -/
theorem Balanced.held_place {p : Place} {x : Nat × Handle} (hx : x ∈ (c.1.resolver p).handles) :
    x.2.place = p := h.places _ (h.held_opened hx)

end

end TierIsolation.Forest
