import TierIsolation.Proofs.Forest.Remembered

/-!
# Threads that resolve one name

Several threads resolve one name at one resolver that is not released (`Flight`). Each fetches the
cell that the cache has under the name, or puts an empty one there. Of those with an empty cell one
searches while the others wait, and what it finds fills the cell. If its search fails, another one
searches, and it takes the cell out of the cache, unless the cell is not there any more or has a
symbol by then.

`Flight.Step` says what a thread does next, and `Flight.step?` does it (`step?_eq_some`).
`resolve_alone`: a thread alone resolves the name as `Forest.resolve` does.
-/

namespace TierIsolation

/-- Where a thread stands. Cells have numbers. -/
inductive Phase
  | idle
  /-- It has a cell that it waits for, or may search for. -/
  | holding (cell : Nat)
  /-- It searches, and the others that have the cell wait. -/
  | searching (cell : Nat)
  /-- Its search failed, and the cell may still be in the cache. -/
  | failed (cell : Nat) (fault : ResolutionFault)
  | done (result : Except ResolutionFault Symbol)

/-- Has the thread nothing to do? -/
def Phase.isFree : Phase → Bool
  | idle => true
  | done _ => true
  | _ => false

/-- What a cell has. -/
inductive Slot
  | empty
  /-- A thread searches for the symbol. -/
  | busy (thread : Nat)
  | full (symbol : Symbol)

def Slot.symbol? : Slot → Option Symbol
  | full symbol => some symbol
  | _ => none

/-- Threads that resolve one name, and the cells that there are for it. -/
structure Flight where
  /-- Where each thread stands. -/
  phase : Nat → Phase := fun _ => .idle
  slot : Nat → Slot := fun _ => .empty
  /-- The cell that the cache has under the name. -/
  cell : Option Nat := none
  /-- The number of cells made so far. -/
  cells : Nat := 0

namespace Flight

/-! ## Steps -/

/-- What a thread does next. -/
inductive Action
  | enter (thread : Nat)
  | start (thread : Nat)
  | succeed (thread : Nat) (symbol : Symbol)
  | fail (thread : Nat) (fault : ResolutionFault)
  | get (thread : Nat)
  | cleanUp (thread : Nat)

/-- The symbol in the cell of the cache. -/
def cached? (s : Flight) : Option Symbol := s.cell.bind fun c => (s.slot c).symbol?

def move (s : Flight) (t : Nat) (x : Phase) : Flight :=
  { s with phase := fun u => if u = t then x else s.phase u }

def fill (s : Flight) (c : Nat) (x : Slot) : Flight :=
  { s with slot := fun d => if d = c then x else s.slot d }

/-- Puts a new cell into the cache. -/
def addCell (s : Flight) : Flight :=
  { s.fill s.cells .empty with cell := some s.cells, cells := s.cells + 1 }

/-- Takes a cell out of the cache, if it is there and has no symbol. -/
def removeCell (s : Flight) (c : Nat) : Flight :=
  if s.cell = some c ∧ (s.slot c).symbol?.isNone then { s with cell := none } else s

/-- The steps of a thread. -/
inductive Step : Flight → Action → Flight → Prop
  /-- It finds a cell under the name. -/
  | fetch {s : Flight} {t c : Nat} (hfree : (s.phase t).isFree = true) (hcell : s.cell = some c) :
      Step s (.enter t) (s.move t (.holding c))
  /-- It finds none, and puts a new one there. -/
  | insert {s : Flight} {t : Nat} (hfree : (s.phase t).isFree = true) (hcell : s.cell = none) :
      Step s (.enter t) (s.addCell.move t (.holding s.cells))
  /-- Nobody searches for its cell, so it does. -/
  | start {s : Flight} {t c : Nat} (ht : s.phase t = .holding c) (hc : s.slot c = .empty) :
      Step s (.start t) ((s.fill c (.busy t)).move t (.searching c))
  | succeed {s : Flight} {t c : Nat} {symbol : Symbol} (ht : s.phase t = .searching c) :
      Step s (.succeed t symbol) ((s.fill c (.full symbol)).move t (.done (.ok symbol)))
  | fail {s : Flight} {t c : Nat} {fault : ResolutionFault} (ht : s.phase t = .searching c) :
      Step s (.fail t fault) ((s.fill c .empty).move t (.failed c fault))
  /-- Its cell has been filled. -/
  | get {s : Flight} {t c : Nat} {symbol : Symbol} (ht : s.phase t = .holding c)
      (hc : s.slot c = .full symbol) : Step s (.get t) (s.move t (.done (.ok symbol)))
  /-- The clean-up looks at the cell, and not at the threads that have it. -/
  | cleanUp {s : Flight} {t c : Nat} {fault : ResolutionFault} (ht : s.phase t = .failed c fault) :
      Step s (.cleanUp t) ((s.removeCell c).move t (.done (.error fault)))

/-- The state after a step, if the thread can make it. -/
def step? (s : Flight) : Action → Option Flight
  | .enter t =>
    if (s.phase t).isFree then
      match s.cell with
      | some c => some (s.move t (.holding c))
      | none => some (s.addCell.move t (.holding s.cells))
    else none
  | .start t =>
    match s.phase t with
    | .holding c =>
      match s.slot c with
      | .empty => some ((s.fill c (.busy t)).move t (.searching c))
      | _ => none
    | _ => none
  | .succeed t symbol =>
    match s.phase t with
    | .searching c => some ((s.fill c (.full symbol)).move t (.done (.ok symbol)))
    | _ => none
  | .fail t fault =>
    match s.phase t with
    | .searching c => some ((s.fill c .empty).move t (.failed c fault))
    | _ => none
  | .get t =>
    match s.phase t with
    | .holding c =>
      match s.slot c with
      | .full symbol => some (s.move t (.done (.ok symbol)))
      | _ => none
    | _ => none
  | .cleanUp t =>
    match s.phase t with
    | .failed c fault => some ((s.removeCell c).move t (.done (.error fault)))
    | _ => none

/-- The state after steps, one after the other. -/
def run? (s : Flight) : List Action → Option Flight
  | [] => some s
  | a :: rest => (s.step? a).bind fun s' => run? s' rest

variable {s s' s'' : Flight} {a : Action} {actions rest : List Action} {t u c d : Nat}
  {x : Symbol}

theorem step?_eq_some : s.step? a = some s' ↔ Step s a s' := by
  constructor
  · intro h
    cases a with
    | enter t =>
      simp only [step?] at h
      split at h
      · rename_i hfree
        split at h
        · rename_i c hcell
          cases h
          exact .fetch hfree hcell
        · rename_i hcell
          cases h
          exact .insert hfree hcell
      · cases h
    | start t =>
      simp only [step?] at h
      split at h
      · split at h
        · cases h
          exact .start ‹_› ‹_›
        · cases h
      · cases h
    | succeed t symbol =>
      simp only [step?] at h
      split at h
      · cases h
        exact .succeed ‹_›
      · cases h
    | fail t fault =>
      simp only [step?] at h
      split at h
      · cases h
        exact .fail ‹_›
      · cases h
    | get t =>
      simp only [step?] at h
      split at h
      · split at h
        · cases h
          exact .get ‹_› ‹_›
        · cases h
      · cases h
    | cleanUp t =>
      simp only [step?] at h
      split at h
      · cases h
        exact .cleanUp ‹_›
      · cases h
  · intro h
    cases h with
    | fetch hfree hcell => simp [step?, hfree, hcell]
    | insert hfree hcell => simp [step?, hfree, hcell]
    | start ht hc => simp [step?, ht, hc]
    | succeed ht => simp [step?, ht]
    | fail ht => simp [step?, ht]
    | get ht hc => simp [step?, ht, hc]
    | cleanUp ht => simp [step?, ht]

theorem run?_cons :
    s.run? (a :: rest) = some s'' ↔ ∃ s', Step s a s' ∧ s'.run? rest = some s'' := by
  simp only [run?, Option.bind_eq_some_iff, step?_eq_some]

theorem run?_append {before after : List Action} (h : s.run? before = some s') :
    s.run? (before ++ after) = s'.run? after := by
  induction before generalizing s with
  | nil =>
    cases h
    rfl
  | cons a rest ih =>
    obtain ⟨s₁, hstep, hrest⟩ := run?_cons.1 h
    rw [List.cons_append, run?, step?_eq_some.2 hstep]
    exact ih hrest

/-! ### What the steps change -/

@[simp] theorem phase_move (x : Phase) :
    (s.move t x).phase u = if u = t then x else s.phase u := rfl

@[simp] theorem slot_move (x : Phase) : (s.move t x).slot = s.slot := rfl

@[simp] theorem cell_move (x : Phase) : (s.move t x).cell = s.cell := rfl

@[simp] theorem cells_move (x : Phase) : (s.move t x).cells = s.cells := rfl

@[simp] theorem phase_fill (x : Slot) : (s.fill c x).phase = s.phase := rfl

@[simp] theorem slot_fill (x : Slot) :
    (s.fill c x).slot d = if d = c then x else s.slot d := rfl

@[simp] theorem cell_fill (x : Slot) : (s.fill c x).cell = s.cell := rfl

@[simp] theorem cells_fill (x : Slot) : (s.fill c x).cells = s.cells := rfl

@[simp] theorem phase_addCell : s.addCell.phase = s.phase := rfl

@[simp] theorem slot_addCell :
    s.addCell.slot d = if d = s.cells then .empty else s.slot d := rfl

@[simp] theorem cell_addCell : s.addCell.cell = some s.cells := rfl

@[simp] theorem cells_addCell : s.addCell.cells = s.cells + 1 := rfl

@[simp] theorem phase_removeCell : (s.removeCell c).phase = s.phase := by
  unfold removeCell
  split <;> rfl

@[simp] theorem slot_removeCell : (s.removeCell c).slot = s.slot := by
  unfold removeCell
  split <;> rfl

@[simp] theorem cells_removeCell : (s.removeCell c).cells = s.cells := by
  unfold removeCell
  split <;> rfl

theorem cell_removeCell : (s.removeCell c).cell =
    if s.cell = some c ∧ (s.slot c).symbol? = none then none else s.cell := by
  simp only [removeCell, Option.isNone_iff_eq_none]
  split <;> rfl

theorem cached?_eq_some : s.cached? = some x ↔ ∃ c, s.cell = some c ∧ s.slot c = .full x := by
  simp only [cached?, Option.bind_eq_some_iff]
  refine exists_congr fun c => and_congr_right fun _ => ?_
  cases s.slot c <;> simp [Slot.symbol?]

@[simp] theorem cached?_move (x : Phase) : (s.move t x).cached? = s.cached? := rfl

/-- A cell without symbol does not matter to what is in the cache. -/
theorem cached?_fill_of_ne {y : Slot} (hc : ∀ z, s.slot c ≠ .full z) (h : s.cached? = some x) :
    (s.fill c y).cached? = some x := by
  obtain ⟨d, hcell, hslot⟩ := cached?_eq_some.1 h
  have hd : d ≠ c := by
    rintro rfl
    exact hc x hslot
  exact cached?_eq_some.2 ⟨d, hcell, by rw [slot_fill, if_neg hd, hslot]⟩

theorem cached?_removeCell_of_eq_some (h : s.cached? = some x) : s.removeCell c = s := by
  obtain ⟨d, hcell, hslot⟩ := cached?_eq_some.1 h
  unfold removeCell
  refine if_neg ?_
  rintro ⟨hc, hnone⟩
  obtain rfl := Option.some.inj (hcell.symm.trans hc)
  rw [hslot] at hnone
  cases hnone

/-- The thread that makes a step. -/
def Action.thread : Action → Nat
  | enter t | start t | succeed t _ | fail t _ | get t | cleanUp t => t

theorem Step.phase_other (h : Step s a s') (ht : t ≠ a.thread) : s'.phase t = s.phase t := by
  cases h <;> simp_all [Action.thread]

theorem run?_phase_other (h : s.run? actions = some s') (ht : ∀ a ∈ actions, t ≠ a.thread) :
    s'.phase t = s.phase t := by
  induction actions generalizing s with
  | nil =>
    cases h
    rfl
  | cons a rest ih =>
    obtain ⟨s₁, hstep, hrest⟩ := run?_cons.1 h
    rw [ih hrest fun b hb => ht b (List.mem_cons_of_mem _ hb)]
    exact hstep.phase_other (ht a List.mem_cons_self)

/-- A thread that has nothing to do can only enter. -/
theorem Step.eq_enter (h : Step s a s') (ht : (s.phase a.thread).isFree = true) :
    a = .enter a.thread := by
  cases h <;> simp_all [Action.thread, Phase.isFree]

theorem Step.phase_enter (h : Step s a s') (ha : a = .enter t) (hc : s.cell = some c) :
    s'.phase t = .holding c := by
  cases h <;> simp_all

/-- A thread that has a full cell can only get the symbol. -/
theorem Step.phase_of_full (h : Step s a s') (ht : s.phase a.thread = .holding c)
    (hc : s.slot c = .full x) : s'.phase a.thread = .done (.ok x) := by
  cases h <;> simp_all [Action.thread, Phase.isFree]

/-- Only a search that fails lets a thread stand there. -/
theorem Step.eq_fail {fault : ResolutionFault} (h : Step s a s')
    (ht : s'.phase a.thread = .failed c fault) : a = .fail a.thread fault := by
  cases h <;> simp_all [Action.thread]

/-! ## A thread alone -/

/-- A thread that finds no cell searches. -/
theorem exists_searching (hfree : (s.phase t).isFree = true) (hcell : s.cell = none) :
    ∃ s', s.run? [.enter t, .start t] = some s' ∧ s'.phase t = .searching s.cells ∧
      s'.cell = some s.cells := by
  have henter : Step s (.enter t) (s.addCell.move t (.holding s.cells)) := .insert hfree hcell
  have hstart := Step.start (s := s.addCell.move t (.holding s.cells)) (t := t) (c := s.cells)
    (by simp) (by simp)
  exact ⟨_, run?_cons.2 ⟨_, henter, run?_cons.2 ⟨_, hstart, rfl⟩⟩, by simp, by simp⟩

/-- A thread whose search fails leaves no cell behind. -/
theorem exists_cleaned (ht : s.phase t = .searching c) (hcell : s.cell = some c)
    (fault : ResolutionFault) :
    ∃ s', s.run? [.fail t fault, .cleanUp t] = some s' ∧ s'.phase t = .done (.error fault) ∧
      s'.cell = none := by
  have hfail : Step s (.fail t fault) ((s.fill c .empty).move t (.failed c fault)) := .fail ht
  have hclean := Step.cleanUp (s := (s.fill c .empty).move t (.failed c fault)) (t := t)
    ((phase_move _).trans (if_pos rfl))
  refine ⟨_, run?_cons.2 ⟨_, hfail, run?_cons.2 ⟨_, hclean, rfl⟩⟩, by simp, ?_⟩
  rw [cell_move, cell_removeCell]
  exact if_pos ⟨hcell, by simp [Slot.symbol?]⟩

/-- A thread whose search succeeds fills the cell. -/
theorem exists_filled (ht : s.phase t = .searching c) (hcell : s.cell = some c) (x : Symbol) :
    ∃ s', s.run? [.succeed t x] = some s' ∧ s'.phase t = .done (.ok x) ∧ s'.cached? = some x :=
  ⟨_, run?_cons.2 ⟨_, .succeed ht, rfl⟩, by simp, cached?_eq_some.2 ⟨c, hcell, by simp⟩⟩

/-- A thread alone resolves a name as a resolver does that has no cells: it comes to the same
result, and the same is in the cache. -/
theorem resolve_alone {F : Forest} {p : Place} {name : String} {r : Forest.State}
    (hlive : (r.resolver p).released = false) (hfree : (s.phase t).isFree = true)
    (hcell : s.cached? = none → s.cell = none)
    (hcached : s.cached? = (r.resolver p).cached? name) :
    ∃ actions s', (∀ a ∈ actions, a.thread = t) ∧ s.run? actions = some s' ∧
      s'.phase t = .done (F.resolve 0 p name r).2 ∧
      s'.cached? = ((F.resolve 0 p name r).1.resolver p).cached? name ∧
      (s'.cached? = none → s'.cell = none) := by
  cases hmissing : (r.resolver p).cached? name with
  | some x =>
    rw [hmissing] at hcached
    obtain ⟨c, hc, hslot⟩ := cached?_eq_some.1 hcached
    rw [F.resolve_of_cached hlive hmissing, hmissing]
    refine ⟨[.enter t, .get t], (s.move t (.holding c)).move t (.done (.ok x)),
      by simp [Action.thread], ?_, by simp, hcached, fun hnone => ?_⟩
    · exact run?_cons.2 ⟨_, .fetch hfree hc, run?_cons.2 ⟨_, .get (by simp) hslot, rfl⟩⟩
    · cases hcached.symm.trans hnone
  | none =>
    rw [hmissing] at hcached
    obtain ⟨s₁, hrun₁, hsearching, hcell₁⟩ := exists_searching hfree (hcell hcached)
    obtain ⟨hstate, fault, hfault⟩ | ⟨x, hfound⟩ :=
      Forest.resolve_of_missing (F := F) hlive hmissing
    · have hnone : ((F.search p name r).1.resolver p).cached? name = none :=
        Forest.cached?_search_eq_none hlive hmissing fun _ _ _ _ _ _ _ => Forest.cached?_resolve_imp
      obtain ⟨s₂, hrun₂, hdone, hcell₂⟩ := exists_cleaned hsearching hcell₁ fault
      rw [hfault, hstate, hnone]
      exact ⟨[.enter t, .start t] ++ [.fail t fault, .cleanUp t], s₂, by simp [Action.thread],
        (run?_append hrun₁).trans hrun₂, hdone, by simp [cached?, hcell₂], fun _ => hcell₂⟩
    · have hx : (F.resolve 0 p name r).2 = .ok x := by rw [hfound]
      obtain ⟨s₂, hrun₂, hdone, hcached₂⟩ := exists_filled hsearching hcell₁ x
      rw [Forest.cached?_of_resolve hx, hx]
      refine ⟨[.enter t, .start t] ++ [.succeed t x], s₂, by simp [Action.thread],
        (run?_append hrun₁).trans hrun₂, hdone, hcached₂, fun hnone => ?_⟩
      cases hcached₂.symm.trans hnone

end Flight

end TierIsolation
