import TierIsolation.Proofs.Flight.Steps

/-!
# One search at a time

What threads can rely on that resolve one name, in any number and in any order of their steps.

* `single_flight`: there is one search for a cell at a time, and what is in the cache stays there
  and is given to all later threads. There is one search at all, and every symbol that a resolution
  returned is in the cache, as long as no thread takes a cell away that another one still has
  (`Abandons`).
* `careful_of_no_failure`: no thread does, if no search fails. `exists_overlap`: wherever one does,
  two threads may search at once later on.
* `overlapping_searches`: this happens, and a symbol may be returned that is not in the cache.

Every step keeps the cells in order (`Orderly`). If nobody's cell is taken away, it keeps everybody
at the cell of the cache as well (`Tidy`).
-/

namespace TierIsolation.Flight

open Forest (librarySymbol)

variable {s s' : Flight} {a : Action} {actions : List Action} {t u c d : Nat} {x : Symbol}

/-! ## What every step keeps -/

/-- The thread has the cell, and its search has not failed. -/
def Holds (s : Flight) (t c : Nat) : Prop := s.phase t = .holding c ∨ s.phase t = .searching c

/-- A cell knows who searches for it, and only cells that were made are in use. -/
structure Orderly (s : Flight) : Prop where
  busy : ∀ c t, s.slot c = .busy t ↔ s.phase t = .searching c
  fresh : ∀ c, s.cells ≤ c → s.slot c = .empty
  used : ∀ t c, s.Holds t c → c < s.cells
  made : ∀ c, s.cell = some c → c < s.cells

namespace Orderly

theorem start : Orderly {} where
  busy c t := by simp
  fresh c hc := rfl
  used t c h := by simp [Holds] at h
  made c h := by simp at h

/-- A thread moves on that neither stops to search nor begins to. -/
theorem move (h : s.Orderly) {y : Phase} (ht : ∀ c, s.phase t ≠ .searching c)
    (hy : ∀ c, y ≠ .searching c) (hused : ∀ c, y = .holding c → c < s.cells) :
    (s.move t y).Orderly where
  busy c u := by
    rw [slot_move, phase_move, h.busy]
    split
    · rename_i hu
      rw [hu]
      exact iff_of_false (ht c) (hy c)
    · rfl
  fresh := h.fresh
  used u c hc := by
    simp only [Holds, phase_move] at hc
    split at hc
    · rcases hc with hc | hc
      · exact hused c hc
      · exact absurd hc (hy c)
    · exact h.used u c hc
  made := h.made

theorem addCell (h : s.Orderly) : s.addCell.Orderly where
  busy c t := by
    rw [slot_addCell, phase_addCell]
    split
    · rename_i hc
      refine iff_of_false (fun hbusy => by cases hbusy) fun ht => ?_
      have hlt := h.used t c (.inr ht)
      omega
    · exact h.busy c t
  fresh c hc := by
    rw [cells_addCell] at hc
    rw [slot_addCell]
    split
    · rfl
    · exact h.fresh c (by omega)
  used t c hc := Nat.lt_succ_of_lt (h.used t c hc)
  made c hc := by
    rw [cell_addCell, Option.some.injEq] at hc
    rw [cells_addCell]
    omega

theorem removeCell (h : s.Orderly) : (s.removeCell c).Orderly where
  busy d t := by
    rw [slot_removeCell, phase_removeCell]
    exact h.busy d t
  fresh d hd := by
    rw [cells_removeCell] at hd
    rw [slot_removeCell]
    exact h.fresh d hd
  used t d hd := by
    rw [cells_removeCell]
    simp only [Holds, phase_removeCell] at hd
    exact h.used t d hd
  made d hd := by
    rw [cell_removeCell] at hd
    rw [cells_removeCell]
    split at hd
    · cases hd
    · exact h.made d hd

theorem fresh_fill (h : s.Orderly) (ht : s.Holds t c) {y : Slot} :
    ∀ d, s.cells ≤ d → (s.fill c y).slot d = .empty := by
  intro d hd
  have hlt := h.used t c ht
  rw [slot_fill, if_neg (by omega)]
  exact h.fresh d hd

/-- A thread begins to search. -/
theorem begin (h : s.Orderly) (ht : s.phase t = .holding c) (hc : s.slot c = .empty) :
    ((s.fill c (.busy t)).move t (.searching c)).Orderly where
  busy d u := by
    have hold := h.busy d u
    simp only [slot_move, slot_fill, phase_move, phase_fill]
    by_cases hd : d = c
    · grind
    · by_cases hu : u = t
      · grind
      · simpa [hd, hu] using hold
  fresh := h.fresh_fill (.inl ht)
  used u d hd := by
    simp only [Holds, phase_move, phase_fill] at hd
    split at hd
    · rcases hd with hd | hd
      · cases hd
      · cases hd
        exact h.used t c (.inl ht)
    · exact h.used u d hd
  made := h.made

/-- A thread has searched. -/
theorem finish (h : s.Orderly) (ht : s.phase t = .searching c) {y : Slot} {z : Phase}
    (hy : ∀ u, y ≠ .busy u) (hz : ∀ d, z ≠ .holding d ∧ z ≠ .searching d) :
    ((s.fill c y).move t z).Orderly where
  busy d u := by
    have hold := h.busy d u
    have hself := (h.busy c t).2 ht
    simp only [slot_move, slot_fill, phase_move, phase_fill]
    by_cases hd : d = c
    · grind
    · by_cases hu : u = t
      · grind
      · simpa [hd, hu] using hold
  fresh := h.fresh_fill (.inr ht)
  used u d hd := by
    simp only [Holds, phase_move, phase_fill] at hd
    split at hd
    · rcases hd with hd | hd
      · exact absurd hd (hz d).1
      · exact absurd hd (hz d).2
    · exact h.used u d hd
  made := h.made

theorem step (h : s.Orderly) (hstep : Step s a s') : s'.Orderly := by
  cases hstep with
  | @fetch t c hfree hcell =>
    refine h.move (fun d ht => ?_) (fun d hd => by cases hd) fun d hd => ?_
    · rw [ht] at hfree
      cases hfree
    · cases hd
      exact h.made c hcell
  | @insert t hfree hcell =>
    refine h.addCell.move (fun d ht => ?_) (fun d hd => by cases hd) fun d hd => ?_
    · rw [phase_addCell] at ht
      rw [ht] at hfree
      cases hfree
    · cases hd
      exact Nat.lt_succ_self _
  | start ht hc => exact h.begin ht hc
  | succeed ht => exact h.finish ht (fun u hu => by cases hu) fun d => ⟨nofun, nofun⟩
  | fail ht => exact h.finish ht (fun u hu => by cases hu) fun d => ⟨nofun, nofun⟩
  | @get t c symbol ht hc =>
    refine h.move (fun d hd => ?_) (fun d hd => by cases hd) fun d hd => by cases hd
    rw [ht] at hd
    cases hd
  | @cleanUp t c fault ht =>
    refine h.removeCell.move (fun d hd => ?_) (fun d hd => by cases hd) fun d hd => by cases hd
    rw [phase_removeCell, ht] at hd
    cases hd

theorem run (h : s.Orderly) (hrun : s.run? actions = some s') : s'.Orderly := by
  induction actions generalizing s with
  | nil =>
    cases hrun
    exact h
  | cons a rest ih =>
    obtain ⟨s₁, hstep, hrest⟩ := run?_cons.1 hrun
    exact ih (h.step hstep) hrest

/-- For a cell there is one search at a time. -/
theorem eq_of_searching (h : s.Orderly) (ht : s.phase t = .searching c)
    (hu : s.phase u = .searching c) : t = u := by
  have hbusy := (h.busy c t).2 ht
  rw [(h.busy c u).2 hu] at hbusy
  cases hbusy
  rfl

theorem ne_full (h : s.Orderly) (ht : s.phase t = .searching c) (z : Symbol) :
    s.slot c ≠ .full z := by
  simp [(h.busy c t).2 ht]

end Orderly

/-! ## What is in the cache -/

/-- A cell that has a symbol keeps it. -/
theorem Orderly.slot_step (h : s.Orderly) (hc : s.slot c = .full x) (hstep : Step s a s') :
    s'.slot c = .full x := by
  have hne {d : Nat} (hd : s.slot d ≠ .full x) : c ≠ d := by
    rintro rfl
    exact hd hc
  cases hstep with
  | fetch => exact hc
  | insert =>
    have hd := hne (d := s.cells) (by simp [h.fresh _ (Nat.le_refl _)])
    rw [slot_move, slot_addCell, if_neg hd, hc]
  | @start t d ht hd => rw [slot_move, slot_fill, if_neg (hne (by simp [hd])), hc]
  | succeed ht => rw [slot_move, slot_fill, if_neg (hne (h.ne_full ht x)), hc]
  | fail ht => rw [slot_move, slot_fill, if_neg (hne (h.ne_full ht x)), hc]
  | get => exact hc
  | cleanUp =>
    rw [slot_move, slot_removeCell]
    exact hc

/-- What is in the cache is not taken out of it. -/
theorem Orderly.cached_step (h : s.Orderly) (hx : s.cached? = some x) (hstep : Step s a s') :
    s'.cached? = some x := by
  obtain ⟨c, hcell, hslot⟩ := cached?_eq_some.1 hx
  refine cached?_eq_some.2 ⟨c, ?_, h.slot_step hslot hstep⟩
  cases hstep with
  | insert _ hnone =>
    rw [hnone] at hcell
    cases hcell
  | cleanUp ht =>
    rw [cell_move, cached?_removeCell_of_eq_some hx]
    exact hcell
  | fetch => exact hcell
  | start => exact hcell
  | succeed => exact hcell
  | fail => exact hcell
  | get => exact hcell

/-- The thread was given the symbol `x`, or has a cell that it only has to take it from. -/
def Served (s : Flight) (x : Symbol) (t : Nat) : Prop :=
  s.phase t = .done (.ok x) ∨ ∃ c, s.phase t = .holding c ∧ s.slot c = .full x

/-- If `x` is in the cache, whoever enters is served, and stays so. -/
theorem Orderly.served_step (h : s.Orderly) (hx : s.cached? = some x) (hstep : Step s a s')
    (ht : s.Served x t ∨ a = .enter t) : s'.Served x t := by
  by_cases hother : t = a.thread
  · subst hother
    obtain ⟨c, hcell, hslot⟩ := cached?_eq_some.1 hx
    have henter (ha : a = .enter a.thread) : s'.Served x a.thread :=
      .inr ⟨c, hstep.phase_enter ha hcell, h.slot_step hslot hstep⟩
    rcases ht with (hdone | ⟨d, hd, hfull⟩) | ha
    · exact henter (hstep.eq_enter (by rw [hdone]; rfl))
    · exact .inl (hstep.phase_of_full hd hfull)
    · exact henter ha
  · have hphase := hstep.phase_other hother
    rcases ht with (hdone | ⟨d, hd, hfull⟩) | rfl
    · exact .inl (hphase.trans hdone)
    · exact .inr ⟨d, hphase.trans hd, h.slot_step hfull hstep⟩
    · exact absurd rfl hother

/-- What is in the cache stays there, and later threads get it without a search. -/
theorem Orderly.cached_run (h : s.Orderly) (hx : s.cached? = some x)
    (hrun : s.run? actions = some s') :
    s'.cached? = some x ∧ ∀ t, s.Served x t ∨ .enter t ∈ actions → s'.Served x t := by
  induction actions generalizing s with
  | nil =>
    cases hrun
    exact ⟨hx, fun t ht => ht.resolve_right List.not_mem_nil⟩
  | cons a rest ih =>
    obtain ⟨s₁, hstep, hrest⟩ := run?_cons.1 hrun
    obtain ⟨hx', hlater⟩ := ih (h.step hstep) (h.cached_step hx hstep) hrest
    refine ⟨hx', fun t ht => ?_⟩
    rcases ht with ht | hmem
    · exact hlater t (.inl (h.served_step hx hstep (.inl ht)))
    · rcases List.mem_cons.1 hmem with heq | hmem
      · exact hlater t (.inl (h.served_step hx hstep (.inr heq.symm)))
      · exact hlater t (.inr hmem)

/-! ## Cells that others have -/

/-- A thread cleans up, and takes away a cell that another thread still has. -/
def Abandons (s : Flight) (a : Action) : Prop :=
  ∃ t u c fault, a = .cleanUp t ∧ s.phase t = .failed c fault ∧ s.cell = some c ∧
    (s.slot c).symbol? = none ∧ s.Holds u c

/-- No clean-up takes away a cell that another thread still has. -/
def Careful (s : Flight) : List Action → Prop
  | [] => True
  | a :: rest => ¬ s.Abandons a ∧ ∀ s', s.step? a = some s' → Careful s' rest

/-- All threads have the cell of the cache, and the symbols they were given are there. -/
structure Tidy (s : Flight) : Prop where
  held : ∀ t c, s.Holds t c → s.cell = some c
  found : ∀ t x, s.phase t = .done (.ok x) → s.cached? = some x

namespace Tidy

theorem start : Tidy {} where
  held t c h := by simp [Holds] at h
  found t x h := by simp at h

/-- A thread moves on, and the cache stays as it is. -/
theorem move (h : s.Tidy) {y : Phase}
    (hheld : ∀ c, y = .holding c ∨ y = .searching c → s.cell = some c)
    (hfound : ∀ x, y = .done (.ok x) → s.cached? = some x) : (s.move t y).Tidy where
  held u c hu := by
    simp only [Holds, phase_move] at hu
    split at hu
    · exact hheld c hu
    · exact h.held u c hu
  found u x hu := by
    rw [phase_move] at hu
    split at hu
    · exact hfound x hu
    · exact h.found u x hu

theorem fill (h : s.Tidy) {y : Slot} (hc : ∀ z, s.slot c ≠ .full z) : (s.fill c y).Tidy where
  held := h.held
  found u x hu := cached?_fill_of_ne hc (h.found u x hu)

/-- If there is no cell, nobody has one, and nobody was given a symbol. -/
theorem addCell (h : s.Tidy) (hnone : s.cell = none) : s.addCell.Tidy where
  held u c hu := by
    have hcell := h.held u c hu
    rw [hnone] at hcell
    cases hcell
  found u x hu := by
    have hx := h.found u x hu
    simp [Flight.cached?, hnone] at hx

/-- A cell may be taken away that nobody has. -/
theorem removeCell (h : s.Tidy)
    (hnobody : s.cell = some c → (s.slot c).symbol? = none → ∀ u, ¬ s.Holds u c) :
    (s.removeCell c).Tidy where
  held u d hu := by
    rw [cell_removeCell]
    simp only [Holds, phase_removeCell] at hu
    have hcell := h.held u d hu
    split
    · rename_i hc
      obtain rfl := Option.some.inj (hc.1.symm.trans hcell)
      exact absurd hu (hnobody hc.1 hc.2 u)
    · exact hcell
  found u x hu := by
    rw [phase_removeCell] at hu
    have hx := h.found u x hu
    rw [cached?_removeCell_of_eq_some hx]
    exact hx

theorem step (h : s.Tidy) (ho : s.Orderly) (hcare : ¬ s.Abandons a) (hstep : Step s a s') :
    s'.Tidy := by
  cases hstep with
  | @fetch t c hfree hcell =>
    refine h.move (fun d hd => ?_) nofun
    rcases hd with hd | hd
    · cases hd
      exact hcell
    · cases hd
  | @insert t hfree hnone =>
    refine (h.addCell hnone).move (fun d hd => ?_) nofun
    rcases hd with hd | hd
    · cases hd
      rfl
    · cases hd
  | @start t c ht hc =>
    refine (h.fill fun z => by simp [hc]).move (fun d hd => ?_) nofun
    rcases hd with hd | hd
    · cases hd
    · cases hd
      exact h.held t c (.inl ht)
  | @succeed t c symbol ht =>
    refine (h.fill (ho.ne_full ht)).move (fun d hd => ?_) fun x hx => ?_
    · rcases hd with hd | hd <;> cases hd
    · cases hx
      exact cached?_eq_some.2 ⟨c, h.held t c (.inr ht), by simp⟩
  | fail ht =>
    refine (h.fill (ho.ne_full ht)).move (fun d hd => ?_) nofun
    rcases hd with hd | hd <;> cases hd
  | @get t c symbol ht hc =>
    refine h.move (fun d hd => ?_) fun x hx => ?_
    · rcases hd with hd | hd <;> cases hd
    · cases hx
      exact cached?_eq_some.2 ⟨c, h.held t c (.inl ht), hc⟩
  | @cleanUp t c fault ht =>
    refine (h.removeCell fun hcell hnone u hu => ?_).move (fun d hd => ?_) nofun
    · exact hcare ⟨t, u, c, fault, rfl, ht, hcell, hnone, hu⟩
    · rcases hd with hd | hd <;> cases hd

theorem run (h : s.Tidy) (ho : s.Orderly) (hcare : s.Careful actions)
    (hrun : s.run? actions = some s') : s'.Tidy := by
  induction actions generalizing s with
  | nil =>
    cases hrun
    exact h
  | cons a rest ih =>
    obtain ⟨s₁, hstep, hrest⟩ := run?_cons.1 hrun
    obtain ⟨hfirst, hlater⟩ := hcare
    exact ih (h.step ho hfirst hstep) (ho.step hstep) (hlater s₁ (step?_eq_some.2 hstep)) hrest

/-- There is one search at a time. -/
theorem eq_of_searching (h : s.Tidy) (ho : s.Orderly) (ht : s.phase t = .searching c)
    (hu : s.phase u = .searching d) : t = u := by
  have hcell := h.held t c (.inr ht)
  rw [h.held u d (.inr hu), Option.some.injEq] at hcell
  exact ho.eq_of_searching ht (hcell ▸ hu)

end Tidy

/-- Without failures there is nothing to clean up. -/
theorem careful_of_no_failure (hphase : ∀ t c fault, s.phase t ≠ .failed c fault)
    (h : ∀ t fault, .fail t fault ∉ actions) : s.Careful actions := by
  induction actions generalizing s with
  | nil => trivial
  | cons a rest ih =>
    have hrest : ∀ t fault, .fail t fault ∉ rest :=
      fun t fault hmem => h t fault (List.mem_cons_of_mem _ hmem)
    refine ⟨?_, fun s' hstep => ih (fun t c fault ht => ?_) hrest⟩
    · rintro ⟨t, u, c, fault, -, ht, -⟩
      exact hphase t c fault ht
    · have hstep := step?_eq_some.1 hstep
      by_cases hother : t = a.thread
      · subst hother
        exact h a.thread fault (hstep.eq_fail ht ▸ List.mem_cons_self)
      · rw [hstep.phase_other hother] at ht
        exact hphase t c fault ht

/-- Somebody searches for a cell without symbol, or whoever has it may begin to. -/
theorem Orderly.searching_or_empty (h : s.Orderly) (hnone : (s.slot c).symbol? = none)
    (hu : s.Holds u c) :
    (∃ w, s.phase w = .searching c) ∨ s.phase u = .holding c ∧ s.slot c = .empty := by
  rcases hu with hu | hu
  · cases hslot : s.slot c with
    | empty => exact .inr ⟨hu, rfl⟩
    | busy w => exact .inl ⟨w, (h.busy c w).1 hslot⟩
    | full z =>
      rw [hslot] at hnone
      cases hnone
  · exact .inl ⟨u, hu⟩

/-- Whoever has the cell that a clean-up takes away may search for it nevertheless. -/
theorem exists_searching_after {fault : ResolutionFault} (h : s.Orderly)
    (ht : s.phase t = .failed c fault) (hnone : (s.slot c).symbol? = none) (hu : s.Holds u c) :
    ∃ later w s', ((s.removeCell c).move t (.done (.error fault))).run? later = some s' ∧
      w ≠ t ∧ s'.phase w = .searching c ∧ (s'.phase t).isFree = true ∧
      s'.cell = (s.removeCell c).cell := by
  obtain ⟨w, hw⟩ | ⟨hholding, hempty⟩ := h.searching_or_empty hnone hu
  · have hwt : w ≠ t := by
      rintro rfl
      cases hw.symm.trans ht
    exact ⟨[], w, _, rfl, hwt, by simp [hwt, hw], by simp [Phase.isFree], rfl⟩
  · have hut : u ≠ t := by
      rintro rfl
      cases hholding.symm.trans ht
    have hstart := Step.start (s := (s.removeCell c).move t (.done (.error fault))) (t := u)
      (c := c) (by simp [hut, hholding]) (by simp [hempty])
    refine ⟨[.start u], u, _, run?_cons.2 ⟨_, hstart, rfl⟩, hut, by simp, ?_, rfl⟩
    simp [hut.symm, Phase.isFree]

/-- After a clean-up that takes a cell away from another thread, there may be two searches: one goes
on without the cache, and whoever enters finds no cell. -/
theorem exists_overlap (h : s.Orderly) (ha : s.Abandons a) :
    ∃ later s' t u c d, s.run? (a :: later) = some s' ∧ t ≠ u ∧ s'.phase t = .searching c ∧
      s'.phase u = .searching d := by
  obtain ⟨t, u, c, fault, rfl, ht, hcell, hnone, hu⟩ := ha
  obtain ⟨later, w, s₁, hrun₁, hw, hsearching, hfree, hcell₁⟩ :=
    exists_searching_after h ht hnone hu
  rw [cell_removeCell, if_pos ⟨hcell, hnone⟩] at hcell₁
  obtain ⟨s₂, hrun₂, ht₂, -⟩ := exists_searching hfree hcell₁
  have hw₂ : s₂.phase w = .searching c := by
    rw [run?_phase_other hrun₂ (by simp [Action.thread, hw]), hsearching]
  refine ⟨later ++ [.enter t, .start t], s₂, t, w, _, _, ?_, hw.symm, ht₂, hw₂⟩
  exact run?_cons.2 ⟨_, .cleanUp ht, (run?_append hrun₁).trans hrun₂⟩

/-! ## One search at a time -/

/-- **One search at a time.** Threads resolve one name, in any number and in any order of their
steps. For a cell there is never more than one search. Once a symbol is in the cache it stays there,
and every thread that enters later is given it without a search. And if no clean-up takes away a
cell that another thread still has, there is never more than one search at all, and every symbol
that was returned is in the cache. -/
theorem single_flight {actions : List Action} {s : Flight}
    (hrun : run? {} actions = some s) :
    (∀ t u c, s.phase t = .searching c → s.phase u = .searching c → t = u) ∧
    (∀ x later s', s.cached? = some x → s.run? later = some s' →
      s'.cached? = some x ∧ ∀ t, .enter t ∈ later → s'.Served x t) ∧
    (Careful {} actions →
      (∀ t u c d, s.phase t = .searching c → s.phase u = .searching d → t = u) ∧
      ∀ t x, s.phase t = .done (.ok x) → s.cached? = some x) := by
  have ho : s.Orderly := Orderly.start.run hrun
  refine ⟨fun t u c => ho.eq_of_searching, fun x later s' hx hlater => ?_, fun hcare => ?_⟩
  · obtain ⟨hx', hserved⟩ := ho.cached_run hx hlater
    exact ⟨hx', fun t ht => hserved t (.inr ht)⟩
  · have htidy : s.Tidy := Tidy.start.run .start hcare hrun
    exact ⟨fun t u c d => htidy.eq_of_searching ho, htidy.found⟩

/-- A passing fault of the library. -/
def passingFault : ResolutionFault := .entryFailed "/lib/" "lib" "busy"

/-- Two threads have the same cell. The search of the first one fails, and the second one searches
and fills the cell before the first one cleans up. -/
def handedOver : List Action :=
  [.enter 0, .enter 1, .start 0, .fail 0 passingFault, .start 1,
    .succeed 1 librarySymbol, .cleanUp 0]

theorem handedOver_careful : Careful {} handedOver := by
  simp [Careful, handedOver, Abandons, step?, Phase.isFree, Slot.symbol?]

/-- The symbol stays in the cache, and a third thread is given it. -/
theorem handedOver_single_flight :
    ∃ s s', run? {} handedOver = some s ∧ s.run? [.enter 2, .get 2] = some s' ∧
      s.phase 1 = .done (.ok librarySymbol) ∧ s.cached? = some librarySymbol ∧
      s'.Served librarySymbol 2 := by
  obtain ⟨s, hs, hdone⟩ : ∃ s, run? {} handedOver = some s ∧
      s.phase 1 = .done (.ok librarySymbol) := ⟨_, rfl, rfl⟩
  obtain ⟨-, hstays, hcareful⟩ := single_flight hs
  have hcached := (hcareful handedOver_careful).2 1 _ hdone
  obtain ⟨s', hs'⟩ : ∃ s', s.run? [.enter 2, .get 2] = some s' := by
    cases hs
    exact ⟨_, rfl⟩
  obtain ⟨-, hserved⟩ := hstays _ _ s' hcached hs'
  exact ⟨s, s', hs, hs', hdone, hcached, hserved 2 (by simp)⟩

/-- The same threads, but the first one cleans up while the second one searches. A third thread
finds no cell, and searches as well. -/
def takenAway : List Action :=
  [.enter 0, .enter 1, .start 0, .fail 0 passingFault, .start 1, .cleanUp 0, .enter 2, .start 2]

/-- A clean-up only sees that the cell has no symbol, and not that another thread still has it. So
there may be two searches at once, a symbol may be returned that is not in the cache, and a thread
that enters later may be told that the search failed. -/
theorem overlapping_searches :
    ¬ (∀ actions s, run? {} actions = some s → ∀ t u c d, s.phase t = .searching c →
      s.phase u = .searching d → t = u) ∧
    ¬ (∀ actions s, run? {} actions = some s → ∀ t x, s.phase t = .done (.ok x) →
      s.cached? = some x) ∧
    ¬ (∀ actions s, run? {} actions = some s → ∀ t x, s.phase t = .done (.ok x) →
      ∀ later s' u result, s.run? later = some s' → .enter u ∈ later →
        s'.phase u = .done result → result = .ok x) := by
  refine ⟨fun h => ?_, fun h => ?_, fun h => ?_⟩
  · have heq : 1 = 2 := h takenAway _ rfl 1 2 0 1 rfl rfl
    omega
  · have hcached := h (takenAway ++ [.succeed 1 librarySymbol]) _ rfl 1 _ rfl
    cases hcached
  · have hresult := h (takenAway ++ [.succeed 1 librarySymbol]) _ rfl 1 _ rfl
      [.fail 2 passingFault, .cleanUp 2, .enter 3, .start 3, .fail 3 passingFault, .cleanUp 3]
      _ 3 (.error passingFault) rfl (by simp) rfl
    cases hresult

end TierIsolation.Flight
