import TierIsolation.Proofs.Forest.Reference
import TierIsolation.Proofs.Forest.Run

/-!
# Faithful states

A state is *faithful* to the answers of the openers if all that its resolvers remember is what the
reference says (`Forest.Faithful`), and all that they hold are entries of their search paths, open
and not released (`Forest.Sound`). The numbers of handles show that a handle just opened is neither
held nor released yet, whatever was resolved while it was opened (`Forest.Later`).

`Forest.Advances` puts both together: the state that follows is faithful, and later. Recording an
event, holding a handle, giving a superfluous one back and remembering a symbol advance a faithful
state, and so does everything made of these.
-/

namespace TierIsolation.Forest

/-! ## Definitions -/

/-- A handle is that of an entry at a position of a search path, and open. -/
structure Sound (F : Forest) (a : Place → Answers) (history : History) (p : Place) (i : Nat)
    (h : Handle) : Prop where
  entry : (F.resolver p).searchPath[i]? = some h.entry
  contents : (a p).opens h.entry = .ok h.contents
  number : h.number < history.opens
  unreleased : history.hasReleased h = false

/-- Everything remembered is right, and everything held is open. -/
structure Faithful (F : Forest) (a : Place → Answers) (s : State) : Prop where
  live : ∀ p, (s.resolver p).released = false
  cached : ∀ p name symbol, (s.resolver p).cached? name = some symbol →
    F.reference a p name = .ok symbol
  held : ∀ p i h, (s.resolver p).handle? i = some h → Sound F a s.history p i h
  released : ∀ h ∈ s.history.released, h.number < s.history.opens

/-- Handles that are new in `s'`, whether held or released, have new numbers. -/
structure Later (s s' : State) : Prop where
  opens : s.history.opens ≤ s'.history.opens
  held : ∀ p i h, (s'.resolver p).handle? i = some h →
    (s.resolver p).handle? i = some h ∨ s.history.opens ≤ h.number
  released : ∀ h ∈ s'.history.released, h ∈ s.history.released ∨ s.history.opens ≤ h.number

/-- The state `s'` follows `s` and is faithful. -/
structure Advances (F : Forest) (a : Place → Answers) (s s' : State) : Prop extends Later s s' where
  faithful : Faithful F a s'

variable {F : Forest} {a : Place → Answers} {s s' s'' : State} {p : Place}

theorem Later.refl (s : State) : Later s s :=
  ⟨Nat.le_refl _, fun _ _ _ h => .inl h, fun _ h => .inl h⟩

theorem Later.trans (h₁ : Later s s') (h₂ : Later s' s'') : Later s s'' where
  opens := Nat.le_trans h₁.opens h₂.opens
  held p i h hh := by
    rcases h₂.held p i h hh with hh | hn
    · exact h₁.held p i h hh
    · exact .inr (Nat.le_trans h₁.opens hn)
  released h hh := by
    rcases h₂.released h hh with hh | hn
    · exact h₁.released h hh
    · exact .inr (Nat.le_trans h₁.opens hn)

theorem Faithful.advances (h : Faithful F a s) : Advances F a s s := ⟨.refl s, h⟩

theorem Advances.trans (h₁ : Advances F a s s') (h₂ : Advances F a s' s'') : Advances F a s s'' :=
  ⟨h₁.toLater.trans h₂.toLater, h₂.faithful⟩

theorem Faithful.start : Faithful F a {} where
  live _ := rfl
  cached _ _ _ h := by cases h
  held _ _ _ h := by cases h
  released h hh := by cases hh

/-- A state of new resolvers is faithful, if the history is in order. -/
theorem Faithful.of_new (hnew : ∀ p, s.resolver p = {})
    (hreleased : ∀ h ∈ s.history.released, h.number < s.history.opens) : Faithful F a s where
  live p := by rw [hnew]
  cached p name symbol h := by
    rw [hnew] at h
    cases h
  held p i h hh := by
    rw [hnew] at hh
    cases hh
  released := hreleased

/-- A held handle is found again where it is held. -/
theorem Faithful.held_eq (hs : Faithful F a s) {i : Nat} {e : Entry} {h : Handle}
    (he : (F.resolver p).searchPath[i]? = some e) (hh : (s.resolver p).handle? i = some h) :
    h.entry = e := by
  have := (hs.held p i h hh).entry
  rw [he, Option.some.injEq] at this
  exact this.symm

/-! ## Events -/

/-- Recording an event keeps a state faithful, if no handle was released but one that is held by
nobody. -/
theorem Faithful.record (hs : Faithful F a s) {e : Event}
    (he : ∀ h failed, e = .released h failed → h.number < s.history.opens ∧
      ∀ p i held, (s.resolver p).handle? i = some held → held.number ≠ h.number) :
    Faithful F a (s.record e) where
  live := hs.live
  cached := hs.cached
  held p i h hh := by
    obtain ⟨hentry, hcontents, hnumber, hunreleased⟩ := hs.held p i h hh
    refine ⟨hentry, hcontents, ?_, ?_⟩
    · simp only [State.history_record, History.opens_cons]
      omega
    · rw [History.hasReleased_eq_false] at hunreleased ⊢
      intro other ho
      rcases History.mem_released_cons.1 ho with ⟨failed, rfl⟩ | ho
      · exact ((he other failed rfl).2 p i h hh).symm
      · exact hunreleased other ho
  released h hh := by
    have hlt : h.number < s.history.opens := by
      rcases History.mem_released_cons.1 hh with ⟨failed, rfl⟩ | hh
      · exact (he h failed rfl).1
      · exact hs.released h hh
    simp only [State.history_record, History.opens_cons]
    omega

theorem Later.record {e : Event}
    (he : ∀ h failed, e = .released h failed → s.history.opens ≤ h.number) :
    Later s (s.record e) where
  opens := by simp only [State.history_record, History.opens_cons]; omega
  held _ _ _ hh := .inl hh
  released h hh := by
    rcases History.mem_released_cons.1 hh with ⟨failed, rfl⟩ | hh
    · exact .inr (he h failed rfl)
    · exact .inl hh

/-- An event that releases nothing advances a faithful state. -/
theorem Faithful.advances_record (hs : Faithful F a s) {e : Event}
    (he : ∀ h failed, e ≠ .released h failed) : Advances F a s (s.record e) where
  toLater := .record fun h failed hh => absurd hh (he h failed)
  faithful := hs.record fun h failed hh => absurd hh (he h failed)

/-! ## Handles -/

/-- A handle that was neither held nor released when it was opened is so still, after whatever was
resolved meanwhile. -/
structure Fresh (s : State) (h : Handle) : Prop where
  number : h.number < s.history.opens
  notHeld : ∀ p i held, (s.resolver p).handle? i = some held → held.number ≠ h.number
  notReleased : s.history.hasReleased h = false

/-- An entry that was just opened has a fresh handle. -/
theorem Faithful.fresh (hs : Faithful F a s) {h : Handle} (hnumber : h.number = s.history.opens)
    (hl : Later (s.record (.opened h)) s') : Fresh s' h where
  number := by
    have := hl.opens
    simp only [State.history_record, History.opens_cons] at this
    omega
  notHeld p i held hh hn := by
    rcases hl.held p i held hh with hh | hh
    · have : held.number < s.history.opens := (hs.held p i held hh).number
      omega
    · simp only [State.history_record, History.opens_cons] at hh
      omega
  notReleased := by
    rw [History.hasReleased_eq_false]
    intro other ho hn
    rcases hl.released other ho with ho | ho
    · rcases History.mem_released_cons.1 ho with ⟨failed, ho⟩ | ho
      · cases ho
      · have := hs.released other ho
        omega
    · simp only [State.history_record, History.opens_cons] at ho
      omega

/-- Giving back a fresh handle that was opened since `s₀`. -/
theorem Advances.releaseHandle {s₀ : State} {h : Handle} (hs : Advances F a s₀ s)
    (hf : Fresh s h) (hn : s₀.history.opens ≤ h.number) :
    Advances F a s₀ (F.releaseHandle p h s).1 where
  faithful := hs.faithful.record fun other failed ho => by
    injection ho with ho
    subst ho
    exact ⟨hf.number, hf.notHeld⟩
  toLater := by
    refine ⟨?_, hs.held, fun other ho => ?_⟩
    · simp only [Forest.releaseHandle, State.history_record, History.opens_cons]
      exact hs.opens
    · rcases History.mem_released_cons.1 ho with ⟨failed, ho⟩ | ho
      · injection ho with ho
        subst ho
        exact .inr hn
      · exact hs.released other ho

/-- Holding a fresh handle that was opened since `s₀`. -/
theorem Advances.hold {s₀ : State} {h : Handle} {i : Nat} (hs : Advances F a s₀ s)
    (hf : Fresh s h) (hn : s₀.history.opens ≤ h.number)
    (he : (F.resolver p).searchPath[i]? = some h.entry)
    (hc : (a p).opens h.entry = .ok h.contents) :
    Advances F a s₀ (s.update p (·.hold i h)) := by
  -- a handle held after this is the new one, or was held before
  have hheld : ∀ q j held, ((s.update p (·.hold i h)).resolver q).handle? j = some held →
      q = p ∧ j = i ∧ held = h ∨ (s.resolver q).handle? j = some held := by
    intro q j held hh
    by_cases hq : q = p
    · subst hq
      rw [State.update_same, ResolverState.handle?_hold] at hh
      by_cases hj : j = i
      · rw [if_pos hj, Option.some.injEq] at hh
        exact .inl ⟨rfl, hj, hh.symm⟩
      · rw [if_neg hj] at hh
        exact .inr hh
    · rw [State.update_other _ _ hq] at hh
      exact .inr hh
  refine ⟨⟨hs.opens, fun q j held hh => ?_, hs.released⟩, ?_⟩
  · rcases hheld q j held hh with ⟨-, -, rfl⟩ | hh
    · exact .inr hn
    · exact hs.held q j held hh
  constructor
  case live =>
    exact State.forall_update (P := fun _ r => r.released = false) (hs.faithful.live p)
      hs.faithful.live
  case cached =>
    exact State.forall_update (P := fun q r => ∀ name symbol, r.cached? name = some symbol →
      F.reference a q name = .ok symbol) (hs.faithful.cached p) hs.faithful.cached
  case held =>
    intro q j held hh
    rcases hheld q j held hh with ⟨rfl, rfl, rfl⟩ | hh
    · exact ⟨he, hc, hf.number, hf.notReleased⟩
    · exact hs.faithful.held q j held hh
  case released => exact hs.faithful.released

/-! ## Symbols -/

/-- Remembering a symbol that the reference gives. -/
theorem Faithful.remember (hs : Faithful F a s) {name : String} {symbol : Symbol}
    (hr : F.reference a p name = .ok symbol) :
    Advances F a s (s.update p (·.remember name symbol)) := by
  have hreleased : ∀ q, ((s.update p (·.remember name symbol)).resolver q).released =
      (s.resolver q).released :=
    State.keep_update _ (fun r => r.released_remember name symbol) s p
  have hhandle : ∀ q i, ((s.update p (·.remember name symbol)).resolver q).handle? i =
      (s.resolver q).handle? i := fun q i =>
    State.keep_update (·.handle? i) (fun r => r.handle?_remember name symbol i) s p q
  refine ⟨⟨Nat.le_refl _, fun q i h hh => .inl (hhandle q i ▸ hh), fun h hh => .inl hh⟩, ?_⟩
  constructor
  case live => exact fun q => (hreleased q).trans (hs.live q)
  case cached =>
    refine State.forall_update (P := fun q r => ∀ name symbol, r.cached? name = some symbol →
      F.reference a q name = .ok symbol) ?_ hs.cached
    intro other found hf
    rw [ResolverState.cached?_remember] at hf
    by_cases ho : other = name
    · subst ho
      rw [if_pos rfl, Option.some.injEq] at hf
      cases hc : (s.resolver p).cached? other with
      | none => rw [hr, ← hf, hc]; rfl
      | some old => rw [hs.cached p other old hc, ← hf, hc]; rfl
    · rw [if_neg ho] at hf
      exact hs.cached p other found hf
  case held => exact fun q i h hh => hs.held q i h (hhandle q i ▸ hh)
  case released => exact hs.released

end TierIsolation.Forest
