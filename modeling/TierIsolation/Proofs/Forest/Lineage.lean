import Mathlib.Logic.Relation
import TierIsolation.Forest

/-!
# Lineages

The lineage of a resolver is the resolver with its ancestors: its parent, the parent of that, and so
on up to the root, which has none (`Forest.lineage`).

To find a name, a resolver turns to its source for the name, this one to its own, and so on
(`Forest.TurnsTo`). `TurnsTo.mem_lineage`: the name leads up the lineage, and in the end, if
the root asks its host, to the resolver behind that host.
-/

namespace TierIsolation.Forest

/-! ## Ancestors -/

/-- A resolver and its ancestors, the root last. -/
def lineage (F : Forest) (p : Place) : List Place :=
  p ::
    match h : F.parent? p with
    | some q =>
      have := rank_parent h
      lineage F q
    | none => []
termination_by p.rank

variable {F : Forest} {p q r : Place} {name : String} {mode : LookupMode}

theorem lineage_of_root (h : F.parent? p = none) : F.lineage p = [p] := by
  rw [lineage]
  split
  · simp_all
  · rfl

theorem lineage_of_parent (h : F.parent? p = some q) : F.lineage p = p :: F.lineage q := by
  rw [lineage]
  split
  · rename_i r hr
    rw [h, Option.some.injEq] at hr
    rw [hr]
  · simp_all

theorem mem_lineage_self (p : Place) : p ∈ F.lineage p := by
  rw [lineage]
  exact List.mem_cons_self

/-- The resolver behind a host is nobody's parent. -/
theorem parent?_ne_host (F : Forest) (p : Place) (k : Nat) : F.parent? p ≠ some (.host k) := by
  cases p with
  | host j => simp [parent?]
  | resolver i =>
    simp only [parent?]
    split
    · split <;> simp
    · simp

/-- The source of a resolver with a parent is the parent. -/
theorem source_of_parent (h : F.parent? p = some q) (mode : LookupMode) :
    F.source p mode = .resolver q := by
  simp only [source, h]

/-- A resolver turns to its parent; one that has none to its host, or to nobody. -/
theorem source_cases (F : Forest) (p : Place) (mode : LookupMode) :
    (∃ q, F.parent? p = some q ∧ F.source p mode = .resolver q) ∨
      F.parent? p = none ∧ (F.source p mode = .nothing ∨
        ∃ k, (F.resolver p).host = some k ∧ F.source p mode = F.hostSource k) := by
  cases hparent : F.parent? p with
  | some q => exact .inl ⟨q, rfl, source_of_parent hparent mode⟩
  | none =>
    refine .inr ⟨rfl, ?_⟩
    cases p with
    | host k => exact .inl rfl
    | resolver i =>
      simp only [source, hparent]
      cases hhost : (F.resolver (.resolver i)).host with
      | none => exact .inl rfl
      | some k =>
        by_cases hasks : asksHost (F.resolver (.resolver i)) mode
        · exact .inr ⟨k, rfl, if_pos hasks⟩
        · exact .inl (if_neg hasks)

/-- Only one resolver stands behind a host. -/
theorem hostSource_eq_resolver {k : Nat} (h : F.hostSource k = .resolver q) : q = .host k := by
  unfold hostSource at h
  split at h <;> cases h
  rfl

/-- The place of the resolver that a host has; a host without search path has none. -/
def hostPlaces (F : Forest) (k : Nat) : List Place :=
  match F.hostSource k with
  | .resolver p => [p]
  | _ => []

theorem mem_hostPlaces {k : Nat} :
    p ∈ F.hostPlaces k ↔ p = .host k ∧ ∃ owner path, F.host k = .entries owner path := by
  unfold hostPlaces hostSource
  cases F.host k <;> simp

/-- A resolver turns to its parent, or else to the resolver behind its host. -/
theorem source_eq_resolver (h : F.source p mode = .resolver q) :
    F.parent? p = some q ∨ F.parent? p = none ∧
      ∃ k, (F.resolver p).host = some k ∧ q = .host k := by
  obtain ⟨r, hparent, hr⟩ | ⟨hroot, hnothing | ⟨k, hk, hhost⟩⟩ := F.source_cases p mode
  · rw [hr, Source.resolver.injEq] at h
    exact .inl (h ▸ hparent)
  · rw [hnothing] at h
    cases h
  · exact .inr ⟨hroot, k, hk, hostSource_eq_resolver (hhost.symm.trans h)⟩

/-- With a resolver, its parent is in a lineage. -/
theorem mem_lineage_parent (h : q ∈ F.lineage p) (hparent : F.parent? q = some r) :
    r ∈ F.lineage p := by
  induction p using source_induction (F := F) with
  | h p ih =>
    cases hp : F.parent? p with
    | none =>
      rw [lineage_of_root hp, List.mem_singleton] at h
      rw [h, hp] at hparent
      cases hparent
    | some p' =>
      rw [lineage_of_parent hp] at h ⊢
      refine List.mem_cons_of_mem _ ?_
      obtain rfl | h := List.mem_cons.1 h
      · rw [hp, Option.some.injEq] at hparent
        exact hparent ▸ mem_lineage_self p'
      · exact ih p' .parentOnly (source_of_parent hp _) h

/-! ## Where a name leads -/

/-- Looking for the name, a resolver turns to another one, directly or from source to source. -/
def TurnsTo (F : Forest) (name : String) : Place → Place → Prop :=
  Relation.ReflTransGen fun p q =>
    F.source p ((F.resolver p).policy.modeFor name) = .resolver q

/-- A name leads to resolvers that stand lower. -/
theorem TurnsTo.rank_le (h : TurnsTo F name p q) : q.rank ≤ p.rank := by
  induction h with
  | refl => exact Nat.le_refl _
  | tail _ hsource ih => exact Nat.le_trans (Nat.le_of_lt (rank_source hsource)) ih

/-- A name leads to ancestors, or to the host that the root of them asks for it. -/
theorem TurnsTo.mem_lineage (h : TurnsTo F name p q) :
    q ∈ F.lineage p ∨ ∃ k, q = .host k ∧ ∃ root ∈ F.lineage p, F.parent? root = none ∧
      F.source root ((F.resolver root).policy.modeFor name) = .resolver (.host k) := by
  induction h with
  | refl => exact .inl (mem_lineage_self p)
  | @tail q r _ hsource ih =>
    obtain hq | ⟨k, rfl, -⟩ := ih
    · obtain hparent | ⟨hroot, k, -, rfl⟩ := source_eq_resolver hsource
      · exact .inl (mem_lineage_parent hq hparent)
      · exact .inr ⟨k, rfl, q, hq, hroot, hsource⟩
    · -- the resolver behind a host turns to nobody
      cases hsource

end TierIsolation.Forest
