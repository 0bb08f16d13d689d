import TierIsolation.Proofs.Chain.Isolation
import TierIsolation.Proofs.Forest.Locality

/-!
# A chain whose host was released before

A host with entries that was released refuses, and so does every layer for a name with a boot
prefix. All other names are what they always are, whatever the host is.

`resolve_released_host` says so for every state in which all but the host is right
(`RightButHost`), and that resolutions lead to such states again. The tiers are those of a chain
without that host (`Host.withoutEntries`), which never comes to the resolver behind a host: a
resolution there is apart from it (`resolveWith_apart`), and gives what the reference says.
-/

namespace TierIsolation

open Forest

/-- The host without a resolver of its own. -/
def Host.withoutEntries : Host → Host
  | .entries _ _ => .empty
  | host => host

/-- Only a host with entries has a resolver that others turn to. -/
theorem Forest.host_of_source {F : Forest} {p : Place} {k : Nat} {mode : LookupMode}
    (h : F.source p mode = .resolver (.host k)) :
    ∃ owner path, F.host k = .entries owner path := by
  obtain ⟨q, hparent, hq⟩ | ⟨-, hnothing | ⟨j, -, hhost⟩⟩ := F.source_cases p mode
  · obtain rfl := Source.resolver.inj (hq.symm.trans h)
    exact absurd hparent (F.parent?_ne_host p k)
  · rw [hnothing] at h
    cases h
  · have hsource : F.hostSource j = .resolver (.host k) := hhost.symm.trans h
    obtain rfl := Place.host.inj (hostSource_eq_resolver hsource)
    have hmem : .host k ∈ F.hostPlaces k := by simp [hostPlaces, hsource]
    exact (mem_hostPlaces.1 hmem).2

namespace ChainRecipe

variable {recipe : ChainRecipe} {tiers : Tiers} {k : Nat} {tier : PluginTier} {name owner : String}
  {path : List Entry} {a : Place → Answers} {s : State}

/-- The recipe for the same chain without a resolver behind the host. -/
def withoutEntries (recipe : ChainRecipe) : ChainRecipe :=
  { recipe with host := recipe.host.withoutEntries }

theorem withoutEntries_eq (recipe : ChainRecipe) : recipe.withoutEntries = recipe ∨
    (∃ owner path, recipe.host = .entries owner path) ∧
      recipe.withoutEntries = { recipe with host := .empty } := by
  obtain ⟨host, opener, hostOpener, bootPrefixes, suffix, rules⟩ := recipe
  cases host with
  | empty => exact .inl rfl
  | table owner symbols => exact .inl rfl
  | entries owner path => exact .inr ⟨⟨owner, path, rfl⟩, rfl⟩

/-- What a layer answers after its host was released, by what it answers before. -/
def afterRelease (recipe : ChainRecipe) (answer : String → Except ResolutionFault Symbol)
    (name : String) : Except ResolutionFault Symbol :=
  match recipe.host with
  | .entries owner _ => if recipe.IsBoot name then .error (.released owner) else answer name
  | _ => answer name

/-- Where no host refuses, nothing changes. -/
theorem afterRelease_eq {answer : String → Except ResolutionFault Symbol}
    (h : recipe.IsBoot name → ∀ owner path, recipe.host ≠ .entries owner path) :
    recipe.afterRelease answer name = answer name := by
  unfold afterRelease
  split
  · rename_i owner path hhost
    exact if_neg fun hboot => h hboot owner path hhost
  · rfl

/-! ## Names without a boot prefix -/

theorem delegated_container (hrules : recipe.rules = []) (hboot : ¬ recipe.IsBoot name)
    (a : Place → Answers) (hk : (layers tiers)[0]? = some tier) :
    (recipe.build tiers).forest.delegated a (.resolver 0) name = .ok none := by
  simp [delegated, parent?_container, resolver_layer hk, layer, container,
    modeFor_of_not_isBoot hrules hboot]

/-- The host makes no difference to other names, not even where entries fail. -/
theorem reference_host_irrelevant (hrules : recipe.rules = []) (hboot : ¬ recipe.IsBoot name)
    (host : Host) (a : Place → Answers) (hk : (layers tiers)[k]? = some tier) :
    (({ recipe with host }).build tiers).forest.reference a (.resolver k) name =
      (recipe.build tiers).forest.reference a (.resolver k) name := by
  have hresolver (j : Nat) : (({ recipe with host }).build tiers).forest.resolver (.resolver j) =
      (recipe.build tiers).forest.resolver (.resolver j) := rfl
  induction k generalizing tier with
  | zero =>
    have hrules' : ({ recipe with host }).rules = [] := hrules
    rw [reference_eq, reference_eq, hresolver, delegated_container hrules hboot a hk,
      delegated_container hrules' hboot a hk]
  | succ k ih =>
    obtain ⟨outer, houter⟩ := exists_layer hk (Nat.le_succ k)
    rw [reference_eq, reference_eq, hresolver]
    simp only [delegated, parent?_inner hk, ih houter]

/-- Nor does it make one to what is done for them. -/
theorem resolve_withoutEntries (hrules : recipe.rules = [])
    (hquiet : ∀ p, (recipe.openerAt p).Quiet)
    (hname : recipe.IsBoot name → ∀ owner path, recipe.host ≠ .entries owner path)
    (hk : (layers tiers)[k]? = some tier) (depth : Nat) :
    (recipe.build tiers).forest.resolve depth (.resolver k) name =
      (recipe.withoutEntries.build tiers).forest.resolve depth (.resolver k) name := by
  unfold resolve
  rw [resolveWith_quiet (F := (recipe.build tiers).forest) hquiet _
    ((recipe.withoutEntries.build tiers).forest.runCall depth)]
  rcases recipe.withoutEntries_eq with hsame | ⟨⟨owner, path, hhost⟩, hempty⟩
  · rw [hsame]
  · have hboot : ¬ recipe.IsBoot name := fun hboot => hname hboot owner path hhost
    rw [hempty]
    exact (resolveWith_host_irrelevant hrules hboot hk .empty recipe.hostOpener).symm

/-- The reference is the same as well. -/
theorem reference_withoutEntries (hrules : recipe.rules = []) (a : Place → Answers)
    (hname : recipe.IsBoot name → ∀ owner path, recipe.host ≠ .entries owner path)
    (hk : (layers tiers)[k]? = some tier) :
    (recipe.withoutEntries.build tiers).forest.reference a (.resolver k) name =
      (recipe.build tiers).forest.reference a (.resolver k) name := by
  rcases recipe.withoutEntries_eq with hsame | ⟨⟨owner, path, hhost⟩, hempty⟩
  · rw [hsame]
  · have hboot : ¬ recipe.IsBoot name := fun hboot => hname hboot owner path hhost
    rw [hempty]
    exact reference_host_irrelevant hrules hboot .empty a hk

/-- A chain without a resolver behind the host stays among its tiers. -/
theorem resolve_withoutEntries_apart (hquiet : ∀ p, (recipe.openerAt p).Quiet) (depth k : Nat)
    (name : String) :
    Apart (.host 0)
      ((recipe.withoutEntries.build tiers).forest.resolve depth (.resolver k) name) := by
  refine resolveWith_apart (F := (recipe.withoutEntries.build tiers).forest)
    (undisturbed_of_quiet (F := (recipe.withoutEntries.build tiers).forest) hquiet _)
    (D := fun p => p ≠ .host 0) (fun h => h rfl) ?_ (by simp)
  rintro p q mode - hq rfl
  obtain ⟨owner, path, hhost⟩ := host_of_source hq
  have hnone (host : Host) : host.withoutEntries ≠ .entries owner path := by
    cases host <;> simp [Host.withoutEntries]
  exact hnone recipe.host hhost

/-! ## What is right -/

/-- All is right but the host: it was released, if it has entries. -/
structure RightButHost (recipe : ChainRecipe) (tiers : Tiers) (a : Place → Answers) (s : State) :
    Prop where
  released : ∀ owner path, recipe.host = .entries owner path →
    (s.resolver (.host 0)).released = true
  faithful : Faithful (recipe.withoutEntries.build tiers).forest a (s.put (.host 0) {})

/-- Names with a boot prefix are refused. The induction is along the layers: each of them only asks
its parent, the container asks the host, and none of them has the name already. -/
theorem resolve_refused (hrules : recipe.rules = []) (hhost : recipe.host = .entries owner path)
    (hboot : recipe.IsBoot name) (hs : RightButHost recipe tiers a s)
    (hk : (layers tiers)[k]? = some tier) (depth : Nat) :
    (recipe.build tiers).forest.resolve depth (.resolver k) name s =
      (s, .error (.released owner)) := by
  let F := (recipe.build tiers).forest
  have hlive (j : Nat) : (s.resolver (.resolver j)).released = false := by
    have := hs.faithful.live (.resolver j)
    rwa [State.put_other _ _ (by simp)] at this
  have hmissing {j : Nat} {t : PluginTier} (hj : (layers tiers)[j]? = some t) :
      (s.resolver (.resolver j)).cached? name = none := by
    cases hcached : (s.resolver (.resolver j)).cached? name with
    | none => rfl
    | some symbol =>
      have hfound := hs.faithful.cached (.resolver j) name symbol
      rw [State.put_other _ _ (by simp)] at hfound
      -- without entries the host has nothing
      have hnothing : recipe.withoutEntries.host = .empty := by
        simp only [withoutEntries, hhost, Host.withoutEntries]
      have hrules' : recipe.withoutEntries.rules = [] := hrules
      have hreference := reference_of_isBoot hrules' hboot a hj
      rw [hfound hcached, hnothing] at hreference
      cases hreference
  -- what the source refuses, the resolver refuses
  have hrefuses {j : Nat} {t : PluginTier} (hj : (layers tiers)[j]? = some t)
      (hsource : F.askSource (F.runCall depth) name
        (F.source (.resolver j) .parentOnly) s = (s, .error (.released owner))) :
      F.resolve depth (.resolver j) name s = (s, .error (.released owner)) := by
    rw [resolve, resolveWith_eq, layer_modeFor_of_isBoot hrules hj hboot]
    simp only [resolveBy, hlive j, hmissing hj, searchBy, hsource]
    rfl
  induction k generalizing tier with
  | zero =>
    refine hrefuses hk ?_
    have hhostSource : F.source (.resolver 0) .parentOnly = .resolver (.host 0) := by
      rw [source_container, if_pos rfl]
      simp only [hostSource, host_build, hhost]
    have hname : (F.resolver (.host 0)).name = owner := by
      simp [F, Forest.resolver, hhost, Host.resolver]
    have hasked : F.resolve depth (.host 0) name s = (s, .error (.released owner)) := by
      rw [resolve_of_released F (hs.released owner path hhost), hname]
    rw [hhostSource]
    exact congrArg orNothing hasked
  | succ k ih =>
    obtain ⟨outer, houter⟩ := exists_layer hk (Nat.le_succ k)
    refine hrefuses hk ?_
    rw [source_inner hk]
    exact congrArg orNothing (ih houter)

/-- **After the release of its host** a chain refuses names with a boot prefix, if the host has
entries, and resolves all others as ever. -/
theorem resolve_released_host (hrules : recipe.rules = [])
    (hgives : ∀ p, (recipe.openerAt p).Gives (a p)) (hquiet : ∀ p, (recipe.openerAt p).Quiet)
    (hs : RightButHost recipe tiers a s)
    (hk : (layers tiers)[k]? = some tier) (depth : Nat) (name : String) :
    let F := (recipe.build tiers).forest
    let outcome := F.resolve depth (.resolver k) name s
    RightButHost recipe tiers a outcome.1 ∧
      outcome.2 = recipe.afterRelease (F.reference a (.resolver k)) name := by
  intro F outcome
  by_cases hrefused : recipe.IsBoot name ∧ ∃ owner path, recipe.host = .entries owner path
  · obtain ⟨hboot, owner, path, hhost⟩ := hrefused
    have houtcome : outcome = (s, .error (.released owner)) :=
      resolve_refused hrules hhost hboot hs hk depth
    rw [houtcome]
    refine ⟨hs, ?_⟩
    simp only [afterRelease, hhost, if_pos hboot]
  · have hname : recipe.IsBoot name → ∀ owner path, recipe.host ≠ .entries owner path :=
      fun hboot owner path hhost => hrefused ⟨hboot, owner, path, hhost⟩
    let G := (recipe.withoutEntries.build tiers).forest
    have houtcome : outcome = G.resolve depth (.resolver k) name s :=
      congrFun (resolve_withoutEntries hrules hquiet hname hk depth) s
    have hapart : Apart (.host 0) (G.resolve depth (.resolver k) name) :=
      resolve_withoutEntries_apart hquiet depth k name
    obtain ⟨hadvances, hresult⟩ := resolve_refines (F := G) hgives (Quiet.onlyResolves hquiet)
      depth      (.resolver k) name (s.put (.host 0) {}) hs.faithful
    rw [hapart s {}] at hadvances hresult
    rw [houtcome, afterRelease_eq hname]
    refine ⟨⟨fun owner path hhost => ?_, hadvances.faithful⟩, ?_⟩
    · rw [hapart.resolver_eq s]
      exact hs.released owner path hhost
    · exact hresult.trans (reference_withoutEntries hrules a hname hk)

end ChainRecipe

end TierIsolation
