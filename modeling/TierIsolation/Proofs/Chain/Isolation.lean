import TierIsolation.Proofs.Chain.Layers
import TierIsolation.Proofs.Forest.Frame
import TierIsolation.Proofs.Forest.Transparency

/-!
# Chains isolate their tiers

`resolve_isolated`: in a chain without further rules, a name with a boot prefix comes from the host,
and no tier uses an entry for it; any other name comes from the first tier that has it, from the one
that is asked outwards, whatever the host is. What the tiers further inside are makes no difference.
The host has an opener of its own, so what can be found is told apart by the place
(`ChainRecipe.answersAt`).

What the results are follows from the reference: `reference_of_isBoot` and `reference_of_not_isBoot`
are inductions along the layers. What a resolution does not use follows from where it can come to
(`sameEntries_of_isBoot`, `resolveWith_host_irrelevant`, `resolveWith_inner_irrelevant`).
-/

namespace TierIsolation.ChainRecipe

open Forest

/-- The first symbol among tiers: the first tier that has one, and in it the first entry. -/
def firstSymbol (holds : Entry → String → Option ByteArray) (name path : String)
    (tiers : List PluginTier) : Option Symbol :=
  tiers.findSome? fun tier =>
    tier.entries.toList.findSome? fun e => (holds e path).map (⟨name, e, tier.name, ·⟩)

theorem firstSymbol_cons (holds : Entry → String → Option ByteArray) (name path : String)
    (tier : PluginTier) (rest : List PluginTier) :
    firstSymbol holds name path (tier :: rest) =
      (tier.entries.toList.findSome? fun e => (holds e path).map (⟨name, e, tier.name, ·⟩)).or
        (firstSymbol holds name path rest) := by
  rw [firstSymbol, List.findSome?_cons]
  split
  · rename_i symbol h
    rw [h]
    rfl
  · rename_i h
    rw [h]
    rfl

/-- What is found by the tiers, and by the host. -/
def answersAt (inTiers atHost : Answers) : Place → Answers
  | .host _ => atHost
  | .resolver _ => inTiers

variable {recipe : ChainRecipe} {tiers : Tiers} {k : Nat} {tier : PluginTier} {name : String}
  {call : Call → State → State} {inTiers atHost : Answers}

theorem forall_openerAt {P : Opener → Prop} (h : P recipe.opener) (hhost : P recipe.hostOpener)
    (p : Place) : P (recipe.openerAt p) := by
  cases p with
  | host k => exact hhost
  | resolver i => exact h

theorem gives_openerAt (h : recipe.opener.Gives inTiers) (hhost : recipe.hostOpener.Gives atHost)
    (p : Place) : (recipe.openerAt p).Gives (answersAt inTiers atHost p) := by
  cases p with
  | host k => exact hhost
  | resolver i => exact h

theorem onlyResolves_openerAt (h : recipe.opener.OnlyResolves)
    (hhost : recipe.hostOpener.OnlyResolves) (p : Place) : (recipe.openerAt p).OnlyResolves :=
  forall_openerAt h hhost p

theorem quiet_openerAt (h : recipe.opener.Quiet) (hhost : recipe.hostOpener.Quiet) (p : Place) :
    (recipe.openerAt p).Quiet := forall_openerAt h hhost p

/-! ## Results -/

section Results

variable (hrules : recipe.rules = [])
include hrules

/-- A name with a boot prefix is what the host says, at every layer. -/
theorem reference_of_isBoot (hboot : recipe.IsBoot name) (a : Place → Answers)
    (hk : (layers tiers)[k]? = some tier) :
    (recipe.build tiers).forest.reference a (.resolver k) name =
      orNotFound name tier.name (recipe.host.answer (a (.host 0)) name) := by
  induction k generalizing tier with
  | zero =>
    rw [reference_eq, layer_modeFor_of_isBoot hrules hk hboot, delegated, parent?_container,
      layer_modeFor_of_isBoot hrules hk hboot, resolver_layer hk, (resolver_fields hk).1]
    rfl
  | succ k ih =>
    obtain ⟨outer, houter⟩ := exists_layer hk (Nat.le_succ k)
    have hdelegated : (recipe.build tiers).forest.delegated a (.resolver (k + 1)) name =
        recipe.host.answer (a (.host 0)) name := by
      simp only [delegated, parent?_inner hk, ih houter]
      exact orAbsent_orNotFound (recipe.host.answer_ne_notFound _ name)
    rw [reference_eq, layer_modeFor_of_isBoot hrules hk hboot, hdelegated, resolver_layer hk,
      (resolver_fields hk).1]
    rfl

variable {contents : Entry → Contents} {holds : Entry → String → Option ByteArray}

/-- Any other name is what the tiers have, from the layer outwards. -/
theorem reference_of_not_isBoot (hboot : ¬ recipe.IsBoot name)
    (hk : (layers tiers)[k]? = some tier) :
    (recipe.build tiers).forest.reference (answersAt (.unfailing contents holds) atHost)
        (.resolver k) name =
      orNotFound name tier.name (.ok (firstSymbol holds name (Symbol.path name recipe.suffix)
        ((layers tiers).take (k + 1)).reverse)) := by
  induction k generalizing tier with
  | zero =>
    obtain ⟨hname, hpath, -, hsuffix⟩ := @resolver_fields recipe tiers _ tier hk
    have hdelegated : (recipe.build tiers).forest.delegated
        (answersAt (.unfailing contents holds) atHost) (.resolver 0) name = .ok none := by
      simp [delegated, parent?_container, resolver_layer hk, layer, container,
        modeFor_of_not_isBoot hrules hboot]
    rw [reference_eq, layer_modeFor_of_not_isBoot hrules hk hboot, hdelegated, resolver_layer hk,
      hname, hpath, hsuffix, answersAt, Answers.find_unfailing, LookupMode.select, firstFound_ok,
      reverse_take_layers hk, firstSymbol_cons]
    rfl
  | succ k ih =>
    obtain ⟨outer, houter⟩ := exists_layer hk (Nat.le_succ k)
    obtain ⟨hname, hpath, -, hsuffix⟩ := @resolver_fields recipe tiers _ tier hk
    have hdelegated : (recipe.build tiers).forest.delegated
        (answersAt (.unfailing contents holds) atHost) (.resolver (k + 1)) name =
          .ok (firstSymbol holds name (Symbol.path name recipe.suffix)
            ((layers tiers).take (k + 1)).reverse) := by
      simp only [delegated, parent?_inner hk, ih houter]
      exact orAbsent_orNotFound (by simp)
    rw [reference_eq, layer_modeFor_of_not_isBoot hrules hk hboot, hdelegated, resolver_layer hk,
      hname, hpath, hsuffix, answersAt, Answers.find_unfailing, LookupMode.select, firstFound_ok,
      reverse_take_layers hk, firstSymbol_cons]

end Results

/-! ## What is not used -/

section Uses

variable (hrules : recipe.rules = [])
include hrules

/-- For a name with a boot prefix, entries are used as the host uses them, or not at all. The
induction is along the layers: each of them only asks its parent, the container asks the host. -/
theorem sameEntries_of_isBoot (hboot : recipe.IsBoot name) (hk : (layers tiers)[k]? = some tier)
    (s : State) :
    let F := (recipe.build tiers).forest
    (F.resolveWith call (.resolver k) name s).1.SameEntries s ∨
      (F.resolveWith call (.resolver k) name s).1.SameEntries
        (F.askSource call name (F.hostSource 0) s).1 := by
  intro F
  induction k generalizing tier with
  | zero =>
    rw [resolveWith_eq, layer_modeFor_of_isBoot hrules hk hboot, source_container, if_pos rfl]
    exact resolveBy_sameEntries (.resolver 0) name (F.askSource call name (F.hostSource 0)) s
  | succ k ih =>
    obtain ⟨outer, houter⟩ := exists_layer hk (Nat.le_succ k)
    rw [resolveWith_eq, layer_modeFor_of_isBoot hrules hk hboot, source_inner hk]
    rcases resolveBy_sameEntries (F := F) (.resolver (k + 1)) name
      (F.askSource call name (.resolver (.resolver k))) s with h | h
    · exact .inl h
    · have hasked : (F.askSource call name (.resolver (.resolver k)) s).1 =
          (F.resolveWith call (.resolver k) name s).1 := orNothing_fst _
      rw [hasked] at h
      rcases ih houter with h' | h'
      · exact .inl (h.trans h')
      · exact .inr (h.trans h')

/-- Any other name has nothing to do with the host. -/
theorem resolveWith_host_irrelevant (hboot : ¬ recipe.IsBoot name)
    (hk : (layers tiers)[k]? = some tier) (host : Host) (hostOpener : Opener) :
    (({ recipe with host, hostOpener }).build tiers).forest.resolveWith call (.resolver k) name =
      (recipe.build tiers).forest.resolveWith call (.resolver k) name := by
  have hmode : ∀ {j tier}, (layers tiers)[j]? = some tier →
      ((({ recipe with host, hostOpener }).build tiers).forest.resolver
        (.resolver j)).policy.modeFor name = .selfFirst :=
    fun hj => layer_modeFor_of_not_isBoot hrules hj hboot
  -- a resolution stays among the layers
  refine resolveWith_congr
    (D := fun q => ∃ j tier, (layers tiers)[j]? = some tier ∧ q = .resolver j) ?_ ?_ ?_
    ⟨k, tier, hk, rfl⟩
  · rintro _ ⟨j, tier, hj, rfl⟩
    exact ⟨rfl, rfl⟩
  · rintro _ ⟨j, tier, hj, rfl⟩
    rw [hmode hj]
    cases j with
    | zero => simp [source_container]
    | succ j => rw [source_inner hj, source_inner hj]
  · rintro _ r ⟨j, tier, hj, rfl⟩ hr
    rw [hmode hj] at hr
    cases j with
    | zero => simp [source_container] at hr
    | succ j =>
      rw [source_inner hj, Source.resolver.injEq] at hr
      obtain ⟨outer, houter⟩ := exists_layer hj (Nat.le_succ j)
      exact ⟨j, outer, houter, hr.symm⟩

omit hrules in
/-- The layers inside the one that is asked make no difference. -/
theorem resolveWith_inner_irrelevant (hk : (layers tiers)[k]? = some tier) {others : Tiers}
    (h : (layers others).take (k + 1) = (layers tiers).take (k + 1)) :
    (recipe.build others).forest.resolveWith call (.resolver k) name =
      (recipe.build tiers).forest.resolveWith call (.resolver k) name := by
  have hsame : ∀ j ≤ k, (layers others)[j]? = (layers tiers)[j]? := by
    intro j hj
    rw [← List.getElem?_take_of_lt (by omega : j < k + 1), h, List.getElem?_take_of_lt (by omega)]
  -- a resolution goes outwards, or to the host
  refine resolveWith_congr (D := fun q => q = .host 0 ∨ ∃ j ≤ k, q = .resolver j) ?_ ?_ ?_
    (.inr ⟨k, Nat.le_refl k, rfl⟩)
  · rintro _ (rfl | ⟨j, hj, rfl⟩)
    · exact ⟨rfl, rfl⟩
    · obtain ⟨outer, houter⟩ := exists_layer hk hj
      refine ⟨?_, rfl⟩
      rw [resolver_layer houter, resolver_layer ((hsame j hj).trans houter)]
  · rintro _ (rfl | ⟨j, hj, rfl⟩)
    · rfl
    · obtain ⟨outer, houter⟩ := exists_layer hk hj
      cases j with
      | zero => rw [source_container, source_container]; rfl
      | succ j => rw [source_inner houter, source_inner ((hsame _ hj).trans houter)]
  · rintro _ r (rfl | ⟨j, hj, rfl⟩) hr
    · cases hr
    · obtain ⟨outer, houter⟩ := exists_layer hk hj
      cases j with
      | zero =>
        rw [source_container] at hr
        split at hr
        · exact .inl (hostSource_eq_resolver hr)
        · cases hr
      | succ j =>
        rw [source_inner ((hsame _ hj).trans houter), Source.resolver.injEq] at hr
        exact .inr ⟨j, by omega, hr.symm⟩

end Uses

/-! ## Isolation -/

/-- **A chain isolates its tiers.** After any run without a release, a name with a boot prefix is
what the host says, and the openers do nothing, or what they do for the host alone; any other name
is the first symbol of the tiers from the one that is asked outwards, and is resolved in the same
way whatever the host and its opener are. The tiers further inside do not matter. -/
theorem resolve_isolated {contents hostContents : Entry → Contents}
    {holds hostHolds : Entry → String → Option ByteArray} (hrules : recipe.rules = [])
    (hgives : recipe.opener.Gives (.unfailing contents holds))
    (hhost : recipe.hostOpener.Gives (.unfailing hostContents hostHolds))
    (honly : recipe.opener.OnlyResolves) (hhostOnly : recipe.hostOpener.OnlyResolves) (depth : Nat)
    {operations : List Operation} (ho : ∀ o ∈ operations, o.isRelease = false)
    (hk : (layers tiers)[k]? = some tier) (name : String) :
    let F := (recipe.build tiers).forest
    let s := F.run depth operations {}
    let outcome := F.resolve depth (.resolver k) name s
    let asked := F.hostLookup depth 0 name s
    (recipe.IsBoot name →
      (∃ found, asked.2 = .ok found ∧ outcome.2 = orNotFound name tier.name (.ok found)) ∧
      (outcome.1.SameEntries s ∨ outcome.1.SameEntries asked.1) ∧
      (recipe.hostOpener.Quiet → ∀ i, (outcome.1.resolver (.resolver i)).handles =
        (s.resolver (.resolver i)).handles)) ∧
    (¬ recipe.IsBoot name →
      outcome.2 = orNotFound name tier.name (.ok (firstSymbol holds name
        (Symbol.path name recipe.suffix) ((layers tiers).take (k + 1)).reverse)) ∧
      ∀ host hostOpener call, (({ recipe with host, hostOpener }).build tiers).forest.resolveWith
        call (.resolver k) name = F.resolveWith call (.resolver k) name) ∧
    ∀ others, (layers others).take (k + 1) = (layers tiers).take (k + 1) → ∀ call,
      (recipe.build others).forest.resolveWith call (.resolver k) name =
        F.resolveWith call (.resolver k) name := by
  intro F s outcome asked
  let a := answersAt (.unfailing contents holds) (.unfailing hostContents hostHolds)
  have hF : F.Gives a := gives_openerAt hgives hhost
  have hcalls : F.OnlyResolves := onlyResolves_openerAt honly hhostOnly
  have hs : Faithful F a s := run_faithful hF hcalls depth ho
  have hresult : outcome.2 = F.reference a (.resolver k) name :=
    (resolve_refines hF hcalls depth (.resolver k) name s hs).2
  refine ⟨fun hboot => ⟨?_, ?_⟩, fun hboot => ⟨?_, ?_⟩, ?_⟩
  · -- the host's answer
    obtain ⟨found, hfound⟩ := recipe.host.exists_answer_unfailing name
    refine ⟨found, ?_, ?_⟩
    · exact (hostLookup_refines hF hcalls depth 0 name s hs).2.trans hfound
    · rw [hresult, reference_of_isBoot hrules hboot _ hk]
      exact congrArg _ hfound
  · -- the entries that are used
    have huses : outcome.1.SameEntries s ∨ outcome.1.SameEntries asked.1 := by
      simp only [outcome, asked, hostLookup_eq]
      exact sameEntries_of_isBoot hrules hboot hk s
    refine ⟨huses, fun hquiet i => ?_⟩
    rcases huses with h | h
    · exact h.handles (.resolver i)
    · rw [h.handles, hostLookup_spares (F := F) hquiet depth i s]
  · rw [hresult, reference_of_not_isBoot hrules hboot hk]
  · exact fun host hostOpener call => resolveWith_host_irrelevant hrules hboot hk host hostOpener
  · exact fun others h call => resolveWith_inner_irrelevant hk h

/-! ## A chain of three tiers -/

/-- Files in memory: the same code in a plugin tier and in the container. -/
def sampleFiles : List Opener.StoredFile :=
  [⟨"/container/", "lib/Tool.class", ⟨#[1]⟩⟩, ⟨"/plugin/", "lib/Tool.class", ⟨#[2]⟩⟩,
    ⟨"/app/", "java/Object.class", ⟨#[3]⟩⟩]

def sampleTiers : Tiers where
  artifactUnderTest := default
  container := .ofList [⟨"/container/", .directory⟩]
  plugins := [⟨"file", .ofList [⟨"/plugin/", .directory⟩]⟩]
  application := .ofList [⟨"/app/", .directory⟩]

/-- The host has what starts with `java.`. -/
def sample : ChainRecipe where
  host := .table "jre" (.ofList [("java.Object", ⟨#[0]⟩)])
  opener := .memory sampleFiles []
  bootPrefixes := ["java."]

def sampleRun : List Operation :=
  [.resolve (.resolver 0) "lib.Tool", .tryResolve (.resolver 2) "java.None"]

/-- The application finds the tool of the plugin, although the container has one and was asked
first, and the code of the host, although it has such code itself. -/
theorem sample_isolated :
    ((sample.build sampleTiers).forest.resolve 1 (.resolver 2) "lib.Tool"
      ((sample.build sampleTiers).forest.run 1 sampleRun {})).2 =
        .ok ⟨"lib.Tool", ⟨"/plugin/", .directory⟩, "file", ⟨#[2]⟩⟩ ∧
    ((sample.build sampleTiers).forest.resolve 1 (.resolver 2) "java.Object"
      ((sample.build sampleTiers).forest.run 1 sampleRun {})).2 =
        .ok ⟨"java.Object", .directory "host/jre", "jre", ⟨#[0]⟩⟩ := by
  have h := @resolve_isolated sample sampleTiers 2
    ⟨applicationName, .ofList [⟨"/app/", .directory⟩]⟩ _ _ _ _ rfl
    (Opener.memory_gives sampleFiles []) (Opener.memory_gives sampleFiles [])
    (Opener.memory_quiet sampleFiles []).onlyResolves
    (Opener.memory_quiet sampleFiles []).onlyResolves 1 sampleRun (by decide) rfl
  constructor
  · have hboot : ¬ sample.IsBoot "lib.Tool" := by decide
    obtain ⟨hresult, -⟩ := (h "lib.Tool").2.1 hboot
    rw [hresult]
    decide +kernel
  · have hboot : sample.IsBoot "java.Object" := by decide
    obtain ⟨⟨found, hfound, hresult⟩, -⟩ := (h "java.Object").1 hboot
    have hanswer : (.ok found : Except ResolutionFault (Option Symbol)) =
        .ok (some ⟨"java.Object", .directory "host/jre", "jre", ⟨#[0]⟩⟩) := hfound.symm
    rw [hresult, hanswer]
    rfl

end TierIsolation.ChainRecipe
