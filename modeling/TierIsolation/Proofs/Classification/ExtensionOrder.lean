import TierIsolation.Proofs.Classification.Precedence

/-!
# The order of extensions decides who owns what is shared

`classify_extensions_perm`: the same extensions in another order lead to the same application, the
same container and the same plugin entries altogether. Only an entry that several extensions ask for
may change hands: it belongs to the first of them (`Classification.OwnedInOrder`).

What the plugin tiers get altogether is what they claim, less what is taken before
(`Claims.mem_pluginEntries_settle`), and that does not mention an order.
-/

namespace TierIsolation

/-! ## The settlement of claims -/

namespace Claims

variable {c d : Claims} {precedence : Precedence} {classpath : List Entry} {a : Artifact}
  {e : Entry}

/-- The plugin tiers together get what any of them claims, less what they may not have. -/
theorem mem_pluginEntries_settle :
    e ∈ Tiers.pluginEntries (c.settle precedence classpath a).plugins ↔
      e ∈ Tiers.pluginEntries c.plugins ∧ (precedence = .container → e ∉ c.provided) ∧
        e ∉ (c.settle precedence classpath a).application := by
  constructor
  · intro he
    obtain ⟨p, hp, hep⟩ := Tiers.mem_pluginEntries.1 he
    obtain ⟨i, hi⟩ := List.mem_iff_getElem?.1 hp
    obtain ⟨q, hq, -, hmem⟩ := mem_plugin hi
    obtain ⟨hclaimed, hprovided, happlication, -⟩ := (hmem e).1 hep
    have hasked : e ∈ Tiers.pluginEntries c.plugins :=
      Tiers.mem_pluginEntries.2 ⟨q, List.mem_of_getElem? hq, hclaimed⟩
    exact ⟨hasked, hprovided, happlication⟩
  · rintro ⟨he, hprovided, happlication⟩
    obtain ⟨q, hq, heq⟩ := Tiers.mem_pluginEntries.1 he
    have hallowed : e ∈ Tiers.pluginEntries (c.plugins.map fun p =>
        { p with entries := withoutProvided precedence c.provided p.entries }) :=
      Tiers.mem_pluginEntries.2 ⟨_, List.mem_map_of_mem hq, mem_withoutProvided.2 ⟨heq, hprovided⟩⟩
    exact (mem_taken_or_settled.2 (.inr hallowed)).resolve_left happlication

/-- Claims that differ in the order of the plugin tiers at most settle to the same application, the
same container and the same plugin entries altogether. -/
theorem settle_plugins_perm (happlication : c.application = d.application)
    (hprovided : c.provided = d.provided) (hplugins : c.plugins.Perm d.plugins) :
    (c.settle precedence classpath a).application = (d.settle precedence classpath a).application ∧
      (c.settle precedence classpath a).container = (d.settle precedence classpath a).container ∧
      ∀ e, e ∈ Tiers.pluginEntries (c.settle precedence classpath a).plugins ↔
        e ∈ Tiers.pluginEntries (d.settle precedence classpath a).plugins := by
  have happ : (c.settle precedence classpath a).application =
      (d.settle precedence classpath a).application := by
    simp only [settle, happlication, hprovided]
  have hentries (e : Entry) : e ∈ Tiers.pluginEntries (c.settle precedence classpath a).plugins ↔
      e ∈ Tiers.pluginEntries (d.settle precedence classpath a).plugins := by
    have hclaimed : e ∈ Tiers.pluginEntries c.plugins ↔ e ∈ Tiers.pluginEntries d.plugins :=
      (hplugins.flatMap_right _).mem_iff
    rw [mem_pluginEntries_settle, mem_pluginEntries_settle, hclaimed, hprovided, happ]
  refine ⟨happ, OrderedSet.ext fun e => ?_, hentries⟩
  rw [mem_container, mem_container, hentries, happ, hprovided]

end Claims

/-! ## The classification -/

namespace Classification

/-- The same request with other extensions. -/
def withExtensions (c : Classification) (xs : List Extension) : Classification :=
  { c with configuration := { c.configuration with extensions := xs } }

/-- The entry is one that an extension asks for: that of an artifact its patterns select, or of
something such an artifact leads to by compiled dependencies, or its metadata location. Of several
declarations of one artifact the first met counts. -/
def IsOwn (c : Classification) (x : Extension) (e : Entry) : Prop :=
  (∃ matcher, CoordinateMatcher.parse x.artifact.toList = .ok matcher ∧
    c.IsEntryOf (compileClosure c.graph (c.graph.nodes.filter matcher.accepts)) e) ∨
  ∃ m, x.metadataLocation = some m ∧ e = Entry.ofText m

/-- There is a plugin tier for each extension, in their order, and it has those entries of the
extension that no earlier one asks for, less the provided ones, if the container has precedence, and
those of the application. -/
def OwnedInOrder (c : Classification) (xs : List Extension) (t : Tiers) : Prop :=
  t.plugins.length = xs.length ∧
  ∀ (i : Nat) (p : PluginTier), t.plugins[i]? = some p →
    ∃ x, xs[i]? = some x ∧ p.name = x.name ∧ ∀ e, e ∈ p.entries ↔
    c.IsOwn x e ∧ (∀ j y, j < i → xs[j]? = some y → ¬ c.IsOwn y e) ∧ e ∉ t.application ∧
      (c.configuration.providedPrecedence = .container → ¬ c.IsProvided e)

variable {c : Classification} {xs : List Extension} {t : Tiers} {e : Entry}

theorem isOwn_iff {x : Extension} {p : PluginTier} (h : c.extensionClaim x = .ok p) :
    c.IsOwn x e ↔ e ∈ p.entries := by
  obtain ⟨-, matcher, hmatcher, hmem⟩ := mem_extensionClaim h
  simp only [IsOwn, hmem, hmatcher, Except.ok.injEq, exists_eq_left']

theorem pluginClaims_of_extensions (hspace : c.configuration.pluginSpace = .extensions) :
    c.pluginClaims = c.configuration.extensions.mapM c.extensionClaim := by
  rw [pluginClaims, hspace]

theorem ownedInOrder (hspace : c.configuration.pluginSpace = .extensions) (h : c.classify = .ok t) :
    c.OwnedInOrder c.configuration.extensions t := by
  obtain ⟨a, exclusions, claims, -, -, hclaims, rfl⟩ := classify_eq_ok.1 h
  obtain ⟨-, hplugins, hprovided⟩ := claims_eq_ok.1 hclaims
  rw [pluginClaims_of_extensions hspace] at hplugins
  refine ⟨?_, fun i p hp => ?_⟩
  · rw [Claims.length_plugins]
    exact (Except.mapM_eq_ok.1 hplugins).length_eq.symm
  · obtain ⟨q, hq, hname, hmem⟩ := Claims.mem_plugin hp
    obtain ⟨x, hx, hxq⟩ := (Except.getElem?_mapM hplugins).1 hq
    refine ⟨x, hx, hname.trans (mem_extensionClaim hxq).1, fun e => (hmem e).trans ?_⟩
    -- an earlier tier asks for the entry exactly if its extension does
    have hearlier : (∀ j r, j < i → claims.plugins[j]? = some r → e ∉ r.entries) ↔
        ∀ j y, j < i → c.configuration.extensions[j]? = some y → ¬ c.IsOwn y e := by
      constructor
      · intro hnot j y hj hy hown
        obtain ⟨r, -, hyr⟩ := Except.exists_of_mapM hplugins (List.mem_of_getElem? hy)
        exact hnot j r hj ((Except.getElem?_mapM hplugins).2 ⟨y, hy, hyr⟩) ((isOwn_iff hyr).1 hown)
      · intro hnot j r hj hr her
        obtain ⟨y, hy, hyr⟩ := (Except.getElem?_mapM hplugins).1 hr
        exact hnot j y hj hy ((isOwn_iff hyr).2 her)
    rw [isOwn_iff hxq, hearlier, mem_providedClaim hprovided, isProvided_iff]
    tauto

/-- A request that can be classified can be so with its extensions in another order. -/
theorem exists_classify_withExtensions (hspace : c.configuration.pluginSpace = .extensions)
    (hperm : c.configuration.extensions.Perm xs) (h : c.classify = .ok t) :
    ∃ u, (c.withExtensions xs).classify = .ok u ∧ t.application = u.application ∧
      t.container = u.container ∧
      ∀ e, e ∈ Tiers.pluginEntries t.plugins ↔ e ∈ Tiers.pluginEntries u.plugins := by
  obtain ⟨a, exclusions, claims, ha, hx, hclaims, rfl⟩ := classify_eq_ok.1 h
  obtain ⟨happlication, hplugins, hprovided⟩ := claims_eq_ok.1 hclaims
  rw [pluginClaims_of_extensions hspace] at hplugins
  obtain ⟨plugins, hothers, hp⟩ := Except.exists_mapM_perm hplugins hperm
  have hothers' : (c.withExtensions xs).pluginClaims = .ok plugins :=
    (pluginClaims_of_extensions (c := c.withExtensions xs) hspace).trans hothers
  have hclaims' : (c.withExtensions xs).claims exclusions = .ok { claims with plugins } :=
    claims_eq_ok.2 ⟨happlication, hothers', hprovided⟩
  exact ⟨_, classify_eq_ok.2 ⟨a, exclusions, _, ha, hx, hclaims', rfl⟩,
    Claims.settle_plugins_perm rfl rfl hp⟩

/-- **The order of extensions decides who owns what is shared**, and nothing else. -/
theorem classify_extensions_perm {c : Classification} {xs : List Extension}
    (hspace : c.configuration.pluginSpace = .extensions)
    (hperm : c.configuration.extensions.Perm xs) :
    ((∃ t, c.classify = .ok t) ↔ ∃ u, (c.withExtensions xs).classify = .ok u) ∧
    ∀ t u, c.classify = .ok t → (c.withExtensions xs).classify = .ok u →
      t.application = u.application ∧ t.container = u.container ∧
      (∀ e, e ∈ Tiers.pluginEntries t.plugins ↔ e ∈ Tiers.pluginEntries u.plugins) ∧
      c.OwnedInOrder c.configuration.extensions t ∧ c.OwnedInOrder xs u := by
  refine ⟨⟨?_, ?_⟩, fun t u ht hu => ?_⟩
  · rintro ⟨t, ht⟩
    obtain ⟨u, hu, -⟩ := exists_classify_withExtensions hspace hperm ht
    exact ⟨u, hu⟩
  · rintro ⟨u, hu⟩
    obtain ⟨t, ht, -⟩ :=
      exists_classify_withExtensions (c := c.withExtensions xs) hspace hperm.symm hu
    exact ⟨t, ht⟩
  · obtain ⟨u', hu', happlication, hcontainer, hplugins⟩ :=
      exists_classify_withExtensions hspace hperm ht
    obtain rfl := Except.ok.inj (hu.symm.trans hu')
    exact ⟨happlication, hcontainer, hplugins, ownedInOrder hspace ht,
      ownedInOrder (c := c.withExtensions xs) hspace hu⟩

/-! ## Two extensions that share an entry -/

/-- Both extensions lead to `d`, and the metadata of the second is what the first is made of. -/
def shared : Classification where
  configuration := {
    pluginSpace := .extensions
    extensions := [⟨"x", "g:a:*", none⟩, ⟨"y", "g:b:*", some "g/a/"⟩] }
  classpath := ["g/a/", "g/b/", "g/d/"].map fun location => ⟨location, .directory⟩
  graph := {
    nodes := [sampleJar "a" .compile, sampleJar "b" .compile, sampleJar "d" .compile]
    edges := [⟨⟨"g", "a", "jar"⟩, sampleJar "d" .compile⟩,
      ⟨⟨"g", "b", "jar"⟩, sampleJar "d" .compile⟩] }
  folders := .none

theorem shared_application : applicationArtifacts shared.graph {} = [] := by cbv

theorem shared_provided : providedArtifacts shared.graph = [] := by cbv

theorem shared_closure_a :
    compileClosure shared.graph [sampleJar "a" .compile] =
      [sampleJar "a" .compile, sampleJar "d" .compile] := by cbv

theorem shared_closure_b :
    compileClosure shared.graph [sampleJar "b" .compile] =
      [sampleJar "b" .compile, sampleJar "d" .compile] := by cbv

theorem shared_classify : ∃ t, shared.classify = .ok t := by
  obtain ⟨application, ha⟩ : ∃ s, shared.applicationClaim {} = .ok s := by
    rw [applicationClaim, shared_application]
    exact ⟨_, rfl⟩
  obtain ⟨provided, hv⟩ : ∃ s, shared.providedClaim = .ok s := by
    rw [providedClaim, shared_provided]
    exact ⟨_, rfl⟩
  obtain ⟨x, hx⟩ : ∃ p, shared.extensionClaim ⟨"x", "g:a:*", none⟩ = .ok p := by
    have hm : CoordinateMatcher.parse "g:a:*".toList =
      .ok ⟨[⟨.exactly ['g'], .exactly ['a'], .startingWith []⟩]⟩ := rfl
    have he : shared.entriesOf (compileClosure shared.graph [sampleJar "a" .compile]) =
        .ok [⟨"g/a/", .directory⟩, ⟨"g/d/", .directory⟩] := by
      rw [shared_closure_a]
      rfl
    exact ⟨_, extensionClaim_eq_ok.2 ⟨_, hm, by decide, _, he, rfl⟩⟩
  obtain ⟨y, hy⟩ : ∃ p, shared.extensionClaim ⟨"y", "g:b:*", some "g/a/"⟩ = .ok p := by
    have hm : CoordinateMatcher.parse "g:b:*".toList =
      .ok ⟨[⟨.exactly ['g'], .exactly ['b'], .startingWith []⟩]⟩ := rfl
    have he : shared.entriesOf (compileClosure shared.graph [sampleJar "b" .compile]) =
        .ok [⟨"g/b/", .directory⟩, ⟨"g/d/", .directory⟩] := by
      rw [shared_closure_b]
      rfl
    exact ⟨_, extensionClaim_eq_ok.2 ⟨_, hm, by decide, _, he, rfl⟩⟩
  have hp : shared.pluginClaims = .ok [x, y] :=
    Except.mapM_eq_ok.2 (.cons hx (.cons hy .nil))
  exact ⟨_, classify_eq_ok.2 ⟨_, _, ⟨application, [x, y], provided⟩, rfl, rfl,
    claims_eq_ok.2 ⟨ha, hp, hv⟩, rfl⟩⟩

/-- The first extension owns `d` and what it is made of, unless the second one comes first. -/
theorem shared_reversed :
    ∃ t u, shared.classify = .ok t ∧
      (shared.withExtensions shared.configuration.extensions.reverse).classify = .ok u ∧
      t.application = u.application ∧ t.container = u.container ∧
      (∀ e, e ∈ Tiers.pluginEntries t.plugins ↔ e ∈ Tiers.pluginEntries u.plugins) ∧
      shared.OwnedInOrder shared.configuration.extensions t ∧
      shared.OwnedInOrder shared.configuration.extensions.reverse u := by
  obtain ⟨hsuccess, hequal⟩ := classify_extensions_perm (c := shared) rfl
    (List.reverse_perm shared.configuration.extensions).symm
  obtain ⟨t, ht⟩ := shared_classify
  obtain ⟨u, hu⟩ := hsuccess.1 ⟨t, ht⟩
  exact ⟨t, u, ht, hu, hequal t u ht hu⟩

end Classification

end TierIsolation
