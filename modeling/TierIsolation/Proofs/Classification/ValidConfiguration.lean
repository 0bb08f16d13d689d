import TierIsolation.Proofs.Classification.ExtensionOrder
import TierIsolation.Proofs.Classification.Needs
import TierIsolation.Proofs.Configuration.Validation

/-!
# A valid configuration is enough for a classification

`Classification.classify_of_valid`: with a valid configuration a classification does not fail for
what is configured, and if it succeeds, the plugin tiers are those that are configured. Each
extension finds its own tier by its name.

* `Classification.map_name_plugins`: the names of the plugin tiers, for each plugin space.
* `Classification.nodup_pluginNames`: they are different, if the configuration is valid.
* `Tiers.plugin?_eq_some`: a name that only one tier has leads to that tier.
-/

namespace TierIsolation

/-! ## Plugin tiers by their names -/

/-- A name that only one tier has leads to that tier. -/
theorem Tiers.plugin?_eq_some {t : Tiers} {p : PluginTier}
    (hnodup : (t.plugins.map (·.name)).Nodup) (hp : p ∈ t.plugins) :
    t.plugin? p.name = some p := by
  obtain ⟨q, hq⟩ : ∃ q, t.plugin? p.name = some q := by
    rw [← Option.isSome_iff_exists, plugin?, List.find?_isSome]
    exact ⟨p, hp, beq_self_eq_true p.name⟩
  have hname : q.name = p.name := by simpa using List.find?_some hq
  rw [hq, List.inj_on_of_nodup_map hnodup (List.mem_of_find?_eq_some hq) hp hname]

namespace Classification

variable {c : Classification} {tiers : Tiers}

/-- The names of the plugin tiers that a configuration asks for. -/
def pluginNames (c : Configuration) : List String :=
  match c.pluginSpace with
  | .disabled => []
  | .allCompile => [allCompilePlugin]
  | .extensions => c.extensions.map (·.name)

theorem map_name_pluginClaims {plugins : List PluginTier} (h : c.pluginClaims = .ok plugins) :
    plugins.map (·.name) = pluginNames c.configuration := by
  cases hspace : c.configuration.pluginSpace with
  | disabled =>
    simp only [pluginClaims, hspace, Except.ok.injEq] at h
    simp [pluginNames, hspace, ← h]
  | allCompile =>
    simp only [pluginClaims, hspace, Except.bind_eq_ok, Except.pure_eq_ok] at h
    obtain ⟨entries, -, rfl⟩ := h
    simp [pluginNames, hspace]
  | extensions =>
    rw [pluginClaims_of_extensions hspace] at h
    have hnames := (Except.mapM_eq_ok.1 h).imp fun x p hx => (mem_extensionClaim hx).1.symm
    rw [pluginNames, hspace, eq_comm, ← List.forall₂_eq_eq_eq, List.forall₂_map_left_iff,
      List.forall₂_map_right_iff]
    exact hnames

theorem map_name_plugins (h : c.classify = .ok tiers) :
    tiers.plugins.map (·.name) = pluginNames c.configuration := by
  obtain ⟨a, exclusions, claims, -, -, hclaims, rfl⟩ := classify_eq_ok.1 h
  obtain ⟨-, hplugins, -⟩ := claims_eq_ok.1 hclaims
  rw [Claims.map_name_plugins, map_name_pluginClaims hplugins]

theorem nodup_pluginNames {c : Configuration} (h : c.IsValid) : (pluginNames c).Nodup := by
  cases hspace : c.pluginSpace with
  | disabled => simp [pluginNames, hspace]
  | allCompile => simp [pluginNames, hspace]
  | extensions => simpa [pluginNames, hspace] using h.names

/-- Another name than that of the one plugin for all compiled artifacts is that of an extension. -/
theorem mem_pluginNames {c : Configuration} (h : c.IsValid) {name : String}
    (hname : name ≠ allCompilePlugin) :
    name ∈ pluginNames c ↔ ∃ x ∈ c.extensions, x.name = name := by
  by_cases hspace : c.pluginSpace = .extensions
  · simp [pluginNames, hspace]
  · have hnone : c.extensions = [] := by simpa [hspace] using h.space
    rw [pluginNames, hnone]
    split <;> simp [hname]

/-! ## The one plugin for all compiled artifacts -/

/-- There is one plugin tier, with the entries of all compiled artifacts and of what they lead to by
compiled dependencies, less the provided ones, if the container has precedence, and those of the
application. -/
def OwnedByAll (c : Classification) (t : Tiers) : Prop :=
  ∃ p, t.plugins = [p] ∧ p.name = allCompilePlugin ∧ ∀ e, e ∈ p.entries ↔
    c.IsEntryOf (compileClosure c.graph (c.graph.nodes.filter (·.isCompile))) e ∧
      e ∉ t.application ∧
      (c.configuration.providedPrecedence = .container → ¬ c.IsProvided e)

theorem ownedByAll (hspace : c.configuration.pluginSpace = .allCompile)
    (h : c.classify = .ok tiers) : c.OwnedByAll tiers := by
  have hnames := map_name_plugins h
  rw [pluginNames, hspace] at hnames
  obtain ⟨p, hp, hname⟩ := List.map_eq_singleton_iff.1 hnames
  refine ⟨p, hp, hname, fun e => ?_⟩
  obtain ⟨a, exclusions, claims, -, -, hclaims, rfl⟩ := classify_eq_ok.1 h
  obtain ⟨-, hplugins, hprovided⟩ := claims_eq_ok.1 hclaims
  have hfirst : (claims.settle c.configuration.providedPrecedence c.classpath a).plugins[0]? =
      some p := by rw [hp, List.getElem?_cons_zero]
  obtain ⟨q, hq, -, hmem⟩ := Claims.mem_plugin hfirst
  simp only [pluginClaims, hspace, Except.bind_eq_ok, Except.pure_eq_ok] at hplugins
  obtain ⟨entries, hentries, hplugins⟩ := hplugins
  rw [← hplugins, List.getElem?_cons_zero, Option.some.injEq] at hq
  subst hq
  rw [hmem, OrderedSet.mem_ofList, mem_entriesOf hentries, mem_providedClaim hprovided,
    isProvided_iff]
  simp only [Nat.not_lt_zero, false_implies, implies_true, and_true]
  tauto

/-! ## The result -/

/-- No need is at fault for what a valid configuration says. -/
theorem configuration_ne_fault (hvalid : c.configuration.IsValid) (fault : ConfigurationFault) :
    c.classify ≠ .error (.configuration fault) := by
  intro h
  rw [← Except.fault?_eq_some, fault?_classify] at h
  obtain ⟨n, hn, hfault⟩ := List.exists_of_findSome?_eq_some h
  have hblameless : ∀ n ∈ c.needs, n.fault? c ≠ some (.configuration fault) := by
    refine forall_mem_needs.2 ⟨?_, ?_, fun _ x hx => ⟨?_, ?_⟩, fun a _ => ?_⟩
    · rw [Need.fault?]
      split <;> simp
    · obtain ⟨exclusions, hexclusions⟩ := hvalid.exclusions
      simp [Need.fault?, hexclusions]
    · obtain ⟨matcher, hmatcher, -⟩ := (hvalid.extensions x hx).patterns
      simp [Need.fault?, hmatcher]
    · rw [Need.fault?]
      split <;> simp
    · simp [Need.fault?]
  exact hblameless n hn hfault

/-- **A valid configuration is enough.** A classification does not fail for what it says. Where it
succeeds, there is no plugin tier, one for all compiled artifacts, or one for each extension, in
their order, as configured; and the name of an extension leads to the tier that is made from it. -/
theorem classify_of_valid {c : Classification} (hvalid : c.configuration.validate = .ok ()) :
    (∀ fault, c.classify ≠ .error (.configuration fault)) ∧
    ∀ t, c.classify = .ok t →
      (c.configuration.pluginSpace = .disabled → t.plugins = []) ∧
      (c.configuration.pluginSpace = .allCompile → c.OwnedByAll t) ∧
      (c.configuration.pluginSpace = .extensions →
        c.OwnedInOrder c.configuration.extensions t) ∧
      ∀ (i : Nat) (x : Extension), c.configuration.extensions[i]? = some x →
        ∃ p, t.plugins[i]? = some p ∧ t.plugin? x.name = some p := by
  rw [Configuration.validate_eq_ok_iff] at hvalid
  refine ⟨configuration_ne_fault hvalid, fun t h => ⟨fun hspace => ?_, fun hspace =>
    ownedByAll hspace h, fun hspace => ownedInOrder hspace h, fun i x hx => ?_⟩⟩
  · simpa [pluginNames, hspace] using map_name_plugins h
  · have hspace : c.configuration.pluginSpace = .extensions :=
      hvalid.space.2 (List.ne_nil_of_mem (List.mem_of_getElem? hx))
    have hnames := map_name_plugins h
    have hname : (t.plugins.map (·.name))[i]? = some x.name := by
      rw [hnames, pluginNames, hspace, List.getElem?_map, hx, Option.map_some]
    rw [List.getElem?_map, Option.map_eq_some_iff] at hname
    obtain ⟨p, hp, hname⟩ := hname
    have hnodup := hnames ▸ nodup_pluginNames hvalid
    refine ⟨p, hp, ?_⟩
    rw [← hname]
    exact Tiers.plugin?_eq_some hnodup (List.mem_of_getElem? hp)

/-- The second of two extensions finds the second tier by its name. -/
theorem shared_plugin_y :
    shared.configuration.validate = .ok () ∧ ∃ t p, shared.classify = .ok t ∧
      shared.OwnedInOrder shared.configuration.extensions t ∧
      t.plugins[1]? = some p ∧ t.plugin? "y" = some p := by
  have hvalid : shared.configuration.validate = .ok () := by cbv
  obtain ⟨t, ht⟩ := shared_classify
  obtain ⟨-, htiers⟩ := classify_of_valid hvalid
  obtain ⟨-, -, howned, hnamed⟩ := htiers t ht
  obtain ⟨p, hp, hy⟩ := hnamed 1 ⟨"y", "g:b:*", some "g/a/"⟩ rfl
  exact ⟨hvalid, t, p, ht, howned rfl, hp, hy⟩

end Classification

end TierIsolation
