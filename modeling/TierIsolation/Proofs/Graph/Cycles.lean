import Mathlib.Data.List.Flatten
import Mathlib.Data.List.Pairwise
import Mathlib.Order.Antisymmetrization
import TierIsolation.Proofs.Graph.Declarations

/-!
# Cycles are made of closures that meet

`Graph.cycles_agree`: two artifacts are in one cycle exactly if each of them is in the closure of
the other. No artifact is in two cycles, and an artifact that depends on itself alone is in none.

What it takes to be the components of a graph is said by `Graph.AreComponents`. All that is said of
cycles follows from it, and so do the components themselves, but for the order
(`AreComponents.exists_perm`): it does not matter how they are found.
-/

namespace TierIsolation.Graph

variable {g : Graph} {groups groups' : List (List Artifact)} {group : List Artifact}
  {a b : Artifact} {i j : Identity} {ss : List Statement}

/-! ## Components -/

/-- Each of the two depends on the other, directly or not, unless they are the same. -/
def Mutual (g : Graph) : Identity → Identity → Prop :=
  AntisymmRel (Relation.ReflTransGen g.DependsOn)

/-- Every artifact is in one of the groups, with all those that it is mutual with. -/
structure AreComponents (g : Graph) (groups : List (List Artifact)) : Prop where
  nonempty : ∀ group ∈ groups, group ≠ []
  perm : groups.flatten.Perm g.nodes
  together_iff : ∀ a ∈ g.nodes, ∀ b ∈ g.nodes,
    (∃ group ∈ groups, a ∈ group ∧ b ∈ group) ↔ g.Mutual a.identity b.identity

/-! ### The components that are found -/

/-- The artifacts that an artifact is mutual with, in the order of declaration. -/
def partners (g : Graph) (a : Artifact) : List Artifact :=
  component g.reachTable (a, g.reachable a.identity)

theorem partners_eq_filter (g : Graph) (a : Artifact) :
    g.partners a = g.nodes.filter fun b =>
      (g.reachable a.identity).contains b.identity &&
        (g.reachable b.identity).contains a.identity := by
  rw [partners, component, reachTable, List.filter_map, List.map_map]
  exact List.map_id _

theorem mem_partners : b ∈ g.partners a ↔ b ∈ g.nodes ∧ g.Mutual a.identity b.identity := by
  simp only [partners_eq_filter, List.mem_filter, Bool.and_eq_true, List.contains_iff_mem,
    mem_reachable]
  rfl

theorem mem_partners_self (ha : a ∈ g.nodes) : a ∈ g.partners a := mem_partners.2 ⟨ha, .refl _ _⟩

/-- Artifacts that are mutual have the same partners. -/
theorem partners_congr (h : g.Mutual a.identity b.identity) : g.partners a = g.partners b := by
  rw [partners_eq_filter, partners_eq_filter]
  refine List.filter_congr fun x _ => ?_
  rw [Bool.eq_iff_iff]
  simp only [Bool.and_eq_true, List.contains_iff_mem, mem_reachable]
  exact ⟨fun hax => h.symm.trans hax, fun hbx => h.trans hbx⟩

/-- A component stands where its first member does. -/
theorem components_eq (g : Graph) : g.components =
    g.nodes.filterMap fun a =>
      if (g.partners a).head? = some a then some (g.partners a) else none := by
  rw [components, reachTable, List.filterMap_map]
  rfl

theorem mem_components : group ∈ g.components ↔
    ∃ a ∈ g.nodes, (g.partners a).head? = some a ∧ g.partners a = group := by
  simp [components_eq]

theorem partners_mem_components (ha : a ∈ g.nodes) : g.partners a ∈ g.components := by
  obtain ⟨first, rest, hpartners⟩ :=
    List.exists_cons_of_ne_nil (List.ne_nil_of_mem (mem_partners_self ha))
  obtain ⟨hfirst, hmutual⟩ := mem_partners.1 (hpartners ▸ List.mem_cons_self : first ∈ g.partners a)
  have hsame : g.partners first = g.partners a := (partners_congr hmutual).symm
  refine mem_components.2 ⟨first, hfirst, ?_, hsame⟩
  rw [hsame, hpartners, List.head?_cons]

theorem nodup_flatten_components (hnodes : g.nodes.Nodup) : g.components.flatten.Nodup := by
  refine List.nodup_flatten.2 ⟨fun group hgroup => ?_, ?_⟩
  · obtain ⟨a, -, -, rfl⟩ := mem_components.1 hgroup
    rw [partners_eq_filter]
    exact hnodes.filter _
  · rw [components_eq, List.pairwise_filterMap]
    refine hnodes.imp fun {a b} hab group hgroup group' hgroup' x hx hx' => hab ?_
    simp only [Option.ite_none_right_eq_some, Option.some.injEq] at hgroup hgroup'
    obtain ⟨⟨hfirst, rfl⟩, hfirst', rfl⟩ := And.intro hgroup hgroup'
    -- groups that share a member are the same, and have one first member
    have hmutual : g.Mutual a.identity b.identity :=
      (mem_partners.1 hx).2.trans (mem_partners.1 hx').2.symm
    rw [partners_congr hmutual, hfirst', Option.some.injEq] at hfirst
    exact hfirst.symm

theorem components_areComponents (hnodes : g.nodes.Nodup) : g.AreComponents g.components where
  nonempty group hgroup := by
    obtain ⟨a, ha, -, rfl⟩ := mem_components.1 hgroup
    exact List.ne_nil_of_mem (mem_partners_self ha)
  perm := by
    refine (List.perm_ext_iff_of_nodup (nodup_flatten_components hnodes) hnodes).2 fun a => ?_
    rw [List.mem_flatten]
    constructor
    · rintro ⟨group, hgroup, ha⟩
      obtain ⟨b, -, -, rfl⟩ := mem_components.1 hgroup
      exact (mem_partners.1 ha).1
    · exact fun ha => ⟨_, partners_mem_components ha, mem_partners_self ha⟩
  together_iff a ha b hb := by
    constructor
    · rintro ⟨group, hgroup, hag, hbg⟩
      obtain ⟨c, -, -, rfl⟩ := mem_components.1 hgroup
      exact (mem_partners.1 hag).2.symm.trans (mem_partners.1 hbg).2
    · exact fun h => ⟨_, partners_mem_components ha, mem_partners_self ha, mem_partners.2 ⟨hb, h⟩⟩

/-! ### Any components -/

namespace AreComponents

variable (h : g.AreComponents groups)
include h

theorem mem_nodes (hgroup : group ∈ groups) (ha : a ∈ group) : a ∈ g.nodes :=
  h.perm.mem_iff.1 (List.mem_flatten.2 ⟨group, hgroup, ha⟩)

theorem nodup_flatten (hnodes : g.nodes.Nodup) : groups.flatten.Nodup :=
  h.perm.nodup_iff.2 hnodes

/-- A component is known by any of its members. -/
theorem mem_iff (hnodes : g.nodes.Nodup) (hgroup : group ∈ groups) (ha : a ∈ group) :
    b ∈ group ↔ b ∈ g.nodes ∧ g.Mutual a.identity b.identity := by
  constructor
  · intro hb
    have hbn := h.mem_nodes hgroup hb
    exact ⟨hbn, (h.together_iff a (h.mem_nodes hgroup ha) b hbn).1 ⟨group, hgroup, ha, hb⟩⟩
  · rintro ⟨hb, hmutual⟩
    obtain ⟨group', hgroup', ha', hb'⟩ :=
      (h.together_iff a (h.mem_nodes hgroup ha) b hb).2 hmutual
    have : Std.Symm (List.Disjoint (α := Artifact)) := ⟨fun _ _ hd => hd.symm⟩
    have hdisjoint := (List.nodup_flatten.1 (h.nodup_flatten hnodes)).2
    by_cases hsame : group = group'
    · rwa [hsame]
    · exact absurd ha' (hdisjoint.forall hgroup hgroup' hsame ha)

theorem nodup (hnodes : g.nodes.Nodup) (hgroup : group ∈ groups) : group.Nodup :=
  (List.nodup_flatten.1 (h.nodup_flatten hnodes)).1 group hgroup

/-- A graph has the same components wherever they come from, in some order. -/
theorem exists_perm (hnodes : g.nodes.Nodup) (h' : g.AreComponents groups')
    (hgroup : group ∈ groups) : ∃ group' ∈ groups', group'.Perm group := by
  obtain ⟨a, ha⟩ := List.exists_mem_of_ne_nil _ (h.nonempty group hgroup)
  have hself : g.Mutual a.identity a.identity := .refl _ _
  have han := h.mem_nodes hgroup ha
  obtain ⟨group', hgroup', ha', -⟩ := (h'.together_iff a han a han).2 hself
  refine ⟨group', hgroup', ?_⟩
  refine (List.perm_ext_iff_of_nodup (h'.nodup hnodes hgroup') (h.nodup hnodes hgroup)).2
    fun b => ?_
  rw [h'.mem_iff hnodes hgroup' ha', h.mem_iff hnodes hgroup ha]

end AreComponents

/-! ## Cycles -/

/-- Each of the two is in the closure of the other. -/
def EachInClosure (g : Graph) (a b : Artifact) : Prop :=
  b.identity ∈ (g.closure a.identity fun _ => true).map (·.identity) ∧
    a.identity ∈ (g.closure b.identity fun _ => true).map (·.identity)

theorem dependsOn_iff : g.DependsOn i j ↔ ∃ e ∈ g.edges, e.source = i ∧ e.target.identity = j := by
  simp [DependsOn, targets, dependencies, and_assoc]

/-- A closure that accepts everything has what is one step or more away. -/
theorem leadsTo_iff_transGen :
    g.LeadsTo (fun _ => true) i j ↔ Relation.TransGen g.DependsOn i j := by
  rw [Relation.TransGen.tail'_iff]
  constructor
  · rintro ⟨e, he, hpath, -, hj⟩
    exact ⟨e.source, hpath, dependsOn_iff.2 ⟨e, he, rfl, hj⟩⟩
  · rintro ⟨k, hpath, hstep⟩
    obtain ⟨e, he, rfl, hj⟩ := dependsOn_iff.1 hstep
    exact ⟨e, he, hpath, rfl, hj⟩

theorem eachInClosure_iff (hab : a.identity ≠ b.identity) :
    (ofStatements ss).EachInClosure a b ↔ (ofStatements ss).Mutual a.identity b.identity := by
  rw [EachInClosure, mem_identities_closure_ofStatements, mem_identities_closure_ofStatements,
    leadsTo_iff_transGen, leadsTo_iff_transGen, Mutual, AntisymmRel,
    Relation.reflTransGen_iff_eq_or_transGen, Relation.reflTransGen_iff_eq_or_transGen]
  simp [hab, hab.symm]

theorem one_lt_length_iff (hgroup : group.Nodup) :
    1 < group.length ↔ ∃ a ∈ group, ∃ b ∈ group, a ≠ b := by
  rw [← List.toFinset_card_of_nodup hgroup, Finset.one_lt_card]
  simp only [List.mem_toFinset]

/-- In a declared graph, different artifacts have different identities. -/
theorem identity_inj (ha : a ∈ (ofStatements ss).nodes) (hb : b ∈ (ofStatements ss).nodes) :
    a.identity = b.identity ↔ a = b :=
  ⟨fun h => List.inj_on_of_nodup_map (nodup_nodes ss) ha hb h, fun h => h ▸ rfl⟩

theorem areComponents_ofStatements (ss : List Statement) :
    (ofStatements ss).AreComponents (ofStatements ss).components :=
  components_areComponents (nodup_nodes ss).of_map

/-- A cycle is a component with two members or more. -/
theorem mem_cycles : group ∈ (ofStatements ss).cycles ↔
    group ∈ (ofStatements ss).components ∧
      ∃ a ∈ group, ∃ b ∈ group, a.identity ≠ b.identity := by
  have hcomponents := areComponents_ofStatements ss
  rw [cycles, List.mem_filter, decide_eq_true_eq]
  refine and_congr_right fun hgroup => ?_
  rw [one_lt_length_iff (hcomponents.nodup (nodup_nodes ss).of_map hgroup)]
  refine exists_congr fun a => and_congr_right fun ha => exists_congr fun b =>
    and_congr_right fun hb => not_congr ?_
  exact (identity_inj (hcomponents.mem_nodes hgroup ha) (hcomponents.mem_nodes hgroup hb)).symm

theorem exists_cycle_iff (ha : a ∈ (ofStatements ss).nodes) (hb : b ∈ (ofStatements ss).nodes)
    (hab : a.identity ≠ b.identity) :
    (∃ cycle ∈ (ofStatements ss).cycles, a ∈ cycle ∧ b ∈ cycle) ↔
      (ofStatements ss).EachInClosure a b := by
  rw [eachInClosure_iff hab, ← (areComponents_ofStatements ss).together_iff a ha b hb]
  constructor
  · rintro ⟨cycle, hcycle, hmem⟩
    exact ⟨cycle, (mem_cycles.1 hcycle).1, hmem⟩
  · rintro ⟨group, hgroup, hag, hbg⟩
    exact ⟨group, mem_cycles.2 ⟨hgroup, a, hag, b, hbg, hab⟩, hag, hbg⟩

theorem nodup_identities_cycles (ss : List Statement) :
    ((ofStatements ss).cycles.flatten.map (·.identity)).Nodup := by
  have hsub : (ofStatements ss).cycles.flatten.Sublist (ofStatements ss).components.flatten :=
    List.Sublist.flatten List.filter_sublist
  have hall : ((ofStatements ss).components.flatten.map (·.identity)).Nodup :=
    ((areComponents_ofStatements ss).perm.map _).nodup_iff.2 (nodup_nodes ss)
  exact hall.sublist (hsub.map _)

theorem hasCycles_iff : (ofStatements ss).hasCycles = true ↔
    ∃ a ∈ (ofStatements ss).nodes, ∃ b ∈ (ofStatements ss).nodes,
      a.identity ≠ b.identity ∧ (ofStatements ss).EachInClosure a b := by
  rw [hasCycles, Bool.not_eq_true', List.isEmpty_eq_false_iff_exists_mem]
  constructor
  · rintro ⟨cycle, hcycle⟩
    obtain ⟨hgroup, a, ha, b, hb, hab⟩ := mem_cycles.1 hcycle
    have han := (areComponents_ofStatements ss).mem_nodes hgroup ha
    have hbn := (areComponents_ofStatements ss).mem_nodes hgroup hb
    exact ⟨a, han, b, hbn, hab, (exists_cycle_iff han hbn hab).1 ⟨cycle, hcycle, ha, hb⟩⟩
  · rintro ⟨a, ha, b, hb, hab, hclosures⟩
    obtain ⟨cycle, hcycle, -⟩ := (exists_cycle_iff ha hb hab).2 hclosures
    exact ⟨cycle, hcycle⟩

/-- Some components of a graph have the same groups of several artifacts as any others. -/
theorem AreComponents.exists_perm_several (hnodes : g.nodes.Nodup) (h : g.AreComponents groups)
    (h' : g.AreComponents groups') {cycle : List Artifact}
    (hcycle : ∃ c ∈ groups.filter (1 < ·.length), c.Perm cycle) :
    ∃ c ∈ groups'.filter (1 < ·.length), c.Perm cycle := by
  obtain ⟨c, hc, hperm⟩ := hcycle
  obtain ⟨hgroup, hlength⟩ := List.mem_filter.1 hc
  obtain ⟨c', hgroup', hperm'⟩ := h.exists_perm hnodes h' hgroup
  exact ⟨c', List.mem_filter.2 ⟨hgroup', by rwa [hperm'.length_eq]⟩, hperm'.trans hperm⟩

/-- **Cycles agree with closures.** Two artifacts are in one cycle exactly if each is in the closure
of the other. A cycle has two members or more, no artifact is in two cycles or twice in one, and
there is no cycle if no two artifacts are so related. Wherever the components of the graph are taken
from, those of several artifacts are its cycles, in some order. -/
theorem cycles_agree (ss : List Statement) :
    let g := ofStatements ss
    (∀ a ∈ g.nodes, ∀ b ∈ g.nodes, a.identity ≠ b.identity →
      ((∃ cycle ∈ g.cycles, a ∈ cycle ∧ b ∈ cycle) ↔ g.EachInClosure a b)) ∧
    (∀ cycle ∈ g.cycles, 2 ≤ cycle.length ∧ ∀ a ∈ cycle, a ∈ g.nodes) ∧
    (g.cycles.flatten.map (·.identity)).Nodup ∧
    (g.hasCycles = true ↔
      ∃ a ∈ g.nodes, ∃ b ∈ g.nodes, a.identity ≠ b.identity ∧ g.EachInClosure a b) ∧
    g.AreComponents g.components ∧
    ∀ groups, g.AreComponents groups → ∀ cycle,
      (∃ c ∈ groups.filter (1 < ·.length), c.Perm cycle) ↔ ∃ c ∈ g.cycles, c.Perm cycle := by
  intro g
  have hcomponents : g.AreComponents g.components := areComponents_ofStatements ss
  have hnodes : g.nodes.Nodup := (nodup_nodes ss).of_map
  refine ⟨fun a ha b hb => exists_cycle_iff ha hb, fun cycle hcycle => ?_,
    nodup_identities_cycles ss, hasCycles_iff, hcomponents, fun groups hgroups cycle => ?_⟩
  · obtain ⟨hgroup, hlength⟩ := List.mem_filter.1 hcycle
    exact ⟨of_decide_eq_true hlength, fun a ha => hcomponents.mem_nodes hgroup ha⟩
  · exact ⟨hgroups.exists_perm_several hnodes hcomponents,
      hcomponents.exists_perm_several hnodes hgroups⟩

/-- Two cycles that share `b` are one, and `d`, which depends on itself, is in none. -/
example :
    let artifact (name : String) : Artifact := ⟨⟨"g", name, "jar"⟩, "1", .compile⟩
    let edge (i j : String) : Statement := .dependency (artifact i) (artifact j)
    (ofStatements [edge "a" "b", edge "b" "a", edge "b" "c", edge "c" "b", edge "d" "d",
      edge "d" "a"]).cycles = [[artifact "a", artifact "b", artifact "c"]] := by
  cbv

end TierIsolation.Graph
