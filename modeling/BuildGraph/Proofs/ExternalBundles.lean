import BuildGraph.Consumer.Contents
import BuildGraph.Proofs.TargetNodes

/-!
# Bundles of external projects

A bundle of an external project goes up to the targets that copy bundles and no further:
on every route there is a last such target. It has the bundle, unless it is an XPC service
or a system extension, which copy bundles but have no resources phase.
-/

namespace BuildGraph

theorem Target.hostsResources_iff {t : Target} (h : t.embedsBundles = true) :
    t.hostsResources = true ↔ t.product ≠ .xpc ∧ t.product ≠ .systemExtension := by
  unfold embedsBundles at h
  unfold hostsResources
  cases hp : t.product <;> simp_all [Product.hasResourcesPhase]

theorem Target.embedsBundles_of_bundle {t : Target} (h : t.product = .bundle) :
    t.embedsBundles = false := by
  rw [embedsBundles, h]

/-! ## Bundle nodes -/

namespace Graph

section
variable {g : Graph} {n : Nat} {t : ProjectTarget} (h : g.targetOfNode? n = some t)
include h

theorem holds_embedsBundles : g.wiring.holds g.embedsBundles n = t.target.embedsBundles :=
  holds_target h (·.embedsBundles)

theorem holds_isExternal : g.wiring.holds g.isExternal n = t.project.isExternal := by
  obtain ⟨id, hid, ht⟩ := key?_of_targetOfNode? h
  rw [holds_of_key? hid]
  simp [isExternal, targetOfKey?, NodeKey.target?, ht]

theorem holds_isResourceBundle (hp : t.product = .bundle) :
    g.wiring.holds g.isResourceBundle n = true := by
  have hbundle : g.wiring.holds (g.targetSatisfies (·.product == .bundle)) n = true := by
    rw [holds_target h]
    exact beq_iff_eq.2 hp
  exact Wiring.holds_or.trans (by rw [hbundle, Bool.or_true])

end

end Graph

namespace Consumer

section
variable {c : Consumer} {n : Nat}

theorem mem_bundleNodes : n ∈ c.bundleNodes ↔
    n ∈ c.localBundles ∨ c.description.embedsBundles = true ∧ n ∈ c.externalBundles := by
  have hlocal : n ∈ c.localBundles → n < c.graph.wiring.size :=
    fun h => Wiring.mem_nodes.1 (List.mem_of_mem_filter h)
  have hexternal : n ∈ c.externalBundles → n < c.graph.wiring.size :=
    fun h => Wiring.mem_nodes.1 (List.mem_of_mem_filter h)
  unfold bundleNodes
  by_cases h : c.description.embedsBundles = true
  · simp only [if_pos h, List.mem_filter, Wiring.mem_nodes, Bool.or_eq_true, List.contains_iff_mem]
    rw [and_iff_right h]
    exact and_iff_right_of_imp (Or.rec hlocal hexternal)
  · simp [h]

theorem mem_localBundles (hg : c.graph.IsBuilt) : n ∈ c.localBundles ↔
    (c.graph.wiring.holds c.graph.isResourceBundle n = true ∧
      c.graph.wiring.holds c.graph.isExternal n = false) ∧
      c.graph.wiring.Passes c.graph.hostsResources c.node n := by
  rw [localBundles, mem_select hg, Wiring.holds_and_not, Bool.and_eq_true, Bool.not_eq_true']

theorem mem_externalBundles (hg : c.graph.IsBuilt) : n ∈ c.externalBundles ↔
    (c.graph.wiring.holds c.graph.isResourceBundle n = true ∧
      c.graph.wiring.holds c.graph.isExternal n = true) ∧
      c.graph.wiring.Passes c.graph.embedsBundles c.node n := by
  rw [externalBundles, mem_select hg, Wiring.holds_and, Bool.and_eq_true]

def IsNextAbove (c : Consumer) (n : Nat) : Prop :=
  c.graph.wiring.Passes c.graph.embedsBundles c.node n ∧ c.net n ≠ .incompatible

theorem contains_bundles (hg : c.graph.IsBuilt) (hembeds : c.description.embedsBundles = true)
    {b : ProjectTarget} (hb : c.graph.targetOfNode? n = some b) (hbundle : b.product = .bundle)
    (hexternal : b.project.isExternal = true) :
    c.bundles.contains (Reference.ofTarget b none).id = true ↔
      c.IsNextAbove n ∧ c.product ≠ .xpc ∧ c.product ≠ .systemExtension := by
  have hext : c.graph.wiring.holds c.graph.isExternal n = true :=
    (Graph.holds_isExternal hb).trans hexternal
  have hkind := And.intro (Graph.holds_isResourceBundle hb hbundle) hext
  have hlocal : n ∉ c.localBundles := by
    intro h
    rw [((mem_localBundles hg).1 h).1.2] at hext
    cases hext
  have hhosts := Target.hostsResources_iff hembeds
  unfold bundles
  by_cases hhost : c.description.hostsResources = true
  · rw [if_pos hhost, contains_collect_product hg hb, mem_bundleNodes, or_iff_right hlocal,
      and_iff_right hembeds, mem_externalBundles hg, and_iff_right hkind]
    exact (and_iff_left (hhosts.1 hhost)).symm
  · rw [if_neg hhost]
    exact iff_of_false Bool.false_ne_true fun h => hhost (hhosts.2 h.2)

end

end Consumer

/-- Above a bundle of an external project that a target needs there is a last target that
copies bundles. Of the targets that copy bundles just those that come last before the
bundle have it, except for XPC services and system extensions. -/
theorem Graph.IsBuilt.external_bundle_copied {g : Graph} (hg : g.IsBuilt) {path path' : Path}
    {name name' : String} {c : Consumer} {b : ProjectTarget} (hc : g.consumer? path name = some c)
    (hembeds : c.description.embedsBundles = true) (hb : g.target? path' name' = some b)
    (hbundle : b.product = .bundle) (hexternal : b.project.isExternal = true)
    (hnet : g.netCondition (.ofTarget path name) (.ofTarget path' name') ≠ .incompatible) :
    ∃ n, g.wiring.node? (.ofTarget path' name') = some n ∧
      (∃ h : Consumer, g.consumerOf? h.target = some h ∧ h.description.embedsBundles = true ∧
        g.wiring.Reaches c.node h.node ∧ h.IsNextAbove n) ∧
      ∀ h : Consumer, g.consumerOf? h.target = some h → h.description.embedsBundles = true →
        (h.bundles.contains (Reference.ofTarget b none).id = true ↔
          h.IsNextAbove n ∧ h.product ≠ .xpc ∧ h.product ≠ .systemExtension) := by
  obtain ⟨-, ht, ha⟩ := consumer?_eq_some hc
  obtain ⟨a, n, ha', hn⟩ := nodes_of_netCondition hnet
  obtain rfl : c.node = a := Option.some.inj (ha.symm.trans ha')
  have hbt := targetOfNode?_of_node? hb hn
  refine ⟨n, hn, ?_, ?_⟩
  · have hfirst := (holds_embedsBundles (targetOfNode?_of_node? ht ha)).trans hembeds
    have hend := (holds_embedsBundles hbt).trans (Target.embedsBundles_of_bundle hbundle)
    obtain ⟨h, rfl, hht, hhembeds, hreach, hpass, hne⟩ :=
      hg.exists_last_target ha hn hnet hfirst hend
    exact ⟨h, consumerOf?_of_node hg.sound.1 hht, hhembeds, hreach, hpass, hne⟩
  · intro h hh hhembeds
    obtain rfl : h.graph = g := graph_of_consumer? hh
    exact Consumer.contains_bundles hg hhembeds hbt hbundle hexternal

/-! ## A bundle behind a framework and behind a service -/

def packageProject : Project :=
  let resources : Target := { name := "Res", product := .bundle }
  ⟨⟨"/p"⟩, "P", .external, [resources]⟩

def servicesProject : Project :=
  let target (name : String) (product : Product) : Target := { name, product }
  ⟨⟨"/w"⟩, "W", .localProject, [target "Viewer" .app, target "Kit" .framework,
    target "App" .app, target "Service" .xpc]⟩

def services : Draft :=
  let key (name : String) : NodeKey := .ofTarget ⟨"/w"⟩ name
  .ofCalls ⟨⟨"/w"⟩, "W", []⟩ [
    -- nodes 0 to 4: Viewer, Kit, App, Service, Res
    .register servicesProject,
    .register packageProject,
    .declare (key "Viewer") (key "Kit") none,
    .declare (key "Kit") (.ofTarget ⟨"/p"⟩ "Res") none,
    .declare (key "App") (key "Service") none,
    .declare (key "Service") (.ofTarget ⟨"/p"⟩ "Res") none]

def servicesGraph : Graph := ⟨services.workspace, services.projects, services.wiring⟩

theorem isBuilt_services : servicesGraph.IsBuilt :=
  Draft.isBuilt_of_checks (by decide) (by decide) (by decide)

def servicesApp (node : Nat) (name : String) : Consumer :=
  ⟨servicesGraph, node, ⟨⟨"/w"⟩, { name, product := .app }, servicesProject⟩⟩

def servicesBundle : ProjectTarget :=
  ⟨⟨"/p"⟩, { name := "Res", product := .bundle }, packageProject⟩

theorem target?_servicesBundle : servicesGraph.target? ⟨"/p"⟩ "Res" = some servicesBundle := by
  decide

theorem node?_servicesBundle : servicesGraph.wiring.node? (.ofTarget ⟨"/p"⟩ "Res") = some 4 := by
  decide

theorem answers_services :
    (servicesApp 0 "Viewer").bundles.contains (Reference.ofTarget servicesBundle none).id = true ∧
      ∀ m ∈ servicesGraph.wiring.reachable 2, (servicesGraph.targetOfNode? m).any
        (fun t => (Consumer.mk servicesGraph m t).bundles.contains
          (Reference.ofTarget servicesBundle none).id) = false := by
  decide +kernel

theorem bundles_viewer :
    let viewer := servicesApp 0 "Viewer"
    servicesGraph.consumer? ⟨"/w"⟩ "Viewer" = some viewer ∧
      viewer.bundles.contains (Reference.ofTarget servicesBundle none).id = true ∧
      viewer.IsNextAbove 4 := by
  intro viewer
  have hc : servicesGraph.consumer? ⟨"/w"⟩ "Viewer" = some viewer := by decide
  have hes : servicesGraph.wiring.IsRoute 0 [⟨0, 1, none⟩, ⟨1, 4, none⟩] 4 :=
    ⟨by decide, rfl, by decide, rfl, rfl⟩
  have hnet := isBuilt_services.netCondition_of_route (Graph.consumer?_eq_some hc).2.2
    node?_servicesBundle hes (by decide)
  obtain ⟨n, hn, -, hall⟩ := isBuilt_services.external_bundle_copied hc rfl
    target?_servicesBundle rfl rfl hnet
  obtain rfl : 4 = n := Option.some.inj (node?_servicesBundle.symm.trans hn)
  have hcontains := answers_services.1
  exact ⟨hc, hcontains, ((hall viewer hc rfl).1 hcontains).1⟩

/-- Neither the other app nor its service has the bundle, and nothing else lies between. -/
theorem bundles_lost_behind_service :
    let app := servicesApp 2 "App"
    servicesGraph.IsBuilt ∧ servicesGraph.consumer? ⟨"/w"⟩ "App" = some app ∧
      app.description.embedsBundles = true ∧
      servicesGraph.target? ⟨"/p"⟩ "Res" = some servicesBundle ∧
      servicesBundle.product = .bundle ∧ servicesBundle.project.isExternal = true ∧
      servicesGraph.netCondition (.ofTarget ⟨"/w"⟩ "App") (.ofTarget ⟨"/p"⟩ "Res") ≠ .incompatible ∧
      ¬ ∃ h : Consumer, servicesGraph.consumerOf? h.target = some h ∧
        servicesGraph.wiring.Reaches app.node h.node ∧
        h.bundles.contains (Reference.ofTarget servicesBundle none).id = true := by
  intro app
  have hc : servicesGraph.consumer? ⟨"/w"⟩ "App" = some app := by decide
  have hes : servicesGraph.wiring.IsRoute 2 [⟨2, 3, none⟩, ⟨3, 4, none⟩] 4 :=
    ⟨by decide, rfl, by decide, rfl, rfl⟩
  have hnet := isBuilt_services.netCondition_of_route (Graph.consumer?_eq_some hc).2.2
    node?_servicesBundle hes (by decide)
  refine ⟨isBuilt_services, hc, rfl, target?_servicesBundle, rfl, rfl, hnet, ?_⟩
  rintro ⟨h, hh, hreach, hcontains⟩
  obtain ⟨hgraph, ht, hnode⟩ := Graph.consumer?_eq_some hh
  have htarget := Graph.targetOfNode?_of_node? ht hnode
  have hno := answers_services.2 h.node (Wiring.mem_reachable.2 hreach)
  rw [htarget, Option.any_some, ← hgraph, hcontains] at hno
  cases hno

end BuildGraph
