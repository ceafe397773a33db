import BuildGraph.Consumer.Plugins
import BuildGraph.Proofs.Agreement
import BuildGraph.Proofs.Parts

/-!
# Consumers that agree

A target of two graphs that agree has the same host in both, and selects nodes that
match for every question. So in both graphs an answer is merged from references of the
same outlines, if not in the same order.
-/

namespace BuildGraph

def TargetUse.view (u : TargetUse) : (Path × Target × Bool) × Option Condition :=
  (u.target.view, u.condition)

namespace Consumer

structure Agree (c d : Consumer) : Prop where
  graph : c.graph.Agree d.graph
  node : c.graph.wiring.Matches d.graph.wiring c.node d.node
  target : c.target.view = d.target.view

abbrev NodesAgree (c d : Consumer) (ns ms : List Nat) : Prop :=
  c.graph.wiring.NodesMatch d.graph.wiring ns ms

theorem Agree.symm {c d : Consumer} (h : c.Agree d) : d.Agree c :=
  ⟨h.graph.symm, h.node.symm, h.target.symm⟩

end Consumer

open Wiring (TestsAgree)

/-! ## Finding targets -/

namespace Graph

section
variable {g h : Graph}

theorem Agree.consumer? (hgh : g.Agree h) {path path' : Path} (hpath : sortKey path = sortKey path')
    (name : String) : Option.Rel Consumer.Agree (g.consumer? path name) (h.consumer? path' name) := by
  have hkey : sortKey (NodeKey.ofTarget path name) = sortKey (NodeKey.ofTarget path' name) :=
    congrArg (SortKey.cons (.num 0)) (sortKey_targetId.2 ⟨hpath, rfl⟩)
  have htarget := rel_of_map_eq (hgh.target?_view hpath name)
  have hnode := hgh.wiring.node?_rel hkey
  unfold Graph.consumer?
  generalize g.target? path name = t at htarget
  generalize h.target? path' name = u at htarget
  generalize g.wiring.node? (.ofTarget path name) = n at hnode
  generalize h.wiring.node? (.ofTarget path' name) = m at hnode
  cases htarget with
  | none => exact .none
  | some htu =>
    cases hnode with
    | none => exact .none
    | some hnm => exact .some ⟨hgh, hnm, htu⟩

theorem Agree.consumerOf? (hgh : g.Agree h) {t u : ProjectTarget} (htu : t.view = u.view) :
    Option.Rel Consumer.Agree (g.consumerOf? t) (h.consumerOf? u) := by
  have hname : t.name = u.name := congrArg Target.name (ProjectTarget.target_eq htu)
  rw [Graph.consumerOf?, Graph.consumerOf?, hname]
  exact hgh.consumer? (congrArg sortKey (ProjectTarget.path_eq htu)) _

theorem Agree.view_of_sortKey (hgh : g.Agree h) {t u : ProjectTarget}
    (ht : g.target? t.path t.name = some t) (hu : h.target? u.path u.name = some u)
    (htu : sortKey t = sortKey u) : t.view = u.view := by
  obtain ⟨hpath, hname⟩ := sortKey_targetId.1 (show sortKey t.id = sortKey u.id from htu)
  have hview := hgh.target?_view (show sortKey t.path = sortKey u.path from hpath) t.name
  rw [ht, show t.name = u.name from hname, hu] at hview
  exact Option.some.inj hview

theorem Agree.targetOfNode? (hgh : g.Agree h) {n m : Nat} (hnm : g.wiring.Matches h.wiring n m) :
    Option.Rel (fun t u => t.view = u.view) (g.targetOfNode? n) (h.targetOfNode? m) :=
  rel_of_map_eq (hgh.targetOfNode?_view hnm)

theorem Agree.targets_view (hgh : g.Agree h) {ns ms : List Nat}
    (hns : g.wiring.NodesMatch h.wiring ns ms) :
    (collectBy sortKey keepLast (ns.filterMap g.targetOfNode?)).map (·.view) =
      (collectBy sortKey keepLast (ms.filterMap h.targetOfNode?)).map (·.view) := by
  apply (hns.filterMap fun _ _ => hgh.targetOfNode?).collectBy_map_eq
  · intro t u
    exact ProjectTarget.sortKey_eq
  · intro t ht u hu htu
    obtain ⟨n, -, ht⟩ := List.mem_filterMap.1 ht
    obtain ⟨m, -, hu⟩ := List.mem_filterMap.1 hu
    exact hgh.view_of_sortKey (targetOfNode?_eq_some ht).2 (targetOfNode?_eq_some hu).2 htu

end

end Graph

namespace Consumer

section
variable {c d : Consumer} (h : c.Agree d)
include h

/-! ## Contributions -/

theorem Agree.path_eq : c.path = d.path := ProjectTarget.path_eq h.target

theorem Agree.description_eq : c.description = d.description := ProjectTarget.target_eq h.target

theorem Agree.product_eq : c.product = d.product := congrArg Target.product h.description_eq

theorem Agree.net_eq {n m : Nat} (hnm : c.graph.wiring.Matches d.graph.wiring n m) :
    c.net n = d.net m :=
  h.graph.wiring.resolve h.graph.built.sound.2 h.graph.built'.sound.2 h.node hnm

theorem Agree.referenceFor? (condition : Option Condition) {k l : NodeKey}
    (hkl : sortKey k = sortKey l) : Option.Rel (fun r p => r.outline = p.outline)
      (c.referenceFor? condition k) (d.referenceFor? condition l) := by
  cases NodeKey.alike_of_sortKey hkl with
  | @target id id' hpath hname =>
    have hview := h.graph.target?_view hpath id.name
    rw [Consumer.referenceFor?, Consumer.referenceFor?, Graph.targetOfId?, Graph.targetOfId?, ← hname]
    generalize c.graph.target? id.projectPath id.name = x at hview
    generalize d.graph.target? id'.projectPath id.name = y at hview
    cases rel_of_map_eq hview with
    | none => exact .none
    | some htu =>
      rw [Option.map_some, Option.map_some, Option.rel_some_some, Reference.ofTarget,
        Reference.ofTarget, ProjectTarget.target_eq htu, ProjectTarget.path_eq htu]
  | @prebuilt a b hab =>
    have ho := hab.origin
    rw [Consumer.referenceFor?, Consumer.referenceFor?, Option.rel_some_some]
    unfold Reference.ofBinary
    generalize a.origin = x at ho
    generalize b.origin = y at ho
    cases ho <;> simp [Reference.outline, Reference.idKey, Reference.id, Reference.condition,
      Reference.status?, hab.status] <;> exact congrArg (SortKey.variant _ [·]) hab.path
  | sdk hpath => exact .some (congrArg (·, _, _) (congrArg (SortKey.variant 0 [·]) hpath))
  | bundle hpath => exact .some (congrArg (·, _, _) (congrArg (SortKey.variant 5 [·]) hpath))
  | _ => exact .none

theorem Agree.contribution? {n m : Nat} (hnm : c.graph.wiring.Matches d.graph.wiring n m) :
    Option.Rel (fun r p => r.outline = p.outline) (c.contribution? n) (d.contribution? m) := by
  obtain ⟨k, l, hk, hl, hkl⟩ := Wiring.matches_iff_keys.1 hnm
  simp only [Consumer.contribution?, Consumer.reference?, h.net_eq hnm, hk, hl]
  cases (d.net m).condition? with
  | none => exact .none
  | some condition => exact h.referenceFor? condition hkl

theorem Agree.contributions {ns ms : List Nat} (hns : c.NodesAgree d ns ms) :
    References.SameOutlines (c.contributions ns) (d.contributions ms) :=
  hns.filterMap fun _ _ => h.contribution?

/-! ## Direct targets and the host -/

theorem Agree.targetUse? {n m : Nat} (hnm : c.graph.wiring.Matches d.graph.wiring n m) :
    Option.Rel (fun x y => x.view = y.view) (c.targetUse? (n, c.net n))
      (d.targetUse? (m, d.net m)) := by
  have ht := h.graph.targetOfNode? hnm
  simp only [Consumer.targetUse?, h.net_eq hnm]
  generalize c.graph.targetOfNode? n = x at ht
  generalize d.graph.targetOfNode? m = y at ht
  cases ht with
  | none => exact .none
  | some htu =>
    cases (d.net m).condition? with
    | none => exact .none
    | some condition => exact .some (congrArg (·, condition) htu)

theorem Agree.targetUses {ns ms : List Nat} (hns : c.NodesAgree d ns ms) :
    (c.targetUses ns).map TargetUse.view = (d.targetUses ms).map TargetUse.view := by
  rw [Consumer.targetUses, Consumer.targetUses, resolveAll_eq h.graph.built,
    resolveAll_eq h.graph.built', List.filterMap_map, List.filterMap_map]
  apply (hns.filterMap fun _ _ => h.targetUse?).collectBy_map_eq
  · intro x y hxy
    have hcond : x.condition = y.condition := congrArg (·.2) hxy
    change SortKey.ofList [sortKey x.target, sortKey x.condition] =
      SortKey.ofList [sortKey y.target, sortKey y.condition]
    rw [ProjectTarget.sortKey_eq (congrArg (·.1) hxy), hcond]
  · intro x hx y hy hxy
    obtain ⟨_, -, hx⟩ := List.mem_filterMap.1 hx
    obtain ⟨_, -, hy⟩ := List.mem_filterMap.1 hy
    have hkeys := SortKey.ofList_inj.1 (show SortKey.ofList [sortKey x.target, sortKey x.condition] =
      SortKey.ofList [sortKey y.target, sortKey y.condition] from hxy)
    simp only [List.cons.injEq, and_true] at hkeys
    have hview := h.graph.view_of_sortKey (Graph.targetOfNode?_eq_some (targetUse?_eq_some.1 hx).1).2
      (Graph.targetOfNode?_eq_some (targetUse?_eq_some.1 hy).1).2 hkeys.1
    exact Prod.ext hview (Condition.eq_of_sortKey hkeys.2)

theorem Agree.successors : c.NodesAgree d c.successors d.successors :=
  h.graph.wiring.successors h.node

theorem Agree.directTargets :
    c.directTargets.map TargetUse.view = d.directTargets.map TargetUse.view :=
  h.targetUses (h.graph.wiring.nodes.filter fun _ _ => h.graph.wiring.contains_eq h.successors)

theorem Agree.host? : c.host?.map (·.view) = d.host?.map (·.view) := by
  have hviews := congrArg (List.map (·.1)) h.directTargets
  have hhost (c : Consumer) : c.host?.map (·.view) =
      ((c.directTargets.map TargetUse.view).map (·.1)).find? fun v => v.2.1.product.hostsTests := by
    rw [Consumer.host?, List.map_map, List.find?_map, List.find?_map, Option.map_map]
    rfl
  rw [hhost c, hhost d, hviews]

theorem Agree.hostConsumer : Option.Rel Consumer.Agree (c.host?.bind c.graph.consumerOf?)
    (d.host?.bind d.graph.consumerOf?) := by
  have hhost := rel_of_map_eq h.host?
  generalize c.host? = t at hhost
  generalize d.host? = u at hhost
  cases hhost with
  | none => exact .none
  | some htu => exact h.graph.consumerOf? htu

/-! ## Nodes of the image -/

open BuildGraph.Graph

theorem Agree.isMerged {n m : Nat} (hnm : c.graph.wiring.Matches d.graph.wiring n m) :
    c.isMerged n = d.isMerged m := by
  unfold Consumer.isMerged
  rw [h.description_eq]
  exact hnm.holds (h.graph.isMergedBy _)

theorem Agree.staticNodes : c.NodesAgree d c.staticNodes d.staticNodes :=
  h.graph.wiring.select h.node h.graph.isStatic (h.graph.linksStaticCode.or h.graph.isMacro)

theorem Agree.isLinkedDirectly {n m : Nat} (hnm : c.graph.wiring.Matches d.graph.wiring n m) :
    c.isLinkedDirectly n = d.isLinkedDirectly m := by
  rw [Consumer.isLinkedDirectly, Consumer.isLinkedDirectly,
    h.graph.wiring.contains_eq h.successors hnm, hnm.holds h.graph.isLinkedByReference]

theorem Agree.isLinkedStatically {n m : Nat} (hnm : c.graph.wiring.Matches d.graph.wiring n m) :
    c.isLinkedStatically c.staticNodes n = d.isLinkedStatically d.staticNodes m := by
  rw [Consumer.isLinkedStatically, Consumer.isLinkedStatically,
    h.graph.wiring.contains_eq h.staticNodes hnm, h.graph.wiring.contains_eq h.successors hnm,
    hnm.holds (testsAgree_isTarget.or testsAgree_isPlainStaticBinary)]

theorem Agree.isLinkedForStatic {n m : Nat} (hnm : c.graph.wiring.Matches d.graph.wiring n m) :
    c.isLinkedForStatic c.staticNodes n = d.isLinkedForStatic d.staticNodes m := by
  rw [Consumer.isLinkedForStatic, Consumer.isLinkedForStatic,
    hnm.holds h.graph.isLinkedByReference]
  congr 1
  apply h.staticNodes.any_eq
  intro s t hst
  exact h.graph.wiring.contains_eq (h.graph.wiring.successors hst) hnm

theorem Agree.linkCandidates : c.NodesAgree d c.linkCandidates d.linkCandidates := by
  unfold Consumer.linkCandidates
  rw [h.product_eq]
  by_cases hl : d.product.linksStaticCode = true
  · rw [if_pos hl, if_pos hl]
    apply h.graph.wiring.nodes.filter
    intro n m hnm
    rw [h.isLinkedDirectly hnm, h.isLinkedStatically hnm, h.isLinkedForStatic hnm]
  · rw [if_neg hl, if_neg hl]
    exact h.graph.wiring.nodes.filter fun _ _ => h.isLinkedDirectly

theorem Agree.linkedNodesAlone : c.NodesAgree d c.linkedNodesAlone d.linkedNodesAlone :=
  h.linkCandidates.filter fun _ _ hnm => by rw [h.isMerged hnm]

theorem Agree.hostedNodes : c.NodesAgree d c.hostedNodes d.hostedNodes := by
  unfold Consumer.hostedNodes
  rw [h.product_eq]
  by_cases hunit : (d.product == .unitTests) = true
  · rw [if_pos hunit, if_pos hunit]
    have hhost := rel_of_map_eq h.host?
    generalize c.host? = t at hhost
    generalize d.host? = u at hhost
    cases hhost with
    | none => exact .nil
    | @some t u htu =>
      have hnode := h.graph.wiring.node?_rel (rfl : sortKey u.key = sortKey u.key)
      simp only [Option.bind_some, ProjectTarget.key_eq htu]
      generalize c.graph.wiring.node? u.key = n at hnode
      generalize d.graph.wiring.node? u.key = m at hnode
      cases hnode with
      | none => exact .nil
      | some hnm => exact h.graph.wiring.reachable hnm
  · rw [if_neg hunit, if_neg hunit]
    exact .nil

theorem Agree.linkedNodes : c.NodesAgree d c.linkedNodes d.linkedNodes :=
  h.linkedNodesAlone.filter fun _ _ hnm => by rw [h.graph.wiring.contains_eq h.hostedNodes hnm]

theorem Agree.visibleStaticBinaries :
    c.NodesAgree d c.visibleStaticBinaries d.visibleStaticBinaries :=
  h.graph.wiring.select h.node testsAgree_isPlainStaticBinary
    (h.graph.linksStaticCode.or h.graph.isMacro)

/-! ## Nodes beside the image -/

theorem Agree.embeddedNodes : c.NodesAgree d c.embeddedNodes d.embeddedNodes := by
  unfold Consumer.embeddedNodes
  apply Paired.filter
  · exact h.graph.wiring.select h.node (testsAgree_isDynamicBinary.or (h.graph.targetSatisfies _))
      (TestsAgree.or (h.graph.targetSatisfies _) h.graph.isMacro)
  · intro n m hnm
    rw [h.isMerged hnm]

theorem Agree.localBundles : c.NodesAgree d c.localBundles d.localBundles :=
  h.graph.wiring.select h.node (h.graph.isResourceBundle.and h.graph.isExternal.not)
    (h.graph.targetSatisfies _)

theorem Agree.externalBundles : c.NodesAgree d c.externalBundles d.externalBundles :=
  h.graph.wiring.select h.node (h.graph.isResourceBundle.and h.graph.isExternal)
    (h.graph.targetSatisfies _)

theorem Agree.bundleNodes : c.NodesAgree d c.bundleNodes d.bundleNodes := by
  unfold Consumer.bundleNodes
  rw [h.description_eq]
  by_cases hb : d.description.embedsBundles = true
  · rw [if_pos hb, if_pos hb]
    apply h.graph.wiring.nodes.filter
    intro n m hnm
    rw [h.graph.wiring.contains_eq h.localBundles hnm,
      h.graph.wiring.contains_eq h.externalBundles hnm]
  · rw [if_neg hb, if_neg hb]
    exact h.localBundles

theorem Agree.copiedXcframeworks : c.NodesAgree d c.copiedXcframeworks d.copiedXcframeworks :=
  h.graph.wiring.select h.node testsAgree_isStaticXcframework
    ((testsAgree_isDynamicBinary.or h.graph.isMacro).or
      (testsAgree_isTarget.and h.graph.isStatic.not))

theorem Agree.staticNodesDirect : c.NodesAgree d c.staticNodesDirect d.staticNodesDirect :=
  h.successors.filter fun _ _ hnm => hnm.holds (testsAgree_isTarget.and h.graph.isStatic)

theorem Agree.foreignExecutables : c.NodesAgree d c.foreignExecutables d.foreignExecutables := by
  apply h.successors.filter
  intro n m hnm
  apply any_eq_of_view (h.graph.targetOfNode?_view hnm)
  intro t u htu
  rw [ProjectTarget.path_eq htu, h.path_eq, ProjectTarget.product, ProjectTarget.product,
    ProjectTarget.target_eq htu]

end

end Consumer

end BuildGraph
