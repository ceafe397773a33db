import BuildGraph.Graph.Listing
import BuildGraph.Proofs.ConsumersAgree
import BuildGraph.Proofs.Path

/-!
# Answers that agree

Consumers that agree get the same references in the same order under the same conditions
and with the same statuses, and the same directories. The other fields of a reference are
those of its first part, and which part is first is up to the numbers of the nodes. The
text of a plugin is up to the spelling of a path.
-/

namespace BuildGraph

/-- The answers agree on all that does not depend on which part is first, and on the
rest exactly if what the first parts keep does. -/
structure References.AgreeByFirst (s t : References) (rs ps : List Reference) : Prop where
  outline_eq : s.toList.map Reference.outline = t.toList.map Reference.outline
  eq_iff : s.toList.map sortKey = t.toList.map sortKey ↔ ∀ k, firstKept rs k = firstKept ps k

theorem References.Collects.agreeByFirst {s t : References} {rs ps : List Reference}
    (hs : s.Collects rs) (ht : t.Collects ps) (h : SameOutlines rs ps) : s.AgreeByFirst t rs ps :=
  ⟨hs.outline_eq ht h, hs.eq_iff ht h⟩

/-! ## Lists of paths -/

abbrev SamePaths (xs ys : List Path) : Prop :=
  Paired (fun p q => sortKey p = sortKey q) xs ys

theorem distinctPaths_congr {xs ys : List Path} (h : SamePaths xs ys) :
    (distinctPaths xs).map sortKey = (distinctPaths ys).map sortKey :=
  h.collectBy_map_eq (fun _ _ hpq => hpq) fun _ _ _ _ hpq => hpq

theorem parentDirectories_congr {xs ys : List Path} (h : SamePaths xs ys) :
    (parentDirectories xs).map sortKey = (parentDirectories ys).map sortKey :=
  distinctPaths_congr (h.filterMap fun _ _ hpq => rel_of_map_eq (Path.parent?_congr hpq))

namespace Consumer

/-! ## Specifiers of plugins -/

section
variable (c : Consumer)

def executableSpecifiers : List String :=
  ((c.executableNodes.filterMap c.graph.wiring.key?).filterMap NodeKey.path?).map
    Plugin.ofExecutable

def builtSpecifiers : List String :=
  ((c.macroWrappers.filterMap c.graph.consumerOf?).flatMap macroTargets).map fun t =>
    Plugin.ofProduct t.target.productName

variable {c}

theorem mem_plugins {s : String} :
    s ∈ c.plugins ↔ s ∈ c.executableSpecifiers ∨ s ∈ c.builtSpecifiers := by
  rw [← List.mem_append, ← List.mem_map_of_injective sortKey_string_injective, plugins,
    key_mem_collectBy (keepsKey_keepLast sortKey), List.mem_map_of_injective sortKey_string_injective]
  rfl

theorem plugins_ext {d : Consumer} (h : ∀ s, s ∈ c.plugins ↔ s ∈ d.plugins) :
    c.plugins = d.plugins :=
  (collectBy_increasing (keepsKey_keepLast sortKey) _).eq_of_mem_iff
    (collectBy_increasing (keepsKey_keepLast sortKey) _) h

end

open References (SameOutlines)

section
variable {c d : Consumer} (h : c.Agree d)
include h

/-! ## Parts -/

theorem Agree.linkedAloneParts : SameOutlines c.linkedAloneParts d.linkedAloneParts :=
  h.contributions h.linkedNodesAlone

theorem Agree.searchableParts : SameOutlines c.searchableParts d.searchableParts :=
  h.linkedAloneParts.append (h.contributions h.visibleStaticBinaries)

theorem Agree.embeddedAloneParts : SameOutlines c.embeddedAloneParts d.embeddedAloneParts := by
  unfold Consumer.embeddedAloneParts
  rw [h.description_eq]
  by_cases he : d.description.embedsFrameworks = true
  · rw [if_pos he, if_pos he]
    exact h.contributions h.embeddedNodes
  · rw [if_neg he, if_neg he]
    exact .nil

theorem Agree.embeds_iff (k : SortKey) : (c.embeddedAlone.get? k).isSome = true ↔
    (d.embeddedAlone.get? k).isSome = true :=
  (collects_embeddedAlone h.graph.built).isSome_iff (collects_embeddedAlone h.graph.built')
    h.embeddedAloneParts k

theorem Agree.embeddedParts : SameOutlines c.embeddedParts d.embeddedParts := by
  have hhost := h.hostConsumer
  unfold Consumer.embeddedParts
  rw [h.product_eq]
  by_cases htests : d.product.isTests = true
  · rw [if_pos htests, if_pos htests]
    generalize c.host?.bind c.graph.consumerOf? = x at hhost
    generalize d.host?.bind d.graph.consumerOf? = y at hhost
    cases hhost with
    | none =>
      by_cases hunit : (d.product == .unitTests) = true
      · simp only [if_pos hunit]
        exact .nil
      · simp only [if_neg hunit]
        exact h.embeddedAloneParts
    | some hosts =>
      refine h.embeddedAloneParts.filter fun r p hrp => ?_
      rw [Reference.idKey_of_outline hrp, Bool.eq_iff_iff.2 (hosts.embeds_iff _)]
  · rw [if_neg htests, if_neg htests]
    exact h.embeddedAloneParts

theorem Agree.bundleParts : SameOutlines c.bundleParts d.bundleParts := by
  unfold Consumer.bundleParts
  rw [h.description_eq]
  by_cases hb : d.description.hostsResources = true
  · rw [if_pos hb, if_pos hb]
    exact h.contributions h.bundleNodes
  · rw [if_neg hb, if_neg hb]
    exact .nil

theorem Agree.copiedParts : SameOutlines c.copiedParts d.copiedParts := by
  have hstatics : SameOutlines (if c.product.isStatic then c.contributions c.staticNodesDirect else [])
      (if d.product.isStatic then d.contributions d.staticNodesDirect else []) := by
    rw [h.product_eq]
    by_cases hs : d.product.isStatic = true
    · rw [if_pos hs, if_pos hs]
      exact h.contributions h.staticNodesDirect
    · rw [if_neg hs, if_neg hs]
      exact .nil
  exact (((h.contributions h.copiedXcframeworks).append hstatics).append
    (h.contributions h.foreignExecutables)).append h.bundleParts

/-! ## Directories -/

theorem Agree.libraries : Paired Prebuilt.Alike c.libraries d.libraries := by
  apply Paired.filter
  · apply (Wiring.keys_paired h.successors).filterMap
    intro k l hkl
    cases NodeKey.alike_of_sortKey hkl with
    | prebuilt hab => exact .some hab
    | _ => exact .none
  · intro a b hab
    exact hab.container.2.1

theorem Agree.moduleMapDirectories :
    c.moduleMapDirectories.map sortKey = d.moduleMapDirectories.map sortKey := by
  apply parentDirectories_congr
  apply h.libraries.filterMap
  intro a b hab
  have ho := hab.origin
  unfold Prebuilt.swiftModuleMap?
  generalize a.origin = x at ho
  generalize b.origin = y at ho
  cases ho with
  | library _ hmap => exact rel_of_map_eq hmap
  | _ => exact .none

theorem Agree.headerDirectories :
    c.headerDirectories.map sortKey = d.headerDirectories.map sortKey := by
  apply distinctPaths_congr
  apply h.libraries.filterMap
  intro a b hab
  have ho := hab.origin
  unfold Prebuilt.publicHeaders?
  generalize a.origin = x at ho
  generalize b.origin = y at ho
  cases ho with
  | library hheaders => exact .some hheaders
  | _ => exact .none

theorem Agree.libraryDirectories :
    c.libraryDirectories.map sortKey = d.libraryDirectories.map sortKey := by
  have hlinked := (collects_linkedAlone h.graph.built).outline_eq
    (collects_linkedAlone h.graph.built') h.linkedAloneParts
  apply parentDirectories_congr
  apply Paired.append
  · exact h.libraries.map fun _ _ hab => hab.path
  · apply (Paired.of_map_eq hlinked).filterMap
    intro r p hrp
    have hid : r.id.order = p.id.order := Reference.idKey_of_outline hrp
    cases r <;> cases p <;>
      simp_all [Reference.id, ReferenceKey.order, Reference.libraryPath?]

theorem Agree.runtimeDirectories :
    c.runtimeDirectories.map sortKey = d.runtimeDirectories.map sortKey := by
  have hhost : c.host?.isSome = d.host?.isSome := by
    rw [← Option.isSome_map (f := ProjectTarget.view), h.host?, Option.isSome_map]
  unfold Consumer.runtimeDirectories
  rw [h.product_eq, h.description_eq, hhost]
  split
  · rfl
  · apply parentDirectories_congr
    have hselected := h.graph.wiring.select h.node Graph.testsAgree_isLoadedFramework
      (h.graph.targetSatisfies (·.embedsFrameworks))
    apply (Wiring.keys_paired hselected).filterMap
    intro k l hkl
    cases NodeKey.alike_of_sortKey hkl with
    | prebuilt hab => exact .some hab.path
    | sdk hpath => exact .some hpath
    | bundle hpath => exact .some hpath
    | macroExecutable hpath => exact .some hpath
    | _ => exact .none

/-! ## Plugins -/

theorem Agree.macroTargets : Paired (fun t u => t.view = u.view) c.macroTargets d.macroTargets := by
  have hdirect : Paired (fun t u => t.view = u.view) (c.directTargets.map (·.target))
      (d.directTargets.map (·.target)) :=
    (Paired.of_map_eq h.directTargets).map fun _ _ hxy => congrArg (·.1) hxy
  apply hdirect.filter
  intro t u htu
  rw [ProjectTarget.product, ProjectTarget.product, ProjectTarget.target_eq htu]

theorem Agree.macroWrappers :
    Paired (fun t u => t.view = u.view) c.macroWrappers d.macroWrappers := by
  have hreached := h.graph.targets_view (h.graph.wiring.select h.node Graph.testsAgree_isTarget
    Graph.testsAgree_isTarget.not)
  apply Paired.append
  · apply (Paired.of_map_eq hreached).filter
    intro t u htu
    rw [ProjectTarget.product, ProjectTarget.product, ProjectTarget.target_eq htu]
  · exact .single h.target

theorem Agree.builtSpecifiers (s : String) : s ∈ c.builtSpecifiers ↔ s ∈ d.builtSpecifiers := by
  have hbuilt := (h.macroWrappers.filterMap fun _ _ htu => h.graph.consumerOf? htu).flatMap
    fun _ _ hcd => hcd.macroTargets
  apply hbuilt.mem_map_iff
  intro t u htu
  rw [ProjectTarget.target_eq htu]

theorem Agree.plugins_eq_iff : c.plugins = d.plugins ↔
    (∀ s ∈ c.executableSpecifiers, s ∈ d.plugins) ∧
      ∀ s ∈ d.executableSpecifiers, s ∈ c.plugins := by
  constructor
  · intro heq
    exact ⟨fun s hs => heq ▸ mem_plugins.2 (.inl hs), fun s hs => heq ▸ mem_plugins.2 (.inl hs)⟩
  · rintro ⟨forth, back⟩
    apply plugins_ext
    intro s
    constructor
    · intro hs
      rcases mem_plugins.1 hs with hs | hs
      · exact forth s hs
      · exact mem_plugins.2 (.inr ((h.builtSpecifiers s).1 hs))
    · intro hs
      rcases mem_plugins.1 hs with hs | hs
      · exact back s hs
      · exact mem_plugins.2 (.inr ((h.builtSpecifiers s).2 hs))

end

end Consumer

/-! ## Build order -/

namespace Graph

open List (Forall₂)

structure Pending.Agree (p q : Pending) : Prop where
  target : p.target.view = q.target.view
  dependencies : p.dependencies.map (·.view) = q.dependencies.map (·.view)
  unlisted : p.unlisted = q.unlisted

theorem Pending.Agree.afterListing {p q : Pending} (h : p.Agree q) {t u : ProjectTarget}
    (htu : t.view = u.view) : (p.afterListing t).Agree (q.afterListing u) := by
  have hany : p.dependencies.any (same t) = q.dependencies.any (same u) := by
    apply (Paired.of_map_eq h.dependencies).any_eq
    intro x y hxy
    rw [same, same, ProjectTarget.sortKey_eq htu, ProjectTarget.sortKey_eq hxy]
  unfold Pending.afterListing
  rw [hany]
  split
  · exact ⟨h.target, h.dependencies, congrArg (· - 1) h.unlisted⟩
  · exact h

theorem listReady_view {ps qs : List Pending} (h : Forall₂ Pending.Agree ps qs) (fuel : Nat) :
    (listReady fuel ps).map (·.view) = (listReady fuel qs).map (·.view) := by
  induction fuel generalizing ps qs with
  | zero => rfl
  | succ fuel ih =>
    have hready := find?_rel h fun p q hpq => congrArg (· == 0) hpq.unlisted
    unfold listReady
    generalize ps.find? (·.unlisted == 0) = x at hready
    generalize qs.find? (·.unlisted == 0) = y at hready
    cases hready with
    | none => rfl
    | @some p q hpq =>
      have hrest : Forall₂ Pending.Agree (ps.filter fun r => !same r.target p.target)
          (qs.filter fun r => !same r.target q.target) := by
        apply List.rel_filter _ h
        intro r s hrs
        simp only [same, ProjectTarget.sortKey_eq hrs.target, ProjectTarget.sortKey_eq hpq.target]
      simp only [List.map_cons, hpq.target, List.cons.injEq, true_and]
      exact ih (List.rel_map (fun _ _ hrs => hrs.afterListing hpq.target) hrest)

section
variable {g h : Graph} (hgh : g.Agree h)
include hgh

theorem Agree.targetsOf_view (path : Path) :
    (g.targetsOf path).map (·.view) = (h.targetsOf path).map (·.view) := by
  have hat := ProjectTable.at?_agree hgh.projects (rfl : sortKey path = sortKey path)
  unfold Graph.targetsOf
  generalize g.projects.at? path = x at hat
  generalize h.projects.at? path = y at hat
  cases hat with
  | none => rfl
  | some hef =>
    simp only [List.map_filterMap, hef.targetNames]
    congr 1
    funext name
    exact hgh.target?_view rfl name

theorem Agree.allTargets_view : g.targets.map (·.view) = h.targets.map (·.view) := by
  have hpaths : g.projects.map (·.path) = h.projects.map (·.path) :=
    forall₂_iff_map_eq.1 (hgh.projects.imp fun _ _ hef => hef.path)
  have hflat (g : Graph) : g.targets.map (·.view) =
      (g.projects.map (·.path)).flatMap fun path => (g.targetsOf path).map (·.view) := by
    rw [Graph.targets, List.map_flatMap, List.flatMap_map]
  rw [hflat g, hflat h, hpaths]
  simp only [hgh.targetsOf_view]

theorem Agree.successorTargets {t u : ProjectTarget} (htu : t.view = u.view) :
    (g.successorTargets t).map (·.view) = (h.successorTargets u).map (·.view) := by
  unfold Graph.successorTargets
  rw [ProjectTarget.key_eq htu]
  have hnode := hgh.wiring.node?_rel (rfl : sortKey u.key = sortKey u.key)
  generalize g.wiring.node? u.key = x at hnode
  generalize h.wiring.node? u.key = y at hnode
  cases hnode with
  | none => rfl
  | some hnm => exact hgh.targets_view (hgh.wiring.successors hnm)

theorem Agree.targetsInOrder_view :
    g.targetsInOrder.map (·.view) = h.targetsInOrder.map (·.view) := by
  have hviews := hgh.allTargets_view
  have hlength : g.targets.length = h.targets.length := by
    rw [← List.length_map (f := (·.view)), hviews, List.length_map]
  unfold Graph.targetsInOrder
  simp only [List.length_map, hlength]
  apply listReady_view
  rw [List.forall₂_map_left_iff, List.forall₂_map_right_iff]
  apply (forall₂_iff_map_eq.2 hviews).imp
  intro t u htu
  have hdependencies := hgh.successorTargets htu
  refine ⟨htu, hdependencies, ?_⟩
  have hsame := congrArg List.length hdependencies
  rwa [List.length_map, List.length_map] at hsame

end

end Graph

end BuildGraph
