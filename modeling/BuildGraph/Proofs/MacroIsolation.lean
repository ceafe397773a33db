import BuildGraph.Proofs.CopiedXcframeworks
import BuildGraph.Proofs.HostedTests
import BuildGraph.Proofs.LocalBundles

/-!
# Behind macros

A macro runs on the build host, and the walks for linked and embedded code and for copied
xcframeworks end there: all that they find has a route with no macro in between. The walks
for resource bundles look at resources phases alone, and a macro has none. Its own product
is in no answer.
-/

namespace BuildGraph

/-! ## What is no macro -/

theorem Product.not_macro {p : Product}
    (h : p.isStatic = true ∨ p.isDynamic = true ∨ p = .bundle ∨ p = .app ∨ p = .appExtension) :
    (p == .compilerMacro) = false := by
  cases p <;> simp_all [isStatic, isDynamic]

theorem Target.not_macro_of_isEmbeddable {t : Target} (h : t.isEmbeddable = true) :
    (t.product == .compilerMacro) = false := by
  unfold isEmbeddable isResourcefulStaticFramework at h
  cases hp : t.product <;> simp_all [Product.isDynamic]

namespace Graph

section
variable {g : Graph} {n : Nat} {t : ProjectTarget}

theorem holds_isMacro_prebuilt {b : Prebuilt} (h : g.wiring.key? n = some (.prebuilt b)) :
    g.wiring.holds g.isMacro n = false := by
  rw [holds_of_key? h]
  rfl

theorem not_macro_of_static (h : g.wiring.holds g.isStatic n = true) :
    g.wiring.holds g.isMacro n = false := by
  rcases prebuilt_or_target_of_static h with ⟨b, hkey, -⟩ | ⟨t, ht, hstatic⟩
  · exact holds_isMacro_prebuilt hkey
  · rw [holds_isMacro ht]
    exact Product.not_macro (.inl hstatic)

theorem not_macro_of_linkedByReference (h : g.wiring.holds g.isLinkedByReference n = true) :
    g.wiring.holds g.isMacro n = false := by
  obtain ⟨key, hkey, hkind⟩ := Wiring.holds_iff.1 h
  cases key with
  | target id =>
    have hdynamic : g.isDynamicTarget (.target id) = true := hkind
    obtain ⟨t, ht, hp⟩ := holds_targetSatisfies.1 (Wiring.holds_iff.2 ⟨_, hkey, hdynamic⟩)
    rw [holds_isMacro ht]
    exact Product.not_macro (.inr (.inl hp))
  | macroExecutable => cases hkind
  | _ =>
    rw [holds_of_key? hkey]
    rfl

theorem not_macro_of_embeddable
    (h : g.wiring.holds (fun key => key.isDynamicBinary || g.isEmbeddableTarget key) n = true) :
    g.wiring.holds g.isMacro n = false := by
  rcases prebuilt_or_target (·.isDynamic) (·.isEmbeddable) h fun _ => rfl with
    ⟨b, hkey, -⟩ | ⟨t, ht, hembeddable⟩
  · exact holds_isMacro_prebuilt hkey
  · rw [holds_isMacro ht]
    exact Target.not_macro_of_isEmbeddable hembeddable

theorem not_macro_of_resourceBundle (h : g.wiring.holds g.isResourceBundle n = true) :
    g.wiring.holds g.isMacro n = false := by
  obtain ⟨key, hkey, hkind⟩ := Wiring.holds_iff.1 h
  cases key with
  | target id =>
    have hbundle : g.targetSatisfies (·.product == .bundle) (.target id) = true := hkind
    obtain ⟨t, ht, hp⟩ := holds_targetSatisfies.1 (Wiring.holds_iff.2 ⟨_, hkey, hbundle⟩)
    rw [holds_isMacro ht]
    exact Product.not_macro (.inr (.inr (.inl (beq_iff_eq.1 hp))))
  | bundle =>
    rw [holds_of_key? hkey]
    rfl
  | _ => cases hkind

end

end Graph

namespace Consumer

/-! ## Where the walks end -/

def IsExposed (c : Consumer) (n : Nat) : Prop :=
  c.graph.wiring.holds c.graph.isMacro n = false ∧ c.graph.wiring.Passes c.graph.isMacro c.node n

/-- The nodes that a target copies for other reasons than resources. -/
def copiedNodes (c : Consumer) : List Nat :=
  c.copiedXcframeworks ++ (if c.product.isStatic then c.staticNodesDirect else []) ++
    c.foreignExecutables

section
variable {c : Consumer} {n : Nat}

theorem copiedParts_eq : c.copiedParts = c.contributions c.copiedNodes ++ c.bundleParts := by
  unfold copiedParts copiedNodes contributions
  split <;> simp

theorem isExposed_of_linkCandidates (hg : c.graph.IsBuilt) (h : n ∈ c.linkCandidates) :
    c.IsExposed n := by
  constructor
  · rcases mem_linkCandidates.1 h with hdirect | ⟨-, hstatic | hneeded⟩
    · exact Graph.not_macro_of_linkedByReference (isLinkedDirectly_iff.1 hdirect).2
    · exact Graph.not_macro_of_static ((mem_staticNodes hg).1 (isLinkedStatically_iff.1 hstatic).1).1
    · exact Graph.not_macro_of_linkedByReference (isLinkedForStatic_iff.1 hneeded).2
  · refine (passes_of_mem_linkCandidates hg h).mono fun m hm => ?_
    rw [Wiring.holds_or, Bool.or_eq_false_iff] at hm
    exact hm.2

theorem isExposed_of_embeddedNodes (hg : c.graph.IsBuilt) (h : n ∈ c.embeddedNodes) :
    c.IsExposed n := by
  obtain ⟨⟨hkind, hpass⟩, -⟩ := (mem_embeddedNodes hg).1 h
  refine ⟨Graph.not_macro_of_embeddable hkind, hpass.mono fun m hm => ?_⟩
  rw [Wiring.holds_or, Bool.or_eq_false_iff] at hm
  exact hm.2

theorem isExposed_of_copiedXcframeworks (hg : c.graph.IsBuilt) (h : n ∈ c.copiedXcframeworks) :
    c.IsExposed n := by
  obtain ⟨hkind, hpass⟩ := (mem_copiedXcframeworks hg).1 h
  constructor
  · obtain ⟨key, hkey, hxc⟩ := Wiring.holds_iff.1 hkind
    cases key with
    | prebuilt b => exact Graph.holds_isMacro_prebuilt hkey
    | _ => cases hxc
  · refine hpass.mono fun m hm => ?_
    rw [Wiring.holds_or, Wiring.holds_or, Bool.or_eq_false_iff, Bool.or_eq_false_iff] at hm
    exact hm.1.2

theorem isExposed_of_staticNodesDirect (h : n ∈ c.staticNodesDirect) : c.IsExposed n := by
  obtain ⟨hsucc, hkind⟩ := List.mem_filter.1 h
  have hboth : c.graph.wiring.holds (fun key => key.isTarget && c.graph.isStatic key) n = true :=
    hkind
  rw [Wiring.holds_and, Bool.and_eq_true] at hboth
  exact ⟨Graph.not_macro_of_static hboth.2, Wiring.passes_of_successor hsucc⟩

theorem isExposed_of_foreignExecutables (h : n ∈ c.foreignExecutables) : c.IsExposed n := by
  obtain ⟨hsucc, hkind⟩ := List.mem_filter.1 h
  obtain ⟨t, ht, hproduct⟩ := (Option.any_eq_true ..).1 hkind
  refine ⟨?_, Wiring.passes_of_successor hsucc⟩
  rw [Graph.holds_isMacro ht]
  simp only [Bool.and_eq_true, Bool.or_eq_true, beq_iff_eq] at hproduct
  exact Product.not_macro (.inr (.inr (.inr hproduct.2)))

theorem isExposed_of_copiedNodes (hg : c.graph.IsBuilt) (h : n ∈ c.copiedNodes) :
    c.IsExposed n := by
  unfold copiedNodes at h
  simp only [List.mem_append] at h
  rcases h with (hxc | hstatic) | hforeign
  · exact isExposed_of_copiedXcframeworks hg hxc
  · split at hstatic
    · exact isExposed_of_staticNodesDirect hstatic
    · cases hstatic
  · exact isExposed_of_foreignExecutables hforeign

/-! ## Answers -/

section
variable (hg : c.graph.IsBuilt) {id : ReferenceKey}
include hg

theorem exists_node_linked (h : c.linked.contains id = true) :
    ∃ n ∈ c.linkedNodes, c.ContributesTo (sortKey id) n ∧ c.IsExposed n := by
  obtain ⟨n, hn, hid⟩ := (contains_collect hg).1 h
  have hcandidate := (mem_linkedNodesAlone.1 (mem_linkedNodes.1 hn).1).1
  exact ⟨n, hn, hid, isExposed_of_linkCandidates hg hcandidate⟩

theorem exists_node_embedded (h : c.embedded.contains id = true) :
    ∃ n ∈ c.embeddedNodes, c.ContributesTo (sortKey id) n ∧ c.IsExposed n := by
  obtain ⟨r, hr, hid⟩ := (collects_embedded hg).contains.1 h
  have halone : r ∈ c.embeddedAloneParts := by
    unfold embeddedParts at hr
    split at hr
    · split at hr
      · exact List.mem_of_mem_filter hr
      · split at hr
        · cases hr
        · exact hr
    · exact hr
  unfold embeddedAloneParts at halone
  split at halone
  · obtain ⟨n, hn, hnr⟩ := List.mem_filterMap.1 halone
    exact ⟨n, hn, ⟨r, hnr, hid⟩, isExposed_of_embeddedNodes hg hn⟩
  · cases halone

theorem contains_copied : c.copied.contains id = true ↔
    (∃ n ∈ c.copiedNodes, c.ContributesTo (sortKey id) n) ∨ c.bundles.contains id = true := by
  rw [(collects_copied hg).contains, (collects_bundles hg).contains, copiedParts_eq]
  simp only [List.mem_append, or_and_right, exists_or, contributions, List.mem_filterMap]
  refine or_congr ⟨?_, ?_⟩ Iff.rfl
  · rintro ⟨r, ⟨n, hn, hr⟩, hid⟩
    exact ⟨n, hn, r, hr, hid⟩
  · rintro ⟨n, hn, r, hr, hid⟩
    exact ⟨r, ⟨n, hn, hr⟩, hid⟩

theorem exists_node_copied (h : c.copied.contains id = true) (hno : c.bundles.contains id = false) :
    ∃ n ∈ c.copiedNodes, c.ContributesTo (sortKey id) n ∧ c.IsExposed n := by
  rw [contains_copied hg, hno] at h
  obtain ⟨n, hn, hid⟩ := h.resolve_right Bool.false_ne_true
  exact ⟨n, hn, hid, isExposed_of_copiedNodes hg hn⟩

/-- A resource bundle comes through all that has no resources phase, and one of an external
project through all that copies no bundles. -/
theorem contains_bundles_iff : c.bundles.contains id = true ↔
    c.description.hostsResources = true ∧ ∃ n, c.ContributesTo (sortKey id) n ∧
      c.graph.wiring.holds c.graph.isResourceBundle n = true ∧
      (c.graph.wiring.holds c.graph.isExternal n = false ∧
          c.graph.wiring.Passes c.graph.hostsResources c.node n ∨
        c.description.embedsBundles = true ∧ c.graph.wiring.holds c.graph.isExternal n = true ∧
          c.graph.wiring.Passes c.graph.embedsBundles c.node n) := by
  unfold bundles
  split
  · rename_i hhosts
    rw [contains_collect hg, and_iff_right hhosts]
    refine exists_congr fun n => ?_
    rw [mem_bundleNodes, mem_localBundles hg, mem_externalBundles hg]
    tauto
  · rename_i hhosts
    exact iff_of_false (fun h => Bool.noConfusion h) fun h => hhosts h.1

end

theorem targetOfNode?_of_product {path : Path} {name : String} {t : ProjectTarget}
    (ht : c.graph.target? path name = some t)
    (h : c.ContributesTo (sortKey (Reference.ofTarget t none).id) n) :
    c.graph.targetOfNode? n = some t := by
  obtain ⟨r, hr, hid⟩ := h
  obtain ⟨condition, key, -, hkey, hrk⟩ := contribution?_eq_some.1 hr
  have hself := Graph.target?_self ht
  have ht' : c.referenceFor? none t.key = some (.ofTarget t none) := by
    simp [ProjectTarget.key, referenceFor?, Graph.targetOfId?, ProjectTarget.id, hself]
  rcases artifact_or_target hrk ht' hid with ⟨_, _, -, hj, -⟩ | ⟨hsame, -⟩
  · cases hj
  · cases NodeKey.alike_of_sortKey hsame with
    | target hpath hname =>
      simp only [Graph.targetOfNode?, Graph.targetOfKey?, hkey, NodeKey.target?, Graph.targetOfId?,
        Option.bind_some, Graph.target?_congr hpath, hname]
      exact hself

end

end Consumer

/-- What is linked or embedded, or copied and no resource bundle, stands for a node of that
selection that has a route with no macro in between. Resource bundles come through macros
too, and through all that has no resources phase or, for those of external projects, copies
no bundles. The product of a macro is neither linked nor embedded nor copied. -/
theorem Graph.IsBuilt.macro_isolation {g : Graph} (hg : g.IsBuilt) {path : Path} {name : String}
    {c : Consumer} (hc : g.consumer? path name = some c) :
    (∀ id,
      (c.linked.contains id = true → ∃ n ∈ c.linkedNodes,
        c.ContributesTo (sortKey id) n ∧ g.wiring.Passes g.isMacro c.node n) ∧
      (c.embedded.contains id = true → ∃ n ∈ c.embeddedNodes,
        c.ContributesTo (sortKey id) n ∧ g.wiring.Passes g.isMacro c.node n) ∧
      (c.copied.contains id = true → c.bundles.contains id = false → ∃ n ∈ c.copiedNodes,
        c.ContributesTo (sortKey id) n ∧ g.wiring.Passes g.isMacro c.node n)) ∧
    (∀ id, c.bundles.contains id = true ↔ c.description.hostsResources = true ∧
      ∃ n, c.ContributesTo (sortKey id) n ∧ g.wiring.holds g.isResourceBundle n = true ∧
        (g.wiring.holds g.isExternal n = false ∧ g.wiring.Passes g.hostsResources c.node n ∨
          c.description.embedsBundles = true ∧ g.wiring.holds g.isExternal n = true ∧
            g.wiring.Passes g.embedsBundles c.node n)) ∧
    ∀ p m t, g.target? p m = some t → t.product = .compilerMacro →
      ∀ s ∈ [c.linked, c.embedded, c.bundles, c.copied],
        s.contains (Reference.ofTarget t none).id = false := by
  obtain rfl := graph_of_consumer? hc
  refine ⟨fun id => ⟨fun hlinked => ?_, fun hembedded => ?_, fun hcopied hno => ?_⟩,
    fun id => Consumer.contains_bundles_iff hg, ?_⟩
  · obtain ⟨n, hn, hid, -, hpass⟩ := Consumer.exists_node_linked hg hlinked
    exact ⟨n, hn, hid, hpass⟩
  · obtain ⟨n, hn, hid, -, hpass⟩ := Consumer.exists_node_embedded hg hembedded
    exact ⟨n, hn, hid, hpass⟩
  · obtain ⟨n, hn, hid, -, hpass⟩ := Consumer.exists_node_copied hg hcopied hno
    exact ⟨n, hn, hid, hpass⟩
  · intro p m t ht hmacro
    -- a node of the macro itself would be among the collected ones
    have hno : ∀ n, c.ContributesTo (sortKey (Reference.ofTarget t none).id) n →
        c.graph.wiring.holds c.graph.isMacro n = true := by
      intro n hn
      rw [holds_isMacro (Consumer.targetOfNode?_of_product ht hn)]
      exact beq_iff_eq.2 hmacro
    have hexposed : ∀ nodes : List Nat, ¬ ∃ n ∈ nodes,
        c.ContributesTo (sortKey (Reference.ofTarget t none).id) n ∧ c.IsExposed n := by
      rintro nodes ⟨n, -, hn, hplain, -⟩
      rw [hno n hn] at hplain
      cases hplain
    have hbundles : c.bundles.contains (Reference.ofTarget t none).id = false := by
      rw [← Bool.not_eq_true, Consumer.contains_bundles_iff hg]
      rintro ⟨-, n, hn, hbundle, -⟩
      have hplain := not_macro_of_resourceBundle hbundle
      rw [hno n hn] at hplain
      cases hplain
    simp only [List.forall_mem_cons, List.not_mem_nil, false_implies, implies_true, and_true,
      ← Bool.not_eq_true]
    exact ⟨fun h => hexposed _ (Consumer.exists_node_linked hg h),
      fun h => hexposed _ (Consumer.exists_node_embedded hg h), by simp [hbundles],
      fun h => hexposed _ (Consumer.exists_node_copied hg h hbundles)⟩

/-! ## An app with a compiler plugin -/

def pluggedProject : Project :=
  let target (name : String) (product : Product) : Target := { name, product }
  ⟨⟨"/w"⟩, "W", .localProject, [target "App" .app, target "Kit" .framework,
    target "Plugin" .compilerMacro, target "SyntaxKit" .framework]⟩

def plugged : Draft :=
  let key (name : String) : NodeKey := .ofTarget ⟨"/w"⟩ name
  .ofCalls ⟨⟨"/w"⟩, "W", []⟩ [
    -- nodes 0 to 4: App, Kit, Plugin, SyntaxKit, the bundle
    .register pluggedProject,
    .declare (key "App") (key "Kit") none,
    .declare (key "App") (key "Plugin") none,
    .declare (key "Plugin") (key "SyntaxKit") none,
    .declare (key "Plugin") (.bundle ⟨"/w/Grammar.bundle"⟩) none]

def pluggedGraph : Graph := ⟨plugged.workspace, plugged.projects, plugged.wiring⟩

theorem isBuilt_plugged : pluggedGraph.IsBuilt :=
  Draft.isBuilt_of_checks (by decide) (by decide) (by decide)

def pluggedTarget (name : String) (product : Product) : ProjectTarget :=
  ⟨⟨"/w"⟩, { name, product }, pluggedProject⟩

def pluggedApp : Consumer :=
  ⟨pluggedGraph, 0, pluggedTarget "App" .app⟩

theorem isolation_plugged :
    pluggedGraph.consumer? ⟨"/w"⟩ "App" = some pluggedApp ∧
      (∃ n ∈ pluggedApp.embeddedNodes, pluggedApp.ContributesTo
          (sortKey (Reference.ofTarget (pluggedTarget "Kit" .framework) none).id) n ∧
        pluggedGraph.wiring.Passes pluggedGraph.isMacro 0 n) ∧
      pluggedApp.bundles.contains (.bundle ⟨"/w/Grammar.bundle"⟩) = true ∧
      ∀ s ∈ [pluggedApp.linked, pluggedApp.embedded, pluggedApp.bundles, pluggedApp.copied],
        s.contains (Reference.ofTarget (pluggedTarget "Plugin" .compilerMacro) none).id = false := by
  have hc : pluggedGraph.consumer? ⟨"/w"⟩ "App" = some pluggedApp := by decide +kernel
  obtain ⟨hexposed, hbundles, hmacro⟩ := isBuilt_plugged.macro_isolation hc
  refine ⟨hc, (hexposed _).2.1 (by decide +kernel), (hbundles _).2 ?_,
    hmacro ⟨"/w"⟩ "Plugin" _ (by decide +kernel) rfl⟩
  have hes : pluggedGraph.wiring.IsRoute 0 [⟨0, 2, none⟩, ⟨2, 4, none⟩] 4 :=
    ⟨by decide, rfl, by decide, rfl, rfl⟩
  refine ⟨by decide, 4, ?_, by decide, .inl ⟨by decide, _, by simp, hes, by decide⟩⟩
  exact ⟨.bundle ⟨"/w/Grammar.bundle"⟩ none, by decide +kernel, rfl⟩

/-- All that stands for the bundle lies behind the macro. -/
theorem bundle_behind_macro :
    pluggedGraph.IsBuilt ∧ pluggedGraph.consumer? ⟨"/w"⟩ "App" = some pluggedApp ∧
      pluggedApp.bundles.contains (.bundle ⟨"/w/Grammar.bundle"⟩) = true ∧
      pluggedApp.copied.contains (.bundle ⟨"/w/Grammar.bundle"⟩) = true ∧
      ∀ n, pluggedApp.ContributesTo (sortKey (ReferenceKey.bundle ⟨"/w/Grammar.bundle"⟩)) n →
        ∀ es, pluggedGraph.wiring.IsRoute 0 es n →
          ∃ e ∈ es.tail, pluggedGraph.wiring.holds pluggedGraph.isMacro e.source = true := by
  refine ⟨isBuilt_plugged, by decide +kernel, by decide +kernel, by decide +kernel, ?_⟩
  intro n hn es hes
  have hr : pluggedApp.referenceFor? none (.bundle ⟨"/w/Grammar.bundle"⟩) =
      some (.bundle ⟨"/w/Grammar.bundle"⟩ none) := rfl
  obtain ⟨r, hnr, hid⟩ := hn
  obtain ⟨_, key, -, hkey, hrk⟩ := Consumer.contribution?_eq_some.1 hnr
  have hsame := Consumer.sortKey_eq_of_bundle (c := pluggedApp) rfl hr hrk hid
  obtain rfl : n = 4 := isBuilt_plugged.sound.1.node_eq
    (Wiring.sortKey?_eq_some.2 ⟨key, hkey, hsame⟩) (by decide)
  obtain ⟨e, he, hm⟩ := hes.through (m := 2) (by decide) (by decide) (by decide)
  exact ⟨e, he, by rw [hm]; decide⟩

end BuildGraph
