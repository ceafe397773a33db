import BuildGraph.Proofs.ExternalBundles

/-!
# Local bundles

A prebuilt bundle, or a bundle of a project of the workspace, goes up to the first target
with a resources phase on every route. Such a target has it exactly if no other one lies
between, and on every route on which the bundle is needed some target has it.
-/

namespace BuildGraph

/-! ## One entry for each identity -/

def References.count (s : References) (id : ReferenceKey) : Nat :=
  s.toList.countP fun r => same r.id id

theorem References.count_eq (s : References) (id : ReferenceKey) :
    s.count id = if s.contains id = true then 1 else 0 := by
  have hcount : s.count id = (s.toList.map Reference.idKey).count (sortKey id) := by
    rw [List.count_eq_countP, List.countP_map]
    rfl
  have hmem : s.contains id = true ↔ sortKey id ∈ s.toList.map Reference.idKey := by
    simp [contains, same_iff, Reference.idKey]
  rw [hcount]
  split
  · exact List.count_eq_one_of_mem s.increasing.nodup (hmem.1 ‹_›)
  · exact List.count_eq_zero.2 fun h => ‹¬ _› (hmem.2 h)

theorem Graph.holds_hostsResources {g : Graph} {n : Nat} {t : ProjectTarget}
    (h : g.targetOfNode? n = some t) : g.wiring.holds g.hostsResources n = t.target.hostsResources :=
  holds_target h (·.hostsResources)

namespace Consumer

section
variable {c : Consumer} {n : Nat} {k : NodeKey} {r : Reference}

/-! ## References to bundles -/

theorem exists_referenceFor? {condition : Option Condition}
    (h : c.referenceFor? condition k = some r) (condition' : Option Condition) :
    ∃ s, c.referenceFor? condition' k = some s ∧ s.id = r.id := by
  rcases id_referenceFor? h with hart | ⟨id, t, rfl, ht, rfl⟩
  · exact exists_reference hart condition'
  · exact ⟨.ofTarget t condition', by rw [referenceFor?, ht, Option.map_some], rfl⟩

theorem exists_reference_bundle (h : c.graph.isResourceBundle k = true) :
    ∃ r, c.referenceFor? none k = some r := by
  cases k with
  | bundle path => exact ⟨_, rfl⟩
  | target id =>
    obtain ⟨t, ht, -⟩ := (Option.any_eq_true ..).1 h
    exact ⟨.ofTarget t none, congrArg (Option.map _) ht⟩
  | _ => cases h

theorem sortKey_eq_of_bundle (hbundle : c.graph.isResourceBundle k = true)
    (hr : c.referenceFor? none k = some r) {condition : Option Condition} {l : NodeKey}
    {s : Reference} (hs : c.referenceFor? condition l = some s) (hid : s.idKey = r.idKey) :
    sortKey l = sortKey k := by
  rcases artifact_or_target hs hr hid with ⟨i, j, hi, hj, hij⟩ | ⟨hsame, -⟩
  · cases k with
    | bundle path =>
      cases Option.some.inj hj
      change i.order = ReferenceKey.order (.bundle path) at hij
      cases l with
      | bundle path' =>
        cases Option.some.inj hi
        exact congrArg (fun p => SortKey.variant 4 [p]) (by simpa [ReferenceKey.order] using hij)
      | prebuilt b =>
        simp only [NodeKey.artifact?] at hi
        cases ho : b.origin <;> rw [ho] at hi <;> cases Option.some.inj hi <;>
          simp [ReferenceKey.order] at hij
      | sdk =>
        cases Option.some.inj hi
        simp [ReferenceKey.order] at hij
      | target | packageProduct | macroExecutable => cases hi
    | target => cases hj
    | _ => cases hbundle
  · exact hsame

theorem contains_collect_bundle (hg : c.graph.IsBuilt) {nodes : List Nat}
    (hk : c.graph.wiring.key? n = some k) (hbundle : c.graph.isResourceBundle k = true)
    (hr : c.referenceFor? none k = some r) :
    (c.collect nodes).contains r.id = true ↔ n ∈ nodes ∧ c.net n ≠ .incompatible := by
  rw [contains_collect hg]
  constructor
  · rintro ⟨m, hm, s, hs, hid⟩
    obtain ⟨condition, l, hcond, hl, hsl⟩ := contribution?_eq_some.1 hs
    have hsame := sortKey_eq_of_bundle hbundle hr hsl hid
    obtain rfl : m = n := hg.sound.1.node_eq (Wiring.sortKey?_eq_some.2 ⟨l, hl, hsame⟩)
      (Wiring.sortKey?_eq_some.2 ⟨k, hk, rfl⟩)
    exact ⟨hm, condition?_isSome.1 ⟨condition, hcond⟩⟩
  · rintro ⟨hn, hnet⟩
    obtain ⟨condition, hcond⟩ := condition?_isSome.2 hnet
    obtain ⟨s, hs, hid⟩ := exists_referenceFor? hr condition
    exact ⟨n, hn, s, contribution?_eq_some.2 ⟨condition, k, hcond, hk, hs⟩, congrArg sortKey hid⟩

theorem contains_bundles_local (hg : c.graph.IsBuilt) (hhost : c.description.hostsResources = true)
    (hk : c.graph.wiring.key? n = some k) (hbundle : c.graph.isResourceBundle k = true)
    (hlocal : c.graph.isExternal k = false) (hr : c.referenceFor? none k = some r) :
    c.bundles.contains r.id = true ↔
      c.graph.wiring.Passes c.graph.hostsResources c.node n ∧ c.net n ≠ .incompatible := by
  have hkind : c.graph.wiring.holds c.graph.isResourceBundle n = true ∧
      c.graph.wiring.holds c.graph.isExternal n = false := by
    rw [Graph.holds_of_key? hk, Graph.holds_of_key? hk]
    exact ⟨hbundle, hlocal⟩
  have hexternal : n ∉ c.externalBundles := by
    intro h
    rw [((mem_externalBundles hg).1 h).1.2] at hkind
    cases hkind.2
  rw [bundles, if_pos hhost, contains_collect_bundle hg hk hbundle hr, mem_bundleNodes,
    mem_localBundles hg, and_iff_right hkind, or_iff_left fun h => hexternal h.2]

end

end Consumer

/-- Among the targets with a resources phase, one that needs a local bundle lists it once if
no other lies between on some route, and else not at all. On a route to the bundle there is
always a target that lists it. -/
theorem Graph.IsBuilt.local_bundle_copied {g : Graph} (hg : g.IsBuilt) {path : Path} {name : String}
    {c : Consumer} {n : Nat} {k : NodeKey} (hc : g.consumer? path name = some c)
    (hhost : c.description.hostsResources = true) (hk : g.wiring.key? n = some k)
    (hbundle : g.isResourceBundle k = true) (hlocal : g.isExternal k = false) (hne : n ≠ c.node)
    (hnet : g.netCondition (.ofTarget path name) k ≠ .incompatible) :
    ∃ r, c.referenceFor? none k = some r ∧
      (c.bundles.count r.id = 1 ↔ g.wiring.Passes g.hostsResources c.node n) ∧
      (c.bundles.count r.id = 0 ↔ ¬ g.wiring.Passes g.hostsResources c.node n) ∧
      ∃ h : Consumer, g.consumerOf? h.target = some h ∧ h.description.hostsResources = true ∧
        g.wiring.Reaches c.node h.node ∧ g.wiring.Passes g.hostsResources h.node n ∧
        h.bundles.count r.id = 1 := by
  obtain ⟨rfl, ht, ha⟩ := consumer?_eq_some hc
  obtain ⟨r, hr⟩ := Consumer.exists_reference_bundle hbundle
  have hn : c.graph.wiring.node? k = some n :=
    hg.sound.1.node?_eq_some.2 (Wiring.sortKey?_eq_some.2 ⟨k, hk, rfl⟩)
  have hlists : c.bundles.contains r.id = true ↔
      c.graph.wiring.Passes c.graph.hostsResources c.node n := by
    rw [Consumer.contains_bundles_local hg hhost hk hbundle hlocal hr]
    refine and_iff_left_of_imp fun hpass => ?_
    rwa [hg.net_eq rfl ha hn hpass.reaches]
  refine ⟨r, hr, ?_, ?_, ?_⟩
  · rw [References.count_eq, ← hlists]
    split <;> simp_all
  · rw [References.count_eq, ← hlists]
    split <;> simp_all
  · -- the last target with a resources phase on the way has nothing more in between
    have hfirst := (holds_hostsResources (targetOfNode?_of_node? ht ha)).trans hhost
    obtain ⟨⟨_, m, t⟩, rfl, hht, hhosts, hreach, hpass, hneeded⟩ :=
      hg.exists_last_target_before ha hn hnet hfirst hne.symm
    refine ⟨⟨c.graph, m, t⟩, consumerOf?_of_node hg.sound.1 hht, hhosts, hreach, hpass, ?_⟩
    rw [References.count_eq, if_pos]
    exact (Consumer.contains_bundles_local (c := ⟨c.graph, m, t⟩) hg hhosts hk hbundle hlocal hr).2
      ⟨hpass, hneeded⟩

/-! ## Fonts behind a framework and behind a library -/

def fontsProject : Project :=
  let target (name : String) (product : Product) : Target := { name, product }
  ⟨⟨"/w"⟩, "W", .localProject, [target "App" .app, target "Kit" .framework,
    target "Core" .staticLibrary, target "Fonts" .bundle]⟩

def fonts : Draft :=
  let key (name : String) : NodeKey := .ofTarget ⟨"/w"⟩ name
  .ofCalls ⟨⟨"/w"⟩, "W", []⟩ [
    -- nodes 0 to 3: App, Kit, Core, Fonts
    .register fontsProject,
    .declare (key "App") (key "Kit") none,
    .declare (key "Kit") (key "Fonts") none,
    .declare (key "App") (key "Core") (Condition.when? [.ios]),
    .declare (key "Core") (key "Fonts") none]

def fontsGraph : Graph := ⟨fonts.workspace, fonts.projects, fonts.wiring⟩

theorem isBuilt_fonts : fontsGraph.IsBuilt :=
  Draft.isBuilt_of_checks (by decide) (by decide) (by decide)

def fontsApp : Consumer :=
  ⟨fontsGraph, 0, ⟨⟨"/w"⟩, { name := "App", product := .app }, fontsProject⟩⟩

theorem local_bundle_fonts :
    fontsGraph.consumer? ⟨"/w"⟩ "App" = some fontsApp ∧
      ∃ r, fontsApp.referenceFor? none (.ofTarget ⟨"/w"⟩ "Fonts") = some r ∧
        fontsApp.bundles.count r.id = 1 ∧
        ∃ h : Consumer, fontsGraph.consumerOf? h.target = some h ∧ h.bundles.count r.id = 1 := by
  have hc : fontsGraph.consumer? ⟨"/w"⟩ "App" = some fontsApp := by decide
  have hk : fontsGraph.wiring.key? 3 = some (.ofTarget ⟨"/w"⟩ "Fonts") := by decide
  have hnode : fontsGraph.wiring.node? (.ofTarget ⟨"/w"⟩ "Fonts") = some 3 := by decide
  have hes : fontsGraph.wiring.IsRoute 0 [⟨0, 1, none⟩, ⟨1, 3, none⟩] 3 :=
    ⟨by decide, rfl, by decide, rfl, rfl⟩
  have hnet := isBuilt_fonts.netCondition_of_route (Graph.consumer?_eq_some hc).2.2 hnode hes
    (by decide)
  obtain ⟨r, hr, honce, -, h, hh, -, -, -, hlists⟩ :=
    isBuilt_fonts.local_bundle_copied hc rfl hk (by decide) (by decide) (by decide) hnet
  have hthrough : fontsGraph.wiring.Passes fontsGraph.hostsResources 0 3 := by
    refine ⟨[⟨0, 2, Condition.when? [.ios]⟩, ⟨2, 3, none⟩], by simp, ?_, by decide⟩
    exact ⟨by decide, rfl, by decide, rfl, rfl⟩
  exact ⟨hc, r, hr, honce.2 hthrough, h, hh, hlists⟩

end BuildGraph
