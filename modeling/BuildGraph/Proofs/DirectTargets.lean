import BuildGraph.Proofs.TargetNodes

/-!
# Direct dependencies on targets

The direct target dependencies of a target are those that its edges lead to, in the order
of their paths and names. Each comes with the net condition over all routes. That is the
condition of the edge itself unless another route applies where the edge does not.
-/

namespace BuildGraph

def Graph.Requires (g : Graph) (t d : ProjectTarget) : Prop :=
  ∃ e ∈ g.wiring.edges, g.targetOfNode? e.source = some t ∧ g.targetOfNode? e.target = some d

/-! ## Targets of a graph -/

theorem ProjectTarget.sortKey_inj {t u : ProjectTarget} :
    sortKey t = sortKey u ↔ sortKey t.path = sortKey u.path ∧ t.name = u.name := by
  show SortKey.ofList [sortKey t.path, sortKey t.name] =
    SortKey.ofList [sortKey u.path, sortKey u.name] ↔ _
  simp [sortKey_string]

namespace Graph

variable {g : Graph} {t u : ProjectTarget} {n m : Nat}

theorem eq_of_sortKey (ht : g.target? t.path t.name = some t) (hu : g.target? u.path u.name = some u)
    (h : sortKey t = sortKey u) : t = u := by
  obtain ⟨hpath, hname⟩ := ProjectTarget.sortKey_inj.1 h
  rw [target?_congr hpath, hname, hu] at ht
  exact (Option.some.inj ht).symm

theorem node_eq_of_sortKey (hw : g.wiring.WellFormed) (hn : g.targetOfNode? n = some t)
    (hm : g.targetOfNode? m = some u) (h : sortKey t = sortKey u) : n = m := by
  obtain ⟨hpath, hname⟩ := ProjectTarget.sortKey_inj.1 h
  have hkey : sortKey t.key = sortKey u.key :=
    congrArg (SortKey.cons (.num 0)) (sortKey_targetId.2 ⟨hpath, hname⟩)
  refine hw.node_eq (targetOfNode?_eq_some hn).1 ?_
  rw [hkey, (targetOfNode?_eq_some hm).1]

end Graph

namespace Consumer

section
variable {c : Consumer} {n : Nat} {u : TargetUse}

/-! ## Direct dependencies -/

theorem net_successor (hg : c.graph.IsBuilt) (hn : n ∈ c.successors) : c.net n ≠ .incompatible := by
  refine (isNet_net hg (.of_successor hn)).ne_incompatible_iff.2 ?_
  obtain ⟨e, he, hs, rfl⟩ := Wiring.mem_successors.1 hn
  obtain ⟨p, hp⟩ := Condition.exists_appliesAt e.condition
  exact ⟨[e], ⟨he, hs, rfl⟩, p, by simpa using hp⟩

theorem sortKey_targetUse {u v : TargetUse} (h : sortKey u = sortKey v) :
    sortKey u.target = sortKey v.target ∧ u.condition = v.condition := by
  have h : SortKey.ofList [sortKey u.target, sortKey u.condition] =
    SortKey.ofList [sortKey v.target, sortKey v.condition] := h
  simp only [SortKey.ofList_inj, List.cons.injEq, and_true] at h
  exact ⟨h.1, Condition.eq_of_sortKey h.2⟩

theorem mem_uses (hg : c.graph.IsBuilt) {nodes : List Nat} :
    u ∈ (c.resolveAll nodes).filterMap c.targetUse? ↔ ∃ n ∈ nodes,
      c.graph.targetOfNode? n = some u.target ∧ (c.net n).condition? = some u.condition := by
  rw [resolveAll_eq hg]
  simp [targetUse?_eq_some]

theorem mem_nodes_filter_successors (hg : c.graph.IsBuilt) :
    n ∈ c.graph.wiring.nodes.filter c.successors.contains ↔ n ∈ c.successors := by
  rw [List.mem_filter, List.contains_iff_mem, Wiring.mem_nodes, and_iff_right_iff_imp]
  intro hn
  obtain ⟨e, he, -, rfl⟩ := Wiring.mem_successors.1 hn
  exact hg.sound.1.target_lt e he

theorem eq_of_uses (hg : c.graph.IsBuilt) {nodes : List Nat} {u v : TargetUse}
    (hu : u ∈ (c.resolveAll nodes).filterMap c.targetUse?)
    (hv : v ∈ (c.resolveAll nodes).filterMap c.targetUse?)
    (h : sortKey u.target = sortKey v.target) : u = v := by
  obtain ⟨n, -, hn, hncond⟩ := (mem_uses hg).1 hu
  obtain ⟨m, -, hm, hmcond⟩ := (mem_uses hg).1 hv
  obtain rfl := Graph.node_eq_of_sortKey hg.sound.1 hn hm h
  cases u
  cases v
  simp_all

theorem mem_directTargets_iff (hg : c.graph.IsBuilt) : u ∈ c.directTargets ↔ ∃ n ∈ c.successors,
    c.graph.targetOfNode? n = some u.target ∧ (c.net n).condition? = some u.condition := by
  unfold directTargets targetUses
  rw [mem_collectBy_keepLast_of_inj, mem_uses hg]
  · simp only [mem_nodes_filter_successors hg]
  · intro u hu v hv huv
    exact eq_of_uses hg hu hv (sortKey_targetUse huv).1

theorem directTargets_increasing (hg : c.graph.IsBuilt) :
    IncreasingBy (fun u => sortKey u.target) c.directTargets := by
  refine List.Pairwise.imp_of_mem (fun {u v} hu hv huv => ?_)
    (collectBy_increasing (keepsKey_keepLast sortKey) _)
  have huv : compare (SortKey.ofList [sortKey u.target, sortKey u.condition])
    (SortKey.ofList [sortKey v.target, sortKey v.condition]) = .lt := huv
  rw [SortKey.compare_ofList_cons, Ordering.then_eq_lt] at huv
  refine huv.resolve_right fun ⟨htarget, hrest⟩ => ?_
  have hsame := eq_of_uses hg (mem_collectBy_keepLast hu) (mem_collectBy_keepLast hv)
    (SortKey.eq_of_compare htarget)
  rw [hsame] at hrest
  exact SortKey.lt_irrefl _ hrest

end

end Consumer

/-! ## Conditions -/

theorem Wiring.IsNet.appliesAt {w : Wiring} {a b : Nat} {net : NetCondition} (h : w.IsNet a b net)
    {condition : Option Condition} (hcond : net.condition? = some condition) {x : Place} :
    Condition.appliesAt condition x = true ↔
      ∃ es, w.IsRoute a es b ∧ ∀ e ∈ es, Condition.appliesAt e.condition x = true := by
  rw [← h x]
  cases net with
  | incompatible => cases hcond
  | condition c =>
    cases Option.some.inj hcond
    rfl

/-- The direct target dependencies are the targets that edges lead to, in strict order. Each
is under the net condition over all routes to it, which is the condition of its edge exactly
if no route applies where the edge does not. -/
theorem Graph.IsBuilt.direct_targets {g : Graph} (hg : g.IsBuilt) {path : Path} {name : String}
    {c : Consumer} (hc : g.consumer? path name = some c) :
    IncreasingBy (fun u => sortKey u.target) c.directTargets ∧
      (∀ d, (∃ u ∈ c.directTargets, u.target = d) ↔ g.Requires c.target d) ∧
      ∀ u ∈ c.directTargets, ∃ n, g.wiring.hasEdge c.node n = true ∧
        g.targetOfNode? n = some u.target ∧
        (∀ x, Condition.appliesAt u.condition x = true ↔ ∃ es, g.wiring.IsRoute c.node es n ∧
          ∀ e ∈ es, Condition.appliesAt e.condition x = true) ∧
        (u.condition = g.wiring.conditionOn c.node n ↔ ∀ es, g.wiring.IsRoute c.node es n →
          ∀ x, (∀ e ∈ es, Condition.appliesAt e.condition x = true) →
            Condition.appliesAt (g.wiring.conditionOn c.node n) x = true) := by
  obtain ⟨rfl, ht, hn⟩ := Graph.consumer?_eq_some hc
  have hself := Graph.targetOfNode?_of_node? ht hn
  have hw := hg.sound.1
  refine ⟨Consumer.directTargets_increasing hg, fun d => ?_, fun u hu => ?_⟩
  · refine ⟨fun ⟨u, hu, hud⟩ => ?_, fun ⟨e, he, hes, het⟩ => ?_⟩
    · obtain ⟨n, hn, hnt, -⟩ := (Consumer.mem_directTargets_iff hg).1 hu
      obtain ⟨e, he, hs, rfl⟩ := Wiring.mem_successors.1 hn
      exact ⟨e, he, hs ▸ hself, hud ▸ hnt⟩
    · have hsource : e.source = c.node := Graph.node_eq_of_sortKey hw hes hself rfl
      have hsucc : e.target ∈ c.successors := Wiring.mem_successors.2 ⟨e, he, hsource, rfl⟩
      obtain ⟨condition, hcond⟩ := Consumer.condition?_isSome.2 (Consumer.net_successor hg hsucc)
      exact ⟨⟨d, condition⟩, (Consumer.mem_directTargets_iff hg).2 ⟨_, hsucc, het, hcond⟩, rfl⟩
  · obtain ⟨n, hn, hnt, hcond⟩ := (Consumer.mem_directTargets_iff hg).1 hu
    have hnet (x : Place) := (Consumer.isNet_net hg (.of_successor hn)).appliesAt hcond (x := x)
    obtain ⟨e, he, hs, rfl⟩ := Wiring.mem_successors.1 hn
    have hedge : c.graph.wiring.conditionOn c.node e.target = e.condition := hs ▸ hw.conditionOn he
    refine ⟨e.target, Wiring.hasEdge_iff.2 ⟨e, he, hs, rfl⟩, hnt, hnet, ?_⟩
    rw [hedge]
    refine ⟨fun heq es hes x hx => heq ▸ (hnet x).2 ⟨es, hes, hx⟩, fun hall => ?_⟩
    refine Condition.eq_of_appliesAt fun x => (hnet x).trans ?_
    refine ⟨fun ⟨es, hes, hx⟩ => hall es hes x hx, fun hx => ?_⟩
    -- the edge itself is one of the routes
    exact ⟨[e], ⟨he, hs, rfl⟩, by simpa using hx⟩

/-! ## A framework that is needed in two ways -/

def chartedProject : Project :=
  let target (name : String) (product : Product) : Target := { name, product }
  ⟨⟨"/w"⟩, "W", .localProject, [target "App" .app, target "Core" .framework,
    target "Charts" .framework, target "Menus" .framework]⟩

def charted : Draft :=
  let key (name : String) : NodeKey := .ofTarget ⟨"/w"⟩ name
  .ofCalls ⟨⟨"/w"⟩, "W", []⟩ [
    -- nodes 0 to 3: App, Core, Charts, Menus
    .register chartedProject,
    .declare (key "App") (key "Core") none,
    .declare (key "App") (key "Charts") (some (.only .ios)),
    .declare (key "App") (key "Menus") (some (.only .macos)),
    .declare (key "Core") (key "Charts") none]

def chartedGraph : Graph := ⟨charted.workspace, charted.projects, charted.wiring⟩

theorem isBuilt_charted : chartedGraph.IsBuilt :=
  Draft.isBuilt_of_checks (by decide) (by decide) (by decide)

def chartedTarget (name : String) (product : Product) : ProjectTarget :=
  ⟨⟨"/w"⟩, { name, product }, chartedProject⟩

def chartedApp : Consumer :=
  ⟨chartedGraph, 0, chartedTarget "App" .app⟩

theorem net_charted {n : Nat} (hn : n ∈ chartedApp.successors) :
    chartedApp.net n = Wiring.overRoutes (chartedGraph.wiring.routes 0 n) :=
  (chartedApp.isNet_net isBuilt_charted (.of_successor hn)).unique
    (Wiring.isNet_overRoutes fun _ => Wiring.mem_routes isBuilt_charted.sound.2)

theorem mem_directTargets_charted {n : Nat} (hn : n ∈ chartedApp.successors) {u : TargetUse}
    (ht : chartedGraph.targetOfNode? n = some u.target)
    (hcond : (Wiring.overRoutes (chartedGraph.wiring.routes 0 n)).condition? = some u.condition) :
    u ∈ chartedApp.directTargets :=
  (Consumer.mem_directTargets_iff isBuilt_charted).2 ⟨n, hn, ht, net_charted hn ▸ hcond⟩

theorem direct_targets_charted :
    chartedGraph.consumer? ⟨"/w"⟩ "App" = some chartedApp ∧
      chartedGraph.Requires chartedApp.target (chartedTarget "Menus" .framework) ∧
      ∃ n, chartedGraph.targetOfNode? n = some (chartedTarget "Menus" .framework) ∧
        ∀ es, chartedGraph.wiring.IsRoute 0 es n → ∀ x,
          (∀ e ∈ es, Condition.appliesAt e.condition x = true) →
            Condition.appliesAt (some (.only .macos)) x = true := by
  have hc : chartedGraph.consumer? ⟨"/w"⟩ "App" = some chartedApp := by decide +kernel
  have hmenus : (⟨chartedTarget "Menus" .framework, some (.only .macos)⟩ : TargetUse) ∈
      chartedApp.directTargets :=
    mem_directTargets_charted (n := 3) (by decide) (by decide +kernel) (by decide)
  obtain ⟨-, hall, huses⟩ := isBuilt_charted.direct_targets hc
  refine ⟨hc, (hall _).1 ⟨_, hmenus, rfl⟩, ?_⟩
  obtain ⟨n, -, ht, happlies, -⟩ := huses _ hmenus
  exact ⟨n, ht, fun es hes x hx => (happlies x).2 ⟨es, hes, hx⟩⟩

/-- The charts are needed everywhere, though their edge is for iOS only. -/
theorem unconditional_charts :
    chartedGraph.IsBuilt ∧ chartedGraph.consumer? ⟨"/w"⟩ "App" = some chartedApp ∧
      (⟨chartedTarget "Charts" .framework, none⟩ : TargetUse) ∈ chartedApp.directTargets ∧
      chartedGraph.targetOfNode? 2 = some (chartedTarget "Charts" .framework) ∧
      chartedGraph.wiring.hasEdge 0 2 = true ∧
      chartedGraph.wiring.conditionOn 0 2 = some (.only .ios) :=
  ⟨isBuilt_charted, by decide +kernel,
    mem_directTargets_charted (n := 2) (by decide) (by decide +kernel) (by decide),
    by decide +kernel, by decide, by decide⟩

end BuildGraph
