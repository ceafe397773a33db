import BuildGraph.Proofs.DirectTargets
import BuildGraph.Proofs.HostedTests
import BuildGraph.Proofs.LocalBundles
import BuildGraph.Proofs.MacroIsolation
import BuildGraph.Proofs.Parts

/-!
# Resolved nodes

A query takes what it has selected for unconditional, without a look at the routes, if no
edge has a condition. For a node that no route leads to that would be wrong, but all that a
query selects is reached from its root. So every reference is under the union of the net
conditions of the selected nodes of its identity, and a node is left out only if it is
needed on no platform or has no reference at all.
-/

namespace BuildGraph

theorem Wiring.resolve_eq_between {w : Wiring} (hw : w.WellFormed) (hac : w.Acyclic)
    {memo memo' : ConditionMemo} (h : w.MemoRight memo) (h' : w.MemoRight memo') {a b : Nat}
    (hr : w.Reaches a b) : (w.resolve memo a b).1 = (w.between memo' a b).1 :=
  (isNet_resolve hw hac h hr).unique (between_spec hw hac h' a b).1

theorem Wiring.Reaches.lt_size {w : Wiring} (hw : w.WellFormed) {a b : Nat} (hr : w.Reaches a b)
    (ha : a < w.size) : b < w.size := by
  obtain ⟨es, hes⟩ := hr
  induction es generalizing a with
  | nil => exact (show a = b from hes) ▸ ha
  | cons e es ih => exact ih (hw.target_lt e hes.1) hes.2.2

theorem Graph.lt_size_of_consumer? {g : Graph} {path : Path} {name : String} {c : Consumer}
    (hc : g.consumer? path name = some c) : c.node < g.wiring.size :=
  Wiring.lt_size_of_sortKey? (Wiring.sortKey?_of_node? (consumer?_eq_some hc).2.2)

/-! ## What queries ask -/

inductive Question where
  | linked
  | searchable
  | embedded
  | statics
  | bundles
  | copied

namespace Consumer

section
variable (c : Consumer)

def answer : Question → References
  | .linked => c.linked
  | .searchable => c.searchable
  | .embedded => c.embedded
  | .statics => c.staticTargets
  | .bundles => c.bundles
  | .copied => c.copied

def askedBundles : List Nat :=
  if c.description.hostsResources then c.bundleNodes else []

def asked : Question → List Nat
  | .linked => c.linkedNodes
  | .searchable => c.linkedNodesAlone ++ c.visibleStaticBinaries
  | .embedded => if c.description.embedsFrameworks then c.embeddedNodes else []
  | .statics => c.staticNodesDirect
  | .bundles => c.askedBundles
  | .copied => c.copiedNodes ++ c.askedBundles

/-- Some query of the consumer resolves the node from the root. What tests embed is compared
with what their host embeds, which is resolved from the host. -/
inductive Resolves : Nat → Nat → Prop where
  | answered (q : Question) {n : Nat} (asked : n ∈ c.asked q) : Resolves c.node n
  | direct {n : Nat} (successor : n ∈ c.successors) : Resolves c.node n
  | hosted {host : Consumer} {n : Nat} (found : c.host?.bind c.graph.consumerOf? = some host)
      (asked : n ∈ host.asked .embedded) : Resolves host.node n

def identity? (n : Nat) : Option ReferenceKey :=
  ((c.graph.wiring.key? n).bind (c.referenceFor? none)).map Reference.id

def unionOver (nodes : List Nat) (id : ReferenceKey) : NetCondition :=
  (nodes.filter fun n => (c.identity? n).any (same id)).foldl
    (fun net n => net.join (c.graph.wiring.between [] c.node n).1) .incompatible

end

/-! ## Selected nodes are reached -/

section
variable {c : Consumer} {n : Nat}

theorem reaches_of_askedBundles (h : n ∈ c.askedBundles) : c.graph.wiring.Reaches c.node n := by
  unfold askedBundles at h
  split at h
  · rcases mem_bundleNodes.1 h with hlocal | ⟨-, hexternal⟩
    · exact reaches_of_mem_select hlocal
    · exact reaches_of_mem_select hexternal
  · cases h

theorem reaches_of_staticNodesDirect (h : n ∈ c.staticNodesDirect) :
    c.graph.wiring.Reaches c.node n :=
  .of_successor (List.mem_of_mem_filter h)

theorem reaches_of_copiedNodes (h : n ∈ c.copiedNodes) : c.graph.wiring.Reaches c.node n := by
  unfold copiedNodes at h
  simp only [List.mem_append] at h
  rcases h with (hxc | hstatic) | hforeign
  · exact reaches_of_mem_select hxc
  · split at hstatic
    · exact reaches_of_staticNodesDirect hstatic
    · cases hstatic
  · exact .of_successor (List.mem_of_mem_filter hforeign)

theorem reaches_of_asked {q : Question} (h : n ∈ c.asked q) : c.graph.wiring.Reaches c.node n := by
  cases q with
  | linked => exact reaches_of_mem_linkedNodesAlone (mem_linkedNodes.1 h).1
  | searchable =>
    change n ∈ c.linkedNodesAlone ++ c.visibleStaticBinaries at h
    rcases List.mem_append.1 h with halone | hvisible
    · exact reaches_of_mem_linkedNodesAlone halone
    · exact reaches_of_mem_select hvisible
  | embedded =>
    change n ∈ if c.description.embedsFrameworks then c.embeddedNodes else [] at h
    split at h
    · exact reaches_of_mem_select (List.mem_of_mem_filter h)
    · cases h
  | statics => exact reaches_of_staticNodesDirect h
  | bundles => exact reaches_of_askedBundles h
  | copied =>
    change n ∈ c.copiedNodes ++ c.askedBundles at h
    rcases List.mem_append.1 h with hnode | hbundle
    · exact reaches_of_copiedNodes hnode
    · exact reaches_of_askedBundles hbundle

theorem Resolves.reaches {root : Nat} (h : c.Resolves root n) : c.graph.wiring.Reaches root n := by
  cases h with
  | answered q asked => exact reaches_of_asked asked
  | direct successor => exact .of_successor successor
  | @hosted host _ found asked =>
    obtain ⟨t, -, ht⟩ := Option.bind_eq_some_iff.1 found
    exact Graph.graph_of_consumer? ht ▸ reaches_of_asked asked

theorem Resolves.root_lt_size {root : Nat} (h : c.Resolves root n)
    (hc : c.node < c.graph.wiring.size) : root < c.graph.wiring.size := by
  cases h with
  | answered | direct => exact hc
  | @hosted host _ found asked =>
    obtain ⟨t, -, ht⟩ := Option.bind_eq_some_iff.1 found
    exact Graph.lt_size_of_consumer? ht

/-! ## What becomes of a selected node -/

theorem condition_referenceFor? {condition : Option Condition} {key : NodeKey} {r : Reference}
    (h : c.referenceFor? condition key = some r) : r.condition = condition := by
  cases key with
  | target id =>
    obtain ⟨t, -, rfl⟩ := Option.map_eq_some_iff.1 h
    rfl
  | prebuilt b =>
    cases Option.some.inj h
    unfold Reference.ofBinary
    cases b.origin <;> rfl
  | sdk | bundle =>
    cases Option.some.inj h
    rfl
  | packageProduct | macroExecutable => cases h

theorem contribution?_appliesAt {k : SortKey} {x : Place} :
    (∃ r, c.contribution? n = some r ∧ r.idKey = k ∧ Condition.appliesAt r.condition x = true) ↔
      (∃ id, c.identity? n = some id ∧ sortKey id = k) ∧ (c.net n).appliesAt x = true := by
  constructor
  · rintro ⟨r, hr, hid, hx⟩
    obtain ⟨condition, key, hcond, hkey, href⟩ := contribution?_eq_some.1 hr
    obtain ⟨s, hs, hsr⟩ := exists_referenceFor? href none
    refine ⟨⟨r.id, ?_, hid⟩, ?_⟩
    · rw [identity?, hkey, Option.bind_some, hs, Option.map_some, hsr]
    · rw [condition_referenceFor? href] at hx
      cases hnet : c.net n with
      | incompatible =>
        rw [hnet] at hcond
        cases hcond
      | condition d =>
        rw [hnet] at hcond
        cases Option.some.inj hcond
        exact hx
  · rintro ⟨⟨id, hid, rfl⟩, hx⟩
    obtain ⟨s, hs, rfl⟩ := Option.map_eq_some_iff.1 hid
    obtain ⟨key, hkey, href⟩ := Option.bind_eq_some_iff.1 hs
    cases hnet : c.net n with
    | incompatible =>
      rw [hnet] at hx
      cases hx
    | condition d =>
      obtain ⟨r, hr, hrs⟩ := exists_referenceFor? href d
      have hcond : (c.net n).condition? = some d := by
        rw [hnet]
        rfl
      refine ⟨r, contribution?_eq_some.2 ⟨d, key, hcond, hkey, hr⟩, congrArg sortKey hrs, ?_⟩
      rw [condition_referenceFor? hr]
      rw [hnet] at hx
      exact hx

theorem reference?_eq_none (hg : c.graph.IsBuilt) (hn : n < c.graph.wiring.size)
    {net : NetCondition} : c.reference? (n, net) = none ↔ net = .incompatible ∨
      (∃ project name use, c.graph.wiring.key? n = some (.packageProduct project name use)) ∨
      ∃ path, c.graph.wiring.key? n = some (.macroExecutable path) := by
  obtain ⟨key, hkey⟩ := Wiring.exists_key? hn
  unfold reference?
  cases net with
  | incompatible => simp [NetCondition.condition?]
  | condition d =>
    simp only [NetCondition.condition?, Option.bind_eq_bind, Option.bind_some, hkey]
    cases key with
    | target id =>
      have htarget : c.graph.wiring.holds NodeKey.isTarget n = true := by
        rw [Graph.holds_of_key? hkey]
        rfl
      obtain ⟨t, ht⟩ := hg.exists_target htarget
      obtain ⟨id', hkey', hid⟩ := Graph.key?_of_targetOfNode? ht
      cases Option.some.inj (hkey.symm.trans hkey')
      simp [referenceFor?, hid]
    | prebuilt | sdk | bundle => simp [referenceFor?]
    | packageProduct | macroExecutable => simp [referenceFor?]

/-! ## Answers -/

theorem mem_embeddedAlone_of_embedded {r : Reference} (hr : r ∈ c.embedded.toList) :
    r ∈ c.embeddedAlone.toList := by
  unfold embedded at hr
  split at hr
  · split at hr
    · exact List.mem_of_mem_filter hr
    · split at hr
      · cases hr
      · exact hr
  · exact hr

variable (hg : c.graph.IsBuilt)
include hg

theorem net_eq_between (hn : c.graph.wiring.Reaches c.node n) :
    c.net n = (c.graph.wiring.between [] c.node n).1 := by
  obtain ⟨hw, hac⟩ := hg.sound
  exact Wiring.resolve_eq_between hw hac Wiring.memoRight_nil Wiring.memoRight_nil hn

/-- References come from what the nodes contribute; a comparison with the host only drops
some of them. -/
theorem exists_collects (q : Question) {r : Reference} (hr : r ∈ (c.answer q).toList) :
    ∃ s : References, s.Collects (c.contributions (c.asked q)) ∧ r ∈ s.toList := by
  have hbundles : c.contributions c.askedBundles = c.bundleParts := by
    unfold askedBundles bundleParts
    split <;> rfl
  cases q with
  | linked => exact ⟨_, collects_linked hg, hr⟩
  | searchable =>
    refine ⟨_, ?_, hr⟩
    change References.Collects c.searchable
      (c.contributions (c.linkedNodesAlone ++ c.visibleStaticBinaries))
    rw [contributions, List.filterMap_append]
    exact collects_searchable hg
  | embedded =>
    refine ⟨c.embeddedAlone, ?_, mem_embeddedAlone_of_embedded hr⟩
    have halone := collects_embeddedAlone hg
    unfold embeddedAloneParts at halone
    change References.Collects _
      (c.contributions (if c.description.embedsFrameworks then c.embeddedNodes else []))
    split <;> simp_all [contributions]
  | statics => exact ⟨_, collects_collect hg _, hr⟩
  | bundles =>
    refine ⟨_, ?_, hr⟩
    change References.Collects c.bundles (c.contributions c.askedBundles)
    rw [hbundles]
    exact collects_bundles hg
  | copied =>
    refine ⟨_, ?_, hr⟩
    change References.Collects c.copied (c.contributions (c.copiedNodes ++ c.askedBundles))
    rw [contributions, List.filterMap_append, ← contributions, ← contributions, hbundles,
      ← copiedParts_eq]
    exact collects_copied hg

theorem condition_eq_unionOver (q : Question) {r : Reference} (hr : r ∈ (c.answer q).toList) :
    .condition r.condition = c.unionOver (c.asked q) r.id := by
  obtain ⟨s, hs, hr⟩ := exists_collects hg q hr
  apply NetCondition.eq_of_appliesAt
  intro x
  rw [NetCondition.appliesAt_condition, hs.joint_iff (Reference.joint_appliesAt x) hr, unionOver,
    NetCondition.appliesAt_foldl_join]
  simp only [NetCondition.appliesAt_incompatible, Bool.false_eq_true, false_or, List.mem_filter,
    Option.any_eq_true, same_iff]
  constructor
  · rintro ⟨p, hp, hkey, hx⟩
    obtain ⟨n, hn, hpn⟩ := List.mem_filterMap.1 hp
    obtain ⟨⟨id, hid, hsame⟩, hnet⟩ := contribution?_appliesAt.1 ⟨p, hpn, hkey, hx⟩
    rw [net_eq_between hg (reaches_of_asked hn)] at hnet
    exact ⟨n, ⟨hn, id, hid, hsame.symm⟩, hnet⟩
  · rintro ⟨n, ⟨hn, id, hid, hsame⟩, hnet⟩
    rw [← net_eq_between hg (reaches_of_asked hn)] at hnet
    obtain ⟨p, hpn, hkey, hx⟩ := contribution?_appliesAt.2 ⟨⟨id, hid, hsame.symm⟩, hnet⟩
    exact ⟨p, List.mem_filterMap.2 ⟨n, hn, hpn⟩, hkey, hx⟩

end

end Consumer

/-- All that a query resolves is reached from the root it resolves it from, so the shortcut
gives the net condition, whatever was looked up before. Each reference is under the union of
the net conditions of the nodes that share its identity, each use of a target under that of
its node, and only what is needed on no platform or has no reference is dropped. -/
theorem Graph.IsBuilt.resolved_nodes {g : Graph} (hg : g.IsBuilt) {path : Path} {name : String}
    {c : Consumer} (hc : g.consumer? path name = some c) :
    (∀ root n, c.Resolves root n → g.wiring.Reaches root n ∧
      ∀ before before' : List Wiring.Lookup,
        (g.wiring.resolve (g.wiring.memoAfter before) root n).1 =
          (g.wiring.between (g.wiring.memoAfter before') root n).1) ∧
      (∀ q, ∀ r ∈ (c.answer q).toList, .condition r.condition = c.unionOver (c.asked q) r.id) ∧
      (∀ u ∈ c.directTargets, ∃ n ∈ c.successors, g.targetOfNode? n = some u.target ∧
        .condition u.condition = (g.wiring.between [] c.node n).1) ∧
      ∀ root n, c.Resolves root n → ∀ before : List Wiring.Lookup,
        (c.reference? (n, (g.wiring.resolve (g.wiring.memoAfter before) root n).1) = none ↔
          (g.wiring.between [] root n).1 = .incompatible ∨
            (∃ project name use, g.wiring.key? n = some (.packageProduct project name use)) ∨
            ∃ path, g.wiring.key? n = some (.macroExecutable path)) := by
  have hsize := lt_size_of_consumer? hc
  obtain rfl := graph_of_consumer? hc
  obtain ⟨hw, hac⟩ := hg.sound
  refine ⟨fun root n h => ⟨h.reaches, fun before before' => ?_⟩,
    fun q r => Consumer.condition_eq_unionOver hg q, fun u hu => ?_, fun root n h before => ?_⟩
  · exact Wiring.resolve_eq_between hw hac (Wiring.memoRight_memoAfter hw hac before)
      (Wiring.memoRight_memoAfter hw hac before') h.reaches
  · obtain ⟨n, hn, ht, hcond⟩ := (Consumer.mem_directTargets_iff hg).1 hu
    refine ⟨n, hn, ht, ?_⟩
    rw [← Consumer.net_eq_between hg (.of_successor hn)]
    cases hnet : c.net n with
    | incompatible =>
      rw [hnet] at hcond
      cases hcond
    | condition d =>
      rw [hnet] at hcond
      rw [Option.some.inj hcond]
  · have hn := h.reaches.lt_size hw (h.root_lt_size hsize)
    rw [Consumer.reference?_eq_none hg hn, Wiring.resolve_eq_between hw hac
      (Wiring.memoRight_memoAfter hw hac before) Wiring.memoRight_nil h.reaches]

/-! ## One SDK under two keys -/

def twinned : Draft :=
  let app : NodeKey := .ofTarget ⟨"/w"⟩ "App"
  .ofCalls ⟨⟨"/w"⟩, "W", []⟩ [
    -- nodes 0 to 2: the app and both keys of the SDK
    .register ⟨⟨"/w"⟩, "W", .localProject, [{ name := "App", product := .app }]⟩,
    .declare app (.sdk "Z" ⟨"/sdk/Z"⟩ .required .system) (some (.only .ios)),
    .declare app (.sdk "Z" ⟨"/sdk/Z"⟩ .optional .system) (some (.only .macos))]

def twinnedGraph : Graph := ⟨twinned.workspace, twinned.projects, twinned.wiring⟩

theorem isBuilt_twinned : twinnedGraph.IsBuilt :=
  Draft.isBuilt_of_checks (by decide) (by decide) (by decide)

def twinnedApp : Consumer :=
  ⟨twinnedGraph, 0, ⟨⟨"/w"⟩, { name := "App", product := .app },
    ⟨⟨"/w"⟩, "W", .localProject, [{ name := "App", product := .app }]⟩⟩⟩

theorem between_twinned (n : Nat) : (twinnedGraph.wiring.between [] 0 n).1 =
    Wiring.overRoutes (twinnedGraph.wiring.routes 0 n) := by
  obtain ⟨hw, hac⟩ := isBuilt_twinned.sound
  exact (Wiring.isNet_between hw hac 0 n).unique
    (Wiring.isNet_overRoutes fun _ => Wiring.mem_routes hac)

theorem linked_twinned : twinnedApp.linked.contains (.sdk ⟨"/sdk/Z"⟩) = true := by
  have hlinked : 1 ∈ twinnedApp.linkedNodes := by decide +kernel
  have hid : twinnedApp.identity? 1 = some (.sdk ⟨"/sdk/Z"⟩) := by decide +kernel
  have hnet : (twinnedApp.net 1).appliesAt (some .ios) = true := by
    rw [Consumer.net_eq_between isBuilt_twinned (Consumer.reaches_of_asked (q := .linked) hlinked)]
    change (twinnedGraph.wiring.between [] 0 1).1.appliesAt (some .ios) = true
    rw [between_twinned]
    decide +kernel
  obtain ⟨r, hr, hkey, -⟩ := Consumer.contribution?_appliesAt.2 ⟨⟨_, hid, rfl⟩, hnet⟩
  exact (Consumer.contains_collect isBuilt_twinned).2 ⟨1, hlinked, r, hr, hkey⟩

theorem resolved_twinned : twinnedGraph.consumer? ⟨"/w"⟩ "App" = some twinnedApp ∧
    twinnedApp.Resolves 0 1 ∧ twinnedApp.Resolves 0 2 ∧
    twinnedApp.linked.contains (.sdk ⟨"/sdk/Z"⟩) = true ∧
    ∀ r ∈ twinnedApp.linked.toList, r.id = .sdk ⟨"/sdk/Z"⟩ →
      r.condition = Condition.when? [.ios, .macos] := by
  have hc : twinnedGraph.consumer? ⟨"/w"⟩ "App" = some twinnedApp := by decide +kernel
  have hasked : twinnedApp.asked .linked = [1, 2] := by decide +kernel
  obtain ⟨-, hunion, -, -⟩ := isBuilt_twinned.resolved_nodes hc
  have hmem {n : Nat} (hn : n ∈ [1, 2]) : n ∈ twinnedApp.asked .linked := hasked ▸ hn
  refine ⟨hc, ?_, ?_, linked_twinned, ?_⟩
  · exact .answered .linked (hmem (by decide))
  · exact .answered .linked (hmem (by decide))
  intro r hr hid
  have hcond := hunion .linked r hr
  have hfilter : [1, 2].filter (fun n => (twinnedApp.identity? n).any (same r.id)) = [1, 2] := by
    rw [hid]
    decide +kernel
  rw [Consumer.unionOver, hasked, hfilter] at hcond
  simp only [List.foldl_cons, List.foldl_nil] at hcond
  change _ = (NetCondition.incompatible.join (twinnedGraph.wiring.between [] 0 1).1).join
    (twinnedGraph.wiring.between [] 0 2).1 at hcond
  rw [between_twinned, between_twinned] at hcond
  have hboth : (NetCondition.incompatible.join
      (Wiring.overRoutes (twinnedGraph.wiring.routes 0 1))).join
      (Wiring.overRoutes (twinnedGraph.wiring.routes 0 2)) =
        .condition (Condition.when? [.ios, .macos]) := by decide +kernel
  rw [hboth] at hcond
  exact NetCondition.condition.inj hcond

end BuildGraph
