import BuildGraph.Proofs.LinkedNodes

/-!
# Hosted tests

A hosted test bundle links no node that its host reaches. What it links and what the
host links are compared by nodes, but references are told apart by artifact: both link
one artifact exactly where they link it under two different keys.
-/

namespace BuildGraph

/-- Different keys for one artifact. -/
def NodeKey.Twins (k l : NodeKey) : Prop :=
  sortKey k ≠ sortKey l ∧ ∃ i j, k.artifact? = some i ∧ l.artifact? = some j ∧ sortKey i = sortKey j

namespace Consumer

section
variable {c : Consumer}

/-! ## What is linked is reached -/

theorem reaches_of_mem_select {test skip : NodeKey → Bool} {n : Nat}
    (h : n ∈ c.select test skip) : c.graph.wiring.Reaches c.node n := by
  obtain ⟨-, -, r, hr, es, hes, -⟩ := Wiring.mem_select.1 h
  rw [List.mem_singleton] at hr
  exact ⟨es, hr ▸ hes⟩

theorem reaches_of_mem_linkedNodesAlone {n : Nat} (h : n ∈ c.linkedNodesAlone) :
    c.graph.wiring.Reaches c.node n := by
  rcases mem_linkCandidates.1 (mem_linkedNodesAlone.1 h).1 with
    hdirect | ⟨-, hstatic | hneeded⟩
  · exact .of_successor (isLinkedDirectly_iff.1 hdirect).1
  · exact reaches_of_mem_select (isLinkedStatically_iff.1 hstatic).1
  · obtain ⟨⟨s, hs, hns⟩, -⟩ := isLinkedForStatic_iff.1 hneeded
    exact (reaches_of_mem_select hs).trans (.of_successor hns)

theorem contains_linked (hg : c.graph.IsBuilt) {id : ReferenceKey} : c.linked.contains id = true ↔
    ∃ n ∈ c.linkedNodes, ∃ r, c.contribution? n = some r ∧ r.idKey = sortKey id :=
  contains_collect hg

theorem linked_key {n : Nat} {r : Reference} (h : c.contribution? n = some r) :
    ∃ condition k, c.net n ≠ .incompatible ∧ c.graph.wiring.key? n = some k ∧
      c.referenceFor? condition k = some r := by
  obtain ⟨condition, k, hnet, hk, hr⟩ := contribution?_eq_some.1 h
  exact ⟨condition, k, condition?_isSome.1 ⟨condition, hnet⟩, hk, hr⟩

/-! ## What the host brings along -/

theorem mem_hostedNodes_of_host {t : ProjectTarget} {node n : Nat} (htests : c.product = .unitTests)
    (hhost : c.host? = some t) (hnode : c.graph.consumerOf? t = some ⟨c.graph, node, t⟩) :
    n ∈ c.hostedNodes ↔ c.graph.wiring.Reaches node n := by
  have hkey : c.graph.wiring.node? t.key = some node := (Graph.consumer?_eq_some hnode).2.2
  simp [mem_hostedNodes, htests, hhost, hkey]

theorem linked_meet_iff {d : Consumer} (hc : c.graph.IsBuilt) (hd : d.graph.IsBuilt)
    (hapart : ∀ n ∈ c.linkedNodes, ∀ m ∈ d.linkedNodes, ∀ k,
      c.graph.wiring.sortKey? n = some k → d.graph.wiring.sortKey? m ≠ some k) :
    (∃ id, c.linked.contains id = true ∧ d.linked.contains id = true) ↔
      ∃ n ∈ c.linkedNodes, ∃ m ∈ d.linkedNodes, ∃ k l, c.graph.wiring.key? n = some k ∧
        d.graph.wiring.key? m = some l ∧ k.Twins l ∧
          c.net n ≠ .incompatible ∧ d.net m ≠ .incompatible := by
  constructor
  · rintro ⟨id, hid, hid'⟩
    obtain ⟨n, hn, r, hr, hrid⟩ := (contains_linked hc).1 hid
    obtain ⟨m, hm, s, hs, hsid⟩ := (contains_linked hd).1 hid'
    obtain ⟨_, k, hnet, hk, hrk⟩ := linked_key hr
    obtain ⟨_, l, hnet', hl, hsl⟩ := linked_key hs
    refine ⟨n, hn, m, hm, k, l, hk, hl, ?_, hnet, hnet'⟩
    -- one key would be one node, which only one of them links
    have hkl : sortKey k ≠ sortKey l := by
      intro hkl
      apply hapart n hn m hm (sortKey k)
      · exact Wiring.sortKey?_eq_some.2 ⟨k, hk, rfl⟩
      · exact Wiring.sortKey?_eq_some.2 ⟨l, hl, hkl.symm⟩
    rcases artifact_or_target hrk hsl (hrid.trans hsid.symm) with hartifact | ⟨hsame, -⟩
    · exact ⟨hkl, hartifact⟩
    · exact absurd hsame hkl
  · rintro ⟨n, hn, m, hm, k, l, hk, hl, ⟨-, i, j, hi, hj, hij⟩, hnet, hnet'⟩
    obtain ⟨condition, hcond⟩ := condition?_isSome.2 hnet
    obtain ⟨condition', hcond'⟩ := condition?_isSome.2 hnet'
    obtain ⟨r, hr, hrid⟩ := exists_reference (c := c) hi condition
    obtain ⟨s, hs, hsid⟩ := exists_reference (c := d) hj condition'
    refine ⟨i, (contains_linked hc).2 ⟨n, hn, r, ?_, congrArg sortKey hrid⟩,
      (contains_linked hd).2 ⟨m, hm, s, ?_, (congrArg sortKey hsid).trans hij.symm⟩⟩
    · exact contribution?_eq_some.2 ⟨condition, k, hcond, hk, hr⟩
    · exact contribution?_eq_some.2 ⟨condition', l, hcond', hl, hs⟩

end

end Consumer

/-- A unit test bundle and its host, which is a consumer too, link no node both. They
both link an artifact exactly if they link it under different keys, each of which is
needed on some platform. -/
theorem Graph.IsBuilt.hosted_linked_inter {g : Graph} (hg : g.IsBuilt) {path : Path} {name : String}
    {c : Consumer} {t : ProjectTarget} (hc : g.consumer? path name = some c)
    (htests : c.product = .unitTests) (hhost : c.host? = some t) :
    ∃ h, g.consumerOf? t = some h ∧ (∀ n ∈ c.linkedNodes, n ∉ h.linkedNodes) ∧
      ((∃ id, c.linked.contains id = true ∧ h.linked.contains id = true) ↔
        ∃ n ∈ c.linkedNodes, ∃ m ∈ h.linkedNodes, ∃ k l, g.wiring.key? n = some k ∧
          g.wiring.key? m = some l ∧ k.Twins l ∧
          c.net n ≠ .incompatible ∧ h.net m ≠ .incompatible) := by
  have hgraph : c.graph = g := graph_of_consumer? hc
  subst hgraph
  obtain ⟨node, -, hnode⟩ := Consumer.host?_eq_some hg hhost
  have hw := hg.sound.1
  have hapart : ∀ n ∈ c.linkedNodes, n ∉ (⟨c.graph, node, t⟩ : Consumer).linkedNodes := by
    intro n hn hm
    apply (Consumer.mem_linkedNodes.1 hn).2
    rw [Consumer.mem_hostedNodes_of_host htests hhost hnode]
    exact Consumer.reaches_of_mem_linkedNodesAlone (Consumer.mem_linkedNodes.1 hm).1
  refine ⟨⟨c.graph, node, t⟩, hnode, hapart, ?_⟩
  apply Consumer.linked_meet_iff (d := ⟨c.graph, node, t⟩) hg hg
  intro n hn m hm k hk hl
  have hnm : n = m := hw.node_eq hk hl
  exact hapart n hn (hnm ▸ hm)

/-! ## One SDK under two keys -/

def sharedSdk : Draft :=
  let target (name : String) (product : Product) : Target := { name, product }
  let app : NodeKey := .ofTarget ⟨"/w"⟩ "App"
  let tests : NodeKey := .ofTarget ⟨"/w"⟩ "AppTests"
  .ofCalls ⟨⟨"/w"⟩, "W", []⟩ [
    .register ⟨⟨"/w"⟩, "W", .localProject, [target "App" .app, target "AppTests" .unitTests]⟩,
    .declare tests app none,
    .declare app (.sdk "Sdk" ⟨"/sdk"⟩ .required .system) none,
    .declare tests (.sdk "Sdk" ⟨"/sdk"⟩ .optional .system) none]

def sharedSdkGraph : Graph := ⟨sharedSdk.workspace, sharedSdk.projects, sharedSdk.wiring⟩

theorem isBuilt_sharedSdk : sharedSdkGraph.IsBuilt :=
  Draft.isBuilt_of_checks (by decide) (by decide) (by decide)

def sharedSdkConsumer (node : Nat) (name : String) (product : Product) : Consumer :=
  let target (name : String) (product : Product) : Target := { name, product }
  ⟨sharedSdkGraph, node, ⟨⟨"/w"⟩, target name product, ⟨⟨"/w"⟩, "W", .localProject,
    [target "App" .app, target "AppTests" .unitTests]⟩⟩⟩

theorem hosted_sharedSdk :
    let tests := sharedSdkConsumer 1 "AppTests" .unitTests
    let app := sharedSdkConsumer 0 "App" .app
    sharedSdkGraph.consumer? ⟨"/w"⟩ "AppTests" = some tests ∧ tests.product = .unitTests ∧
      tests.host? = some app.target ∧ ∀ n ∈ tests.linkedNodes, n ∉ app.linkedNodes := by
  intro tests app
  have hc : sharedSdkGraph.consumer? ⟨"/w"⟩ "AppTests" = some tests := by decide +kernel
  have hhost : tests.host? = some app.target := by decide +kernel
  obtain ⟨h, hh, hapart, -⟩ := isBuilt_sharedSdk.hosted_linked_inter hc rfl hhost
  have happ : sharedSdkGraph.consumerOf? app.target = some app := by decide +kernel
  obtain rfl : app = h := Option.some.inj (happ.symm.trans hh)
  exact ⟨hc, rfl, hhost, hapart⟩

/-- The tests and their host both link the SDK. -/
theorem linked_sharedSdk :
    let tests := sharedSdkConsumer 1 "AppTests" .unitTests
    let app := sharedSdkConsumer 0 "App" .app
    sharedSdkGraph.IsBuilt ∧ sharedSdkGraph.consumer? ⟨"/w"⟩ "AppTests" = some tests ∧
      tests.product = .unitTests ∧ tests.host? = some app.target ∧
      sharedSdkGraph.consumerOf? app.target = some app ∧
      tests.linked.contains (.sdk ⟨"/sdk"⟩) = true ∧
      app.linked.contains (.sdk ⟨"/sdk"⟩) = true :=
  ⟨isBuilt_sharedSdk, by decide +kernel, rfl, by decide +kernel, by decide +kernel,
    by decide +kernel, by decide +kernel⟩

end BuildGraph
