import BuildGraph.Proofs.HostedTests
import BuildGraph.Proofs.LocalBundles

/-!
# The linked image

What a target links, told by routes alone. Direct SDKs and dynamic code are linked, static
code that comes through open nodes, and what that code needs; merged nodes, nodes that the
host brings along and nodes that are needed nowhere are not. Open nodes are those that link
no static code and are no macros, so nothing is linked across dynamic code.
-/

namespace BuildGraph

def Graph.endsStaticCode (g : Graph) (key : NodeKey) : Bool :=
  g.linksStaticCode key || g.isMacro key

namespace Consumer

/-- Static code that comes to the target through open nodes. -/
def Absorbs (c : Consumer) (s : Nat) : Prop :=
  s ≠ c.node ∧ c.graph.wiring.holds c.graph.isStatic s = true ∧
    c.graph.wiring.Passes c.graph.endsStaticCode c.node s

inductive Wants (c : Consumer) (n : Nat) : Prop
  | direct (hn : n ∈ c.successors)
      (hkind : c.graph.wiring.holds c.graph.isLinkedByReference n = true)
  | static (himage : c.product.linksStaticCode = true) (hn : c.Absorbs n)
      (hkind : c.graph.wiring.holds NodeKey.isTarget n = true ∨
        c.graph.wiring.holds NodeKey.isPlainStaticBinary n = true ∨ n ∈ c.successors)
  | forStatic (himage : c.product.linksStaticCode = true) {s : Nat} (hs : c.Absorbs s)
      (hn : n ∈ c.graph.wiring.successors s)
      (hkind : c.graph.wiring.holds c.graph.isLinkedByReference n = true)

structure Links (c : Consumer) (n : Nat) : Prop where
  wanted : c.Wants n
  unmerged : c.isMerged n = false
  unhosted : c.product = .unitTests → ∀ t m, c.host? = some t →
    c.graph.wiring.node? t.key = some m → ¬ c.graph.wiring.Reaches m n
  needed : ∃ key, c.graph.wiring.key? n = some key ∧
    c.graph.netCondition c.target.key key ≠ .incompatible

section
variable {c : Consumer} {n : Nat}

/-! ## Candidates -/

theorem mem_staticNodes_iff_absorbs (hg : c.graph.IsBuilt) : n ∈ c.staticNodes ↔ c.Absorbs n := by
  have hstatic : n ∈ c.staticNodes ↔ c.graph.wiring.holds c.graph.isStatic n = true ∧
      c.graph.wiring.Passes c.graph.endsStaticCode c.node n := mem_staticNodes hg
  rw [hstatic, Absorbs, iff_and_self]
  rintro ⟨-, es, hne, hes, -⟩ rfl
  exact hne (hg.sound.2 _ es hes)

theorem mem_linkCandidates_iff_wants (hg : c.graph.IsBuilt) : n ∈ c.linkCandidates ↔ c.Wants n := by
  rw [mem_linkCandidates]
  simp only [isLinkedDirectly_iff, isLinkedStatically_iff, isLinkedForStatic_iff,
    mem_staticNodes_iff_absorbs hg, Wiring.holds_or, Bool.or_eq_true, or_assoc]
  constructor
  · rintro (⟨hn, hkind⟩ | ⟨himage, ⟨hn, hkind⟩ | ⟨⟨s, hs, hn⟩, hkind⟩⟩)
    · exact .direct hn hkind
    · exact .static himage hn hkind
    · exact .forStatic himage hs hn hkind
  · rintro (⟨hn, hkind⟩ | ⟨himage, hn, hkind⟩ | ⟨himage, hs, hn, hkind⟩)
    · exact .inl ⟨hn, hkind⟩
    · exact .inr ⟨himage, .inl ⟨hn, hkind⟩⟩
    · exact .inr ⟨himage, .inr ⟨⟨_, hs, hn⟩, hkind⟩⟩

theorem mem_linkedNodes_iff (hg : c.graph.IsBuilt) : n ∈ c.linkedNodes ↔
    c.Wants n ∧ c.isMerged n = false ∧ (c.product = .unitTests → ∀ t m, c.host? = some t →
      c.graph.wiring.node? t.key = some m → ¬ c.graph.wiring.Reaches m n) := by
  rw [mem_linkedNodes, mem_linkedNodesAlone, mem_linkCandidates_iff_wants hg, mem_hostedNodes,
    and_assoc]
  simp only [not_and, not_exists]

/-! ## References -/

theorem exists_referenceFor?_target {t : ProjectTarget} (h : c.graph.targetOfNode? n = some t) :
    ∃ key, c.graph.wiring.key? n = some key ∧ ∃ r, c.referenceFor? none key = some r := by
  obtain ⟨id, hkey, ht⟩ := Graph.key?_of_targetOfNode? h
  exact ⟨_, hkey, .ofTarget t none, by rw [referenceFor?, ht, Option.map_some]⟩

theorem exists_referenceFor?_of_isStatic (h : c.graph.wiring.holds c.graph.isStatic n = true) :
    ∃ key, c.graph.wiring.key? n = some key ∧ ∃ r, c.referenceFor? none key = some r := by
  rcases Graph.prebuilt_or_target_of_static h with ⟨b, hkey, -⟩ | ⟨t, ht, -⟩
  · exact ⟨_, hkey, _, rfl⟩
  · exact exists_referenceFor?_target ht

theorem exists_referenceFor?_of_isLinkedByReference
    (h : c.graph.wiring.holds c.graph.isLinkedByReference n = true) :
    ∃ key, c.graph.wiring.key? n = some key ∧ ∃ r, c.referenceFor? none key = some r := by
  obtain ⟨key, hkey, hkind⟩ := Wiring.holds_iff.1 h
  cases key with
  | sdk | prebuilt => exact ⟨_, hkey, _, rfl⟩
  | target id =>
    have hdynamic : c.graph.isDynamicTarget (.target id) = true := hkind
    obtain ⟨t, ht, -⟩ := Graph.holds_targetSatisfies.1 (Wiring.holds_iff.2 ⟨_, hkey, hdynamic⟩)
    exact exists_referenceFor?_target ht
  | bundle | packageProduct | macroExecutable => cases hkind

theorem Wants.exists_referenceFor? (h : c.Wants n) :
    ∃ key, c.graph.wiring.key? n = some key ∧ ∃ r, c.referenceFor? none key = some r := by
  cases h with
  | direct _ hkind => exact exists_referenceFor?_of_isLinkedByReference hkind
  | static _ hn _ => exact exists_referenceFor?_of_isStatic hn.2.1
  | forStatic _ _ _ hkind => exact exists_referenceFor?_of_isLinkedByReference hkind

theorem node?_target {path : Path} {name : String} (hg : c.graph.IsBuilt)
    (hc : c.graph.consumer? path name = some c) :
    c.graph.wiring.node? c.target.key = some c.node := by
  obtain ⟨-, ht, hn⟩ := Graph.consumer?_eq_some hc
  have hnode := Graph.targetOfNode?_of_node? ht hn
  exact hg.sound.1.node?_eq_some.2 (Graph.targetOfNode?_eq_some hnode).1

theorem netCondition_target (hg : c.graph.IsBuilt)
    (htarget : c.graph.wiring.node? c.target.key = some c.node) {key : NodeKey}
    (hkey : c.graph.wiring.key? n = some key) (hreach : c.graph.wiring.Reaches c.node n) :
    c.graph.netCondition c.target.key key = c.net n := by
  have hn : c.graph.wiring.node? key = some n :=
    hg.sound.1.node?_eq_some.2 (Wiring.sortKey?_eq_some.2 ⟨key, hkey, rfl⟩)
  exact (hg.net_eq rfl htarget hn hreach).symm

theorem contributes_linked_iff (hg : c.graph.IsBuilt)
    (htarget : c.graph.wiring.node? c.target.key = some c.node) :
    (n ∈ c.linkedNodes ∧ ∃ r, c.contribution? n = some r) ↔ c.Links n := by
  constructor
  · rintro ⟨hn, r, hr⟩
    obtain ⟨hwanted, hunmerged, hunhosted⟩ := (mem_linkedNodes_iff hg).1 hn
    obtain ⟨-, key, hnet, hkey, -⟩ := linked_key hr
    have hreach := reaches_of_mem_linkedNodesAlone (mem_linkedNodes.1 hn).1
    refine ⟨hwanted, hunmerged, hunhosted, key, hkey, ?_⟩
    rwa [netCondition_target hg htarget hkey hreach]
  · rintro ⟨hwanted, hunmerged, hunhosted, key, hkey, hneeded⟩
    have hn := (mem_linkedNodes_iff hg).2 ⟨hwanted, hunmerged, hunhosted⟩
    have hreach := reaches_of_mem_linkedNodesAlone (mem_linkedNodes.1 hn).1
    rw [netCondition_target hg htarget hkey hreach] at hneeded
    obtain ⟨condition, hcond⟩ := condition?_isSome.2 hneeded
    obtain ⟨key', hkey', r, hr⟩ := hwanted.exists_referenceFor?
    obtain rfl : key' = key := Option.some.inj (hkey'.symm.trans hkey)
    obtain ⟨s, hs, -⟩ := exists_referenceFor? hr condition
    exact ⟨hn, s, contribution?_eq_some.2 ⟨condition, key', hcond, hkey, hs⟩⟩

theorem contains_linked_iff (hg : c.graph.IsBuilt)
    (htarget : c.graph.wiring.node? c.target.key = some c.node) {id : ReferenceKey} :
    c.linked.contains id = true ↔ ∃ n, c.Links n ∧ c.ContributesTo (sortKey id) n := by
  rw [contains_linked hg]
  constructor
  · rintro ⟨n, hn, r, hr, hid⟩
    exact ⟨n, (contributes_linked_iff hg htarget).1 ⟨hn, r, hr⟩, r, hr, hid⟩
  · rintro ⟨n, hn, r, hr, hid⟩
    exact ⟨n, ((contributes_linked_iff hg htarget).2 hn).1, r, hr, hid⟩

end

end Consumer

/-! ## Dynamic boundaries -/

theorem Product.linksStaticCode_of_isDynamic {p : Product} (h : p.isDynamic = true) :
    p.linksStaticCode = true := by
  cases p <;> simp_all [isDynamic, linksStaticCode]

theorem Graph.endsStaticCode_of_dynamic {g : Graph} {key : NodeKey}
    (h : key.isDynamicBinary = true ∨ g.isDynamicTarget key = true) :
    g.endsStaticCode key = true := by
  unfold endsStaticCode
  rw [Bool.or_eq_true]
  left
  cases key with
  | prebuilt b => exact h.resolve_right fun h => nomatch h
  | target id =>
    have hdynamic : g.isDynamicTarget (.target id) = true := h.resolve_left fun h => nomatch h
    obtain ⟨t, ht, hp⟩ := (Option.any_eq_true ..).1 hdynamic
    exact (Option.any_eq_true ..).2 ⟨t, ht, Product.linksStaticCode_of_isDynamic hp⟩
  | _ => exact h.elim (fun h => nomatch h) fun h => nomatch h

/-- A target links exactly the nodes that the routes from it ask for, by one reference for
each identity; none of them lies behind dynamic code or another image on every route. -/
theorem Graph.IsBuilt.linked_exactly {g : Graph} (hg : g.IsBuilt) {path : Path} {name : String}
    {c : Consumer} (hc : g.consumer? path name = some c) :
    (∀ n, (n ∈ c.linkedNodes ∧ ∃ r, c.contribution? n = some r) ↔ c.Links n) ∧
      (∀ id, (c.linked.count id = 1 ↔ ∃ n, c.Links n ∧ c.ContributesTo (sortKey id) n) ∧
        (c.linked.count id = 0 ↔ ¬ ∃ n, c.Links n ∧ c.ContributesTo (sortKey id) n)) ∧
      ∀ n, (∀ es, g.wiring.IsRoute c.node es n → ∃ e ∈ es.tail, ∃ key,
          g.wiring.key? e.source = some key ∧ (key.isDynamicBinary = true ∨
            g.isDynamicTarget key = true ∨ g.endsStaticCode key = true)) → ¬ c.Links n := by
  obtain rfl := graph_of_consumer? hc
  have htarget := Consumer.node?_target hg hc
  refine ⟨fun n => Consumer.contributes_linked_iff hg htarget, fun id => ?_, fun n hcut hn => ?_⟩
  · rw [References.count_eq, ← Consumer.contains_linked_iff hg htarget]
    split <;> simp_all
  · have hcandidate := (Consumer.mem_linkCandidates_iff_wants hg).2 hn.wanted
    obtain ⟨es, -, hes, hopen⟩ := Consumer.passes_of_mem_linkCandidates hg hcandidate
    obtain ⟨e, he, key, hkey, hkind⟩ := hcut es hes
    have hends : c.graph.endsStaticCode key = true := by
      rcases hkind with hbinary | htarget | hends
      · exact endsStaticCode_of_dynamic (.inl hbinary)
      · exact endsStaticCode_of_dynamic (.inr htarget)
      · exact hends
    have hclosed : c.graph.wiring.holds c.graph.endsStaticCode e.source = false := hopen e he
    rw [holds_of_key? hkey, hends] at hclosed
    cases hclosed

/-! ## Tests with a mock -/

def mockedProject : Project :=
  let target (name : String) (product : Product) : Target := { name, product }
  ⟨⟨"/w"⟩, "W", .localProject, [target "App" .app, target "Tests" .unitTests,
    target "Mock" .staticLibrary, target "Kit" .framework, target "Net" .framework,
    target "Sockets" .staticLibrary]⟩

def mocked : Draft :=
  let key (name : String) : NodeKey := .ofTarget ⟨"/w"⟩ name
  .ofCalls ⟨⟨"/w"⟩, "W", []⟩ [
    -- nodes 0 to 5: App, Tests, Mock, Kit, Net, Sockets
    .register mockedProject,
    .declare (key "App") (key "Kit") none,
    .declare (key "Tests") (key "App") none,
    .declare (key "Tests") (key "Mock") none,
    .declare (key "Mock") (key "Kit") none,
    .declare (key "Mock") (key "Net") none,
    .declare (key "Net") (key "Sockets") none]

def mockedGraph : Graph := ⟨mocked.workspace, mocked.projects, mocked.wiring⟩

theorem isBuilt_mocked : mockedGraph.IsBuilt :=
  Draft.isBuilt_of_checks (by decide) (by decide) (by decide)

def mockedTests : Consumer :=
  ⟨mockedGraph, 1, ⟨⟨"/w"⟩, { name := "Tests", product := .unitTests }, mockedProject⟩⟩

theorem linked_mocked :
    mockedGraph.consumer? ⟨"/w"⟩ "Tests" = some mockedTests ∧ mockedTests.Links 2 ∧
      ¬ mockedTests.Links 3 ∧ mockedTests.Links 4 ∧ ¬ mockedTests.Links 5 := by
  have hc : mockedGraph.consumer? ⟨"/w"⟩ "Tests" = some mockedTests := by decide +kernel
  obtain ⟨hlinks, -, hbehind⟩ := isBuilt_mocked.linked_exactly hc
  refine ⟨hc, (hlinks 2).1 ?_, ?_, (hlinks 4).1 ?_, hbehind 5 ?_⟩
  · exact ⟨by decide +kernel, Option.isSome_iff_exists.1 (by decide +kernel)⟩
  · exact fun h => absurd ((hlinks 3).2 h).1 (by decide +kernel)
  · exact ⟨by decide +kernel, Option.isSome_iff_exists.1 (by decide +kernel)⟩
  · intro es hes
    obtain ⟨e, he, hm⟩ := hes.through (m := 4) (by decide) (by decide) (by decide)
    exact ⟨e, he, .ofTarget ⟨"/w"⟩ "Net", by rw [hm]; decide, .inr (.inl (by decide))⟩

end BuildGraph
