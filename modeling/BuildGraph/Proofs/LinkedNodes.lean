import BuildGraph.Consumer.Image
import BuildGraph.Proofs.TargetNodes

/-!
# Linked nodes

Which nodes a target links, said by the ways in which they come to be linked: as direct
dependencies, as static code that reaches the image, or for such static code; and which
nodes are left out because the host of a test bundle brings them along.
-/

namespace BuildGraph.Consumer

section
variable {c : Consumer} {n : Nat}

theorem mem_staticNodes (hg : c.graph.IsBuilt) : n ∈ c.staticNodes ↔
    c.graph.wiring.holds c.graph.isStatic n = true ∧
      c.graph.wiring.Passes (fun key => c.graph.linksStaticCode key || c.graph.isMacro key) c.node n :=
  mem_select hg

/-! ## Ways to be linked -/

theorem isLinkedDirectly_iff : c.isLinkedDirectly n = true ↔
    n ∈ c.successors ∧ c.graph.wiring.holds c.graph.isLinkedByReference n = true := by
  simp [isLinkedDirectly]

theorem isLinkedStatically_iff {statics : List Nat} : c.isLinkedStatically statics n = true ↔
    n ∈ statics ∧ (c.graph.wiring.holds (fun key => key.isTarget || key.isPlainStaticBinary) n = true ∨
      n ∈ c.successors) := by
  simp [isLinkedStatically]

theorem isLinkedForStatic_iff {statics : List Nat} : c.isLinkedForStatic statics n = true ↔
    (∃ s ∈ statics, n ∈ c.graph.wiring.successors s) ∧
      c.graph.wiring.holds c.graph.isLinkedByReference n = true := by
  simp [isLinkedForStatic]

theorem mem_linkCandidates : n ∈ c.linkCandidates ↔ c.isLinkedDirectly n = true ∨
    c.product.linksStaticCode = true ∧
      (c.isLinkedStatically c.staticNodes n = true ∨ c.isLinkedForStatic c.staticNodes n = true) := by
  have hdirect : c.isLinkedDirectly n = true → n < c.graph.wiring.size :=
    fun h => Wiring.lt_size_of_holds (isLinkedDirectly_iff.1 h).2
  have hstatic : c.isLinkedStatically c.staticNodes n = true → n < c.graph.wiring.size :=
    fun h => Wiring.mem_nodes.1 (List.mem_of_mem_filter (isLinkedStatically_iff.1 h).1)
  have hneeded : c.isLinkedForStatic c.staticNodes n = true → n < c.graph.wiring.size :=
    fun h => Wiring.lt_size_of_holds (isLinkedForStatic_iff.1 h).2
  unfold linkCandidates
  by_cases hl : c.product.linksStaticCode = true
  · rw [if_pos hl, List.mem_filter, Wiring.mem_nodes, Bool.or_eq_true, Bool.or_eq_true, or_assoc,
      and_iff_right hl, and_iff_right_of_imp]
    rintro (h | h | h)
    · exact hdirect h
    · exact hstatic h
    · exact hneeded h
  · rw [if_neg hl, List.mem_filter, Wiring.mem_nodes, and_iff_right_of_imp hdirect, or_iff_left]
    exact fun h => hl h.1

theorem holds_skip_of_static {g : Graph} (h : g.wiring.holds g.isStatic n = true) :
    g.wiring.holds (fun key => g.linksStaticCode key || g.isMacro key) n = false := by
  rcases Graph.prebuilt_or_target_of_static h with ⟨b, hkey, hb⟩ | ⟨t, ht, hstatic⟩
  · rw [Graph.holds_of_key? hkey]
    change (b.linking.isDynamic || (false || false)) = false
    change b.linking.isStatic = true at hb
    cases hl : b.linking <;> simp_all [Linking.isDynamic, Linking.isStatic]
  · rw [Graph.holds_linksOrMacro ht]
    exact Product.linksStaticCode_eq_false.2 (.inl hstatic)

theorem passes_of_mem_linkCandidates (hg : c.graph.IsBuilt) (h : n ∈ c.linkCandidates) :
    c.graph.wiring.Passes (fun key => c.graph.linksStaticCode key || c.graph.isMacro key)
      c.node n := by
  rcases mem_linkCandidates.1 h with hdirect | ⟨-, hstatic | hneeded⟩
  · exact Wiring.passes_of_successor (isLinkedDirectly_iff.1 hdirect).1
  · exact ((mem_staticNodes hg).1 (isLinkedStatically_iff.1 hstatic).1).2
  · obtain ⟨⟨s, hs, hns⟩, -⟩ := isLinkedForStatic_iff.1 hneeded
    obtain ⟨hstatic, hpass⟩ := (mem_staticNodes hg).1 hs
    exact hpass.snoc (holds_skip_of_static hstatic) hns

/-! ## Exclusions -/

theorem mem_linkedNodesAlone :
    n ∈ c.linkedNodesAlone ↔ n ∈ c.linkCandidates ∧ c.isMerged n = false := by
  simp [linkedNodesAlone]

theorem mem_linkedNodes :
    n ∈ c.linkedNodes ↔ n ∈ c.linkedNodesAlone ∧ n ∉ c.hostedNodes := by
  simp [linkedNodes]

theorem mem_hostedNodes : n ∈ c.hostedNodes ↔ c.product = .unitTests ∧
    ∃ t m, c.host? = some t ∧ c.graph.wiring.node? t.key = some m ∧ c.graph.wiring.Reaches m n := by
  unfold hostedNodes
  by_cases hunit : c.product = .unitTests
  · cases hhost : c.host? with
    | none => simp [hunit]
    | some t => cases hm : c.graph.wiring.node? t.key <;> simp [hunit, hm, Wiring.mem_reachable]
  · simp [hunit]

end

end BuildGraph.Consumer
