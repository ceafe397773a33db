import BuildGraph.Proofs.DynamicCode
import BuildGraph.Proofs.LinkedImage

/-!
# Embedded frameworks

What a target embeds, told by routes alone: dynamic code and static frameworks with
resources that come without passing a macro or another target that embeds. A test bundle
leaves out what its host embeds, however many keys an identity has.
-/

namespace BuildGraph

/-- Dynamic code, and static frameworks that have resources to ship. -/
inductive Graph.IsEmbeddable (g : Graph) (n : Nat) : Prop
  | binary {b : Prebuilt} (hkey : g.wiring.key? n = some (.prebuilt b)) (hlink : b.linking = .dynamic)
  | dynamic {t : ProjectTarget} (ht : g.targetOfNode? n = some t)
      (hproduct : t.product = .framework ∨ t.product = .dynamicLibrary)
  | resourceful {t : ProjectTarget} (ht : g.targetOfNode? n = some t)
      (hproduct : t.product = .staticFramework) (hres : t.target.hasResources = true)

def Graph.endsEmbedding (g : Graph) (key : NodeKey) : Bool :=
  g.embedsFrameworks key || g.isMacro key

namespace Consumer

structure Embeds (c : Consumer) (n : Nat) : Prop where
  other : n ≠ c.node
  embeddable : c.graph.IsEmbeddable n
  unmerged : c.isMerged n = false
  passage : c.graph.wiring.Passes c.graph.endsEmbedding c.node n
  needed : ∃ key, c.graph.wiring.key? n = some key ∧
    c.graph.netCondition c.target.key key ≠ .incompatible

def RefersTo (c : Consumer) (id : ReferenceKey) (n : Nat) : Prop :=
  ∃ key r, c.graph.wiring.key? n = some key ∧ c.referenceFor? none key = some r ∧
    sortKey r.id = sortKey id

def Brings (c : Consumer) (id : ReferenceKey) : Prop :=
  ∃ n, c.Embeds n ∧ c.RefersTo id n

end Consumer

/-! ## Kinds -/

theorem Target.isEmbeddable_iff {t : Target} : t.isEmbeddable = true ↔
    (t.product = .framework ∨ t.product = .dynamicLibrary) ∨
      t.product = .staticFramework ∧ t.hasResources = true := by
  unfold isEmbeddable isResourcefulStaticFramework
  cases hp : t.product <;> simp [Product.isDynamic]

theorem Graph.isEmbeddable_iff {g : Graph} {n : Nat} : g.IsEmbeddable n ↔
    g.wiring.holds (fun key => key.isDynamicBinary || g.isEmbeddableTarget key) n = true := by
  refine ⟨fun h => ?_, fun h => ?_⟩
  · rw [Wiring.holds_or, Bool.or_eq_true]
    cases h with
    | binary hkey hlink =>
      left
      rw [holds_of_key? hkey]
      show (Prebuilt.linking _).isDynamic = true
      rw [hlink]
      rfl
    | dynamic ht hproduct =>
      exact .inr (holds_targetSatisfies.2 ⟨_, ht, Target.isEmbeddable_iff.2 (.inl hproduct)⟩)
    | resourceful ht hproduct hres =>
      exact .inr (holds_targetSatisfies.2 ⟨_, ht, Target.isEmbeddable_iff.2 (.inr ⟨hproduct, hres⟩)⟩)
  · rcases prebuilt_or_target (·.isDynamic) (·.isEmbeddable) h fun _ => rfl with
      ⟨b, hkey, hb⟩ | ⟨t, ht, hembeddable⟩
    · have hlink : b.linking.isDynamic = true := hb
      cases hl : b.linking with
      | dynamic => exact .binary hkey hl
      | static => simp [hl, Linking.isDynamic] at hlink
    · rcases Target.isEmbeddable_iff.1 hembeddable with hdynamic | ⟨hproduct, hres⟩
      · exact .dynamic ht hdynamic
      · exact .resourceful ht hproduct hres

theorem Target.embedsFrameworks_of_isTests {t : Target} (h : t.product.isTests = true) :
    t.embedsFrameworks = true := by
  unfold embedsFrameworks
  cases hp : t.product <;> simp_all [Product.isTests]

theorem Product.not_isTests_of_hostsTests {p : Product} (h : p.hostsTests = true) :
    p.isTests = false := by
  cases p <;> simp_all [hostsTests, isTests]

namespace References

theorem contains_congr {s : References} {id id' : ReferenceKey} (h : sortKey id = sortKey id') :
    s.contains id = s.contains id' := by
  simp only [contains, same, h]

theorem contains_subtract {s t : References} {id : ReferenceKey} :
    (s.subtract t).contains id = true ↔ s.contains id = true ∧ t.contains id = false := by
  have hsame (r : Reference) (hr : same r.id id = true) : t.contains r.id = t.contains id :=
    contains_congr (same_iff.1 hr)
  unfold subtract filter
  simp only [contains, List.any_filter, List.any_eq_true, Bool.and_eq_true, Bool.not_eq_true'] at *
  refine ⟨fun h => ?_, fun h => ?_⟩
  · obtain ⟨r, hr, hout, hid⟩ := h
    exact ⟨⟨r, hr, hid⟩, hsame r hid ▸ hout⟩
  · obtain ⟨⟨r, hr, hid⟩, hout⟩ := h
    exact ⟨r, hr, (hsame r hid).trans hout, hid⟩

end References

namespace Consumer

section
variable {c : Consumer} {n : Nat} {id : ReferenceKey}

/-! ## Embedded nodes -/

theorem mem_embeddedNodes_iff (hg : c.graph.IsBuilt) : n ∈ c.embeddedNodes ↔
    c.graph.IsEmbeddable n ∧ c.graph.wiring.Passes c.graph.endsEmbedding c.node n ∧
      c.isMerged n = false := by
  rw [mem_embeddedNodes hg, ← Graph.isEmbeddable_iff, and_assoc]
  rfl

theorem exists_referenceFor?_of_isEmbeddable (h : c.graph.IsEmbeddable n) :
    ∃ key, c.graph.wiring.key? n = some key ∧ ∃ r, c.referenceFor? none key = some r := by
  cases h with
  | binary hkey _ => exact ⟨_, hkey, _, rfl⟩
  | dynamic ht _ => exact exists_referenceFor?_target ht
  | resourceful ht _ _ => exact exists_referenceFor?_target ht

theorem contributesTo_iff : c.ContributesTo (sortKey id) n ↔
    c.net n ≠ .incompatible ∧ c.RefersTo id n := by
  refine ⟨fun ⟨r, hr, hid⟩ => ?_, fun ⟨hnet, key, r, hkey, hr, hid⟩ => ?_⟩
  · obtain ⟨condition, key, hcond, hkey, hrk⟩ := contribution?_eq_some.1 hr
    obtain ⟨s, hs, hsr⟩ := exists_referenceFor? hrk none
    exact ⟨condition?_isSome.1 ⟨condition, hcond⟩, key, s, hkey, hs, hsr ▸ hid⟩
  · obtain ⟨condition, hcond⟩ := condition?_isSome.2 hnet
    obtain ⟨s, hs, hsr⟩ := exists_referenceFor? hr condition
    exact ⟨s, contribution?_eq_some.2 ⟨condition, key, hcond, hkey, hs⟩, by
      rw [Reference.idKey, hsr, hid]⟩

theorem embeds_iff (hg : c.graph.IsBuilt)
    (htarget : c.graph.wiring.node? c.target.key = some c.node) :
    c.Embeds n ↔ n ∈ c.embeddedNodes ∧ c.net n ≠ .incompatible := by
  rw [mem_embeddedNodes_iff hg]
  refine ⟨fun h => ?_, fun ⟨⟨hkind, hpass, hunmerged⟩, hnet⟩ => ?_⟩
  · obtain ⟨key, hkey, hneeded⟩ := h.needed
    rw [netCondition_target hg htarget hkey h.passage.reaches] at hneeded
    exact ⟨⟨h.embeddable, h.passage, h.unmerged⟩, hneeded⟩
  · obtain ⟨key, hkey, -⟩ := exists_referenceFor?_of_isEmbeddable hkind
    obtain ⟨es, hne, hes, hopen⟩ := hpass
    refine ⟨?_, hkind, hunmerged, ⟨es, hne, hes, hopen⟩, key, hkey, ?_⟩
    · intro hself
      exact hne (hg.sound.2 _ es (hself ▸ hes))
    · rwa [netCondition_target hg htarget hkey ⟨es, hes⟩]

theorem contains_embeddedAlone (hg : c.graph.IsBuilt)
    (htarget : c.graph.wiring.node? c.target.key = some c.node) :
    c.embeddedAlone.contains id = true ↔ c.description.embedsFrameworks = true ∧ c.Brings id := by
  unfold embeddedAlone
  by_cases hembeds : c.description.embedsFrameworks = true
  · rw [if_pos hembeds, contains_collect hg, and_iff_right hembeds]
    simp only [Brings, embeds_iff hg htarget, contributesTo_iff, and_assoc]
  · rw [if_neg hembeds]
    simp [hembeds, References.contains, References.empty]

/-! ## Tests and their hosts -/

theorem embedded_of_not_isTests (h : c.product.isTests = false) : c.embedded = c.embeddedAlone := by
  rw [embedded, if_neg (by simp [h])]

theorem contains_embedded_hosted (hg : c.graph.IsBuilt) (htests : c.product.isTests = true)
    {t : ProjectTarget} (hhost : c.host? = some t) : ∃ h, c.graph.consumerOf? t = some h ∧
      ∀ id, c.embedded.contains id = true ↔
        c.embeddedAlone.contains id = true ∧ h.embedded.contains id = false := by
  obtain ⟨node, -, hnode⟩ := host?_eq_some hg hhost
  have hhosts : t.product.hostsTests = true := by
    unfold host? at hhost
    simpa using List.find?_some hhost
  have hown : (⟨c.graph, node, t⟩ : Consumer).embedded = (⟨c.graph, node, t⟩ : Consumer).embeddedAlone :=
    embedded_of_not_isTests (Product.not_isTests_of_hostsTests hhosts)
  refine ⟨_, hnode, fun id => ?_⟩
  rw [embedded, if_pos htests, hhost, Option.bind_some, hnode, hown]
  exact References.contains_subtract

theorem embedded_of_no_host (htests : c.product.isTests = true) (hhost : c.host? = none) :
    c.embedded = if c.product == .unitTests then .empty else c.embeddedAlone := by
  rw [embedded, if_pos htests, hhost, Option.bind_none]

end

end Consumer

/-! ## The answer -/

/-- A target that embeds brings exactly the identities that the routes ask for. Tests leave
out what their host embeds, and unit tests without a host bring nothing. -/
theorem Graph.IsBuilt.embedded_exactly {g : Graph} (hg : g.IsBuilt) {path : Path} {name : String}
    {c : Consumer} (hc : g.consumer? path name = some c) :
    (c.description.embedsFrameworks = false → ∀ id, c.embedded.contains id = false) ∧
      (c.description.embedsFrameworks = true → c.product.isTests = false →
        ∀ id, c.embedded.contains id = true ↔ c.Brings id) ∧
      (c.product.isTests = true → ∀ t, c.host? = some t → ∃ h, g.consumerOf? t = some h ∧
        ∀ id, c.embedded.contains id = true ↔ c.Brings id ∧ h.embedded.contains id = false) ∧
      (c.product = .unitTests → c.host? = none → ∀ id, c.embedded.contains id = false) ∧
      (c.product = .uiTests → c.host? = none →
        ∀ id, c.embedded.contains id = true ↔ c.Brings id) := by
  obtain rfl := graph_of_consumer? hc
  have halone (id : ReferenceKey) : c.embeddedAlone.contains id = true ↔
      c.description.embedsFrameworks = true ∧ c.Brings id :=
    Consumer.contains_embeddedAlone hg (Consumer.node?_target hg hc)
  have hembeds (h : c.product.isTests = true) : c.description.embedsFrameworks = true :=
    Target.embedsFrameworks_of_isTests h
  refine ⟨fun hno id => ?_, fun hyes hplain id => ?_, fun htests t hhost => ?_,
    fun hunit hhost id => ?_, fun hui hhost id => ?_⟩
  · have hplain : c.product.isTests = false := by
      by_contra htests
      rw [hembeds (by simpa using htests)] at hno
      cases hno
    rw [Consumer.embedded_of_not_isTests hplain, ← Bool.not_eq_true, halone, hno]
    simp
  · rw [Consumer.embedded_of_not_isTests hplain, halone, and_iff_right hyes]
  · obtain ⟨h, hh, hall⟩ := Consumer.contains_embedded_hosted hg htests hhost
    refine ⟨h, hh, fun id => ?_⟩
    rw [hall, halone, and_iff_right (hembeds htests)]
  · rw [Consumer.embedded_of_no_host (by rw [hunit]; rfl) hhost]
    simp [hunit, References.contains, References.empty]
  · have htests : c.product.isTests = true := by rw [hui]; rfl
    rw [Consumer.embedded_of_no_host htests hhost]
    simp [hui, halone, hembeds htests]

theorem embedded_mocked :
    mockedGraph.consumer? ⟨"/w"⟩ "Tests" = some mockedTests ∧
      mockedTests.embedded.contains (.product "Net.framework" ⟨"/w"⟩ "Net") = true ∧
      mockedTests.Brings (.product "Kit.framework" ⟨"/w"⟩ "Kit") ∧
      mockedTests.embedded.contains (.product "Kit.framework" ⟨"/w"⟩ "Kit") = false := by
  have hc : mockedGraph.consumer? ⟨"/w"⟩ "Tests" = some mockedTests := by decide +kernel
  let app : ProjectTarget := ⟨⟨"/w"⟩, { name := "App", product := .app }, mockedProject⟩
  have hhost : mockedTests.host? = some app := by decide +kernel
  obtain ⟨-, -, htests, -⟩ := isBuilt_mocked.embedded_exactly hc
  obtain ⟨h, happ, hall⟩ := htests rfl app hhost
  have hself : mockedGraph.consumerOf? app = some ⟨mockedGraph, 0, app⟩ := by decide +kernel
  obtain rfl := Option.some.inj (hself.symm.trans happ)
  have htarget := Consumer.node?_target (c := mockedTests) isBuilt_mocked hc
  have hbrings (n : Nat) (id : ReferenceKey) (hn : n ∈ mockedTests.embeddedNodes)
      (hnet : mockedTests.net n ≠ .incompatible) (hid : mockedTests.RefersTo id n) :
      mockedTests.Brings id :=
    ⟨n, (Consumer.embeds_iff isBuilt_mocked htarget).2 ⟨hn, hnet⟩, hid⟩
  refine ⟨hc, (hall _).2 ⟨?_, by decide +kernel⟩, ?_, ?_⟩
  · exact hbrings 4 _ (by decide +kernel) (by decide +kernel) ⟨_, _, rfl, rfl, by decide +kernel⟩
  · exact hbrings 3 _ (by decide +kernel) (by decide +kernel) ⟨_, _, rfl, rfl, by decide +kernel⟩
  · rw [← Bool.not_eq_true, hall]
    exact fun h => absurd h.2 (by decide +kernel)

end BuildGraph
