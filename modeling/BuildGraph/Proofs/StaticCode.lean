import BuildGraph.Proofs.LinkedNodes

/-!
# Static code reaches an image

On a route to a static target, the last node that links an image meets the target past
nodes that link none. So that image has the target's code, unless the target is merged
into it or comes along with the host of a test bundle.
-/

namespace BuildGraph

/-- Between targets there are only targets, and of these the walk is stopped by the images. -/
theorem Graph.IsBuilt.passes_to_target {g : Graph} (hg : g.IsBuilt) {m n : Nat}
    (h : g.wiring.Passes (g.targetSatisfies (·.product.linksStaticCode)) m n)
    (hn : g.wiring.holds NodeKey.isTarget n = true) :
    g.wiring.Passes (fun key => g.linksStaticCode key || g.isMacro key) m n := by
  obtain ⟨es, hne, hes, htail⟩ := h
  refine ⟨es, hne, hes, fun e he => ?_⟩
  obtain ⟨t, ht⟩ := hg.exists_target (hg.isTarget_route hes hn e (List.mem_of_mem_tail he))
  exact (holds_linksOrMacro ht).trans ((holds_target ht _).symm.trans (htail e he))

namespace Consumer

theorem mem_linkedNodes_of_static {c : Consumer} {n : Nat} (hlinks : c.product.linksStaticCode = true)
    (hstatic : n ∈ c.staticNodes) (htarget : c.graph.wiring.holds NodeKey.isTarget n = true)
    (hmerged : c.isMerged n = false) (hhosted : n ∉ c.hostedNodes) : n ∈ c.linkedNodes := by
  refine mem_linkedNodes.2 ⟨mem_linkedNodesAlone.2 ⟨?_, hmerged⟩, hhosted⟩
  refine mem_linkCandidates.2 (.inr ⟨hlinks, .inl (isLinkedStatically_iff.2 ⟨hstatic, .inl ?_⟩)⟩)
  rw [Wiring.holds_or, htarget, Bool.true_or]

end Consumer

/-- The code of a static target that a target with an image needs on some platform goes
into an image on the way: there the product is linked or merged, or the image is a unit
test bundle whose host reaches the static target. -/
theorem Graph.IsBuilt.static_code_reaches_image {g : Graph} (hg : g.IsBuilt) {path path' : Path}
    {name name' : String} {c : Consumer} {s : ProjectTarget} (hc : g.consumer? path name = some c)
    (hlinks : c.product.linksStaticCode = true) (hs : g.target? path' name' = some s)
    (hstatic : s.product.isStatic = true)
    (hnet : g.netCondition (.ofTarget path name) (.ofTarget path' name') ≠ .incompatible) :
    ∃ n, g.wiring.node? (.ofTarget path' name') = some n ∧ ∃ i : Consumer,
      g.consumerOf? i.target = some i ∧ i.product.linksStaticCode = true ∧
      g.wiring.Reaches c.node i.node ∧ g.wiring.Reaches i.node n ∧
      (i.linked.contains (Reference.ofTarget s none).id = true ∨
        g.isMergedBy i.description s.key = true ∨
        i.product = .unitTests ∧ ∃ host node, i.host? = some host ∧
          g.wiring.node? host.key = some node ∧ g.wiring.Reaches node n) := by
  obtain ⟨hgraph, ht, ha⟩ := consumer?_eq_some hc
  obtain ⟨a, n, ha', hn⟩ := nodes_of_netCondition hnet
  obtain rfl : c.node = a := Option.some.inj (ha.symm.trans ha')
  have hct := targetOfNode?_of_node? ht ha
  have hst := targetOfNode?_of_node? hs hn
  have htarget := holds_isTarget hst
  have hfirst := (holds_target hct (·.product.linksStaticCode)).trans hlinks
  have hend := (holds_target hst (·.product.linksStaticCode)).trans
    (Product.linksStaticCode_eq_false.2 (.inl hstatic))
  -- the last image on the way to the static target is the one that takes its code
  obtain ⟨i, rfl, hit, hil, hbefore, hpass, hne⟩ := hg.exists_last_target ha hn hnet hfirst hend
  refine ⟨n, hn, i, consumerOf?_of_node hg.sound.1 hit, hil, hbefore, hpass.reaches, ?_⟩
  have hin : n ∈ i.staticNodes := (Consumer.mem_staticNodes hg).2
    ⟨(holds_isStatic hst).trans hstatic, hg.passes_to_target hpass htarget⟩
  by_cases hmerged : i.isMerged n = true
  · exact .inr (.inl ((holds_isMergedBy hst _).symm.trans hmerged))
  by_cases hhosted : n ∈ i.hostedNodes
  · exact .inr (.inr (Consumer.mem_hostedNodes.1 hhosted))
  left
  refine (Consumer.contains_collect_product hg hst).2 ⟨?_, hne⟩
  exact Consumer.mem_linkedNodes_of_static hil hin htarget (Bool.eq_false_iff.2 hmerged) hhosted

/-! ## Static code below a sticker pack -/

def stickersProject : Project :=
  let target (name : String) (product : Product) : Target := { name, product }
  ⟨⟨"/w"⟩, "W", .localProject, [target "App" .app, target "Media" .framework,
    target "Pack" .stickerPackExtension, target "Lib" .staticLibrary, target "Kit" .framework]⟩

def stickersCodec : Prebuilt :=
  ⟨⟨"/x/Codec.xcframework"⟩, ⟨"/x/Codec.a"⟩, .static, .empty, none, [], .xcframework ⟨[]⟩,
    .required, false⟩

/-- An app with a framework and a sticker pack; the pack has a static library, which needs
another framework, and both need a static xcframework. -/
def stickers : Draft :=
  let key (name : String) : NodeKey := .ofTarget ⟨"/w"⟩ name
  .ofCalls ⟨⟨"/w"⟩, "W", []⟩ [
    -- nodes 0 to 5: App, Media, Pack, Lib, Kit, the xcframework
    .register stickersProject,
    .declare (key "App") (key "Media") none,
    .declare (key "App") (key "Pack") none,
    .declare (key "Pack") (key "Lib") none,
    .declare (key "Lib") (key "Kit") none,
    .declare (key "Lib") (.prebuilt stickersCodec) none,
    .declare (key "Kit") (.prebuilt stickersCodec) none]

def stickersGraph : Graph := ⟨stickers.workspace, stickers.projects, stickers.wiring⟩

theorem isBuilt_stickers : stickersGraph.IsBuilt :=
  Draft.isBuilt_of_checks (by decide) (by decide) (by decide)

def stickersTarget (name : String) (product : Product) : ProjectTarget :=
  ⟨⟨"/w"⟩, { name, product }, stickersProject⟩

def stickersApp : Consumer := ⟨stickersGraph, 0, stickersTarget "App" .app⟩

def stickersKit : Consumer := ⟨stickersGraph, 4, stickersTarget "Kit" .framework⟩

theorem consumer?_stickersApp : stickersGraph.consumer? ⟨"/w"⟩ "App" = some stickersApp := by
  decide

theorem netCondition_stickers :
    stickersGraph.netCondition (.ofTarget ⟨"/w"⟩ "App") (.ofTarget ⟨"/w"⟩ "Lib") ≠ .incompatible := by
  have happ : stickersGraph.wiring.node? (.ofTarget ⟨"/w"⟩ "App") = some 0 := by decide
  have hlib : stickersGraph.wiring.node? (.ofTarget ⟨"/w"⟩ "Lib") = some 3 := by decide
  have hes : stickersGraph.wiring.IsRoute 0 [⟨0, 2, none⟩, ⟨2, 3, none⟩] 3 :=
    ⟨by decide, rfl, by decide, rfl, rfl⟩
  exact isBuilt_stickers.netCondition_of_route happ hlib hes (by decide)

theorem static_code_stickers :
    ∃ n, stickersGraph.wiring.node? (.ofTarget ⟨"/w"⟩ "Lib") = some n ∧ ∃ i : Consumer,
      stickersGraph.consumerOf? i.target = some i ∧ i.product.linksStaticCode = true ∧
      stickersGraph.wiring.Reaches stickersApp.node i.node ∧
      stickersGraph.wiring.Reaches i.node n := by
  have hlib : stickersGraph.target? ⟨"/w"⟩ "Lib" = some (stickersTarget "Lib" .staticLibrary) := by
    decide
  obtain ⟨n, hn, i, hi, hlinks, hbefore, hafter, -⟩ := isBuilt_stickers.static_code_reaches_image
    consumer?_stickersApp rfl hlib rfl netCondition_stickers
  exact ⟨n, hn, i, hi, hlinks, hbefore, hafter⟩

end BuildGraph
