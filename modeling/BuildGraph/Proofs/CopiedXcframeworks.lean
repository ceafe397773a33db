import BuildGraph.Proofs.DynamicCode
import BuildGraph.Proofs.ExternalBundles

/-!
# Copied xcframeworks

A static xcframework that an image does not link directly is copied instead. The walk for
copies goes on through static targets only, the walk for static code through every target
that links no image. So what lies behind a bundle or sticker pack is neither linked nor
copied, and everything else that the image needs is copied.
-/

namespace BuildGraph

def Graph.isCodeless (g : Graph) (key : NodeKey) : Bool :=
  g.targetSatisfies (·.product.isCodeless) key

/-! ## The two walks -/

theorem Product.macro_or_not_isStatic {p : Product} : (p == compilerMacro || !p.isStatic) =
    (p.linksStaticCode || p == compilerMacro || p.isCodeless) := by
  cases p <;> rfl

theorem Graph.IsBuilt.holds_endsCopies {g : Graph} (hg : g.IsBuilt) (n : Nat) :
    g.wiring.holds (fun key => key.isDynamicBinary || g.isMacro key ||
        (key.isTarget && !g.isStatic key)) n =
      g.wiring.holds (fun key => g.linksStaticCode key || g.isMacro key || g.isCodeless key) n := by
  cases hkey : g.wiring.key? n with
  | none => simp [Wiring.holds, hkey]
  | some key =>
    rw [holds_of_key? hkey, holds_of_key? hkey]
    cases key with
    | target id =>
      obtain ⟨t, ht⟩ := hg.exists_target (Wiring.holds_iff.2 ⟨_, hkey, rfl⟩)
      have hstatic := holds_isStatic ht
      have hlinks := holds_linksStaticCode ht
      have hmacro := holds_isMacro ht
      have hcodeless := holds_target ht (·.product.isCodeless)
      rw [holds_of_key? hkey] at hstatic hlinks hmacro hcodeless
      rw [hstatic, hlinks, hmacro, isCodeless, hcodeless]
      exact Product.macro_or_not_isStatic
    | _ => rfl

namespace Consumer

section
variable {c : Consumer} {n : Nat}

theorem mem_copiedXcframeworks (hg : c.graph.IsBuilt) : n ∈ c.copiedXcframeworks ↔
    c.graph.wiring.holds NodeKey.isStaticXcframework n = true ∧
      c.graph.wiring.Passes (fun key => c.graph.linksStaticCode key || c.graph.isMacro key ||
        c.graph.isCodeless key) c.node n := by
  rw [copiedXcframeworks, mem_select hg]
  refine and_congr_right fun _ => ⟨fun h => h.mono ?_, fun h => h.mono ?_⟩
  · exact fun m hm => (hg.holds_endsCopies m).symm.trans hm
  · exact fun m hm => (hg.holds_endsCopies m).trans hm

/-! ## References to xcframeworks -/

theorem artifact?_xcframework {key : NodeKey} {i : ReferenceKey} {p : Path}
    (h : key.artifact? = some i) (hid : sortKey i = sortKey (ReferenceKey.xcframework p)) :
    ∃ b, key = .prebuilt b ∧ b.isXcframework = true ∧ sortKey b.path = sortKey p := by
  change i.order = ReferenceKey.order (.xcframework p) at hid
  cases key with
  | prebuilt b =>
    simp only [NodeKey.artifact?] at h
    cases ho : b.origin <;> rw [ho] at h <;> cases Option.some.inj h <;>
      simp [ReferenceKey.order] at hid
    exact ⟨b, rfl, by rw [Prebuilt.isXcframework, ho], hid⟩
  | sdk | bundle =>
    cases Option.some.inj h
    simp [ReferenceKey.order] at hid
  | target | packageProduct | macroExecutable => cases h

theorem contributesTo_xcframework {p : Path} :
    c.ContributesTo (sortKey (ReferenceKey.xcframework p)) n ↔ ∃ b,
      c.graph.wiring.key? n = some (.prebuilt b) ∧ b.isXcframework = true ∧
        sortKey b.path = sortKey p ∧ c.net n ≠ .incompatible := by
  constructor
  · rintro ⟨r, hr, hid⟩
    obtain ⟨condition, key, hcond, hkey, hrk⟩ := contribution?_eq_some.1 hr
    have hnet := condition?_isSome.1 ⟨condition, hcond⟩
    rcases id_referenceFor? hrk with hart | ⟨id, t, -, -, rfl⟩
    · obtain ⟨b, rfl, hxc, hpath⟩ := artifact?_xcframework hart hid
      exact ⟨b, hkey, hxc, hpath, hnet⟩
    · change ReferenceKey.order (.product ..) = ReferenceKey.order (.xcframework p) at hid
      simp [ReferenceKey.order] at hid
  · rintro ⟨b, hkey, hxc, hpath, hnet⟩
    obtain ⟨condition, hcond⟩ := condition?_isSome.2 hnet
    have hart : (NodeKey.prebuilt b).artifact? = some (.xcframework b.path) := by
      unfold Prebuilt.isXcframework at hxc
      cases ho : b.origin <;> simp_all [NodeKey.artifact?]
    obtain ⟨r, hr, hid⟩ := exists_reference (c := c) hart condition
    refine ⟨r, contribution?_eq_some.2 ⟨condition, _, hcond, hkey, hr⟩, ?_⟩
    exact (congrArg sortKey hid).trans (congrArg (fun k => SortKey.variant 4 [k]) hpath)

theorem mem_contributions_xcframework {nodes : List Nat} {r : Reference} {p : Path}
    (hr : r ∈ c.contributions nodes) (hid : r.idKey = sortKey (ReferenceKey.xcframework p)) :
    ∃ m ∈ nodes, ∃ b, c.graph.wiring.key? m = some (.prebuilt b) := by
  obtain ⟨m, hm, hmr⟩ := List.mem_filterMap.1 hr
  obtain ⟨b, hkey, -⟩ := contributesTo_xcframework.1 ⟨r, hmr, hid⟩
  exact ⟨m, hm, b, hkey⟩

section
variable {b : Prebuilt} (hb : c.graph.wiring.key? n = some (.prebuilt b))
include hb

theorem not_mem_staticNodesDirect : n ∉ c.staticNodesDirect := by
  intro h
  have hstatic := (List.mem_filter.1 h).2
  rw [Graph.holds_of_key? hb] at hstatic
  cases hstatic

theorem not_mem_foreignExecutables : n ∉ c.foreignExecutables := by
  intro h
  have hforeign := (List.mem_filter.1 h).2
  rw [Graph.targetOfNode?, hb] at hforeign
  cases hforeign

theorem not_mem_bundleNodes (hg : c.graph.IsBuilt) : n ∉ c.bundleNodes := by
  intro h
  have hbundle : c.graph.wiring.holds c.graph.isResourceBundle n = true := by
    rcases mem_bundleNodes.1 h with hlocal | ⟨-, hexternal⟩
    · exact ((mem_localBundles hg).1 hlocal).1.1
    · exact ((mem_externalBundles hg).1 hexternal).1.1
  rw [Graph.holds_of_key? hb] at hbundle
  cases hbundle

end

theorem contains_copied_xcframework (hg : c.graph.IsBuilt) {p : Path} :
    c.copied.contains (.xcframework p) = true ↔
      ∃ m ∈ c.copiedXcframeworks, c.ContributesTo (sortKey (ReferenceKey.xcframework p)) m := by
  rw [(collects_copied hg).contains]
  simp only [copiedParts, List.mem_append]
  constructor
  · rintro ⟨r, ((hr | hr) | hr) | hr, hid⟩
    · obtain ⟨m, hm, hmr⟩ := List.mem_filterMap.1 hr
      exact ⟨m, hm, r, hmr, hid⟩
    · by_cases hstatic : c.product.isStatic = true
      · rw [if_pos hstatic] at hr
        obtain ⟨m, hm, b, hb⟩ := mem_contributions_xcframework hr hid
        exact absurd hm (not_mem_staticNodesDirect hb)
      · rw [if_neg hstatic] at hr
        cases hr
    · obtain ⟨m, hm, b, hb⟩ := mem_contributions_xcframework hr hid
      exact absurd hm (not_mem_foreignExecutables hb)
    · unfold bundleParts at hr
      by_cases hhosts : c.description.hostsResources = true
      · rw [if_pos hhosts] at hr
        obtain ⟨m, hm, b, hb⟩ := mem_contributions_xcframework hr hid
        exact absurd hm (not_mem_bundleNodes hb hg)
      · rw [if_neg hhosts] at hr
        cases hr
  · rintro ⟨m, hm, r, hr, hid⟩
    exact ⟨r, .inl (.inl (.inl (List.mem_filterMap.2 ⟨m, hm, hr⟩))), hid⟩

end

end Consumer

/-! ## What is copied -/

/-- Copied are the static xcframeworks needed on some platform that a route brings to the
image with no bundle or sticker pack on it. -/
theorem Graph.IsBuilt.copied_xcframework_iff {g : Graph} (hg : g.IsBuilt) {path : Path}
    {name : String} {c : Consumer} (hc : g.consumer? path name = some c) {p : Path} :
    c.copied.contains (.xcframework p) = true ↔ ∃ n ∈ c.staticNodes, ∃ b,
      g.wiring.key? n = some (.prebuilt b) ∧ b.isStatic = true ∧ b.isXcframework = true ∧
        sortKey b.path = sortKey p ∧
        g.netCondition (.ofTarget path name) (.prebuilt b) ≠ .incompatible ∧
        g.wiring.Passes (fun key => g.linksStaticCode key || g.isMacro key || g.isCodeless key)
          c.node n := by
  obtain ⟨rfl, -, ha⟩ := consumer?_eq_some hc
  rw [Consumer.contains_copied_xcframework hg]
  simp only [Consumer.contributesTo_xcframework, Consumer.mem_copiedXcframeworks hg]
  have hnet {n : Nat} {b : Prebuilt} (hkey : c.graph.wiring.key? n = some (.prebuilt b))
      (hreach : c.graph.wiring.Reaches c.node n) :
      c.net n = c.graph.netCondition (.ofTarget path name) (.prebuilt b) :=
    hg.net_eq rfl ha (hg.sound.1.node?_eq_some.2 (Wiring.sortKey?_eq_some.2 ⟨_, hkey, rfl⟩)) hreach
  constructor
  · rintro ⟨n, ⟨htest, hpass⟩, b, hkey, hxc, hpath, hne⟩
    rw [holds_of_key? hkey] at htest
    have hstatic : b.isStatic = true := (Bool.and_eq_true_iff.1 htest).1
    refine ⟨n, (Consumer.mem_staticNodes hg).2 ⟨?_, hpass.mono fun m hm => ?_⟩, b, hkey, hstatic,
      hxc, hpath, hnet hkey hpass.reaches ▸ hne, hpass⟩
    · exact (holds_of_key? hkey).trans hstatic
    · rw [Wiring.holds_or, Bool.or_eq_false_iff] at hm
      exact hm.1
  · rintro ⟨n, -, b, hkey, hstatic, hxc, hpath, hne, hpass⟩
    refine ⟨n, ⟨?_, hpass⟩, b, hkey, hxc, hpath, hnet hkey hpass.reaches ▸ hne⟩
    rw [holds_of_key? hkey]
    exact Bool.and_eq_true_iff.2 ⟨hstatic, hxc⟩

theorem copied_stickersKit :
    stickersKit.copied.contains (.xcframework ⟨"/x/Codec.xcframework"⟩) = true ∧
      ∃ n ∈ stickersKit.staticNodes, ∃ b, stickersGraph.wiring.key? n = some (.prebuilt b) ∧
        b.isStatic = true ∧ b.isXcframework = true ∧
        stickersGraph.netCondition (.ofTarget ⟨"/w"⟩ "Kit") (.prebuilt b) ≠ .incompatible := by
  obtain ⟨-, -, -, -, hkit, -⟩ := walks_stickers
  have hc : stickersGraph.consumer? ⟨"/w"⟩ "Kit" = some stickersKit := by decide
  have hcopied : stickersKit.copied.contains (.xcframework ⟨"/x/Codec.xcframework"⟩) = true := by
    refine (Consumer.contains_copied_xcframework isBuilt_stickers).2 ⟨5, by simp [hkit], ?_⟩
    exact Consumer.contributesTo_xcframework.2 ⟨stickersCodec, by decide, rfl, rfl, by decide⟩
  obtain ⟨n, hn, b, hkey, hstatic, hxc, -, hnet, -⟩ :=
    (isBuilt_stickers.copied_xcframework_iff hc).1 hcopied
  exact ⟨hcopied, n, hn, b, hkey, hstatic, hxc, hnet⟩

/-- The app neither links nor copies the xcframework below its sticker pack. -/
theorem not_copied_stickers :
    let codec : ReferenceKey := .xcframework stickersCodec.path
    stickersGraph.IsBuilt ∧ stickersGraph.consumer? ⟨"/w"⟩ "App" = some stickersApp ∧
      stickersApp.product.linksStaticCode = true ∧ 5 ∈ stickersApp.staticNodes ∧
      stickersGraph.wiring.key? 5 = some (.prebuilt stickersCodec) ∧
      stickersCodec.isStatic = true ∧ stickersCodec.isXcframework = true ∧
      stickersGraph.netCondition (.ofTarget ⟨"/w"⟩ "App") (.prebuilt stickersCodec) ≠
        .incompatible ∧
      stickersApp.linked.contains codec = false ∧ stickersApp.copied.contains codec = false := by
  intro codec
  obtain ⟨hlinked, -, hstatic, hcopied, -⟩ := walks_stickers
  have hnode : stickersGraph.wiring.node? (.prebuilt stickersCodec) = some 5 := by decide
  have hes : stickersGraph.wiring.IsRoute 0 [⟨0, 2, none⟩, ⟨2, 3, none⟩, ⟨3, 5, none⟩] 5 :=
    ⟨by decide, rfl, by decide, rfl, by decide, rfl, rfl⟩
  have hnet := isBuilt_stickers.netCondition_of_route
    (Graph.consumer?_eq_some consumer?_stickersApp).2.2 hnode hes (by decide)
  refine ⟨isBuilt_stickers, consumer?_stickersApp, rfl, by simp [hstatic], by decide, rfl, rfl,
    hnet, ?_, ?_⟩
  · rw [Consumer.linked, hlinked]
    decide
  · rw [← Bool.not_eq_true, Consumer.contains_copied_xcframework isBuilt_stickers, hcopied]
    simp

end BuildGraph
