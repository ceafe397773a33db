import BuildGraph.Consumer.Contents
import BuildGraph.Proofs.Consumer

/-!
# What goes into an answer

For each question about references, the list of references that the answer is merged
from, in their order: by nodes, one walk after the other.
-/

namespace BuildGraph.Consumer

variable (c : Consumer)

/-! ## Linked -/

def linkedParts : List Reference :=
  c.contributions c.linkedNodes

def linkedAloneParts : List Reference :=
  c.contributions c.linkedNodesAlone

def searchableParts : List Reference :=
  c.linkedAloneParts ++ c.contributions c.visibleStaticBinaries

/-! ## Embedded -/

def embeddedAloneParts : List Reference :=
  if c.description.embedsFrameworks then c.contributions c.embeddedNodes else []

def embeddedParts : List Reference :=
  if c.product.isTests then
    match c.host?.bind c.graph.consumerOf? with
    | some host =>
      c.embeddedAloneParts.filter fun r => !(host.embeddedAlone.get? r.idKey).isSome
    | none => if c.product == .unitTests then [] else c.embeddedAloneParts
  else c.embeddedAloneParts

/-! ## Copied -/

def bundleParts : List Reference :=
  if c.description.hostsResources then c.contributions c.bundleNodes else []

def staticNodesDirect : List Nat :=
  c.successors.filter (c.graph.wiring.holds c.graph.isStaticTarget)

def copiedParts : List Reference :=
  c.contributions c.copiedXcframeworks ++
    (if c.product.isStatic then c.contributions c.staticNodesDirect else []) ++
    c.contributions c.foreignExecutables ++ c.bundleParts

/-! ## Answers are merged from their parts -/

section
variable {c : Consumer} (hg : c.graph.IsBuilt)
include hg

theorem collects_linked : c.linked.Collects c.linkedParts :=
  collects_collect hg _

theorem collects_linkedAlone : c.linkedAlone.Collects c.linkedAloneParts :=
  collects_collect hg _

theorem collects_searchable : c.searchable.Collects c.searchableParts :=
  (collects_linkedAlone hg).insertSet (collects_collect hg _)

theorem collects_embeddedAlone : c.embeddedAlone.Collects c.embeddedAloneParts := by
  unfold embeddedAlone embeddedAloneParts
  by_cases h : c.description.embedsFrameworks = true
  · rw [if_pos h, if_pos h]
    exact collects_collect hg _
  · rw [if_neg h, if_neg h]
    exact References.collects_empty

theorem collects_embedded : c.embedded.Collects c.embeddedParts := by
  have halone := collects_embeddedAlone hg
  unfold embedded embeddedParts
  by_cases htests : c.product.isTests = true
  · rw [if_pos htests, if_pos htests]
    cases c.host?.bind c.graph.consumerOf? with
    | none =>
      by_cases hunit : (c.product == .unitTests) = true
      · simp only [if_pos hunit]
        exact References.collects_empty
      · simp only [if_neg hunit]
        exact halone
    | some host =>
      have hkept : c.embeddedAlone.subtract host.embeddedAlone =
          c.embeddedAlone.filter fun r => !(host.embeddedAlone.get? r.idKey).isSome := by
        unfold References.subtract
        congr 1
        funext r
        rw [Bool.not_inj_iff, Bool.eq_iff_iff]
        exact References.contains_iff
      simp only [hkept]
      exact halone.filter fun k => !(host.embeddedAlone.get? k).isSome
  · rw [if_neg htests, if_neg htests]
    exact halone

theorem collects_bundles : c.bundles.Collects c.bundleParts := by
  unfold bundles bundleParts
  by_cases h : c.description.hostsResources = true
  · rw [if_pos h, if_pos h]
    exact collects_collect hg _
  · rw [if_neg h, if_neg h]
    exact References.collects_empty

theorem collects_copied : c.copied.Collects c.copiedParts := by
  have hstatics : (if c.product.isStatic then c.staticTargets else .empty).Collects
      (if c.product.isStatic then c.contributions c.staticNodesDirect else []) := by
    by_cases h : c.product.isStatic = true
    · rw [if_pos h, if_pos h]
      exact collects_collect hg _
    · rw [if_neg h, if_neg h]
      exact References.collects_empty
  exact (((collects_collect hg _).insertSet hstatics).insertSet
    (collects_collect hg _)).insertSet (collects_bundles hg)

end

end BuildGraph.Consumer
