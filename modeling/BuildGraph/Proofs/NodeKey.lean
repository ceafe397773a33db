import BuildGraph.NodeKey
import BuildGraph.Proofs.Ordered

/-!
# Keys under one sort key

Two keys with one sort key are of one kind, and agree in all that is not a path; their
paths have the same components. So what is asked of keys is answered alike for both.
-/

namespace BuildGraph

/-! ## Parts of keys -/

theorem sortKey_string {s t : String} : sortKey s = sortKey t ↔ s = t := by
  change SortKey.text s = SortKey.text t ↔ s = t
  simp

theorem sortKey_string_injective : Function.Injective (sortKey : String → SortKey) :=
  fun _ _ => sortKey_string.1

theorem sortKey_path {p q : Path} : sortKey p = sortKey q ↔ p.components = q.components := by
  have hinj : Function.Injective (sortKey : Component → SortKey) := by
    intro a b h
    cases a <;> cases b <;> cases h <;> rfl
  change SortKey.ofList (p.components.map sortKey) = SortKey.ofList (q.components.map sortKey) ↔ _
  rw [SortKey.ofList_inj, (List.map_injective_iff.2 hinj).eq_iff]

theorem sortKey_linking {a b : Linking} : sortKey a = sortKey b ↔ a = b := by
  cases a <;> cases b <;> decide

theorem sortKey_status {a b : LinkStatus} : sortKey a = sortKey b ↔ a = b := by
  cases a <;> cases b <;> decide

theorem sortKey_origin {a b : SdkOrigin} : sortKey a = sortKey b ↔ a = b := by
  cases a <;> cases b <;> decide

theorem ofBool_inj {a b : Bool} : SortKey.ofBool a = SortKey.ofBool b ↔ a = b := by
  cases a <;> cases b <;> decide

theorem sortKey_option {α : Type} [Sortable α] {x y : Option α} :
    sortKey x = sortKey y ↔ x.map sortKey = y.map sortKey :=
  SortKey.ofOption_inj

theorem sortKey_targetId {a b : TargetId} :
    sortKey a = sortKey b ↔ sortKey a.projectPath = sortKey b.projectPath ∧ a.name = b.name := by
  change SortKey.ofList [sortKey a.projectPath, sortKey a.name] =
    SortKey.ofList [sortKey b.projectPath, sortKey b.name] ↔ _
  simp [sortKey_string]

/-! ## Binaries -/

namespace BinaryOrigin

inductive Alike : BinaryOrigin → BinaryOrigin → Prop where
  | framework : Alike framework framework
  | library {headers headers' : Path} {map map' : Option Path}
      (sameHeaders : sortKey headers = sortKey headers')
      (sameMap : map.map sortKey = map'.map sortKey) :
      Alike (library headers map) (library headers' map')
  | xcframework {info info' : XcframeworkInfo} (sameInfo : sortKey info = sortKey info') :
      Alike (xcframework info) (xcframework info')

theorem alike_of_sortKey {a b : BinaryOrigin} (h : sortKey a = sortKey b) : Alike a b := by
  change a.order = b.order at h
  cases a <;> cases b <;> simp [order, sortKey_option] at h
  · exact .framework
  · exact .library h.1 h.2
  · exact .xcframework h

end BinaryOrigin

namespace Prebuilt

structure Alike (a b : Prebuilt) : Prop where
  path : sortKey a.path = sortKey b.path
  binaryPath : sortKey a.binaryPath = sortKey b.binaryPath
  linking : a.linking = b.linking
  architectures : sortKey a.architectures = sortKey b.architectures
  dsymPath : sortKey a.dsymPath = sortKey b.dsymPath
  bcsymbolmapPaths : sortKey a.bcsymbolmapPaths = sortKey b.bcsymbolmapPaths
  origin : a.origin.Alike b.origin
  status : a.status = b.status
  mergeable : a.mergeable = b.mergeable

theorem sortKey_eq (b : Prebuilt) : sortKey b = .ofList [sortKey b.path, sortKey b.binaryPath,
    sortKey b.linking, sortKey b.architectures, sortKey b.dsymPath, sortKey b.bcsymbolmapPaths,
    sortKey b.origin, sortKey b.status, .ofBool b.mergeable] := rfl

theorem alike_of_sortKey {a b : Prebuilt} (h : sortKey a = sortKey b) : Alike a b := by
  simp only [sortKey_eq a, sortKey_eq b, SortKey.ofList_inj, List.cons.injEq, sortKey_linking, sortKey_status, ofBool_inj,
    and_true] at h
  obtain ⟨h₁, h₂, h₃, h₄, h₅, h₆, h₇, h₈, h₉⟩ := h
  exact ⟨h₁, h₂, h₃, h₄, h₅, h₆, BinaryOrigin.alike_of_sortKey h₇, h₈, h₉⟩

end Prebuilt

/-! ## Keys -/

namespace NodeKey

theorem sortKey_prebuilt {b c : Prebuilt} (h : sortKey b = sortKey c) :
    sortKey (prebuilt b) = sortKey (prebuilt c) :=
  congrArg (SortKey.cons (.num 1)) h

theorem sortKey_macroExecutable {p q : Path} (h : sortKey p = sortKey q) :
    sortKey (macroExecutable p) = sortKey (macroExecutable q) :=
  congrArg (fun k => SortKey.variant 5 [k]) h

/-- Keys under one sort key. -/
inductive Alike : NodeKey → NodeKey → Prop where
  | target {id id' : TargetId} (samePath : sortKey id.projectPath = sortKey id'.projectPath)
      (sameName : id.name = id'.name) : Alike (target id) (target id')
  | prebuilt {b b' : Prebuilt} (same : b.Alike b') : Alike (prebuilt b) (prebuilt b')
  | packageProduct {path path' : Path} {product product' : String} {use use' : PackageUse} :
      Alike (packageProduct path product use) (packageProduct path' product' use')
  | sdk {name : String} {path path' : Path} {status : LinkStatus} {source : SdkOrigin}
      (samePath : sortKey path = sortKey path') :
      Alike (sdk name path status source) (sdk name path' status source)
  | bundle {path path' : Path} (samePath : sortKey path = sortKey path') :
      Alike (bundle path) (bundle path')
  | macroExecutable {path path' : Path} (samePath : sortKey path = sortKey path') :
      Alike (macroExecutable path) (macroExecutable path')

theorem alike_of_sortKey {k l : NodeKey} (h : sortKey k = sortKey l) : Alike k l := by
  change k.order = l.order at h
  cases k <;> cases l <;>
    simp [order, SortKey.variant, sortKey_targetId, sortKey_string, sortKey_status, sortKey_origin] at h
  · exact .target h.1 h.2
  · exact .prebuilt (Prebuilt.alike_of_sortKey h)
  · exact .packageProduct
  · obtain ⟨rfl, hpath, rfl, rfl⟩ := h
    exact .sdk hpath
  · exact .bundle h
  · exact .macroExecutable h

end NodeKey

end BuildGraph
