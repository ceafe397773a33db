import BuildGraph.Consumer.Contents
import BuildGraph.Consumer.Directories
import BuildGraph.Proofs.Consumer
import BuildGraph.Proofs.Renumbering

/-!
# Graphs that agree

Two graphs agree if their wirings do and their projects have the same targets in some
order, each name once. Then a key finds the same target in both and plays the same role.
-/

namespace BuildGraph

/-- What queries see of a target: all but the other targets of its project. -/
def ProjectTarget.view (t : ProjectTarget) : Path × Target × Bool :=
  (t.path, t.target, t.project.isExternal)

structure ProjectEntry.Agree (e f : ProjectEntry) : Prop where
  path : e.path = f.path
  isExternal : e.project.isExternal = f.project.isExternal
  targets : e.project.targets.Perm f.project.targets
  distinct : (e.project.targets.map (·.name)).Nodup

structure Graph.Agree (g h : Graph) : Prop where
  built : g.IsBuilt
  built' : h.IsBuilt
  wiring : g.wiring.Agree h.wiring
  projects : List.Forall₂ ProjectEntry.Agree g.projects h.projects

/-! ## Projects -/

namespace ProjectEntry

theorem Agree.symm {e f : ProjectEntry} (h : e.Agree f) : f.Agree e :=
  ⟨h.path.symm, h.isExternal.symm, h.targets.symm, (h.targets.map _).nodup_iff.1 h.distinct⟩

theorem lastTarget?_eq_some {p : Project} (hp : (p.targets.map (·.name)).Nodup) {name : String}
    {t : Target} : p.lastTarget? name = some t ↔ t ∈ p.targets ∧ t.name = name := by
  refine ⟨Project.mem_of_lastTarget?, fun ⟨ht, hname⟩ => ?_⟩
  cases h : p.lastTarget? name with
  | none =>
    have := List.find?_eq_none.1 h t (List.mem_reverse.2 ht)
    simp [hname] at this
  | some u =>
    obtain ⟨hu, hname'⟩ := Project.mem_of_lastTarget? h
    rw [List.inj_on_of_nodup_map hp hu ht (hname'.trans hname.symm)]

theorem Agree.lastTarget? {e f : ProjectEntry} (h : e.Agree f) (name : String) :
    e.project.lastTarget? name = f.project.lastTarget? name := by
  apply Option.ext
  intro t
  rw [lastTarget?_eq_some h.distinct, lastTarget?_eq_some h.symm.distinct, h.targets.mem_iff]

theorem Agree.targetNames {e f : ProjectEntry} (h : e.Agree f) :
    e.project.targetNames = f.project.targetNames := by
  have hm := keepsKey_keepFirst (α := String) sortKey
  apply List.map_injective_iff.2 sortKey_string_injective
  apply (collectBy_increasing hm _).map_eq (collectBy_increasing hm _)
  intro k
  rw [key_mem_collectBy hm, key_mem_collectBy hm, ((h.targets.map _).map _).mem_iff]

end ProjectEntry

theorem ProjectTable.at?_agree {xs ys : ProjectTable} (h : List.Forall₂ ProjectEntry.Agree xs ys)
    {path path' : Path} (hpath : sortKey path = sortKey path') :
    Option.Rel ProjectEntry.Agree (xs.at? path) (ys.at? path') := by
  apply find?_rel h
  intro e f hef
  rw [same, same, hef.path, hpath]

/-! ## Targets -/

namespace ProjectTarget

variable {t u : ProjectTarget}

theorem target_eq (h : t.view = u.view) : t.target = u.target := congrArg (·.2.1) h

theorem path_eq (h : t.view = u.view) : t.path = u.path := congrArg (·.1) h

theorem isExternal_eq (h : t.view = u.view) : t.project.isExternal = u.project.isExternal :=
  congrArg (·.2.2) h

theorem key_eq (h : t.view = u.view) : t.key = u.key := by
  rw [key, key, id, id, name, name, target_eq h, path_eq h]

theorem sortKey_eq (h : t.view = u.view) : sortKey t = sortKey u := by
  change SortKey.ofList _ = SortKey.ofList _
  rw [target_eq h, path_eq h]

end ProjectTarget

namespace Graph

section
variable {g h : Graph} {n m : Nat}

theorem Agree.symm (hgh : g.Agree h) : h.Agree g :=
  ⟨hgh.built', hgh.built, hgh.wiring.symm, hgh.projects.flip.imp fun _ _ hef => hef.symm⟩

theorem Agree.target?_view (hgh : g.Agree h) {path path' : Path}
    (hpath : sortKey path = sortKey path') (name : String) :
    (g.target? path name).map (·.view) = (h.target? path' name).map (·.view) := by
  have hat := ProjectTable.at?_agree hgh.projects hpath
  unfold target?
  generalize g.projects.at? path = x at hat
  generalize h.projects.at? path' = y at hat
  cases hat with
  | none => rfl
  | @some e f hef =>
    simp only [bind, Option.bind_some, hef.lastTarget? name]
    cases f.project.lastTarget? name with
    | none => rfl
    | some t => simp [ProjectTarget.view, hef.path, hef.isExternal]

theorem Agree.targetOfKey?_view (hgh : g.Agree h) {k l : NodeKey} (hkl : sortKey k = sortKey l) :
    (g.targetOfKey? k).map (·.view) = (h.targetOfKey? l).map (·.view) := by
  cases NodeKey.alike_of_sortKey hkl with
  | @target id id' hpath hname =>
    simp only [targetOfKey?, NodeKey.target?, Option.bind_some, targetOfId?, hname]
    exact hgh.target?_view hpath _
  | _ => rfl

theorem Agree.targetOfNode?_view (hgh : g.Agree h) (hnm : g.wiring.Matches h.wiring n m) :
    (g.targetOfNode? n).map (·.view) = (h.targetOfNode? m).map (·.view) := by
  obtain ⟨k, l, hk, hl, hkl⟩ := Wiring.matches_iff_keys.1 hnm
  simp only [targetOfNode?, hk, hl, Option.bind_some]
  exact hgh.targetOfKey?_view hkl

theorem any_eq_of_view {x y : Option ProjectTarget} (hxy : x.map (·.view) = y.map (·.view))
    {p q : ProjectTarget → Bool} (hpq : ∀ t u, t.view = u.view → p t = q u) : x.any p = y.any q := by
  cases x with
  | none => cases y <;> simp_all
  | some t =>
    cases y with
    | none => simp at hxy
    | some u => exact hpq t u (Option.some.inj hxy)

/-! ## Roles -/

open Wiring (TestsAgree)

theorem Agree.targetSatisfies (hgh : g.Agree h) (p : Target → Bool) :
    TestsAgree (g.targetSatisfies p) (h.targetSatisfies p) := by
  intro k l hkl
  apply any_eq_of_view (hgh.targetOfKey?_view hkl)
  intro t u htu
  rw [ProjectTarget.target_eq htu]

theorem Agree.isExternal (hgh : g.Agree h) : TestsAgree g.isExternal h.isExternal :=
  fun _ _ hkl => any_eq_of_view (hgh.targetOfKey?_view hkl) fun _ _ => ProjectTarget.isExternal_eq

theorem testsAgree_isTarget : TestsAgree NodeKey.isTarget NodeKey.isTarget :=
  .of_alike fun _ _ hkl => by cases hkl <;> rfl

theorem testsAgree_isSdk : TestsAgree NodeKey.isSdk NodeKey.isSdk :=
  .of_alike fun _ _ hkl => by cases hkl <;> rfl

theorem testsAgree_isBundle : TestsAgree NodeKey.isBundle NodeKey.isBundle :=
  .of_alike fun _ _ hkl => by cases hkl <;> rfl

theorem testsAgree_isMacroExecutable :
    TestsAgree NodeKey.isMacroExecutable NodeKey.isMacroExecutable :=
  .of_alike fun _ _ hkl => by cases hkl <;> rfl

theorem testsAgree_prebuilt {p : Prebuilt → Bool} (hp : ∀ a b, a.Alike b → p a = p b) :
    TestsAgree (fun key => key.prebuilt?.any p) fun key => key.prebuilt?.any p := by
  apply TestsAgree.of_alike
  intro k l hkl
  cases hkl with
  | prebuilt hab => exact hp _ _ hab
  | _ => rfl

end

end Graph

/-! ## Binaries -/

theorem Path.fileName?_congr {p q : Path} (h : sortKey p = sortKey q) : p.fileName? = q.fileName? := by
  rw [Path.fileName?, Path.fileName?, sortKey_path.1 h]

theorem XcframeworkInfo.binaryName?_congr {i j : XcframeworkInfo} (h : sortKey i = sortKey j) :
    i.binaryName? = j.binaryName? := by
  have hslices : i.slices.map sortKey = j.slices.map sortKey := SortKey.ofList_inj.1 h
  unfold XcframeworkInfo.binaryName?
  cases hi : i.slices with
  | nil => cases hj : j.slices <;> simp_all
  | cons s ss =>
    cases hj : j.slices with
    | nil => simp [hi, hj] at hslices
    | cons t ts =>
      rw [hi, hj, List.map_cons, List.map_cons, List.cons.injEq] at hslices
      have hfields := SortKey.ofList_inj.1 (show SortKey.ofList _ = SortKey.ofList _ from hslices.1)
      simp only [List.cons.injEq, sortKey_string] at hfields
      simp [hfields.2.2.1]

namespace Prebuilt

variable {a b : Prebuilt}

theorem Alike.isStatic (h : a.Alike b) : a.isStatic = b.isStatic := by
  rw [Prebuilt.isStatic, Prebuilt.isStatic, h.linking]

theorem Alike.isDynamic (h : a.Alike b) : a.isDynamic = b.isDynamic := by
  rw [Prebuilt.isDynamic, Prebuilt.isDynamic, h.linking]

theorem Alike.container (h : a.Alike b) : a.isFramework = b.isFramework ∧
    a.isLibrary = b.isLibrary ∧ a.isXcframework = b.isXcframework := by
  have ho := h.origin
  unfold isFramework isLibrary isXcframework
  generalize a.origin = x at ho
  generalize b.origin = y at ho
  cases ho <;> exact ⟨rfl, rfl, rfl⟩

theorem Alike.mergeLabel? (h : a.Alike b) : a.mergeLabel? = b.mergeLabel? := by
  have ho := h.origin
  have hfile := Path.fileName?_congr h.binaryPath
  unfold Prebuilt.mergeLabel?
  generalize a.origin = x at ho
  generalize b.origin = y at ho
  cases ho with
  | xcframework hinfo => exact XcframeworkInfo.binaryName?_congr hinfo
  | _ => exact hfile

end Prebuilt

/-! ## Roles of binaries -/

namespace Graph

open Wiring (TestsAgree)

section
variable {g h : Graph}

theorem testsAgree_isDynamicBinary : TestsAgree NodeKey.isDynamicBinary NodeKey.isDynamicBinary :=
  testsAgree_prebuilt fun _ _ hab => hab.isDynamic

theorem testsAgree_isPlainStaticBinary :
    TestsAgree NodeKey.isPlainStaticBinary NodeKey.isPlainStaticBinary :=
  testsAgree_prebuilt fun _ _ hab => by rw [hab.isStatic, hab.container.2.2]

theorem testsAgree_isStaticXcframework :
    TestsAgree NodeKey.isStaticXcframework NodeKey.isStaticXcframework :=
  testsAgree_prebuilt fun _ _ hab => by rw [hab.isStatic, hab.container.2.2]

theorem testsAgree_isLoadedFramework :
    TestsAgree Consumer.isLoadedFramework Consumer.isLoadedFramework :=
  testsAgree_prebuilt fun _ _ hab => by rw [hab.isDynamic, hab.container.2.1]

theorem Agree.isStatic (hgh : g.Agree h) : TestsAgree g.isStatic h.isStatic := by
  intro k l hkl
  have htarget := hgh.targetSatisfies (·.product.isStatic) k l hkl
  cases NodeKey.alike_of_sortKey hkl with
  | prebuilt hab => exact hab.isStatic
  | _ => exact htarget

theorem Agree.linksStaticCode (hgh : g.Agree h) : TestsAgree g.linksStaticCode h.linksStaticCode := by
  intro k l hkl
  have htarget := hgh.targetSatisfies (·.product.linksStaticCode) k l hkl
  cases NodeKey.alike_of_sortKey hkl with
  | prebuilt hab => exact hab.isDynamic
  | _ => exact htarget

theorem Agree.isLinkedByReference (hgh : g.Agree h) :
    TestsAgree g.isLinkedByReference h.isLinkedByReference :=
  (testsAgree_isSdk.or testsAgree_isDynamicBinary).or (hgh.targetSatisfies _)

theorem Agree.isMacro (hgh : g.Agree h) : TestsAgree g.isMacro h.isMacro :=
  testsAgree_isMacroExecutable.or (hgh.targetSatisfies _)

theorem Agree.isResourceBundle (hgh : g.Agree h) :
    TestsAgree g.isResourceBundle h.isResourceBundle :=
  testsAgree_isBundle.or (hgh.targetSatisfies _)

theorem Agree.isMergedBy (hgh : g.Agree h) (target : Target) :
    TestsAgree (g.isMergedBy target) (h.isMergedBy target) := by
  intro k l hkl
  have hmergeable := hgh.targetSatisfies (·.mergeable) k l hkl
  cases NodeKey.alike_of_sortKey hkl with
  | target hpath hname => simp only [Graph.isMergedBy, hmergeable, hname]
  | prebuilt hab => simp only [Graph.isMergedBy, hab.mergeable, hab.mergeLabel?]
  | _ => rfl

end

end Graph

end BuildGraph
