import BuildGraph.Consumer.Directories
import BuildGraph.Proofs.LinkedNodes
import BuildGraph.Proofs.Parts
import BuildGraph.Proofs.Path

/-!
# What is searched

The compiler sees all that a target links and, in the directories of libraries, each linked
library. A test bundle sees what its host brings along too, and a static target sees the
static binaries behind it. Nothing else is seen.
-/

namespace BuildGraph

namespace Reference

/-- The counterpart of a reference in a wider answer: it applies wherever `r` does, an
unconditional one everywhere, and it is required if `r` is. -/
structure Covers (e r : Reference) : Prop where
  identity : e.idKey = r.idKey
  condition : ∀ x : Place, Condition.appliesAt r.condition x = true →
    Condition.appliesAt e.condition x = true
  hasStatus : e.status?.isSome = r.status?.isSome
  required : r.isRequired → e.isRequired

theorem libraryPath?_eq_some {r : Reference} {p : Path} (h : r.libraryPath? = some p) :
    r.id = .library p := by
  cases r <;> cases h
  rfl

theorem libraryPath?_of_idKey {e r : Reference} {p : Path} (h : r.libraryPath? = some p)
    (hkey : e.idKey = r.idKey) : ∃ q, e.libraryPath? = some q ∧ sortKey q = sortKey p := by
  rw [idKey, idKey, libraryPath?_eq_some h] at hkey
  change e.id.order = ReferenceKey.order (.library p) at hkey
  cases e with
  | library q _ _ _ _ _ =>
    simp only [id, ReferenceKey.order, SortKey.variant_inj, List.cons.injEq] at hkey
    exact ⟨q, rfl, hkey.2.1⟩
  | _ => simp [id, ReferenceKey.order] at hkey

end Reference

theorem exists_mem_parentDirectories {ps : List Path} {p d : Path} (hp : p ∈ ps)
    (hd : p.parent? = some d) : ∃ q ∈ parentDirectories ps, sortKey q = sortKey d := by
  have hmem : d ∈ ps.filterMap Path.parent? := List.mem_filterMap.2 ⟨p, hp, hd⟩
  have hkey := (key_mem_collectBy (keepsKey_keepLast sortKey)).2 (List.mem_map_of_mem hmem)
  exact List.mem_map.1 hkey

namespace Consumer

section
variable {c : Consumer} (hg : c.graph.IsBuilt)

/-- A static framework or library that is there to see: nothing on the way to it links static
code or is a macro. -/
structure SeesBinary (c : Consumer) (n : Nat) : Prop where
  binary : ∃ b, c.graph.wiring.key? n = some (.prebuilt b) ∧ b.isStatic = true ∧
    (b.isFramework = true ∨ b.isLibrary = true)
  passage : c.graph.wiring.Passes
    (fun key => c.graph.linksStaticCode key || c.graph.isMacro key) c.node n

theorem holds_isPlainStaticBinary {n : Nat} :
    c.graph.wiring.holds NodeKey.isPlainStaticBinary n = true ↔
      ∃ b, c.graph.wiring.key? n = some (.prebuilt b) ∧ b.isStatic = true ∧
        (b.isFramework = true ∨ b.isLibrary = true) := by
  have horigin (b : Prebuilt) :
      (!b.isXcframework) = true ↔ b.isFramework = true ∨ b.isLibrary = true := by
    unfold Prebuilt.isXcframework Prebuilt.isFramework Prebuilt.isLibrary
    cases b.origin <;> simp
  unfold Wiring.holds
  cases c.graph.wiring.key? n with
  | none => simp
  | some key =>
    cases key <;> simp [NodeKey.isPlainStaticBinary, NodeKey.prebuilt?, horigin]

theorem mem_linkedAloneParts {r : Reference} (hr : r ∈ c.linkedParts) : r ∈ c.linkedAloneParts := by
  obtain ⟨n, hn, hnr⟩ := List.mem_filterMap.1 hr
  exact List.mem_filterMap.2 ⟨n, (mem_linkedNodes.1 hn).1, hnr⟩

include hg

theorem mem_visibleStaticBinaries {n : Nat} : n ∈ c.visibleStaticBinaries ↔ c.SeesBinary n := by
  rw [visibleStaticBinaries, mem_select hg, holds_isPlainStaticBinary]
  exact ⟨fun ⟨hb, hp⟩ => ⟨hb, hp⟩, fun ⟨hb, hp⟩ => ⟨hb, hp⟩⟩

theorem contains_searchable {id : ReferenceKey} : c.searchable.contains id = true ↔
    ∃ n, c.ContributesTo (sortKey id) n ∧ (n ∈ c.linkedNodesAlone ∨ c.SeesBinary n) := by
  rw [(collects_searchable hg).contains, searchableParts, linkedAloneParts, contributions,
    contributions, ← List.filterMap_append]
  simp only [List.mem_filterMap, List.mem_append, mem_visibleStaticBinaries hg]
  constructor
  · rintro ⟨r, ⟨n, hn, hr⟩, hkey⟩
    exact ⟨n, ⟨r, hr, hkey⟩, hn⟩
  · rintro ⟨n, ⟨r, hr, hkey⟩, hn⟩
    exact ⟨r, ⟨n, hn, hr⟩, hkey⟩

theorem exists_searchable {r : Reference} (hr : r ∈ c.linked.toList) :
    ∃ e ∈ c.searchable.toList, e.Covers r := by
  obtain ⟨e, he, hkey, hattr⟩ := (collects_linked hg).inherited (collects_searchable hg) hr
    fun p hp _ => List.mem_append_left _ (mem_linkedAloneParts hp)
  exact ⟨e, he, hkey, fun x => hattr _ (Reference.joint_appliesAt x),
    Reference.status?_isSome_of_idKey hkey, hattr _ Reference.joint_isRequired⟩

theorem exists_libraryDirectory {r : Reference} (hr : r ∈ c.linked.toList) {p d : Path}
    (hp : r.libraryPath? = some p) (hd : p.parent? = some d) :
    ∃ q ∈ c.libraryDirectories, sortKey q = sortKey d := by
  -- the set without the host may hold the library under another spelling of its path
  obtain ⟨e, he, hkey, -⟩ := (collects_linked hg).inherited (collects_linkedAlone hg) hr
    fun p hp _ => mem_linkedAloneParts hp
  obtain ⟨p', hp', hsame⟩ := Reference.libraryPath?_of_idKey hp hkey
  have hparents := Path.parent?_congr hsame
  rw [hd] at hparents
  obtain ⟨d', hd', hdd⟩ := Option.map_eq_some_iff.1 hparents
  have hmem : p' ∈ c.libraries.map (·.path) ++ c.linkedAlone.toList.filterMap Reference.libraryPath? :=
    List.mem_append_right _ (List.mem_filterMap.2 ⟨e, he, hp'⟩)
  obtain ⟨q, hq, hqd⟩ := exists_mem_parentDirectories hmem hd'
  exact ⟨q, hq, hqd.trans hdd⟩

end

end Consumer

/-- What a target links is seen by its compiler under no less and no weaker; what is seen is
linked without the host or a static binary in sight; and the directories of linked libraries
are searched, in order. -/
theorem Graph.IsBuilt.linked_searchable {g : Graph} (hg : g.IsBuilt) {path : Path} {name : String}
    {c : Consumer} (hc : g.consumer? path name = some c) :
    (∀ r ∈ c.linked.toList, ∃ e ∈ c.searchable.toList, e.Covers r) ∧
      (∀ id, c.searchable.contains id = true ↔
        ∃ n, c.ContributesTo (sortKey id) n ∧ (n ∈ c.linkedNodesAlone ∨ c.SeesBinary n)) ∧
      (∀ r ∈ c.linked.toList, ∀ p d, r.libraryPath? = some p → p.parent? = some d →
        ∃ q ∈ c.libraryDirectories, sortKey q = sortKey d) ∧
      IncreasingBy sortKey c.libraryDirectories := by
  obtain rfl := graph_of_consumer? hc
  exact ⟨fun r => c.exists_searchable hg, fun id => c.contains_searchable hg,
    fun r hr p d => c.exists_libraryDirectory hg hr,
    collectBy_increasing (keepsKey_keepLast sortKey) _⟩

def probedProject : Project :=
  ⟨⟨"/w"⟩, "W", .localProject,
    [{ name := "App", product := .app }, { name := "Tests", product := .unitTests }]⟩

def probed : Draft :=
  let key (name : String) : NodeKey := .ofTarget ⟨"/w"⟩ name
  let library (path : Path) : NodeKey :=
    .prebuilt {
      path, binaryPath := path, linking := .static, architectures := .empty, dsymPath := none,
      bcsymbolmapPaths := [], origin := .library ⟨"/include"⟩ none, status := .required,
      mergeable := false }
  .ofCalls ⟨⟨"/w"⟩, "W", []⟩ [
    .register probedProject,
    .declare (key "Tests") (key "App") none,
    .declare (key "Tests") (library ⟨"/own//libA.a"⟩) none,
    .declare (key "Tests") (library ⟨"/hosted/libB.a"⟩) none,
    .declare (key "App") (library ⟨"/hosted/libB.a"⟩) none]

def probedGraph : Graph := ⟨probed.workspace, probed.projects, probed.wiring⟩

theorem isBuilt_probed : probedGraph.IsBuilt :=
  Draft.isBuilt_of_checks (by decide) (by decide) (by decide)

def probedTests : Consumer :=
  ⟨probedGraph, 1, ⟨⟨"/w"⟩, { name := "Tests", product := .unitTests }, probedProject⟩⟩

def ownLibrary : Reference :=
  .library ⟨"/own//libA.a"⟩ ⟨"/include"⟩ none .static .empty none

theorem searchable_probed : probedGraph.consumer? ⟨"/w"⟩ "Tests" = some probedTests ∧
    probedTests.linked.toList = [ownLibrary] ∧
    (∃ e ∈ probedTests.searchable.toList, e.Covers ownLibrary) ∧
    (∃ n, probedTests.ContributesTo (sortKey (ReferenceKey.library ⟨"/hosted/libB.a"⟩)) n ∧
      (n ∈ probedTests.linkedNodesAlone ∨ probedTests.SeesBinary n)) ∧
    ∃ q ∈ probedTests.libraryDirectories, sortKey q = sortKey (⟨"/own"⟩ : Path) := by
  have hc : probedGraph.consumer? ⟨"/w"⟩ "Tests" = some probedTests := by decide +kernel
  obtain ⟨hcovered, hseen, hdirectories, -⟩ := isBuilt_probed.linked_searchable hc
  have hlinked : probedTests.linked.toList = [ownLibrary] := by decide +kernel
  have hown : ownLibrary ∈ probedTests.linked.toList := by
    rw [hlinked]
    exact List.mem_singleton_self _
  exact ⟨hc, hlinked, hcovered _ hown, (hseen _).1 (by decide +kernel),
    hdirectories _ hown _ _ rfl (by decide)⟩

end BuildGraph
