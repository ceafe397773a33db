import BuildGraph.Proofs.AnswersAgree
import BuildGraph.Proofs.ReachedTargets

/-!
# Plugins of macros

Two walks find the macros of a target. One looks for macro executables and goes no further
than the first on its way. The other takes the target and the libraries that it reaches,
and from each of them the macro targets that it requires. An edge always applies somewhere,
so no macro target is lost for its condition.
-/

namespace BuildGraph

/-! ## Macro executables -/

namespace Consumer

section
variable {c : Consumer} {s : String}

theorem mem_executableNodes (hg : c.graph.IsBuilt) {n : Nat} : n ∈ c.executableNodes ↔
    ∃ path, c.graph.wiring.key? n = some (.macroExecutable path) ∧
      c.graph.wiring.Passes NodeKey.isMacroExecutable c.node n := by
  rw [executableNodes, mem_select hg, Wiring.holds_iff]
  constructor
  · rintro ⟨⟨key, hkey, hmacro⟩, hpass⟩
    cases key with
    | macroExecutable path => exact ⟨path, hkey, hpass⟩
    | _ => cases hmacro
  · rintro ⟨path, hkey, hpass⟩
    exact ⟨⟨_, hkey, rfl⟩, hpass⟩

theorem mem_executableSpecifiers (hg : c.graph.IsBuilt) : s ∈ c.executableSpecifiers ↔
    ∃ n path, c.graph.wiring.key? n = some (.macroExecutable path) ∧
      c.graph.wiring.Passes NodeKey.isMacroExecutable c.node n ∧ s = Plugin.ofExecutable path := by
  simp only [executableSpecifiers, List.mem_map, List.mem_filterMap, mem_executableNodes hg]
  constructor
  · rintro ⟨path, ⟨key, ⟨n, ⟨path', hn, hpass⟩, hkey⟩, hpath⟩, rfl⟩
    rw [hn] at hkey
    cases hkey
    cases hpath
    exact ⟨n, path, hn, hpass, rfl⟩
  · rintro ⟨n, path, hn, hpass, rfl⟩
    exact ⟨path, ⟨_, ⟨n, ⟨path, hn, hpass⟩, hn⟩, rfl⟩, rfl⟩

/-! ## Macro targets -/

theorem exists_directTarget (hg : c.graph.IsBuilt) {d : ProjectTarget} :
    (∃ u ∈ c.directTargets, u.target = d) ↔
      ∃ n, c.graph.wiring.Next c.node n ∧ c.graph.targetOfNode? n = some d := by
  simp only [mem_directTargets_iff hg]
  constructor
  · rintro ⟨u, ⟨n, hn, ht, -⟩, rfl⟩
    exact ⟨n, hn, ht⟩
  · rintro ⟨n, hn, ht⟩
    obtain ⟨condition, hcond⟩ := condition?_isSome.2 (net_successor hg hn)
    exact ⟨⟨d, condition⟩, ⟨n, hn, ht, hcond⟩, rfl⟩

section
variable (hg : c.graph.IsBuilt) (hself : c.graph.targetOfNode? c.node = some c.target)
include hg hself

theorem mem_macroTargets {m : ProjectTarget} : m ∈ c.macroTargets ↔
    c.graph.Requires c.target m ∧ m.product = .compilerMacro := by
  rw [macroTargets, List.mem_filter, List.mem_map, exists_directTarget hg,
    Graph.requires_iff hg.sound.1 hself, beq_iff_eq]

theorem mem_macroWrappers {w : ProjectTarget} : w ∈ c.macroWrappers ↔ w = c.target ∨
    w ≠ c.target ∧ c.graph.Reaches c.target w ∧ w.product ∈ wrapperProducts := by
  rw [macroWrappers, List.mem_append, List.mem_singleton, or_comm, List.mem_filter,
    mem_reachedTargets hg, hg.transGen_iff hself, List.contains_iff_mem, and_assoc]

theorem consumerOf?_macroWrapper {w : ProjectTarget} (hw : w ∈ c.macroWrappers) :
    ∃ n, c.graph.consumerOf? w = some ⟨c.graph, n, w⟩ ∧ c.graph.targetOfNode? n = some w := by
  have hnode : ∃ n, c.graph.targetOfNode? n = some w := by
    rcases (mem_macroWrappers hg hself).1 hw with rfl | ⟨-, ⟨-, n, -, hn, -⟩, -⟩
    · exact ⟨_, hself⟩
    · exact ⟨n, hn⟩
  obtain ⟨n, hn⟩ := hnode
  exact ⟨n, Graph.consumerOf?_of_node hg.sound.1 hn, hn⟩

theorem mem_builtSpecifiers : s ∈ c.builtSpecifiers ↔ ∃ w ∈ c.macroWrappers, ∃ m,
    c.graph.Requires w m ∧ m.product = .compilerMacro ∧
      s = Plugin.ofProduct m.target.productName := by
  simp only [builtSpecifiers, List.mem_map, List.mem_flatMap, List.mem_filterMap]
  constructor
  · rintro ⟨m, ⟨i, ⟨w, hw, hi⟩, hm⟩, rfl⟩
    obtain ⟨n, hc, hn⟩ := consumerOf?_macroWrapper hg hself hw
    rw [hc] at hi
    cases hi
    obtain ⟨hrequires, hmacro⟩ := (mem_macroTargets (c := ⟨c.graph, n, w⟩) hg hn).1 hm
    exact ⟨w, hw, m, hrequires, hmacro, rfl⟩
  · rintro ⟨w, hw, m, hrequires, hmacro, rfl⟩
    obtain ⟨n, hc, hn⟩ := consumerOf?_macroWrapper hg hself hw
    refine ⟨m, ⟨_, ⟨w, hw, hc⟩, ?_⟩, rfl⟩
    exact (mem_macroTargets (c := ⟨c.graph, n, w⟩) hg hn).2 ⟨hrequires, hmacro⟩

end

end

end Consumer

/-! ## All plugins -/

def Product.wrapsMacros (p : Product) : Prop :=
  p = .framework ∨ p = .staticFramework ∨ p = .staticLibrary ∨ p = .dynamicLibrary

theorem Product.mem_wrapperProducts {p : Product} :
    p ∈ Consumer.wrapperProducts ↔ p.wrapsMacros := by
  cases p <;> simp [Consumer.wrapperProducts, wrapsMacros]

/-- The specifiers of the macros that the target at the node compiles against. -/
inductive Graph.Specifies (g : Graph) (node : Nat) (t : ProjectTarget) : String → Prop where
  | executable {n : Nat} {path : Path} (key : g.wiring.key? n = some (.macroExecutable path))
      (first : g.wiring.Passes NodeKey.isMacroExecutable node n) :
      Specifies g node t (Plugin.ofExecutable path)
  | direct {m : ProjectTarget} (requires : g.Requires t m) (isMacro : m.product = .compilerMacro) :
      Specifies g node t (Plugin.ofProduct m.target.productName)
  | wrapped {w m : ProjectTarget} (reached : g.Reaches t w) (wraps : w.product.wrapsMacros)
      (requires : g.Requires w m) (isMacro : m.product = .compilerMacro) :
      Specifies g node t (Plugin.ofProduct m.target.productName)

theorem Consumer.mem_plugins_iff {c : Consumer} (hg : c.graph.IsBuilt)
    (hself : c.graph.targetOfNode? c.node = some c.target) {s : String} :
    s ∈ c.plugins ↔ c.graph.Specifies c.node c.target s := by
  rw [mem_plugins, mem_executableSpecifiers hg, mem_builtSpecifiers hg hself]
  constructor
  · rintro (⟨n, path, hn, hpass, rfl⟩ | ⟨w, hw, m, hrequires, hmacro, rfl⟩)
    · exact .executable hn hpass
    · rcases (mem_macroWrappers hg hself).1 hw with rfl | ⟨-, hreach, hwraps⟩
      · exact .direct hrequires hmacro
      · exact .wrapped hreach (Product.mem_wrapperProducts.1 hwraps) hrequires hmacro
  · intro h
    cases h with
    | executable hn hpass => exact .inl ⟨_, _, hn, hpass, rfl⟩
    | direct hrequires hmacro =>
      exact .inr ⟨_, (mem_macroWrappers hg hself).2 (.inl rfl), _, hrequires, hmacro, rfl⟩
    | @wrapped w m hreach hwraps hrequires hmacro =>
      refine .inr ⟨w, (mem_macroWrappers hg hself).2 ?_, m, hrequires, hmacro, rfl⟩
      by_cases h : w = c.target
      · exact .inl h
      · exact .inr ⟨h, hreach, Product.mem_wrapperProducts.2 hwraps⟩

/-- For each target of a built graph the plugins are in strict order, one for each macro
executable that no other one hides and for each macro target that the target requires itself
or through a library. -/
theorem Graph.IsBuilt.plugins_exactly {g : Graph} (hg : g.IsBuilt) {path : Path} {name : String}
    {t : ProjectTarget} (ht : g.target? path name = some t) :
    ∃ c, g.consumer? path name = some c ∧ c.target = t ∧ IncreasingBy sortKey c.plugins ∧
      ∀ s, s ∈ c.plugins ↔ g.Specifies c.node t s := by
  obtain ⟨n, hc, hn⟩ := hg.exists_consumer ht
  exact ⟨⟨g, n, t⟩, hc, rfl, collectBy_increasing (keepsKey_keepLast sortKey) _,
    fun _ => Consumer.mem_plugins_iff (c := ⟨g, n, t⟩) hg hn⟩

/-! ## A macro of each kind -/

def stringifyProject : Project :=
  let target (name : String) (product : Product) : Target := { name, product }
  ⟨⟨"/w"⟩, "W", .localProject, [target "App" .app, target "Lib" .staticFramework,
    target "StringifyMacros" .compilerMacro]⟩

def stringify : Draft :=
  let key (name : String) : NodeKey := .ofTarget ⟨"/w"⟩ name
  let xcframework : NodeKey := .prebuilt
    { path := ⟨"/d/Lib.xcframework"⟩
      binaryPath := ⟨"/d/Lib.xcframework/libLib.a"⟩
      linking := .static
      architectures := .empty
      dsymPath := none
      bcsymbolmapPaths := []
      origin := .xcframework ⟨[]⟩
      status := .required
      mergeable := false }
  .ofCalls ⟨⟨"/w"⟩, "W", []⟩ [
    -- nodes 0 to 4: App, Lib, StringifyMacros, the xcframework, its macro
    .register stringifyProject,
    .declare (key "App") (key "Lib") none,
    .declare (key "Lib") (key "StringifyMacros") (some (.only .macos)),
    .declare (key "App") xcframework none,
    .declare xcframework (.macroExecutable ⟨"/d/Lib.xcframework/Macros/LibMacros.macro"⟩) none]

def stringifyGraph : Graph := ⟨stringify.workspace, stringify.projects, stringify.wiring⟩

theorem isBuilt_stringify : stringifyGraph.IsBuilt :=
  Draft.isBuilt_of_checks (by decide) (by decide) (by decide)

theorem plugins_stringify : let target (name : String) (product : Product) : ProjectTarget :=
      ⟨⟨"/w"⟩, { name, product }, stringifyProject⟩
    stringifyGraph.target? ⟨"/w"⟩ "App" = some (target "App" .app) ∧
      ∃ c, stringifyGraph.consumer? ⟨"/w"⟩ "App" = some c ∧
        Plugin.ofProduct "StringifyMacros" ∈ c.plugins ∧
        Plugin.ofExecutable ⟨"/d/Lib.xcframework/Macros/LibMacros.macro"⟩ ∈ c.plugins := by
  intro target
  have happ : stringifyGraph.target? ⟨"/w"⟩ "App" = some (target "App" .app) := by decide +kernel
  obtain ⟨c, hc, -, -, hplugins⟩ := isBuilt_stringify.plugins_exactly happ
  have hnode : c.node = 0 := by
    have hfound : (stringifyGraph.consumer? ⟨"/w"⟩ "App").map (·.node) = some 0 := by decide +kernel
    rw [hc] at hfound
    exact Option.some.inj hfound
  refine ⟨happ, c, hc, (hplugins _).2 ?_, (hplugins _).2 ?_⟩
  · have hreach : stringifyGraph.Reaches (target "App" .app) (target "Lib" .staticFramework) :=
      ⟨0, 1, by decide +kernel, by decide +kernel, .of_successor (by decide)⟩
    have hrequires : stringifyGraph.Requires (target "Lib" .staticFramework)
        (target "StringifyMacros" .compilerMacro) :=
      ⟨⟨1, 2, some (.only .macos)⟩, by decide, by decide +kernel, by decide +kernel⟩
    exact @Graph.Specifies.wrapped _ _ _ _ (target "StringifyMacros" .compilerMacro) hreach
      (.inr (.inl rfl)) hrequires rfl
  · rw [hnode]
    refine .executable (n := 4) (by decide) ⟨[⟨0, 3, none⟩, ⟨3, 4, none⟩], by simp, ?_, by decide⟩
    exact ⟨by decide, rfl, by decide, rfl, rfl⟩

end BuildGraph
