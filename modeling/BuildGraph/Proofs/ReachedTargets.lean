import BuildGraph.Consumer.Tests
import BuildGraph.Proofs.BuildOrder
import BuildGraph.Proofs.RegisteredTargets

/-!
# Reached targets

All nodes on the way to a target are targets, so the walk that stays on targets misses
none of them, and without cycles it does not come back to its start. What a target reaches
is then what it requires directly, with what these reach, and a need that one of them has
is a need of the target itself.
-/

namespace BuildGraph

namespace Graph

def Reaches (g : Graph) (t d : ProjectTarget) : Prop :=
  ∃ n m, g.targetOfNode? n = some t ∧ g.targetOfNode? m = some d ∧ g.wiring.Reaches n m

def reachedFrom (g : Graph) (t : ProjectTarget) : List ProjectTarget :=
  (g.consumerOf? t).elim [] Consumer.reachedTargets

def usesXctest (g : Graph) (t : ProjectTarget) : Bool :=
  (g.consumerOf? t).any Consumer.usesXctest

def needsTestingSearchPaths (g : Graph) (t : ProjectTarget) : Bool :=
  (g.consumerOf? t).any Consumer.needsTestingSearchPaths

end Graph

/-! ## Nodes on the way to a target -/

theorem Wiring.reflTransGen_next_iff {w : Wiring} {a b : Nat} :
    Relation.ReflTransGen w.Next a b ↔ w.Reaches a b := by
  rw [Relation.reflTransGen_iff_eq_or_transGen, transGen_next_iff]
  constructor
  · rintro (rfl | ⟨es, -, hes⟩)
    · exact ⟨[], rfl⟩
    · exact ⟨es, hes⟩
  · rintro ⟨es, hes⟩
    by_cases h : es = []
    · subst h
      exact .inl (show a = b from hes).symm
    · exact .inr ⟨es, h, hes⟩

namespace Graph

section
variable {g : Graph} {t d : ProjectTarget} {a b : Nat}

theorem IsBuilt.isTarget_of_reaches (hg : g.IsBuilt) (h : g.wiring.Reaches a b)
    (hb : g.wiring.holds NodeKey.isTarget b = true) :
    g.wiring.holds NodeKey.isTarget a = true := by
  obtain ⟨es, hes⟩ := h
  cases es with
  | nil => exact (show a = b from hes) ▸ hb
  | cons e es => exact hes.2.1 ▸ hg.isTarget_route hes hb e List.mem_cons_self

theorem holds_not_isTarget (h : g.wiring.holds NodeKey.isTarget a = true) :
    g.wiring.holds (fun key => !key.isTarget) a = false := by
  obtain ⟨key, hkey, htarget⟩ := Wiring.holds_iff.1 h
  rw [holds_of_key? hkey, htarget]
  rfl

/-- The walk that stays on targets meets a target wherever a route leads to it. -/
theorem IsBuilt.passes_targets (hg : g.IsBuilt) (hb : g.wiring.holds NodeKey.isTarget b = true) :
    g.wiring.Passes (fun key => !key.isTarget) a b ↔ Relation.TransGen g.wiring.Next a b := by
  rw [Wiring.transGen_next_iff]
  constructor
  · rintro ⟨es, hne, hes, -⟩
    exact ⟨es, hne, hes⟩
  · rintro ⟨es, hne, hes⟩
    refine ⟨es, hne, hes, fun e he => ?_⟩
    exact holds_not_isTarget (hg.isTarget_route hes hb e (List.mem_of_mem_tail he))

theorem reaches_iff (hw : g.wiring.WellFormed) (ha : g.targetOfNode? a = some t) :
    g.Reaches t d ↔ ∃ n, g.targetOfNode? n = some d ∧ g.wiring.Reaches a n := by
  constructor
  · rintro ⟨n, m, hn, hm, hreach⟩
    rw [node_eq_of_sortKey hw ha hn rfl]
    exact ⟨m, hm, hreach⟩
  · rintro ⟨n, hn, hreach⟩
    exact ⟨a, n, ha, hn, hreach⟩

theorem Reaches.trans {u : ProjectTarget} (hw : g.wiring.WellFormed) (h : g.Reaches t d)
    (h' : g.Reaches d u) : g.Reaches t u := by
  obtain ⟨n, m, hn, hm, hreach⟩ := h
  obtain ⟨k, hk, hreach'⟩ := (reaches_iff hw hm).1 h'
  exact ⟨n, k, hn, hk, hreach.trans hreach'⟩

theorem IsBuilt.transGen_iff (hg : g.IsBuilt) (ha : g.targetOfNode? a = some t) :
    (∃ n, g.targetOfNode? n = some d ∧ Relation.TransGen g.wiring.Next a n) ↔
      d ≠ t ∧ g.Reaches t d := by
  obtain ⟨hw, hac⟩ := hg.sound
  rw [reaches_iff hw ha]
  constructor
  · rintro ⟨n, hn, h⟩
    refine ⟨?_, n, hn, Wiring.reflTransGen_next_iff.1 h.to_reflTransGen⟩
    rintro rfl
    rw [node_eq_of_sortKey hw hn ha rfl] at h
    exact Wiring.acyclic_iff.1 hac a h
  · rintro ⟨hne, n, hn, hreach⟩
    refine ⟨n, hn, ?_⟩
    rcases Relation.reflTransGen_iff_eq_or_transGen.1 (Wiring.reflTransGen_next_iff.2 hreach) with rfl | h
    · rw [hn] at ha
      exact absurd (Option.some.inj ha) hne
    · exact h

end

end Graph

/-! ## All dependencies -/

namespace Consumer

section
variable {c : Consumer} {d : ProjectTarget}

theorem mem_reachedTargets (hg : c.graph.IsBuilt) : d ∈ c.reachedTargets ↔
    ∃ n, c.graph.targetOfNode? n = some d ∧ Relation.TransGen c.graph.wiring.Next c.node n := by
  unfold reachedTargets
  rw [mem_collectBy_keepLast_of_inj, List.mem_filterMap]
  · refine exists_congr fun n => ?_
    rw [mem_select hg, and_comm]
    refine and_congr_right fun hn => ?_
    have htarget := Graph.holds_isTarget hn
    rw [and_iff_right htarget, hg.passes_targets htarget]
  · intro x hx y hy hxy
    obtain ⟨n, -, hn⟩ := List.mem_filterMap.1 hx
    obtain ⟨m, -, hm⟩ := List.mem_filterMap.1 hy
    exact Graph.eq_of_sortKey (Graph.targetOfNode?_eq_some hn).2
      (Graph.targetOfNode?_eq_some hm).2 hxy

theorem reachedTargets_increasing : IncreasingBy sortKey c.reachedTargets :=
  collectBy_increasing (keepsKey_keepLast sortKey) _

end

end Consumer

namespace Graph

section
variable {g : Graph} {t d u : ProjectTarget} {n : Nat}

theorem mem_reachedFrom (hg : g.IsBuilt) (hn : g.targetOfNode? n = some t) :
    d ∈ g.reachedFrom t ↔
      ∃ m, g.targetOfNode? m = some d ∧ Relation.TransGen g.wiring.Next n m := by
  rw [reachedFrom, consumerOf?_of_node hg.sound.1 hn]
  exact Consumer.mem_reachedTargets (c := ⟨g, n, t⟩) hg

theorem requires_iff (hw : g.wiring.WellFormed) (hn : g.targetOfNode? n = some t) :
    g.Requires t d ↔ ∃ m, g.wiring.Next n m ∧ g.targetOfNode? m = some d := by
  constructor
  · rintro ⟨e, he, hs, hd⟩
    have hsource : e.source = n := node_eq_of_sortKey hw hs hn rfl
    exact ⟨e.target, Wiring.mem_successors.2 ⟨e, he, hsource, rfl⟩, hd⟩
  · rintro ⟨m, hm, hd⟩
    obtain ⟨e, he, rfl, rfl⟩ := Wiring.mem_successors.1 hm
    exact ⟨e, he, hn, hd⟩

theorem mem_reachedFrom_iff (hg : g.IsBuilt) (hn : g.targetOfNode? n = some t) :
    d ∈ g.reachedFrom t ↔ ∃ u, g.Requires t u ∧ (d = u ∨ d ∈ g.reachedFrom u) := by
  have hw := hg.sound.1
  rw [mem_reachedFrom hg hn]
  constructor
  · rintro ⟨m, hm, h⟩
    obtain ⟨k, hk, hbelow⟩ := Relation.TransGen.head'_iff.1 h
    obtain ⟨u, hu⟩ := hg.exists_target
      (hg.isTarget_of_reaches (Wiring.reflTransGen_next_iff.1 hbelow) (holds_isTarget hm))
    refine ⟨u, (requires_iff hw hn).2 ⟨k, hk, hu⟩, ?_⟩
    rcases Relation.reflTransGen_iff_eq_or_transGen.1 hbelow with rfl | hbelow
    · rw [hm] at hu
      exact .inl (Option.some.inj hu)
    · exact .inr ((mem_reachedFrom hg hu).2 ⟨m, hm, hbelow⟩)
  · rintro ⟨u, hrequires, hd⟩
    obtain ⟨k, hk, hu⟩ := (requires_iff hw hn).1 hrequires
    rcases hd with rfl | hd
    · exact ⟨k, hu, .single hk⟩
    · obtain ⟨m, hm, h⟩ := (mem_reachedFrom hg hu).1 hd
      exact ⟨m, hm, .head hk h⟩

theorem target?_of_mem_reachedFrom (hg : g.IsBuilt) (hn : g.targetOfNode? n = some t)
    (hd : d ∈ g.reachedFrom t) : g.target? d.path d.name = some d := by
  obtain ⟨m, hm, -⟩ := (mem_reachedFrom hg hn).1 hd
  exact (targetOfNode?_eq_some hm).2

/-- What a target reaches, put together from what its direct dependencies reach. -/
theorem reachedFrom_eq (hg : g.IsBuilt) (hn : g.targetOfNode? n = some t) :
    g.reachedFrom t = collectBy sortKey keepLast
      ((g.successorTargets t).flatMap fun u => u :: g.reachedFrom u) := by
  have ht : t ∈ g.targets := mem_targets_self.2 (targetOfNode?_eq_some hn).2
  have hmem : ∀ d, d ∈ (g.successorTargets t).flatMap (fun u => u :: g.reachedFrom u) ↔
      d ∈ g.reachedFrom t := by
    intro d
    rw [mem_reachedFrom_iff hg hn]
    simp only [List.mem_flatMap, List.mem_cons, mem_successorTargets hg.sound.1 ht]
  have hincreasing : IncreasingBy sortKey (g.reachedFrom t) := by
    rw [reachedFrom, consumerOf?_of_node hg.sound.1 hn]
    exact Consumer.reachedTargets_increasing
  refine hincreasing.eq_of_mem_iff (collectBy_increasing (keepsKey_keepLast sortKey) _) fun d => ?_
  rw [mem_collectBy_keepLast_of_inj, hmem]
  intro x hx y hy hxy
  exact eq_of_sortKey (target?_of_mem_reachedFrom hg hn ((hmem x).1 hx))
    (target?_of_mem_reachedFrom hg hn ((hmem y).1 hy)) hxy

/-! ## Needs of the targets below -/

theorem needsTestingSearchPaths_iff (hg : g.IsBuilt) (hn : g.targetOfNode? n = some t) :
    g.needsTestingSearchPaths t = true ↔ ∃ d, g.Reaches t d ∧ g.usesXctest d = true := by
  have hself := consumerOf?_of_node hg.sound.1 hn
  have hmem (d : ProjectTarget) : d ∈ (Consumer.mk g n t).reachedTargets ↔ d ≠ t ∧ g.Reaches t d :=
    (Consumer.mem_reachedTargets (c := ⟨g, n, t⟩) hg).trans (hg.transGen_iff hn)
  have huses : g.usesXctest t = (Consumer.mk g n t).usesXctest := by
    rw [usesXctest, hself, Option.any_some]
  rw [needsTestingSearchPaths, hself, Option.any_some, Consumer.needsTestingSearchPaths,
    Bool.or_eq_true, List.any_eq_true]
  simp only [hmem, ← huses]
  constructor
  · rintro (h | ⟨d, ⟨-, hd⟩, h⟩)
    · exact ⟨t, ⟨n, n, hn, hn, [], rfl⟩, h⟩
    · exact ⟨d, hd, h⟩
  · rintro ⟨d, hd, h⟩
    by_cases heq : d = t
    · exact .inl (heq ▸ h)
    · exact .inr ⟨d, ⟨heq, hd⟩, h⟩

theorem needsTestingSearchPaths_of_reaches (hg : g.IsBuilt) (h : g.Reaches t d)
    (hd : g.needsTestingSearchPaths d = true) : g.needsTestingSearchPaths t = true := by
  obtain ⟨n, m, hn, hm, -⟩ := id h
  obtain ⟨u, hu, huses⟩ := (needsTestingSearchPaths_iff hg hm).1 hd
  exact (needsTestingSearchPaths_iff hg hn).2 ⟨u, h.trans hg.sound.1 hu, huses⟩

end

structure AnswersBelow (g : Graph) (c : Consumer) : Prop where
  increasing : IncreasingBy sortKey c.reachedTargets
  reached : ∀ d, d ∈ c.reachedTargets ↔ d ≠ c.target ∧ g.Reaches c.target d
  direct : ∀ d, d ∈ g.successorTargets c.target ↔ g.Requires c.target d
  union : c.reachedTargets = collectBy sortKey keepLast
    ((g.successorTargets c.target).flatMap fun d => d :: g.reachedFrom d)
  needs : c.needsTestingSearchPaths = true ↔
    ∃ d, g.Reaches c.target d ∧ g.usesXctest d = true
  inherits : ∀ d, g.Reaches c.target d → g.needsTestingSearchPaths d = true →
    c.needsTestingSearchPaths = true

/-- For each target of a built graph, all targets below it are listed in strict order, which
are those that it requires and those below these; and the target needs the search paths of
the test framework exactly if it or a target below it uses that framework. -/
theorem IsBuilt.answers_below {g : Graph} (hg : g.IsBuilt) {path : Path} {name : String}
    {t : ProjectTarget} (ht : g.target? path name = some t) :
    ∃ c, g.consumer? path name = some c ∧ c.target = t ∧ g.AnswersBelow c := by
  obtain ⟨n, hc, hn⟩ := hg.exists_consumer ht
  have hself := consumerOf?_of_node hg.sound.1 hn
  have hreached : g.reachedFrom t = (Consumer.mk g n t).reachedTargets := by
    rw [reachedFrom, hself]
    rfl
  have hneeds : g.needsTestingSearchPaths t = (Consumer.mk g n t).needsTestingSearchPaths := by
    rw [needsTestingSearchPaths, hself, Option.any_some]
  refine ⟨⟨g, n, t⟩, hc, rfl, Consumer.reachedTargets_increasing, fun d => ?_, fun d => ?_, ?_, ?_,
    fun d hd hneed => ?_⟩
  · exact (Consumer.mem_reachedTargets (c := ⟨g, n, t⟩) hg).trans (hg.transGen_iff hn)
  · exact mem_successorTargets hg.sound.1 (mem_targets_self.2 (targetOfNode?_eq_some hn).2)
  · exact hreached ▸ reachedFrom_eq hg hn
  · exact hneeds ▸ needsTestingSearchPaths_iff hg hn
  · exact hneeds ▸ needsTestingSearchPaths_of_reaches hg hd hneed

end Graph

/-! ## A kit for tests below two layers -/

def layeredProject : Project :=
  let target (name : String) (product : Product) : Target := { name, product }
  ⟨⟨"/w"⟩, "W", .localProject, [target "App" .app, target "Feature" .framework,
    target "Core" .framework, target "TestKit" .framework]⟩

def layered : Draft :=
  let key (name : String) : NodeKey := .ofTarget ⟨"/w"⟩ name
  .ofCalls ⟨⟨"/w"⟩, "W", []⟩ [
    -- nodes 0 to 3: App, Feature, Core, TestKit
    .register layeredProject,
    .declare (key "App") (key "Feature") none,
    .declare (key "App") (key "Core") (some (.only .ios)),
    .declare (key "Feature") (key "TestKit") none,
    .declare (key "Core") (key "TestKit") (some (.only .macos)),
    .declare (key "TestKit") (.sdk SystemSdk.xctest ⟨"/P/XCTest.framework"⟩ .required .developer)
      none]

def layeredGraph : Graph := ⟨layered.workspace, layered.projects, layered.wiring⟩

theorem isBuilt_layered : layeredGraph.IsBuilt :=
  Draft.isBuilt_of_checks (by decide) (by decide) (by decide)

theorem answers_below_layered : let target (name : String) (product : Product) : ProjectTarget :=
      ⟨⟨"/w"⟩, { name, product }, layeredProject⟩
    layeredGraph.target? ⟨"/w"⟩ "App" = some (target "App" .app) ∧
      (∃ c, layeredGraph.consumer? ⟨"/w"⟩ "App" = some c ∧
        target "TestKit" .framework ∈ c.reachedTargets ∧ c.needsTestingSearchPaths = true) ∧
      ∃ c, layeredGraph.consumer? ⟨"/w"⟩ "Core" = some c ∧ c.needsTestingSearchPaths = true := by
  intro target
  have happ : layeredGraph.target? ⟨"/w"⟩ "App" = some (target "App" .app) := by decide +kernel
  have hcore : layeredGraph.target? ⟨"/w"⟩ "Core" = some (target "Core" .framework) := by
    decide +kernel
  have hkit : layeredGraph.usesXctest (target "TestKit" .framework) = true := by decide +kernel
  have hbelow : layeredGraph.Reaches (target "Core" .framework) (target "TestKit" .framework) :=
    ⟨2, 3, by decide +kernel, by decide +kernel, .of_successor (by decide)⟩
  have hreach : layeredGraph.Reaches (target "App" .app) (target "TestKit" .framework) :=
    ⟨0, 3, by decide +kernel, by decide +kernel,
      .trans (.of_successor (by decide : 2 ∈ _)) (.of_successor (by decide))⟩
  obtain ⟨c, hc, hct, hanswers⟩ := isBuilt_layered.answers_below happ
  obtain ⟨d, hd, hdt, hdanswers⟩ := isBuilt_layered.answers_below hcore
  rw [← hct] at hreach
  rw [← hdt] at hbelow
  refine ⟨happ, ⟨c, hc, (hanswers.reached _).2 ⟨?_, hreach⟩, hanswers.needs.2 ⟨_, hreach, hkit⟩⟩,
    d, hd, hdanswers.needs.2 ⟨_, hbelow, hkit⟩⟩
  rw [hct]
  decide

end BuildGraph
