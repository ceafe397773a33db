import BuildGraph.Proofs.Agreement
import BuildGraph.Proofs.DepthFaults
import BuildGraph.Proofs.Lockstep

/-!
# Checks on drafts that agree

Two drafts agree if they have the same projects and their wirings agree. Checks that go by
keys pick the same offender in both; the check of the depth goes by the numbers of nodes,
so it may name another node at fault in the same way.
-/

namespace BuildGraph

namespace Wiring

/-- One key, as each of the wirings spells it. -/
structure Spells (w v : Wiring) (k l : NodeKey) : Prop where
  left : k ∈ w.keys
  right : l ∈ v.keys
  same : sortKey k = sortKey l

section
variable {w v : Wiring} {a a' : Nat} {k l : NodeKey}

/-! ## Keys and edges -/

theorem Spells.ids {i j : TargetId} (h : w.Spells v (.target i) (.target j)) :
    sortKey i.projectPath = sortKey j.projectPath ∧ i.name = j.name := by
  cases NodeKey.alike_of_sortKey h.same with
  | target hpath hname => exact ⟨hpath, hname⟩

theorem Spells.target? (h : w.Spells v k l) :
    Option.Rel (fun i j => w.Spells v (.target i) (.target j)) k.target? l.target? := by
  have hkl := NodeKey.alike_of_sortKey h.same
  cases hkl with
  | target => exact .some h
  | _ => exact .none

theorem Matches.keys (h : w.Matches v a a') : Option.Rel (w.Spells v) (w.key? a) (v.key? a') := by
  obtain ⟨k, l, hk, hl, hkl⟩ := matches_iff_keys.1 h
  rw [hk, hl]
  exact .some ⟨mem_keys_of_key? hk, mem_keys_of_key? hl, hkl⟩

section
variable (h : w.Agree v)
include h

theorem Agree.sortedKeys : List.Forall₂ (w.Spells v) (sorted w.keys) (sorted v.keys) := by
  refine Paired.forall₂ (sortBy_increasing h.wellFormed.distinct)
    (sortBy_increasing h.wellFormed'.distinct) (fun _ _ hkl => hkl.same) ⟨fun k hk => ?_, fun l hl => ?_⟩
  · have hk := mem_sorted.1 hk
    obtain ⟨l, hl, hkl⟩ := List.mem_map.1 ((h.keys _).1 (List.mem_map_of_mem hk))
    exact ⟨l, mem_sorted.2 hl, hk, hl, hkl.symm⟩
  · have hl := mem_sorted.1 hl
    obtain ⟨k, hk, hkl⟩ := List.mem_map.1 ((h.keys _).2 (List.mem_map_of_mem hl))
    exact ⟨k, mem_sorted.2 hk, hk, hl, hkl⟩

theorem Agree.exists_key {m : Nat} (hm : v.key? m = some l) :
    ∃ n k, w.key? n = some k ∧ w.Matches v n m ∧ w.Spells v k l := by
  obtain ⟨n, hmn⟩ := h.symm.exists_match (lt_size_of_key? hm)
  obtain ⟨l', k, hl', hk, hkl⟩ := matches_iff_keys.1 hmn
  obtain rfl := Option.some.inj (hm.symm.trans hl')
  exact ⟨n, k, hk, hmn.symm, mem_keys_of_key? hk, mem_keys_of_key? hm, hkl.symm⟩

theorem Agree.edgeKeys : Paired (fun x y => w.Spells v x.1 y.1 ∧ w.Spells v x.2 y.2)
    w.edgeKeys v.edgeKeys := by
  have hedges : Paired (EdgesMatch w v) w.edges v.edges := by
    refine .of_halves (S := EdgesMatch v w) (fun e d hed => ?_) (fun e he => h.edge he)
      fun d hd => h.symm.edge hd
    exact ⟨hed.source.symm, hed.target.symm, hed.condition.symm⟩
  unfold Wiring.edgeKeys
  refine hedges.filterMap fun e d hed => ?_
  have hsource := hed.source.keys
  have htarget := hed.target.keys
  generalize w.key? e.source = x at hsource
  generalize v.key? d.source = x' at hsource
  generalize w.key? e.target = y at htarget
  generalize v.key? d.target = y' at htarget
  cases hsource with
  | none => exact .none
  | some hk =>
    cases htarget with
    | none => exact .none
    | some hl => exact .some ⟨hk, hl⟩

theorem Agree.head?_edgeKeys {p : NodeKey × NodeKey → Bool}
    (hp : ∀ x y, w.Spells v x.1 y.1 → w.Spells v x.2 y.2 → p x = p y) :
    Option.Rel (fun x y => w.Spells v x.1 y.1 ∧ w.Spells v x.2 y.2)
      (sorted (w.edgeKeys.filter p)).head? (sorted (v.edgeKeys.filter p)).head? := by
  have hpaired := h.edgeKeys.filter fun x y hxy => hp x y hxy.1 hxy.2
  have hhead := head?_sorted (hpaired.mem_map_iff fun x y hxy => by
    show SortKey.ofList [sortKey x.1, sortKey x.2] = SortKey.ofList [sortKey y.1, sortKey y.2]
    rw [hxy.1.same, hxy.2.same])
  refine rel_of_rel hhead fun x y _ _ hxy => ?_
  obtain ⟨hx, hy, hsame⟩ := hxy
  have hsame : SortKey.ofList [sortKey x.1, sortKey x.2] =
    SortKey.ofList [sortKey y.1, sortKey y.2] := hsame
  simp only [SortKey.ofList_inj, List.cons.injEq, and_true] at hsame
  obtain ⟨e, -, hsource, htarget⟩ := Draft.mem_edgeKeys.1 (List.mem_of_mem_filter hx)
  obtain ⟨f, -, hsource', htarget'⟩ := Draft.mem_edgeKeys.1 (List.mem_of_mem_filter hy)
  exact ⟨⟨mem_keys_of_key? hsource, mem_keys_of_key? hsource', hsame.1⟩,
    mem_keys_of_key? htarget, mem_keys_of_key? htarget', hsame.2⟩

/-! ## Nodes in key order -/

omit h in
theorem sortNodes_increasing (hw : w.WellFormed) {ns : List Nat} (hn : ns.Nodup)
    (hkeys : ∀ n ∈ ns, ∃ k, w.sortKey? n = some k) :
    IncreasingBy (fun n => sortKey (w.key? n)) (w.sortNodes ns) := by
  refine sortBy_increasing (hn.map_on fun n hn m hm hnm => ?_)
  have hnm : SortKey.ofOption (w.sortKey? n) = SortKey.ofOption (w.sortKey? m) := hnm
  obtain ⟨k, hk⟩ := hkeys n hn
  exact hw.node_eq hk (SortKey.ofOption_inj.1 hnm ▸ hk)

omit h in
theorem WellFormed.successors_nodup (hw : w.WellFormed) (n : Nat) : (w.successors n).Nodup := by
  have hedges : (w.edges.filter (·.source == n)).Nodup := hw.single.of_map.filter _
  refine List.nodup_reverse.2 (hedges.map_on fun e he d hd hed => ?_)
  rw [List.mem_filter, beq_iff_eq] at he hd
  exact List.inj_on_of_nodup_map hw.single he.1 hd.1 (by simp [he.2, hd.2, hed])

theorem Agree.sortNodes {ns ms : List Nat} (hns : w.NodesMatch v ns ms) (hn : ns.Nodup)
    (hm : ms.Nodup) : List.Forall₂ (w.Matches v) (w.sortNodes ns) (v.sortNodes ms) := by
  have hleft : ∀ n ∈ ns, ∃ k, w.sortKey? n = some k := fun n hn => by
    obtain ⟨_, -, k, hk, -⟩ := hns.forth n hn
    exact ⟨k, hk⟩
  have hright : ∀ m ∈ ms, ∃ k, v.sortKey? m = some k := fun m hm => by
    obtain ⟨_, -, k, -, hk⟩ := hns.back m hm
    exact ⟨k, hk⟩
  refine Paired.forall₂ (sortNodes_increasing h.wellFormed hn hleft)
    (sortNodes_increasing h.wellFormed' hm hright) ?_
    ((hns.perm_left (sortBy_perm _ ns)).perm_right (sortBy_perm _ ms))
  intro n m hnm
  obtain ⟨k, hk, hk'⟩ := hnm
  show SortKey.ofOption (w.sortKey? n) = SortKey.ofOption (v.sortKey? m)
  rw [hk, hk']

theorem Agree.targetNodes :
    List.Forall₂ (w.Matches v) (w.sortNodes w.targetNodes) (v.sortNodes v.targetNodes) := by
  refine h.sortNodes ?_ (List.nodup_range.filter _) (List.nodup_range.filter _)
  exact h.nodes.filter fun n m hnm => hnm.holds Graph.testsAgree_isTarget

theorem Agree.targetSuccessors (ha : w.Matches v a a') :
    List.Forall₂ (w.Matches v) (w.targetSuccessors a) (v.targetSuccessors a') := by
  refine h.sortNodes ((h.successors ha).filter fun n m hnm => hnm.holds Graph.testsAgree_isTarget) ?_ ?_
  · exact (h.wellFormed.successors_nodup a).filter _
  · exact (h.wellFormed'.successors_nodup a').filter _

/-! ## Cycles -/

theorem Agree.searchCycle {r : CycleSearch Nat}
    (hr : searchCycle (· == ·) w.targetSuccessors (w.sortNodes w.targetNodes) = some r) :
    ∃ s, searchCycle (· == ·) v.targetSuccessors (v.sortNodes v.targetNodes) = some s ∧
      CycleSearch.FoundMatch (w.Matches v) r s := by
  refine CycleSearch.searchCycle_match (fun a b a' b' ha hb => ?_)
    (fun a a' ha => h.targetSuccessors ha) h.targetNodes hr
  rw [Bool.eq_iff_iff, beq_iff_eq, beq_iff_eq]
  exact ⟨fun hab => h.right_unique ha (hab ▸ hb), fun hab => h.left_unique ha (hab ▸ hb)⟩

theorem Agree.targetCycle? :
    Option.Rel (List.Forall₂ fun i j => w.Spells v (.target i) (.target j)) w.targetCycle?
      v.targetCycle? := by
  unfold Wiring.targetCycle?
  cases hr : BuildGraph.searchCycle (· == ·) w.targetSuccessors (w.sortNodes w.targetNodes) with
  | none =>
    cases hs : BuildGraph.searchCycle (· == ·) v.targetSuccessors (v.sortNodes v.targetNodes) with
    | none => exact .none
    | some s =>
      obtain ⟨r, hr', -⟩ := h.symm.searchCycle hs
      rw [hr] at hr'
      cases hr'
  | some r =>
    obtain ⟨s, hs, hcycle, -⟩ := h.searchCycle hr
    rw [hs]
    simp only [Option.bind_some]
    generalize r.cycle? = x at hcycle
    generalize s.cycle? = y at hcycle
    cases hcycle with
    | none => exact .none
    | some hnodes =>
      refine .some (List.rel_filterMap (fun n m hnm => ?_) hnodes)
      have hkeys := hnm.keys
      generalize w.key? n = k at hkeys
      generalize v.key? m = l at hkeys
      cases hkeys with
      | none => exact .none
      | some hkl => exact hkl.target?

theorem Agree.transGen {b b' : Nat} (ha : w.Matches v a a') (hb : w.Matches v b b')
    (hab : Relation.TransGen w.Next a b) : Relation.TransGen v.Next a' b' := by
  obtain ⟨es, hne, hes⟩ := transGen_next_iff.1 hab
  obtain ⟨fs, c, hfs, hc, hall⟩ := h.route hes ha
  refine transGen_next_iff.2 ⟨fs, ?_, h.right_unique hc hb ▸ hfs⟩
  rintro rfl
  cases hall
  exact hne rfl

theorem Agree.acyclic (hac : w.Acyclic) : v.Acyclic := by
  rw [acyclic_iff] at hac ⊢
  intro b hb
  obtain ⟨es, hne, hes⟩ := transGen_next_iff.1 hb
  have hlt := hes.lt_size h.wellFormed' (List.length_pos_iff.2 hne)
  obtain ⟨a, hba⟩ := h.symm.exists_match hlt
  exact hac a (h.symm.transGen hba hba hb)

theorem Agree.isLongest {n : Nat} (ha : w.Matches v a a') (hn : w.IsLongest a n) :
    v.IsLongest a' n := by
  obtain ⟨⟨es, b, hes, rfl⟩, hall⟩ := hn
  refine ⟨?_, fun fs c hfs => ?_⟩
  · obtain ⟨fs, c, hfs, -, hmatch⟩ := h.route hes ha
    exact ⟨fs, c, hfs, hmatch.length_eq.symm⟩
  · obtain ⟨gs, d, hgs, -, hmatch⟩ := h.symm.route hfs ha.symm
    exact hmatch.length_eq ▸ hall gs d hgs

end

end

end Wiring

namespace Draft

structure Agree (d d' : Draft) : Prop where
  workspace : d.workspace = d'.workspace
  projects : d.projects = d'.projects
  wiring : d.wiring.Agree d'.wiring
  maxDepth : d.maxDepth = d'.maxDepth

/-- Faults that are the same up to the spelling of keys, and up to the choice of the node
that a depth fault names. -/
inductive FaultsMatch (d d' : Draft) : Fault → Fault → Prop where
  | unknownProject {i j : TargetId} (h : d.wiring.Spells d'.wiring (.target i) (.target j)) :
      FaultsMatch d d' (.unknownProject i.projectPath) (.unknownProject j.projectPath)
  | unknownTarget {i j : TargetId} (h : d.wiring.Spells d'.wiring (.target i) (.target j)) :
      FaultsMatch d d' (.unknownTarget i.name i.projectPath) (.unknownTarget j.name j.projectPath)
  | artifactDependsOnTarget {a a' b b' : NodeKey} (ha : d.wiring.Spells d'.wiring a a')
      (hb : d.wiring.Spells d'.wiring b b') :
      FaultsMatch d d' (.unsupported (.artifactDependsOnTarget a b))
        (.unsupported (.artifactDependsOnTarget a' b'))
  | targetCycle {cycle cycle' : List TargetId} (h : List.Forall₂
      (fun i j => d.wiring.Spells d'.wiring (.target i) (.target j)) cycle cycle') :
      FaultsMatch d d' (.targetCycle cycle) (.targetCycle cycle')
  | dependencyCycle {k l : NodeKey} (hk : d.OnCycle k) (hl : d'.OnCycle l) :
      FaultsMatch d d' (.unsupported (.dependencyCycle k)) (.unsupported (.dependencyCycle l))
  | chainTooLong {k l : NodeKey} (hk : d.StartsOverlong k) (hl : d'.StartsOverlong l) :
      FaultsMatch d d' (.unsupported (.chainTooLong (d.maxDepth + 1) k d.maxDepth))
        (.unsupported (.chainTooLong (d'.maxDepth + 1) l d'.maxDepth))

section
variable {d d' : Draft} (h : d.Agree d')
include h

/-! ## The checks -/

theorem Agree.checkTarget {i j : TargetId}
    (hij : d.wiring.Spells d'.wiring (.target i) (.target j)) :
    SameOutcome (FaultsMatch d d') Eq (d.projects.checkTarget i) (d'.projects.checkTarget j) := by
  obtain ⟨hpath, hname⟩ := hij.ids
  have hat : d.projects.at? i.projectPath = d'.projects.at? j.projectPath := by
    simp only [ProjectTable.at?, same, hpath, h.projects]
  unfold ProjectTable.checkTarget
  rw [hat]
  cases d'.projects.at? j.projectPath with
  | none => exact .error (.unknownProject hij)
  | some entry =>
    simp only [hname]
    cases entry.project.target? j.name with
    | none => exact .error (hname ▸ .unknownTarget hij)
    | some _ => exact .ok rfl

theorem Agree.checkTargets :
    SameOutcome (FaultsMatch d d') Eq d.checkTargets d'.checkTargets :=
  .forM (List.rel_filterMap (fun _ _ hkl => hkl.target?) h.wiring.sortedKeys)
    fun _ _ hij => h.checkTarget hij

theorem Agree.checkArtifactEdges :
    SameOutcome (FaultsMatch d d') Eq d.checkArtifactEdges d'.checkArtifactEdges := by
  unfold Draft.checkArtifactEdges
  simp only
  generalize hx : (sorted (List.filter _ d.wiring.edgeKeys)).head? = x
  generalize hy : (sorted (List.filter _ d'.wiring.edgeKeys)).head? = y
  have hhead : Option.Rel (fun x y => d.wiring.Spells d'.wiring x.1 y.1 ∧
      d.wiring.Spells d'.wiring x.2 y.2) x y := by
    rw [← hx, ← hy]
    refine h.wiring.head?_edgeKeys fun x y hsource htarget => ?_
    show (!x.1.isTarget && x.2.isTarget) = (!y.1.isTarget && y.2.isTarget)
    rw [Graph.testsAgree_isTarget _ _ hsource.same, Graph.testsAgree_isTarget _ _ htarget.same]
  cases hhead with
  | none => exact .ok rfl
  | some hxy => exact .error (.artifactDependsOnTarget hxy.1 hxy.2)

theorem Agree.checkTargetCycles :
    SameOutcome (FaultsMatch d d') Eq d.checkTargetCycles d'.checkTargetCycles := by
  have hcycle := h.wiring.targetCycle?
  unfold Draft.checkTargetCycles
  generalize d.wiring.targetCycle? = x at hcycle
  generalize d'.wiring.targetCycle? = y at hcycle
  cases hcycle with
  | none => exact .ok rfl
  | some hcycle => exact .error (.targetCycle hcycle)

omit h in
theorem OnCycle.not_acyclic {k : NodeKey} (hk : d.OnCycle k) : ¬ d.wiring.Acyclic := by
  obtain ⟨n, -, hn⟩ := hk
  exact fun hac => Wiring.acyclic_iff.1 hac n hn

theorem Agree.checkDepth_ok (hok : d.checkDepth = .ok ()) {f : Fault} :
    d'.checkDepth ≠ .error f := by
  intro hf
  have hspec := checkDepth_spec h.wiring.wellFormed
  rw [hok] at hspec
  obtain ⟨hac, hshort⟩ := hspec
  rcases checkDepth_names h.wiring.wellFormed' hf with ⟨l, hl, -⟩ | ⟨-, l, ⟨m, hm, hlong⟩, -⟩
  · exact hl.not_acyclic (h.wiring.acyclic hac)
  · obtain ⟨⟨es, b, hes, hlength⟩, -⟩ := hlong
    obtain ⟨n, hmn⟩ := h.wiring.symm.exists_match (Wiring.lt_size_of_key? hm)
    obtain ⟨fs, c, hfs, -, hmatch⟩ := h.wiring.symm.route hes hmn
    have := hshort n fs c hfs
    have := hmatch.length_eq
    have := h.maxDepth
    omega

theorem Agree.symm : d'.Agree d :=
  ⟨h.workspace.symm, h.projects.symm, h.wiring.symm, h.maxDepth.symm⟩

theorem Agree.checkDepth : SameOutcome (FaultsMatch d d') Eq d.checkDepth d'.checkDepth := by
  cases hd : d.checkDepth with
  | ok u =>
    cases hd' : d'.checkDepth with
    | ok u' => exact .ok rfl
    | error f' => exact absurd hd' (h.checkDepth_ok hd)
  | error f =>
    cases hd' : d'.checkDepth with
    | ok u' => exact absurd hd (h.symm.checkDepth_ok hd')
    | error f' =>
      have hnames := checkDepth_names h.wiring.wellFormed hd
      have hnames' := checkDepth_names h.wiring.wellFormed' hd'
      rcases hnames with ⟨k, hk, rfl⟩ | ⟨hac, k, hk, rfl⟩
      · rcases hnames' with ⟨l, hl, rfl⟩ | ⟨hac', -⟩
        · exact .error (.dependencyCycle hk hl)
        · exact absurd (h.wiring.symm.acyclic hac') hk.not_acyclic
      · rcases hnames' with ⟨l, hl, -⟩ | ⟨-, l, hl, rfl⟩
        · exact absurd (h.wiring.acyclic hac) hl.not_acyclic
        · exact .error (.chainTooLong hk hl)

/-- Both drafts are built, or both have faults that match. -/
theorem Agree.build : SameOutcome (FaultsMatch d d')
    (fun g g' => g.workspace = g'.workspace ∧ g.projects = g'.projects ∧
      g.wiring.Agree g'.wiring) d.build d'.build := by
  unfold Draft.build
  refine h.checkTargets.bind fun _ _ _ _ _ => ?_
  refine h.checkArtifactEdges.bind fun _ _ _ _ _ => ?_
  refine h.checkTargetCycles.bind fun _ _ _ _ _ => ?_
  refine h.checkDepth.bind fun _ _ _ _ _ => ?_
  exact .ok ⟨h.workspace, h.projects, h.wiring⟩

/-! ## Equal faults -/

theorem Agree.onCycle {l : NodeKey} (hl : d'.OnCycle l) :
    ∃ k, d.OnCycle k ∧ d.wiring.Spells d'.wiring k l := by
  obtain ⟨m, hm, hcycle⟩ := hl
  obtain ⟨n, k, hn, hnm, hkl⟩ := h.wiring.exists_key hm
  exact ⟨k, ⟨n, hn, h.wiring.symm.transGen hnm.symm hnm.symm hcycle⟩, hkl⟩

theorem Agree.startsOverlong {l : NodeKey} (hl : d'.StartsOverlong l) :
    ∃ k, d.StartsOverlong k ∧ d.wiring.Spells d'.wiring k l := by
  obtain ⟨m, hm, hlong⟩ := hl
  obtain ⟨n, k, hn, hnm, hkl⟩ := h.wiring.exists_key hm
  have hlong := h.wiring.symm.isLongest hnm.symm hlong
  rw [← h.maxDepth] at hlong
  exact ⟨k, ⟨n, hn, hlong⟩, hkl⟩

end

/-- Depth faults that name two different nodes, with as much reason. -/
inductive Rivals (d : Draft) : Fault → Fault → Prop where
  | dependencyCycle {k l : NodeKey} (hne : k ≠ l) (hk : d.OnCycle k) (hl : d.OnCycle l) :
      Rivals d (.unsupported (.dependencyCycle k)) (.unsupported (.dependencyCycle l))
  | chainTooLong {k l : NodeKey} (hne : k ≠ l) (hk : d.StartsOverlong k) (hl : d.StartsOverlong l) :
      Rivals d (.unsupported (.chainTooLong (d.maxDepth + 1) k d.maxDepth))
        (.unsupported (.chainTooLong (d.maxDepth + 1) l d.maxDepth))

theorem FaultsMatch.eq_or_rivals {d d' : Draft} (h : d.Agree d')
    (hspelled : ∀ k l, d.wiring.Spells d'.wiring k l → k = l) {f f' : Fault}
    (hf : FaultsMatch d d' f f') : f = f' ∨ d.Rivals f f' := by
  have hids {i j : TargetId} (hij : d.wiring.Spells d'.wiring (.target i) (.target j)) : i = j :=
    NodeKey.target.inj (hspelled _ _ hij)
  cases hf with
  | unknownProject hij => exact .inl (hids hij ▸ rfl)
  | unknownTarget hij => exact .inl (hids hij ▸ rfl)
  | artifactDependsOnTarget ha hb => exact .inl (by rw [hspelled _ _ ha, hspelled _ _ hb])
  | targetCycle hcycle =>
    exact .inl (congrArg Fault.targetCycle (List.forall₂_eq_eq_eq ▸ hcycle.imp fun _ _ => hids))
  | @dependencyCycle k l hk hl =>
    obtain ⟨l', hl', hsame⟩ := h.onCycle hl
    obtain rfl := hspelled _ _ hsame
    by_cases hkl : k = l'
    · exact .inl (hkl ▸ rfl)
    · exact .inr (.dependencyCycle hkl hk hl')
  | @chainTooLong k l hk hl =>
    obtain ⟨l', hl', hsame⟩ := h.startsOverlong hl
    obtain rfl := hspelled _ _ hsame
    rw [← h.maxDepth]
    by_cases hkl : k = l'
    · exact .inl (hkl ▸ rfl)
    · exact .inr (.chainTooLong hkl hk hl')

end Draft

end BuildGraph
