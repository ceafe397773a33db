import BuildGraph.Proofs.NodeKey
import BuildGraph.Proofs.Paired
import BuildGraph.Proofs.PathCondition
import BuildGraph.Proofs.Reach

/-!
# Wirings that agree

Two wirings agree if they have the same keys and the same dependencies, whatever the
numbers of their nodes. Nodes that stand for one key match. A route on one side has a
route between matching nodes on the other side, under the same conditions. So matching
nodes have the same net conditions and are selected together.
-/

namespace BuildGraph.Wiring

def Matches (w v : Wiring) (n m : Nat) : Prop :=
  ∃ k, w.sortKey? n = some k ∧ v.sortKey? m = some k

structure Agree (w v : Wiring) : Prop where
  wellFormed : w.WellFormed
  wellFormed' : v.WellFormed
  keys : ∀ k, k ∈ w.keys.map sortKey ↔ k ∈ v.keys.map sortKey
  depends : ∀ x k l, w.Depends x k l ↔ v.Depends x k l

abbrev NodesMatch (w v : Wiring) (ns ms : List Nat) : Prop :=
  Paired (w.Matches v) ns ms

section
variable {w v : Wiring} {a a' b b' n m : Nat}

theorem Matches.symm (h : w.Matches v n m) : v.Matches w m n := by
  obtain ⟨k, hn, hm⟩ := h
  exact ⟨k, hm, hn⟩

theorem Agree.symm (h : w.Agree v) : v.Agree w :=
  ⟨h.wellFormed', h.wellFormed, fun k => (h.keys k).symm, fun x k l => (h.depends x k l).symm⟩

/-! ## Matching nodes -/

theorem Agree.exists_match (h : w.Agree v) (hn : n < w.size) : ∃ m, w.Matches v n m := by
  obtain ⟨k, hk⟩ := exists_sortKey? hn
  obtain ⟨m, hm⟩ := mem_sortKeys.1 ((h.keys k).1 (mem_sortKeys.2 ⟨n, hk⟩))
  exact ⟨m, k, hk, hm⟩

theorem Agree.right_unique (h : w.Agree v) (hm : w.Matches v n m) {m' : Nat}
    (hm' : w.Matches v n m') : m = m' := by
  obtain ⟨k, hn, hk⟩ := hm
  obtain ⟨k', hn', hk'⟩ := hm'
  rw [hn] at hn'
  cases hn'
  exact h.wellFormed'.node_eq hk hk'

theorem Agree.left_unique (h : w.Agree v) (hn : w.Matches v n m) {n' : Nat}
    (hn' : w.Matches v n' m) : n = n' :=
  h.symm.right_unique hn.symm hn'.symm

theorem matches_iff_keys : w.Matches v n m ↔ ∃ k l, w.key? n = some k ∧ v.key? m = some l ∧
    sortKey k = sortKey l := by
  simp only [Matches, sortKey?_eq_some]
  constructor
  · rintro ⟨_, ⟨k, hk, rfl⟩, l, hl, hkl⟩
    exact ⟨k, l, hk, hl, hkl.symm⟩
  · rintro ⟨k, l, hk, hl, hkl⟩
    exact ⟨_, ⟨k, hk, rfl⟩, l, hl, hkl.symm⟩

theorem Agree.node? (h : w.Agree v) {k l : NodeKey} (hkl : sortKey k = sortKey l)
    (hn : w.node? k = some n) : ∃ m, v.node? l = some m ∧ w.Matches v n m := by
  have hk : w.sortKey? n = some (sortKey k) := sortKey?_of_node? hn
  obtain ⟨m, hm⟩ := h.exists_match (lt_size_of_sortKey? hk)
  obtain ⟨_, hk', hl⟩ := id hm
  rw [hk] at hk'
  cases hk'
  exact ⟨m, h.wellFormed'.node?_eq_some.2 (hkl ▸ hl), hm⟩

theorem Agree.node?_rel (h : w.Agree v) {k l : NodeKey} (hkl : sortKey k = sortKey l) :
    Option.Rel (w.Matches v) (w.node? k) (v.node? l) := by
  cases hn : w.node? k with
  | none =>
    cases hm : v.node? l with
    | none => exact .none
    | some m =>
      obtain ⟨n, hn', -⟩ := h.symm.node? hkl.symm hm
      rw [hn] at hn'
      cases hn'
  | some n =>
    obtain ⟨m, hm, hnm⟩ := h.node? hkl hn
    exact hm ▸ .some hnm

/-! ## Matching edges and routes -/

theorem WellFormed.depends_iff (hw : w.WellFormed) {e : Edge} (he : e ∈ w.edges) {k l : SortKey}
    (hk : w.sortKey? e.source = some k) (hl : w.sortKey? e.target = some l) {x : Place} :
    w.Depends x k l ↔ Condition.appliesAt e.condition x = true := by
  constructor
  · rintro ⟨d, hd, hdk, hdl, hx⟩
    have hsource : d.source = e.source := hw.node_eq hdk hk
    have htarget : d.target = e.target := hw.node_eq hdl hl
    have hfound := hw.edge? hd
    rw [hsource, htarget, hw.edge? he] at hfound
    exact Option.some.inj hfound ▸ hx
  · intro hx
    exact ⟨e, he, hk, hl, hx⟩

structure EdgesMatch (w v : Wiring) (e d : Edge) : Prop where
  source : w.Matches v e.source d.source
  target : w.Matches v e.target d.target
  condition : d.condition = e.condition

theorem Agree.edge (h : w.Agree v) {e : Edge} (he : e ∈ w.edges) :
    ∃ d ∈ v.edges, EdgesMatch w v e d := by
  obtain ⟨k, hk⟩ := exists_sortKey? (h.wellFormed.source_lt e he)
  obtain ⟨l, hl⟩ := exists_sortKey? (h.wellFormed.target_lt e he)
  obtain ⟨p, hp⟩ := Condition.exists_appliesAt e.condition
  obtain ⟨d, hd, hdk, hdl, -⟩ := (h.depends (some p) k l).1 ⟨e, he, hk, hl, hp⟩
  refine ⟨d, hd, ⟨k, hk, hdk⟩, ⟨l, hl, hdl⟩, ?_⟩
  apply Condition.eq_of_appliesAt
  intro x
  rw [← h.wellFormed'.depends_iff hd hdk hdl, ← h.depends, h.wellFormed.depends_iff he hk hl]

theorem Agree.route (h : w.Agree v) {es : List Edge} (hes : w.IsRoute a es b)
    (ha : w.Matches v a a') :
    ∃ fs b', v.IsRoute a' fs b' ∧ w.Matches v b b' ∧ List.Forall₂ (EdgesMatch w v) es fs := by
  induction es generalizing a a' with
  | nil =>
    obtain rfl : a = b := hes
    exact ⟨[], a', rfl, ha, .nil⟩
  | cons e es ih =>
    obtain ⟨he, rfl, hes⟩ := hes
    obtain ⟨d, hd, hed⟩ := h.edge he
    obtain ⟨fs, b', hfs, hb, hall⟩ := ih hes hed.target
    have hsource : d.source = a' := h.right_unique hed.source ha
    exact ⟨d :: fs, b', ⟨hd, hsource, hfs⟩, hb, .cons hed hall⟩

theorem exists_edge {es fs : List Edge} (h : List.Forall₂ (EdgesMatch w v) es fs) {d : Edge}
    (hd : d ∈ fs) : ∃ e ∈ es, EdgesMatch w v e d := by
  induction h with
  | nil => cases hd
  | cons hed _ ih =>
    rcases List.mem_cons.1 hd with rfl | hd
    · exact ⟨_, List.mem_cons_self .., hed⟩
    · obtain ⟨e, he, hed⟩ := ih hd
      exact ⟨e, List.mem_cons_of_mem _ he, hed⟩

/-! ## Net conditions -/

theorem Agree.exists_route (h : w.Agree v) (ha : w.Matches v a a') (hb : w.Matches v b b')
    {x : Place} (hw : ∃ es, w.IsRoute a es b ∧ ∀ e ∈ es, Condition.appliesAt e.condition x = true) :
    ∃ fs, v.IsRoute a' fs b' ∧ ∀ d ∈ fs, Condition.appliesAt d.condition x = true := by
  obtain ⟨es, hes, hx⟩ := hw
  obtain ⟨fs, c, hfs, hc, hall⟩ := h.route hes ha
  refine ⟨fs, h.right_unique hc hb ▸ hfs, fun d hd => ?_⟩
  obtain ⟨e, he, hed⟩ := exists_edge hall hd
  rw [hed.condition]
  exact hx e he

theorem Agree.isNet (h : w.Agree v) (ha : w.Matches v a a') (hb : w.Matches v b b')
    {net : NetCondition} (hnet : w.IsNet a b net) : v.IsNet a' b' net := by
  intro x
  rw [hnet x]
  exact ⟨h.exists_route ha hb, h.symm.exists_route ha.symm hb.symm⟩

theorem Agree.isConditional_le (h : w.Agree v) (hw : w.isConditional = true) :
    v.isConditional = true := by
  obtain ⟨e, he, hcond⟩ := List.any_eq_true.1 hw
  obtain ⟨d, hd, hed⟩ := h.edge he
  exact List.any_eq_true.2 ⟨d, hd, hed.condition ▸ hcond⟩

theorem Agree.isConditional (h : w.Agree v) : w.isConditional = v.isConditional :=
  Bool.eq_iff_iff.2 ⟨h.isConditional_le, h.symm.isConditional_le⟩

theorem Agree.resolve (h : w.Agree v) (hw : w.Acyclic) (hv : v.Acyclic) (ha : w.Matches v a a')
    (hb : w.Matches v b b') : (w.resolve [] a b).1 = (v.resolve [] a' b').1 := by
  have hempty (u : Wiring) : u.MemoRight [] := fun _ _ _ h => nomatch h
  unfold Wiring.resolve
  rw [h.isConditional]
  by_cases hc : v.isConditional = true
  · simp only [if_pos hc]
    have hnet := (between_spec h.wellFormed hw (hempty w) a b).1
    exact (h.isNet ha hb hnet).unique (between_spec h.wellFormed' hv (hempty v) a' b').1
  · simp only [if_neg hc]

/-! ## Tests -/

def TestsAgree (p q : NodeKey → Bool) : Prop :=
  ∀ k l, sortKey k = sortKey l → p k = q l

variable {p q p' q' : NodeKey → Bool}

theorem TestsAgree.symm (h : TestsAgree p q) : TestsAgree q p :=
  fun k l hkl => (h l k hkl.symm).symm

theorem TestsAgree.of_alike (h : ∀ k l, NodeKey.Alike k l → p k = q l) : TestsAgree p q :=
  fun k l hkl => h k l (NodeKey.alike_of_sortKey hkl)

theorem TestsAgree.and (h : TestsAgree p q) (h' : TestsAgree p' q') :
    TestsAgree (fun k => p k && p' k) fun k => q k && q' k := by
  intro k l hkl
  simp only [h k l hkl, h' k l hkl]

theorem TestsAgree.or (h : TestsAgree p q) (h' : TestsAgree p' q') :
    TestsAgree (fun k => p k || p' k) fun k => q k || q' k := by
  intro k l hkl
  simp only [h k l hkl, h' k l hkl]

theorem TestsAgree.not (h : TestsAgree p q) : TestsAgree (fun k => !p k) fun k => !q k := by
  intro k l hkl
  simp only [h k l hkl]

theorem Matches.holds (hm : w.Matches v n m) (h : TestsAgree p q) : w.holds p n = v.holds q m := by
  obtain ⟨k, l, hk, hl, hkl⟩ := matches_iff_keys.1 hm
  rw [Wiring.holds, Wiring.holds, hk, hl]
  exact h k l hkl

/-! ## Lists of nodes -/

variable {ns ms : List Nat}

theorem Agree.mem_iff (h : w.Agree v) (hns : w.NodesMatch v ns ms) (hm : w.Matches v n m) :
    n ∈ ns ↔ m ∈ ms := by
  constructor
  · intro hn
    obtain ⟨m', hm', hnm⟩ := hns.forth n hn
    exact h.right_unique hnm hm ▸ hm'
  · intro hm'
    obtain ⟨n', hn', hnm⟩ := hns.back m hm'
    exact h.left_unique hnm hm ▸ hn'

theorem Agree.contains_eq (h : w.Agree v) (hns : w.NodesMatch v ns ms) (hm : w.Matches v n m) :
    ns.contains n = ms.contains m := by
  rw [Bool.eq_iff_iff, List.contains_iff_mem, List.contains_iff_mem]
  exact h.mem_iff hns hm

theorem keys_paired (hns : w.NodesMatch v ns ms) :
    Paired (fun k l => sortKey k = sortKey l) (ns.filterMap w.key?) (ms.filterMap v.key?) := by
  apply hns.filterMap
  intro n m hnm
  obtain ⟨k, l, hk, hl, hkl⟩ := matches_iff_keys.1 hnm
  rw [hk, hl]
  exact .some hkl

theorem Agree.nodes (h : w.Agree v) : w.NodesMatch v w.nodes v.nodes := by
  have half {w v : Wiring} (h : w.Agree v) : ∀ n ∈ w.nodes, ∃ m ∈ v.nodes, w.Matches v n m := by
    intro n hn
    obtain ⟨m, k, hk, hm⟩ := h.exists_match (mem_nodes.1 hn)
    exact ⟨m, mem_nodes.2 (lt_size_of_sortKey? hm), k, hk, hm⟩
  exact .of_halves (fun _ _ => Matches.symm) (half h) (half h.symm)

theorem Agree.successors (h : w.Agree v) (ha : w.Matches v a a') :
    w.NodesMatch v (w.successors a) (v.successors a') := by
  have half {w v : Wiring} {a a' : Nat} (h : w.Agree v) (ha : w.Matches v a a') :
      ∀ n ∈ w.successors a, ∃ m ∈ v.successors a', w.Matches v n m := by
    intro n hn
    obtain ⟨e, he, rfl, rfl⟩ := mem_successors.1 hn
    obtain ⟨d, hd, hed⟩ := h.edge he
    exact ⟨d.target, mem_successors.2 ⟨d, hd, h.right_unique hed.source ha, rfl⟩, hed.target⟩
  exact .of_halves (fun _ _ => Matches.symm) (half h ha) (half h.symm ha.symm)

theorem Agree.reachable (h : w.Agree v) (ha : w.Matches v a a') :
    w.NodesMatch v (w.reachable a) (v.reachable a') := by
  have half {w v : Wiring} {a a' : Nat} (h : w.Agree v) (ha : w.Matches v a a') :
      ∀ n ∈ w.reachable a, ∃ m ∈ v.reachable a', w.Matches v n m := by
    intro n hn
    obtain ⟨es, hes⟩ := mem_reachable.1 hn
    obtain ⟨fs, m, hfs, hm, -⟩ := h.route hes ha
    exact ⟨m, mem_reachable.2 ⟨fs, hfs⟩, hm⟩
  exact .of_halves (fun _ _ => Matches.symm) (half h ha) (half h.symm ha.symm)

theorem Agree.select (h : w.Agree v) (ha : w.Matches v a a') (htest : TestsAgree p q)
    (hskip : TestsAgree p' q') : w.NodesMatch v (w.select [a] p p') (v.select [a'] q q') := by
  have half {w v : Wiring} {a a' : Nat} {p q p' q' : NodeKey → Bool} (h : w.Agree v)
      (ha : w.Matches v a a') (htest : TestsAgree p q) (hskip : TestsAgree p' q') :
      ∀ n ∈ w.select [a] p p', ∃ m ∈ v.select [a'] q q', w.Matches v n m := by
    intro n hn
    obtain ⟨hroot, hp, r, hr, es, hes, hskipped⟩ := Wiring.mem_select.1 hn
    obtain rfl := List.mem_singleton.1 hr
    obtain ⟨fs, m, hfs, hnm, hall⟩ := h.route hes ha
    refine ⟨m, Wiring.mem_select.2 ⟨?_, hnm.holds htest ▸ hp, a', List.mem_singleton_self a', fs,
      hfs, fun d hd => ?_⟩, hnm⟩
    · intro hm
      apply hroot
      rw [List.mem_singleton] at hm ⊢
      exact h.left_unique hnm (hm ▸ ha)
    · obtain ⟨e, he, hed⟩ := exists_edge hall hd
      rw [← hed.source.holds hskip]
      refine (hskipped e he).imp_left fun hsource => ?_
      rw [List.mem_singleton] at hsource ⊢
      exact h.right_unique hed.source (hsource ▸ ha)
  exact .of_halves (fun _ _ => Matches.symm) (half h ha htest hskip)
    (half h.symm ha.symm htest.symm hskip.symm)

end

end BuildGraph.Wiring
