import BuildGraph.Proofs.CycleSearch
import BuildGraph.Proofs.Interning
import BuildGraph.Proofs.Route
import BuildGraph.Wiring.TargetCycle

/-!
# Cycles of targets

The cycle that the search returns leads along edges through different targets, back to
the first; if it returns none there is no cycle through targets alone.
-/

namespace BuildGraph.Wiring

def HasCycle (w : Wiring) (p : NodeKey → Bool) : Prop :=
  ∃ a es, es ≠ [] ∧ w.IsRoute a es a ∧ ∀ e ∈ es, w.holds p e.source = true

def IsTargetCycle (w : Wiring) (cycle : List TargetId) : Prop :=
  ∃ nodes, CycleSearch.IsCycle w.successors id nodes ∧
    nodes.map w.key? = cycle.map fun id => some (.target id)

section
variable {w : Wiring}

theorem mem_targetNodes {n : Nat} :
    n ∈ w.targetNodes ↔ w.holds NodeKey.isTarget n = true := by
  rw [targetNodes, List.mem_filter, mem_nodes]
  exact and_iff_right_of_imp lt_size_of_holds

theorem mem_targetSuccessors {a b : Nat} :
    b ∈ w.targetSuccessors a ↔ w.Next a b ∧ w.holds NodeKey.isTarget b = true := by
  rw [targetSuccessors, sortNodes, mem_sortBy, List.mem_filter]
  rfl

theorem target?_of_holds {n : Nat} (h : w.holds NodeKey.isTarget n = true) :
    ∃ id, w.key? n = some (.target id) ∧ (w.key? n).bind NodeKey.target? = some id := by
  obtain ⟨key, hk, ht⟩ := holds_iff.1 h
  cases key with
  | target id => exact ⟨id, hk, by rw [hk]; rfl⟩
  | _ => cases ht

/-! ## Chains and routes -/

theorem exists_route_of_isChain : ∀ {a : Nat} {ns : List Nat},
    (a :: ns).IsChain (fun a b => b ∈ w.successors a) → ∃ es, es.length = ns.length ∧
      w.IsRoute a es ((a :: ns).getLast (List.cons_ne_nil a ns)) ∧ ∀ e ∈ es, e.source ∈ a :: ns
  | a, [], _ => ⟨[], rfl, rfl, fun _ h => nomatch h⟩
  | a, b :: ns, h => by
    rw [List.isChain_cons_cons] at h
    obtain ⟨es, hlen, hes, hin⟩ := exists_route_of_isChain h.2
    obtain ⟨e, he, rfl, rfl⟩ := mem_successors.1 h.1
    refine ⟨e :: es, by simp [hlen], ⟨he, rfl, hes⟩, fun d hd => ?_⟩
    rcases List.mem_cons.1 hd with rfl | hd
    · exact List.mem_cons_self ..
    · exact List.mem_cons_of_mem _ (hin d hd)

theorem IsTargetCycle.hasCycle {cycle : List TargetId} (h : w.IsTargetCycle cycle) :
    w.HasCycle NodeKey.isTarget := by
  obtain ⟨nodes, hc, hkeys⟩ := h
  cases nodes with
  | nil => exact absurd hc.long (by simp)
  | cons a ns =>
    obtain ⟨es, hlen, hes, hin⟩ := exists_route_of_isChain hc.chain
    have hback : (a :: ns).getLast (List.cons_ne_nil a ns) = a := by
      have := hc.closed
      rw [List.getLast?_eq_some_getLast (List.cons_ne_nil a ns)] at this
      simpa using this.symm
    rw [hback] at hes
    refine ⟨a, es, ?_, hes, fun e he => ?_⟩
    · rintro rfl
      have := hc.long
      simp only [List.length_cons, List.length_nil] at this hlen
      omega
    · have hm : w.key? e.source ∈ (a :: ns).map w.key? := List.mem_map_of_mem (hin e he)
      rw [hkeys] at hm
      obtain ⟨id, -, hid⟩ := List.mem_map.1 hm
      exact holds_iff.2 ⟨_, hid.symm, rfl⟩

theorem IsTargetCycle.isChain {cycle : List TargetId} {R : TargetId → TargetId → Prop}
    (h : w.IsTargetCycle cycle) (hR : ∀ e ∈ w.edges, ∀ a b, w.key? e.source = some (.target a) →
      w.key? e.target = some (.target b) → R a b) : cycle.IsChain R := by
  obtain ⟨nodes, hcycle, hkeys⟩ := h
  have hnodes : (nodes.map w.key?).IsChain fun k l =>
      ∀ a b, k = some (.target a) → l = some (.target b) → R a b := by
    rw [List.isChain_map]
    refine hcycle.chain.imp fun m n hmn a b ha hb => ?_
    obtain ⟨e, he, rfl, rfl⟩ := mem_successors.1 hmn
    exact hR e he a b ha hb
  rw [hkeys, List.isChain_map] at hnodes
  exact hnodes.imp fun a b h => h a b rfl rfl

theorem IsTargetCycle.exists_cons {cycle : List TargetId} (h : w.IsTargetCycle cycle) :
    ∃ a b rest, cycle = a :: b :: rest ∧ (b :: rest).getLast? = some a := by
  obtain ⟨nodes, hcycle, hkeys⟩ := h
  obtain ⟨m, n, more, rfl⟩ : ∃ m n more, nodes = m :: n :: more := by
    match nodes, hcycle.long with
    | m :: n :: more, _ => exact ⟨m, n, more, rfl⟩
  obtain ⟨a, tail, rfl, ha, htail⟩ := List.map_eq_cons_iff.1 hkeys.symm
  obtain ⟨b, rest, rfl, -, -⟩ := List.map_eq_cons_iff.1 htail
  refine ⟨a, b, rest, rfl, ?_⟩
  have hback : (n :: more).getLast? = some m := by simpa using hcycle.closed.symm
  have hlast := congrArg List.getLast? htail
  rw [List.getLast?_map, List.getLast?_map, hback, Option.map_some, ← ha] at hlast
  obtain ⟨c, hc, hca⟩ := Option.map_eq_some_iff.1 hlast
  rw [hc, NodeKey.target.inj (Option.some.inj hca)]

theorem transGen_of_route {es : List Edge} (hne : es ≠ []) : ∀ {a b : Nat}, w.IsRoute a es b →
    (∀ e ∈ es, w.holds NodeKey.isTarget e.source = true) → w.holds NodeKey.isTarget b = true →
      Relation.TransGen (CycleSearch.Leads w.targetSuccessors id) a b := by
  induction es with
  | nil => exact absurd rfl hne
  | cons e es ih =>
    rintro _ b ⟨he, rfl, hes⟩ hall hb
    have hnext : w.Next e.source e.target := mem_successors.2 ⟨e, he, rfl, rfl⟩
    have hstep (ht : w.holds NodeKey.isTarget e.target = true) :
        CycleSearch.Leads w.targetSuccessors id e.source e.target :=
      ⟨e.source, rfl, e.target, mem_targetSuccessors.2 ⟨hnext, ht⟩, rfl⟩
    cases es with
    | nil =>
      cases hes
      exact .single (hstep hb)
    | cons d ds =>
      have hd := hes.2.1
      refine .head (hstep ?_) (ih (by simp) hes (fun f hf => hall f (List.mem_cons_of_mem _ hf)) hb)
      exact hd ▸ hall d (by simp)

/-! ## The search -/

theorem filterMap_target? : ∀ {nodes : List Nat},
    (∀ v ∈ nodes, w.holds NodeKey.isTarget v = true) →
      nodes.map w.key? = (nodes.filterMap fun n => (w.key? n).bind NodeKey.target?).map
        fun id => some (NodeKey.target id)
  | [], _ => rfl
  | n :: ns, h => by
    obtain ⟨id, hk, ht⟩ := target?_of_holds (h n (List.mem_cons_self ..))
    rw [List.map_cons, List.filterMap_cons, ht, List.map_cons, hk,
      filterMap_target? fun v hv => h v (List.mem_cons_of_mem _ hv)]

theorem targetCycle?_spec (w : Wiring) :
    match w.targetCycle? with
    | some cycle => w.IsTargetCycle cycle
    | none => ¬ w.HasCycle NodeKey.isTarget := by
  have hsame (a b : Nat) : (a == b) = true ↔ id a = id b := beq_iff_eq
  have hstay (a : Nat) (_ : w.holds NodeKey.isTarget a = true) (b : Nat)
      (hb : b ∈ w.targetSuccessors a) : w.holds NodeKey.isTarget b = true :=
    (mem_targetSuccessors.1 hb).2
  have hfinite (a : Nat) (ha : w.holds NodeKey.isTarget a = true) :
      id a ∈ Finset.range w.size := Finset.mem_range.2 (lt_size_of_holds ha)
  have hkey (a b : Nat) (hab : id a = id b) (s : Nat) (hs : s ∈ w.targetSuccessors a) :
      ∃ t ∈ w.targetSuccessors b, id t = id s := ⟨s, (show a = b from hab) ▸ hs, rfl⟩
  obtain ⟨r, hr, hs⟩ := CycleSearch.searchCycle_spec hsame hstay hfinite hkey
    (w.sortNodes w.targetNodes) fun v hv => mem_targetNodes.1 (mem_sortBy.1 hv)
  unfold targetCycle?
  rw [hr, Option.bind_some]
  rcases hs with ⟨c, hc, hcycle, htargets⟩ | ⟨hnone, hacyclic⟩
  · rw [hc]
    refine ⟨c, ⟨?_, hcycle.closed, hcycle.long, hcycle.distinct⟩, filterMap_target? htargets⟩
    exact hcycle.chain.imp fun a b h => (mem_targetSuccessors.1 h).1
  · rw [hnone]
    rintro ⟨a, es, hne, hes, hall⟩
    have ha : w.holds NodeKey.isTarget a = true := by
      cases es with
      | nil => exact absurd rfl hne
      | cons e es => exact hes.2.1 ▸ hall e (List.mem_cons_self ..)
    have hroot : a ∈ w.sortNodes w.targetNodes := mem_sortBy.2 (mem_targetNodes.2 ha)
    exact hacyclic a hroot a .refl (transGen_of_route hne hes hall ha)

end

end BuildGraph.Wiring
