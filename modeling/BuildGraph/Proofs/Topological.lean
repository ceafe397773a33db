import BuildGraph.Proofs.CycleSearch
import BuildGraph.Proofs.Interning
import BuildGraph.Proofs.Route
import BuildGraph.Wiring.Topological

/-!
# Correctness of the topological order and of the chain lengths

The finishing walk finishes every node once, and where there are no cycles it finishes
each node after its dependencies. So an order is returned exactly where there are no
cycles. Along such an order the chain table holds the number of edges on the longest
route from each node.
-/

namespace BuildGraph.Wiring

open CycleSearch (Settled)

/-! ## The state of the walk -/

namespace Finishing

def Underway (walk : Finishing) (v : Nat) : Prop :=
  v ∈ walk.discovered ∧ v ∉ walk.finished

structure Good (w : Wiring) (walk : Finishing) : Prop where
  discovered : ∀ v ∈ walk.finished, v ∈ walk.discovered
  distinct : walk.finished.Nodup
  loopless : ∀ v ∈ walk.finished, v ∉ w.successors v

/-- How a walk stands to an earlier one after `ns` are dealt with. -/
structure Covers (w : Wiring) (walk : Finishing) (ns : List Nat) (walk' : Finishing) : Prop where
  good : walk'.Good w
  grows : ∀ v ∈ walk.discovered, v ∈ walk'.discovered
  underway : ∀ v, walk'.Underway v ↔ walk.Underway v
  dealt : ∀ n ∈ ns, n ∈ walk'.discovered
  settled : (∀ a, ¬ Relation.TransGen w.Next a a) →
    (∀ v, walk.Underway v → ∀ n ∈ ns, Relation.TransGen w.Next v n) →
      Settled w.successors id walk.finished → Settled w.successors id walk'.finished

def ahead (w : Wiring) (walk : Finishing) : Nat :=
  (Finset.range w.size \ walk.discovered.toFinset).card

variable {w : Wiring} {walk walk' : Finishing}

theorem ahead_le (h : ∀ v ∈ walk.discovered, v ∈ walk'.discovered) :
    ahead w walk' ≤ ahead w walk := by
  refine Finset.card_le_card fun v hv => ?_
  simp only [Finset.mem_sdiff, List.mem_toFinset] at hv ⊢
  exact ⟨hv.1, fun hd => hv.2 (h v hd)⟩

theorem ahead_lt {node : Nat} (hn : node < w.size) (hnew : node ∉ walk.discovered) :
    ahead w { walk with discovered := node :: walk.discovered } < ahead w walk := by
  refine Finset.card_lt_card (Finset.ssubset_iff_of_subset ?_ |>.2 ⟨node, ?_, ?_⟩)
  · intro v hv
    simp only [Finset.mem_sdiff, List.mem_toFinset, List.mem_cons, not_or] at hv ⊢
    exact ⟨hv.1, hv.2.2⟩
  · simpa using ⟨hn, hnew⟩
  · simp

theorem mem_discovered_of_ahead {node : Nat} (hn : node < w.size) (h : ahead w walk = 0) :
    node ∈ walk.discovered := by
  by_contra hnew
  have := ahead_lt hn hnew
  omega

theorem ahead_le_size (walk : Finishing) : ahead w walk ≤ w.size := by
  calc ahead w walk ≤ (Finset.range w.size).card := Finset.card_le_card Finset.sdiff_subset
    _ = w.size := Finset.card_range _

theorem Covers.nil (hg : walk.Good w) : Covers w walk [] walk :=
  ⟨hg, fun _ h => h, fun _ => Iff.rfl, fun _ h => (nomatch h), fun _ _ h => h⟩

theorem Covers.of_discovered {node : Nat} (hg : walk.Good w) (hd : node ∈ walk.discovered) :
    Covers w walk [node] walk :=
  { Covers.nil hg with dealt := fun _ hn => List.mem_singleton.1 hn ▸ hd, settled := fun _ _ h => h }

theorem Covers.cons {n : Nat} {ns : List Nat} {mid : Finishing} (h₁ : Covers w walk [n] mid)
    (h₂ : Covers w mid ns walk') : Covers w walk (n :: ns) walk' where
  good := h₂.good
  grows v hv := h₂.grows v (h₁.grows v hv)
  underway v := (h₂.underway v).trans (h₁.underway v)
  dealt m hm := by
    rcases List.mem_cons.1 hm with rfl | hm
    · exact h₂.grows m (h₁.dealt m (List.mem_singleton_self m))
    · exact h₂.dealt m hm
  settled hw hup hs := by
    have hup₁ : ∀ v, walk.Underway v → ∀ m ∈ [n], Relation.TransGen w.Next v m := by
      intro v hv m hm
      exact hup v hv m (List.mem_singleton.1 hm ▸ List.mem_cons_self ..)
    refine h₂.settled hw (fun v hv m hm => ?_) (h₁.settled hw hup₁ hs)
    exact hup v ((h₁.underway v).1 hv) m (List.mem_cons_of_mem _ hm)

theorem underway_discover {node : Nat} (hg : walk.Good w) (hnew : node ∉ walk.discovered) (v : Nat) :
    ({ walk with discovered := node :: walk.discovered } : Finishing).Underway v ↔
      v = node ∨ walk.Underway v := by
  rw [Underway, Underway, List.mem_cons]
  constructor
  · rintro ⟨rfl | hv, hf⟩
    · exact .inl rfl
    · exact .inr ⟨hv, hf⟩
  · rintro (rfl | ⟨hv, hf⟩)
    · exact ⟨.inl rfl, fun hf => hnew (hg.discovered v hf)⟩
    · exact ⟨.inr hv, hf⟩

theorem Good.finish {node : Nat} (hg : walk.Good w) (hup : walk.Underway node)
    (hloop : node ∉ w.successors node) :
    Good w { walk with finished := node :: walk.finished } where
  discovered v hv := by
    rcases List.mem_cons.1 hv with rfl | hv
    · exact hup.1
    · exact hg.discovered v hv
  distinct := List.nodup_cons.2 ⟨hup.2, hg.distinct⟩
  loopless v hv := by
    rcases List.mem_cons.1 hv with rfl | hv
    · exact hloop
    · exact hg.loopless v hv

theorem Covers.finish {node : Nat} (hg : walk.Good w) (hnew : node ∉ walk.discovered)
    (hloop : node ∉ w.successors node) {ns : List Nat} (hns : ∀ s, s ∈ ns ↔ s ∈ w.successors node)
    (h : Covers w { walk with discovered := node :: walk.discovered } ns walk') :
    Covers w walk [node] { walk' with finished := node :: walk'.finished } := by
  have hup (v : Nat) : walk'.Underway v ↔ v = node ∨ walk.Underway v :=
    (h.underway v).trans (underway_discover hg hnew v)
  have hnode : walk'.Underway node := (hup node).2 (.inl rfl)
  refine ⟨h.good.finish hnode hloop, ?_, ?_, ?_, ?_⟩
  · exact fun v hv => h.grows v (List.mem_cons_of_mem _ hv)
  · intro v
    have hv := hup v
    simp only [Underway, List.mem_cons, not_or] at hv ⊢
    constructor
    · rintro ⟨hd, hne, hf⟩
      exact (hv.1 ⟨hd, hf⟩).resolve_left hne
    · intro hu
      have hne : v ≠ node := fun e => hnew (e ▸ hu.1)
      exact ⟨(hv.2 (.inr hu)).1, hne, (hv.2 (.inr hu)).2⟩
  · exact fun n hn => List.mem_singleton.1 hn ▸ hnode.1
  · intro hw hreach hs
    have hreach' : ∀ v, ({ walk with discovered := node :: walk.discovered } : Finishing).Underway v →
        ∀ s ∈ ns, Relation.TransGen w.Next v s := by
      intro v hv s hs
      have hstep : w.Next node s := (hns s).1 hs
      rcases (hup v).1 ((h.underway v).2 hv) with rfl | hv
      · exact .single hstep
      · exact (hreach v hv node (List.mem_singleton_self _)).tail hstep
    refine ⟨fun s hs => ?_, h.settled hw hreach' hs⟩
    rw [List.map_id]
    -- a successor that is still underway would lie on a cycle
    by_contra hf
    have hsu : walk'.Underway s := ⟨h.dealt s ((hns s).2 hs), hf⟩
    exact hw s (hreach' s ((h.underway s).1 hsu) s ((hns s).2 hs))

end Finishing

/-! ## The finishing walk -/

open Finishing

def FinishesAs (w : Wiring) (walk : Finishing) (ns : List Nat) : Except Nat Finishing → Prop
  | .ok walk' => Covers w walk ns walk'
  | .error node => node ∈ w.successors node

section
variable {w : Wiring}

theorem finishesAs_foldlM {f : Finishing → Nat → Except Nat Finishing} {fuel : Nat}
    (hf : ∀ walk n, walk.Good w → walk.ahead w ≤ fuel → n < w.size →
      w.FinishesAs walk [n] (f walk n)) : ∀ (ns : List Nat) (walk : Finishing), walk.Good w →
    walk.ahead w ≤ fuel → (∀ n ∈ ns, n < w.size) → w.FinishesAs walk ns (ns.foldlM f walk)
  | [], _, hg, _, _ => Covers.nil hg
  | n :: ns, walk, hg, ha, hn => by
    have hfirst := hf walk n hg ha (hn n (List.mem_cons_self ..))
    rw [List.foldlM_cons]
    cases h : f walk n with
    | error m =>
      rw [h] at hfirst
      exact hfirst
    | ok mid =>
      rw [h] at hfirst
      have hcov : Covers w walk [n] mid := hfirst
      have hrest := finishesAs_foldlM hf ns mid hcov.good ((ahead_le hcov.grows).trans ha)
        fun m hm => hn m (List.mem_cons_of_mem _ hm)
      change w.FinishesAs walk (n :: ns) (ns.foldlM f mid)
      cases hr : ns.foldlM f mid with
      | error m =>
        rw [hr] at hrest
        exact hrest
      | ok walk' =>
        rw [hr] at hrest
        exact hcov.cons hrest

/-- The fuel lasts as long as it covers the nodes ahead. -/
theorem finishesAs_finish (hw : w.WellFormed) : ∀ (fuel : Nat) (walk : Finishing) (node : Nat),
    walk.Good w → walk.ahead w ≤ fuel → node < w.size →
      w.FinishesAs walk [node] (w.finish fuel walk node)
  | 0, walk, node, hg, ha, hn =>
    Covers.of_discovered hg (mem_discovered_of_ahead hn (Nat.le_zero.1 ha))
  | fuel + 1, walk, node, hg, ha, hn => by
    rw [finish]
    by_cases hd : walk.discovered.contains node = true
    · rw [if_pos hd]
      exact Covers.of_discovered hg (by simpa using hd)
    rw [if_neg hd]
    by_cases hloop : (w.successors node).contains node = true
    · rw [if_pos hloop]
      exact List.contains_iff_mem.1 hloop
    rw [if_neg hloop]
    rw [List.contains_iff_mem] at hd hloop
    -- once the node is discovered, fewer are ahead, and the rest of the fuel covers them
    have hless := ahead_lt hn hd
    have hstart : Finishing.Good w { walk with discovered := node :: walk.discovered } :=
      ⟨fun v hv => List.mem_cons_of_mem _ (hg.discovered v hv), hg.distinct, hg.loopless⟩
    have hsucc : ∀ s ∈ (w.successors node).reverse, s < w.size := by
      intro s hs
      obtain ⟨e, he, -, rfl⟩ := mem_successors.1 (List.mem_reverse.1 hs)
      exact hw.target_lt e he
    have hall := finishesAs_foldlM (finishesAs_finish hw fuel) (w.successors node).reverse _ hstart
      (by omega) hsucc
    cases hr : (w.successors node).reverse.foldlM (w.finish fuel)
        { walk with discovered := node :: walk.discovered } with
    | error m =>
      rw [hr] at hall
      exact hall
    | ok walk' =>
      rw [hr] at hall
      exact Covers.finish hg hd hloop (fun s => List.mem_reverse) hall

theorem finishesAs_nodes (hw : w.WellFormed) :
    w.FinishesAs {} w.nodes (w.nodes.foldlM (w.finish w.size) {}) := by
  refine finishesAs_foldlM (finishesAs_finish hw w.size) w.nodes {} ?_ (ahead_le_size _)
    fun n hn => mem_nodes.1 hn
  exact ⟨fun _ h => (nomatch h), .nil, fun _ h => (nomatch h)⟩

/-! ## The order -/

theorem successors_id (a b : Nat) (h : id a = id b) (s : Nat) (hs : s ∈ w.successors a) :
    ∃ t ∈ w.successors b, id t = id s := by
  cases (show a = b from h)
  exact ⟨s, hs, rfl⟩

theorem settled_cons {v : Nat} {rest : List Nat} : Settled w.successors id (v :: rest) ↔
    (∀ s ∈ w.successors v, s ∈ rest) ∧ Settled w.successors id rest := by
  rw [Settled, List.map_id]
  rfl

theorem settled_of_append {m : List Nat} : ∀ {l : List Nat},
    Settled w.successors id (l ++ m) → Settled w.successors id m
  | [], h => h
  | _ :: _, h => settled_of_append (settled_cons.1 h).2

/-- Each dependent of a node is placed before it, or is that node. -/
def Placed (w : Wiring) : List Nat → List Nat → Prop
  | _, [] => True
  | placed, v :: rest => (∀ d ∈ w.predecessors v, d ∈ v :: placed) ∧ Placed w (v :: placed) rest

theorem checkOrder_eq_ok : ∀ {order placed : List Nat},
    w.checkOrder placed order = .ok () ↔ w.Placed placed order
  | [], _ => iff_of_true rfl trivial
  | v :: rest, placed => by
    rw [checkOrder, Placed, ← checkOrder_eq_ok]
    cases h : (w.predecessors v).find? fun d => !(v :: placed).contains d with
    | some d =>
      have hd := List.find?_some h
      have hm := List.mem_of_find?_eq_some h
      simp only [reduceCtorEq, false_iff, not_and]
      intro hall
      simp [hall d hm] at hd
    | none =>
      rw [List.find?_eq_none] at h
      have hall : ∀ d ∈ w.predecessors v, d ∈ v :: placed := by
        intro d hd
        simpa [or_iff_not_imp_left] using h d hd
      exact (and_iff_right hall).symm

theorem next_iff_mem_predecessors {a b : Nat} : w.Next a b ↔ a ∈ w.predecessors b :=
  mem_successors.trans mem_predecessors.symm

/-- An order that has each node after its dependents has each before its dependencies. -/
theorem settled_of_placed : ∀ {order placed : List Nat}, w.Placed placed order →
    (∀ v ∈ placed, ∀ d ∈ w.predecessors v, d ∈ placed) → (placed.reverse ++ order).Nodup →
    (∀ v ∈ order, v ∉ w.successors v) →
    (∀ v ∈ order, ∀ s ∈ w.successors v, s ∈ placed ∨ s ∈ order) →
      Settled w.successors id order
  | [], _, _, _, _, _, _ => trivial
  | v :: rest, placed, h, hclosed, hdist, hloop, hin => by
    have hv : v ∉ placed := by
      intro hp
      rw [List.nodup_append] at hdist
      exact hdist.2.2 v (List.mem_reverse.2 hp) v (List.mem_cons_self ..) rfl
    -- a dependency placed earlier would have had this node placed before it
    have hbefore : ∀ s ∈ w.successors v, s ∉ placed := by
      intro s hs hp
      exact hv (hclosed s hp v (next_iff_mem_predecessors.1 hs))
    refine settled_cons.2 ⟨fun s hs => ?_, settled_of_placed h.2 ?_ ?_ ?_ ?_⟩
    · rcases List.mem_cons.1 ((hin v (List.mem_cons_self ..) s hs).resolve_left (hbefore s hs))
        with rfl | hs'
      · exact absurd hs (hloop _ (List.mem_cons_self ..))
      · exact hs'
    · intro u hu d hd
      rcases List.mem_cons.1 hu with rfl | hu
      · exact h.1 d hd
      · exact List.mem_cons_of_mem _ (hclosed u hu d hd)
    · rw [List.reverse_cons, List.append_assoc]
      exact hdist
    · exact fun u hu => hloop u (List.mem_cons_of_mem _ hu)
    · intro u hu s hs
      rcases hin u (List.mem_cons_of_mem _ hu) s hs with h | h
      · exact .inl (List.mem_cons_of_mem _ h)
      · rcases List.mem_cons.1 h with rfl | h
        · exact .inl (List.mem_cons_self ..)
        · exact .inr h

theorem placed_of_settled : ∀ {order placed : List Nat}, Settled w.successors id order →
    order.Nodup → (∀ v ∈ order, ∀ d ∈ w.predecessors v, d ∈ placed ∨ d ∈ order) →
      w.Placed placed order
  | [], _, _, _, _ => trivial
  | v :: rest, placed, h, hdist, hin => by
    rw [List.nodup_cons] at hdist
    have hrest := (settled_cons.1 h).2
    have hafter : ∀ u ∈ rest, ∀ s ∈ w.successors u, s ∈ rest := by
      intro u hu s hs
      have := Settled.closed successors_id ⟨u, rfl, s, hs, rfl⟩ hrest
        (by simpa using hu)
      simpa using this
    refine ⟨fun d hd => ?_, placed_of_settled hrest hdist.2 fun u hu d hd => ?_⟩
    · rcases hin v (List.mem_cons_self ..) d hd with h | h
      · exact List.mem_cons_of_mem _ h
      · rcases List.mem_cons.1 h with rfl | h
        · exact List.mem_cons_self ..
        · exact absurd (hafter d h v (next_iff_mem_predecessors.2 hd)) hdist.1
    · rcases hin u (List.mem_cons_of_mem _ hu) d hd with h | h
      · exact .inl (List.mem_cons_of_mem _ h)
      · rcases List.mem_cons.1 h with rfl | h
        · exact .inl (List.mem_cons_self ..)
        · exact .inr h

theorem leads_id {a b : Nat} : CycleSearch.Leads w.successors id a b ↔ w.Next a b := by
  constructor
  · rintro ⟨_, rfl, _, h, rfl⟩
    exact h
  · exact fun h => ⟨a, rfl, b, h, rfl⟩

theorem checkOrder_error {d : Nat} : ∀ {order placed : List Nat},
    w.checkOrder placed order = .error d → ∃ e ∈ w.edges, e.source = d
  | v :: rest, placed, h => by
    rw [checkOrder] at h
    split at h
    · rename_i u hu
      cases h
      obtain ⟨e, he, hs, -⟩ := mem_predecessors.1 (List.mem_of_find?_eq_some hu)
      exact ⟨e, he, hs⟩
    · exact checkOrder_error h

theorem acyclic_of_settled {order : List Nat} (h : Settled w.successors id order)
    (hall : ∀ e ∈ w.edges, e.source ∈ order) : w.Acyclic := by
  rw [acyclic_iff]
  intro a ha
  have hstart : a ∈ order.map id := by
    obtain ⟨b, hb, -⟩ := Relation.TransGen.head'_iff.1 ha
    obtain ⟨e, he, rfl, -⟩ := mem_successors.1 hb
    simpa using hall e he
  refine Settled.acyclic successors_id h hstart ?_
  exact Relation.TransGen.mono (fun _ _ => leads_id.2) _ _ ha

/-- The order holds every node once, each before its dependencies; there is one exactly
where there are no cycles. -/
theorem topologicalOrder_spec (hw : w.WellFormed) :
    match w.topologicalOrder with
    | .ok order => w.Acyclic ∧ Settled w.successors id order ∧ ∀ v, v < w.size → v ∈ order
    | .error v => ¬ w.Acyclic ∧ v < w.size := by
  have hwalk := finishesAs_nodes hw
  unfold topologicalOrder
  cases h : w.nodes.foldlM (w.finish w.size) {} with
  | error v =>
    rw [h] at hwalk
    obtain ⟨e, he, rfl, -⟩ := mem_successors.1 hwalk
    exact ⟨fun hac => acyclic_iff.1 hac _ (.single hwalk), hw.source_lt e he⟩
  | ok walk =>
    rw [h] at hwalk
    have hcov : Covers w {} w.nodes walk := hwalk
    have hall (v : Nat) (hv : v < w.size) : v ∈ walk.finished := by
      by_contra hf
      exact nomatch ((hcov.underway v).1 ⟨hcov.dealt v (mem_nodes.2 hv), hf⟩).1
    -- on all nodes, what is checked is that each dependency comes after its dependents
    have hplaced : w.Placed [] walk.finished ↔ Settled w.successors id walk.finished := by
      constructor
      · intro hp
        refine settled_of_placed hp (fun _ h => nomatch h) hcov.good.distinct hcov.good.loopless ?_
        intro v _ s hs
        obtain ⟨e, he, -, rfl⟩ := mem_successors.1 hs
        exact .inr (hall _ (hw.target_lt e he))
      · intro hs
        refine placed_of_settled hs hcov.good.distinct fun v _ d hd => ?_
        obtain ⟨e, he, rfl, -⟩ := mem_predecessors.1 hd
        exact .inr (hall _ (hw.source_lt e he))
    simp only [bind, Except.bind, pure, Except.pure]
    cases hc : w.checkOrder [] walk.finished with
    | ok u =>
      have hs := hplaced.1 (checkOrder_eq_ok.1 hc)
      exact ⟨acyclic_of_settled hs fun e he => hall _ (hw.source_lt e he), hs, hall⟩
    | error d =>
      obtain ⟨e, he, rfl⟩ := checkOrder_error hc
      refine ⟨fun hac => ?_, hw.source_lt e he⟩
      have hs := hcov.settled (acyclic_iff.1 hac) (fun v hv => nomatch hv.1) trivial
      rw [checkOrder_eq_ok.2 (hplaced.2 hs)] at hc
      cases hc

/-! ## Longest chains -/

theorem IsRoute.lt_size (hw : w.WellFormed) {a b : Nat} {es : List Edge} (h : w.IsRoute a es b)
    (hlong : 0 < es.length) : a < w.size := by
  cases es with
  | nil => exact absurd hlong (Nat.lt_irrefl 0)
  | cons e es => exact h.2.1 ▸ hw.source_lt e h.1

def IsLongest (w : Wiring) (a n : Nat) : Prop :=
  (∃ es b, w.IsRoute a es b ∧ es.length = n) ∧ ∀ es b, w.IsRoute a es b → es.length ≤ n

theorem le_foldl_max {f : Nat → Nat} : ∀ (ns : List Nat) (m : Nat),
    m ≤ ns.foldl (fun longest n => max longest (f n)) m ∧
      ∀ n ∈ ns, f n ≤ ns.foldl (fun longest n => max longest (f n)) m
  | [], m => ⟨Nat.le_refl m, fun _ h => nomatch h⟩
  | n :: ns, m => by
    obtain ⟨hstart, hall⟩ := le_foldl_max (f := f) ns (max m (f n))
    refine ⟨(Nat.le_max_left ..).trans hstart, fun k hk => ?_⟩
    rcases List.mem_cons.1 hk with rfl | hk
    · exact (Nat.le_max_right ..).trans hstart
    · exact hall k hk

theorem foldl_max_mem {f : Nat → Nat} : ∀ (ns : List Nat) (m : Nat),
    ns.foldl (fun longest n => max longest (f n)) m = m ∨
      ∃ n ∈ ns, ns.foldl (fun longest n => max longest (f n)) m = f n
  | [], m => .inl rfl
  | n :: ns, m => by
    rcases foldl_max_mem (f := f) ns (max m (f n)) with h | ⟨k, hk, h⟩
    · rw [List.foldl_cons, h]
      rcases Nat.le_total m (f n) with hle | hle
      · exact .inr ⟨n, List.mem_cons_self .., Nat.max_eq_right hle⟩
      · exact .inl (Nat.max_eq_left hle)
    · exact .inr ⟨k, List.mem_cons_of_mem _ hk, h⟩

theorem isLongest_longestChain {table : ChainTable} {a : Nat}
    (h : ∀ s ∈ w.successors a, w.IsLongest s (table.length s)) :
    w.IsLongest a (w.longestChain table a) := by
  have hle := le_foldl_max (f := fun s => table.length s + 1) (w.successors a) 0
  constructor
  · rcases foldl_max_mem (f := fun s => table.length s + 1) (w.successors a) 0 with h0 | ⟨s, hs, hm⟩
    · exact ⟨[], a, rfl, h0.symm⟩
    · obtain ⟨es, b, hes, hlen⟩ := (h s hs).1
      obtain ⟨e, he, rfl, rfl⟩ := mem_successors.1 hs
      exact ⟨e :: es, b, ⟨he, rfl, hes⟩, by rw [longestChain, hm, List.length_cons, hlen]⟩
  · intro es b hes
    cases es with
    | nil => exact Nat.zero_le _
    | cons e es =>
      obtain ⟨he, rfl, hes⟩ := hes
      have hs : e.target ∈ w.successors e.source := mem_successors.2 ⟨e, he, rfl, rfl⟩
      calc (e :: es).length = es.length + 1 := List.length_cons
        _ ≤ table.length e.target + 1 := Nat.succ_le_succ ((h _ hs).2 es b hes)
        _ ≤ w.longestChain table e.source := hle.2 _ hs

theorem ChainTable.length_cons (table : ChainTable) (v n u : Nat) :
    ChainTable.length ((v, n) :: table) u = if v = u then n else table.length u := by
  by_cases h : v = u <;> simp [ChainTable.length, h]

/-- The chain table is right for every node done, and the first chain beyond the limit
is reported with its length. -/
theorem checkChains_spec {maxDepth : Nat} : ∀ (rest : List Nat) (table : ChainTable) (done : List Nat),
    Settled w.successors id (rest.reverse ++ done) →
    (∀ v ∈ done, w.IsLongest v (table.length v)) → (∀ v ∈ done, table.length v ≤ maxDepth) →
    match w.checkChains maxDepth table rest with
    | .ok () => ∀ v ∈ rest ++ done, ∀ es b, w.IsRoute v es b → es.length ≤ maxDepth
    | .error (v, n) => v ∈ rest ∧ w.IsLongest v n ∧ maxDepth < n
  | [], table, done, _, hlong, hmax => fun v hv es b hes =>
    ((hlong v hv).2 es b hes).trans (hmax v hv)
  | v :: rest, table, done, hs, hlong, hmax => by
    rw [List.reverse_cons, List.append_assoc] at hs
    -- the successors are done, so the longest chain from the node goes through their chains
    have hv : w.IsLongest v (w.longestChain table v) := by
      refine isLongest_longestChain fun s hs' => hlong s ?_
      exact (settled_cons.1 (settled_of_append hs)).1 s hs'
    rw [checkChains]
    by_cases hover : maxDepth < w.longestChain table v
    · rw [if_pos hover]
      exact ⟨List.mem_cons_self .., hv, hover⟩
    rw [if_neg hover]
    have hrest := @checkChains_spec maxDepth rest ((v, w.longestChain table v) :: table)
      (v :: done) hs ?_ ?_
    · split at hrest
      · intro u hu
        refine hrest u ?_
        simp only [List.cons_append, List.mem_cons, List.mem_append] at hu ⊢
        tauto
      · exact ⟨List.mem_cons_of_mem _ hrest.1, hrest.2⟩
    · intro u hu
      rw [ChainTable.length_cons]
      split
      · rename_i hvu
        exact hvu ▸ hv
      · rename_i hvu
        exact hlong u ((List.mem_cons.1 hu).resolve_left (Ne.symm hvu))
    · intro u hu
      rw [ChainTable.length_cons]
      split
      · exact Nat.le_of_not_lt hover
      · rename_i hvu
        exact hmax u ((List.mem_cons.1 hu).resolve_left (Ne.symm hvu))

end

end BuildGraph.Wiring
