import BuildGraph.Proofs.Validation

/-!
# What depth faults name

A node that is named for a cycle lies on one itself: the finishing walk finishes each
successor of a node before the node, or the successor leads back to it. A chain that is
named for its length has just one edge more than is allowed, as all chains that are
shorter were let through.
-/

namespace BuildGraph

namespace Wiring

open Finishing

section
variable {w : Wiring}

/-! ## Back edges of the finishing walk -/

/-- The successors of each node come behind it, unless they lead back to it. -/
def Layered (w : Wiring) : List Nat → Prop
  | [] => True
  | v :: rest => (∀ s ∈ w.successors v, s ∈ rest ∨ Relation.TransGen w.Next s v) ∧ Layered w rest

theorem Layered.of_append {s v : Nat} : ∀ {before after : List Nat},
    w.Layered (before ++ v :: after) → s ∈ w.successors v →
      s ∈ after ∨ Relation.TransGen w.Next s v
  | [], _, h, hs => h.1 s hs
  | _ :: _, _, h, hs => Layered.of_append h.2 hs

def Finishing.LeadsTo (w : Wiring) (walk : Finishing) (ns : List Nat) : Prop :=
  ∀ v, walk.Underway v → ∀ n ∈ ns, Relation.TransGen w.Next v n

def Finishing.KeepsLayered (w : Wiring) (fuel : Nat)
    (f : Finishing → Nat → Except Nat Finishing) : Prop :=
  ∀ walk walk' n, walk.Good w → walk.ahead w ≤ fuel → n < w.size → walk.LeadsTo w [n] →
    f walk n = .ok walk' → w.Layered walk.finished → w.Layered walk'.finished

theorem layered_foldlM (hw : w.WellFormed) {fuel : Nat} (hkeep : KeepsLayered w fuel (w.finish fuel)) :
    ∀ (ns : List Nat) {walk walk' : Finishing}, walk.Good w → walk.ahead w ≤ fuel →
      (∀ n ∈ ns, n < w.size) → walk.LeadsTo w ns → ns.foldlM (w.finish fuel) walk = .ok walk' →
        w.Layered walk.finished → w.Layered walk'.finished
  | [], _, _, _, _, _, _, h, hlayered => by
    cases h
    exact hlayered
  | n :: ns, walk, walk', hg, ha, hn, hlead, h, hlayered => by
    have hfirst := finishesAs_finish hw fuel walk n hg ha (hn n (List.mem_cons_self ..))
    rw [List.foldlM_cons] at h
    cases hmid : w.finish fuel walk n with
    | error m => simp [hmid, bind, Except.bind] at h
    | ok mid =>
      rw [hmid] at hfirst h
      have hcov : Covers w walk [n] mid := hfirst
      have hlayered' : w.Layered mid.finished := by
        refine hkeep walk mid n hg ha (hn n (List.mem_cons_self ..)) (fun v hv m hm => ?_) hmid hlayered
        exact hlead v hv m (List.mem_singleton.1 hm ▸ List.mem_cons_self ..)
      refine layered_foldlM hw hkeep ns hcov.good ((ahead_le hcov.grows).trans ha)
        (fun m hm => hn m (List.mem_cons_of_mem _ hm)) (fun v hv m hm => ?_) h hlayered'
      exact hlead v ((hcov.underway v).1 hv) m (List.mem_cons_of_mem _ hm)

theorem keepsLayered_finish (hw : w.WellFormed) : ∀ fuel : Nat, KeepsLayered w fuel (w.finish fuel)
  | 0 => fun walk walk' n _ _ _ _ h hlayered => by
    cases h
    exact hlayered
  | fuel + 1 => fun walk walk' n hg ha hn hlead h hlayered => by
    rw [finish] at h
    by_cases hd : walk.discovered.contains n = true
    · rw [if_pos hd] at h
      cases h
      exact hlayered
    by_cases hloop : (w.successors n).contains n = true
    · rw [if_neg hd, if_pos hloop] at h
      cases h
    rw [if_neg hd, if_neg hloop] at h
    rw [List.contains_iff_mem] at hd hloop
    have hless := ahead_lt hn hd
    have hstart : Finishing.Good w { walk with discovered := n :: walk.discovered } :=
      ⟨fun v hv => List.mem_cons_of_mem _ (hg.discovered v hv), hg.distinct, hg.loopless⟩
    have hsucc : ∀ s ∈ (w.successors n).reverse, s < w.size := by
      intro s hs
      obtain ⟨e, he, -, rfl⟩ := mem_successors.1 (List.mem_reverse.1 hs)
      exact hw.target_lt e he
    have hcov := finishesAs_foldlM (finishesAs_finish hw fuel) (w.successors n).reverse _ hstart
      (by omega) hsucc
    cases hmid : (w.successors n).reverse.foldlM (w.finish fuel)
        { walk with discovered := n :: walk.discovered } with
    | error m => simp [hmid, bind, Except.bind] at h
    | ok mid =>
      rw [hmid] at hcov h
      have hcov : Covers w { walk with discovered := n :: walk.discovered }
        (w.successors n).reverse mid := hcov
      cases h
      have hlead' : Finishing.LeadsTo w { walk with discovered := n :: walk.discovered }
          (w.successors n).reverse := by
        intro v hv s hs
        have hstep : w.Next n s := List.mem_reverse.1 hs
        rcases (underway_discover hg hd v).1 hv with rfl | hv
        · exact .single hstep
        · exact (hlead v hv n (List.mem_singleton_self _)).tail hstep
      refine ⟨fun s hs => ?_, layered_foldlM hw (keepsLayered_finish hw fuel) _ hstart (by omega)
        hsucc hlead' hmid hlayered⟩
      by_cases hf : s ∈ mid.finished
      · exact .inl hf
      -- a successor that is still underway leads to the node
      have hs' : s ∈ (w.successors n).reverse := List.mem_reverse.2 hs
      have hup := (hcov.underway s).1 ⟨hcov.dealt s hs', hf⟩
      rcases (underway_discover hg hd s).1 hup with rfl | hup
      · exact absurd hs hloop
      · exact .inr (hlead s hup n (List.mem_singleton_self _))

theorem checkOrder_split {d : Nat} : ∀ {order placed : List Nat},
    w.checkOrder placed order = .error d → ∃ before v after, order = before ++ v :: after ∧
      d ∈ w.predecessors v ∧ d ≠ v ∧ d ∉ before ∧ d ∉ placed
  | v :: rest, placed, h => by
    rw [checkOrder] at h
    split at h
    · rename_i u hu
      cases h
      have hout : d ∉ v :: placed := by simpa using List.find?_some hu
      rw [List.mem_cons, not_or] at hout
      exact ⟨[], v, rest, rfl, List.mem_of_find?_eq_some hu, hout.1, List.not_mem_nil, hout.2⟩
    · obtain ⟨before, u, after, rfl, hd, hne, hbefore, hplaced⟩ := checkOrder_split h
      rw [List.mem_cons, not_or] at hplaced
      exact ⟨v :: before, u, after, rfl, hd, hne, by simp [hbefore, hplaced.1], hplaced.2⟩

theorem topologicalOrder_error (hw : w.WellFormed) {d : Nat} (h : w.topologicalOrder = .error d) :
    Relation.TransGen w.Next d d := by
  have hwalk := finishesAs_nodes hw
  unfold topologicalOrder at h
  cases hnodes : w.nodes.foldlM (w.finish w.size) {} with
  | error n =>
    -- a node that depends on itself
    rw [hnodes] at hwalk h
    cases h
    exact .single hwalk
  | ok walk =>
    rw [hnodes] at hwalk h
    have hcov : Covers w {} w.nodes walk := hwalk
    have hempty : Finishing.Good w {} :=
      ⟨fun _ h => (nomatch h), .nil, fun _ h => (nomatch h)⟩
    have hlayered : w.Layered walk.finished :=
      layered_foldlM hw (keepsLayered_finish hw w.size) w.nodes hempty (ahead_le_size _)
        (fun n hn => mem_nodes.1 hn) (fun v hv => nomatch hv.1) hnodes trivial
    have horder : w.checkOrder [] walk.finished = .error d := by
      cases hc : w.checkOrder [] walk.finished <;> simp_all [bind, Except.bind, pure, Except.pure]
    obtain ⟨before, v, after, hsplit, hd, hne, hbefore, -⟩ := checkOrder_split horder
    obtain ⟨e, he, rfl, -⟩ := mem_predecessors.1 hd
    have hfinished : e.source ∈ walk.finished := by
      by_contra hf
      have hdealt := hcov.dealt e.source (mem_nodes.2 (hw.source_lt e he))
      exact nomatch ((hcov.underway e.source).1 ⟨hdealt, hf⟩).1
    have hafter : e.source ∈ after := by
      rw [hsplit] at hfinished
      simpa [hbefore, hne] using hfinished
    obtain ⟨between, behind, rfl⟩ := List.append_of_mem hafter
    have hback : v ∉ behind := by
      have hnodup := hcov.good.distinct
      rw [hsplit] at hnodup
      have hv := (List.nodup_cons.1 (List.nodup_append.1 hnodup).2.1).1
      simp_all
    have hsplit' : walk.finished = (before ++ v :: between) ++ e.source :: behind := by
      simp [hsplit]
    have hnext : w.Next e.source v := next_iff_mem_predecessors.2 hd
    exact ((hsplit' ▸ hlayered).of_append hnext).elim (fun hv => absurd hv hback) (.head hnext)

/-! ## The length of a reported chain -/

theorem longestChain_le {table : ChainTable} {maxDepth : Nat}
    (h : ∀ n, table.length n ≤ maxDepth) (a : Nat) : w.longestChain table a ≤ maxDepth + 1 := by
  unfold longestChain
  rcases foldl_max_mem (f := fun s => table.length s + 1) (w.successors a) 0 with h0 | ⟨s, -, hs⟩
  · omega
  · have := h s
    omega

theorem checkChains_error {maxDepth v n : Nat} : ∀ {rest : List Nat} {table : ChainTable},
    (∀ m, table.length m ≤ maxDepth) → w.checkChains maxDepth table rest = .error (v, n) →
      n = maxDepth + 1
  | u :: rest, table, htable, h => by
    have hle := longestChain_le (w := w) htable u
    rw [checkChains] at h
    by_cases hover : maxDepth < w.longestChain table u
    · rw [if_pos hover] at h
      cases h
      omega
    · rw [if_neg hover] at h
      refine checkChains_error (fun m => ?_) h
      rw [ChainTable.length_cons]
      split
      · omega
      · exact htable m

end

end Wiring

/-! ## Faults -/

namespace Draft

def OnCycle (d : Draft) (key : NodeKey) : Prop :=
  ∃ n, d.wiring.key? n = some key ∧ Relation.TransGen d.wiring.Next n n

def StartsOverlong (d : Draft) (key : NodeKey) : Prop :=
  ∃ n, d.wiring.key? n = some key ∧ d.wiring.IsLongest n (d.maxDepth + 1)

theorem checkDepth_names {d : Draft} (hw : d.wiring.WellFormed) {f : Fault}
    (h : d.checkDepth = .error f) :
    (∃ key, d.OnCycle key ∧ f = .unsupported (.dependencyCycle key)) ∨
      (d.wiring.Acyclic ∧ ∃ key, d.StartsOverlong key ∧
        f = .unsupported (.chainTooLong (d.maxDepth + 1) key d.maxDepth)) := by
  have hspec := checkDepth_spec hw
  rw [h] at hspec
  unfold checkDepth at h
  cases horder : d.wiring.topologicalOrder with
  | error n =>
    have hcycle := Wiring.topologicalOrder_error hw horder
    obtain ⟨m, hnm, -⟩ := Relation.TransGen.head'_iff.1 hcycle
    obtain ⟨e, he, rfl, -⟩ := Wiring.mem_successors.1 hnm
    obtain ⟨key, hkey⟩ := Wiring.exists_key? (hw.source_lt e he)
    rw [horder] at h
    cases h
    exact .inl ⟨key, ⟨_, hkey, hcycle⟩, keyed_eq hkey _⟩
  | ok order =>
    have hac := Wiring.topologicalOrder_spec hw
    rw [horder] at hac h
    obtain ⟨-, node, length, start, hstart, hlong, -, hf⟩ := hspec.resolve_left fun hc => hc.1 hac.1
    refine .inr ⟨hac.1, start, ?_⟩
    cases hc : d.wiring.checkChains d.maxDepth [] order.reverse with
    | ok u => simp [hc] at h
    | error found =>
      obtain ⟨v, n⟩ := found
      have hn : n = d.maxDepth + 1 := Wiring.checkChains_error (fun _ => Nat.zero_le _) hc
      simp only [hc, hf] at h
      have hlength : length = n := by
        cases hkey : d.wiring.key? v <;> simp_all [keyed]
      subst hlength hn
      exact ⟨⟨node, hstart, hlong⟩, hf⟩

end Draft

end BuildGraph
