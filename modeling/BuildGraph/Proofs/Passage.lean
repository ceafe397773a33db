import BuildGraph.Proofs.Consumer
import BuildGraph.Proofs.Reach

/-!
# Passages

A walk that stops at some kind of nodes meets a node exactly if a passage leads to it: a
route of at least one edge with no such node in between. Where a route goes through nodes
of a kind, a passage leads on from the last of them.
-/

namespace BuildGraph.Wiring

def Passes (w : Wiring) (skip : NodeKey → Bool) (a b : Nat) : Prop :=
  ∃ es, es ≠ [] ∧ w.IsRoute a es b ∧ ∀ e ∈ es.tail, w.holds skip e.source = false

section
variable {w : Wiring} {skip : NodeKey → Bool} {a b : Nat} {es : List Edge}

theorem holds_or {p q : NodeKey → Bool} {n : Nat} :
    w.holds (fun key => p key || q key) n = (w.holds p n || w.holds q n) := by
  unfold holds
  cases w.key? n <;> simp

theorem holds_and {p q : NodeKey → Bool} {n : Nat} :
    w.holds (fun key => p key && q key) n = (w.holds p n && w.holds q n) := by
  unfold holds
  cases w.key? n <;> simp

theorem holds_and_not {p q : NodeKey → Bool} {n : Nat} :
    w.holds (fun key => p key && !q key) n = (w.holds p n && !w.holds q n) := by
  unfold holds
  cases w.key? n <;> simp

/-! ## Routes in two parts -/

theorem IsRoute.split (h : w.IsRoute a es b) {e : Edge} (he : e ∈ es) : ∃ fs gs,
    es = fs ++ e :: gs ∧ w.IsRoute a fs e.source ∧ w.IsRoute e.source (e :: gs) b := by
  obtain ⟨fs, gs, rfl⟩ := List.append_of_mem he
  obtain ⟨c, hfs, hgs⟩ := isRoute_append.1 h
  obtain rfl : e.source = c := hgs.2.1
  exact ⟨fs, gs, rfl, hfs, hgs⟩

theorem IsRoute.source_ne (hac : w.Acyclic) (h : w.IsRoute a es b) {e : Edge}
    (he : e ∈ es.tail) : e.source ≠ a := by
  intro hback
  cases es with
  | nil => cases he
  | cons d ds =>
    obtain ⟨fs, gs, rfl, hfs, -⟩ := h.2.2.split he
    have hround : w.IsRoute a (d :: fs) a := ⟨h.1, h.2.1, hback ▸ hfs⟩
    exact absurd (hac a _ hround) (List.cons_ne_nil _ _)

/-- Before its end a route that starts in a node of a kind has a last one of that kind. -/
theorem IsRoute.exists_last_before {p : NodeKey → Bool} (h : w.IsRoute a es b) (hne : es ≠ [])
    (ha : w.holds p a = true) : ∃ m fs gs, es = fs ++ gs ∧ gs ≠ [] ∧ w.IsRoute a fs m ∧
      w.holds p m = true ∧ w.IsRoute m gs b ∧ ∀ e ∈ gs.tail, w.holds p e.source = false := by
  induction es using List.reverseRecOn generalizing b with
  | nil => exact absurd rfl hne
  | append_singleton es e ih =>
    obtain ⟨c, hes, he, rfl, rfl⟩ := isRoute_append.1 h
    by_cases hp : w.holds p e.source = true
    · exact ⟨e.source, es, [e], rfl, List.cons_ne_nil _ _, hes, hp, isRoute_single he,
        fun _ hd => nomatch hd⟩
    have hstart : es ≠ [] := by
      rintro rfl
      exact hp ((show a = e.source from hes) ▸ ha)
    obtain ⟨m, fs, gs, rfl, hgs, hfs, hm, hroute, htail⟩ := ih hes hstart
    refine ⟨m, fs, gs ++ [e], List.append_assoc .., by simp, hfs, hm,
      isRoute_append.2 ⟨_, hroute, isRoute_single he⟩, ?_⟩
    rw [List.tail_append_of_ne_nil hgs]
    intro d hd
    rcases List.mem_append.1 hd with hd | hd
    · exact htail d hd
    · rw [List.mem_singleton.1 hd]
      exact Bool.eq_false_iff.2 hp

theorem IsRoute.exists_last {p : NodeKey → Bool} (h : w.IsRoute a es b) (ha : w.holds p a = true) :
    ∃ m fs gs, es = fs ++ gs ∧ w.IsRoute a fs m ∧ w.holds p m = true ∧ w.IsRoute m gs b ∧
      ∀ e ∈ gs.tail, w.holds p e.source = false := by
  by_cases hne : es = []
  · subst hne
    exact ⟨a, [], [], rfl, rfl, ha, h, fun _ he => nomatch he⟩
  · obtain ⟨m, fs, gs, hes, -, hfs, hm, hgs, htail⟩ := h.exists_last_before hne ha
    exact ⟨m, fs, gs, hes, hfs, hm, hgs, htail⟩

theorem IsRoute.through {m : Nat} (h : w.IsRoute a es b) (hab : a ≠ b) (ham : a ≠ m)
    (hinto : ∀ e ∈ w.edges, e.target = b → e.source = m) : ∃ e ∈ es.tail, e.source = m := by
  rcases List.eq_nil_or_concat es with rfl | ⟨ds, e, rfl⟩
  · exact absurd h hab
  rw [List.concat_eq_append] at h ⊢
  obtain ⟨c, hds, he, hsource, htarget⟩ := isRoute_append.1 h
  have hm : e.source = m := hinto e he htarget
  have hlong : ds ≠ [] := by
    rintro rfl
    exact ham ((show a = c from hds).trans (hsource.symm.trans hm))
  refine ⟨e, ?_, hm⟩
  simp [List.tail_append_of_ne_nil hlong]

/-! ## Passages -/

theorem Passes.reaches (h : w.Passes skip a b) : w.Reaches a b := by
  obtain ⟨es, -, hes, -⟩ := h
  exact ⟨es, hes⟩

theorem passes_of_successor (h : b ∈ w.successors a) : w.Passes skip a b := by
  obtain ⟨e, he, rfl, rfl⟩ := mem_successors.1 h
  exact ⟨[e], List.cons_ne_nil _ _, isRoute_single he, fun _ hd => nomatch hd⟩

theorem Passes.snoc (h : w.Passes skip a b) (hb : w.holds skip b = false) {c : Nat}
    (hc : c ∈ w.successors b) : w.Passes skip a c := by
  obtain ⟨es, hne, hes, htail⟩ := h
  obtain ⟨e, he, rfl, rfl⟩ := mem_successors.1 hc
  refine ⟨es ++ [e], by simp, isRoute_append.2 ⟨_, hes, isRoute_single he⟩, ?_⟩
  rw [List.tail_append_of_ne_nil hne]
  intro d hd
  rcases List.mem_append.1 hd with hd | hd
  · exact htail d hd
  · rwa [List.mem_singleton.1 hd]

/-- A passage meets no node of another kind in between, or leads on from the last of them. -/
theorem Passes.through (h : w.Passes skip a b) {stop : NodeKey → Bool}
    (hb : w.holds stop b = false) : w.Passes stop a b ∨ ∃ m, w.Passes skip a m ∧
      w.holds stop m = true ∧ w.holds skip m = false ∧ w.Passes stop m b := by
  obtain ⟨es, hne, hes, htail⟩ := h
  by_cases hall : ∀ e ∈ es.tail, w.holds stop e.source = false
  · exact .inl ⟨es, hne, hes, hall⟩
  right
  simp only [not_forall, Bool.not_eq_false] at hall
  obtain ⟨e, he, hstop⟩ := hall
  cases es with
  | nil => exact absurd rfl hne
  | cons d ds =>
    obtain ⟨fs, gs, rfl, hfs, hgs⟩ := hes.2.2.split he
    obtain ⟨m, fs', gs', heq, hfs', hm, hgs', htail'⟩ := hgs.exists_last hstop
    rw [List.tail_cons, heq] at htail
    have hbefore : w.Passes skip a m := by
      refine ⟨d :: (fs ++ fs'), List.cons_ne_nil _ _,
        ⟨hes.1, hes.2.1, isRoute_append.2 ⟨_, hfs, hfs'⟩⟩, fun f hf => htail f ?_⟩
      rw [← List.append_assoc]
      exact List.mem_append_left gs' hf
    cases gs' with
    | nil =>
      obtain rfl : m = b := hgs'
      rw [hb] at hm
      cases hm
    | cons f gs' =>
      refine ⟨m, hbefore, hm, ?_, f :: gs', List.cons_ne_nil _ _, hgs', htail'⟩
      exact hgs'.2.1 ▸ htail f (by simp)

theorem Passes.mono {stop : NodeKey → Bool} (h : w.Passes skip a b)
    (himp : ∀ n, w.holds skip n = false → w.holds stop n = false) : w.Passes stop a b := by
  obtain ⟨es, hne, hes, htail⟩ := h
  exact ⟨es, hne, hes, fun e he => himp _ (htail e he)⟩

/-- Selected from one root are the nodes that pass the test and that a passage leads to. -/
theorem mem_select_single (hac : w.Acyclic) {test : NodeKey → Bool} {v : Nat} :
    v ∈ w.select [a] test skip ↔ w.holds test v = true ∧ w.Passes skip a v := by
  simp only [mem_select, List.mem_singleton, exists_eq_left]
  constructor
  · rintro ⟨hv, htest, es, hes, hall⟩
    refine ⟨htest, es, ?_, hes, ?_⟩
    · rintro rfl
      exact hv (show a = v from hes).symm
    · intro e he
      exact (hall e (List.mem_of_mem_tail he)).resolve_left (hes.source_ne hac he)
  · rintro ⟨htest, es, hne, hes, htail⟩
    refine ⟨?_, htest, es, hes, ?_⟩
    · rintro rfl
      exact hne (hac _ es hes)
    · cases es with
      | nil => exact absurd rfl hne
      | cons e es => exact List.forall_mem_cons.2 ⟨.inl hes.2.1, fun d hd => .inr (htail d hd)⟩

end

end BuildGraph.Wiring

namespace BuildGraph.Consumer

theorem mem_select {c : Consumer} (hg : c.graph.IsBuilt) {test skip : NodeKey → Bool} {n : Nat} :
    n ∈ c.select test skip ↔
      c.graph.wiring.holds test n = true ∧ c.graph.wiring.Passes skip c.node n :=
  Wiring.mem_select_single hg.sound.2

end BuildGraph.Consumer
