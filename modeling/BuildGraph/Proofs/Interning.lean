import BuildGraph.Proofs.Ordered
import BuildGraph.Proofs.NetCondition
import BuildGraph.Wiring

/-!
# Interned keys and merged edges

A wiring made by interning keys and connecting them has one node for each key and at
most one edge from a node to another. What it says is given by its sort keys and by
the places where one of them depends on another; connecting adds to both and takes
nothing away.
-/

namespace BuildGraph.Wiring

/-- What a node stands for, apart from the spelling of its key. -/
def sortKey? (w : Wiring) (node : Nat) : Option SortKey :=
  (w.key? node).map sortKey

structure WellFormed (w : Wiring) : Prop where
  distinct : (w.keys.map sortKey).Nodup
  source_lt : ∀ e ∈ w.edges, e.source < w.size
  target_lt : ∀ e ∈ w.edges, e.target < w.size
  single : (w.edges.map fun e => (e.source, e.target)).Nodup

/-- An edge leads from the one key to the other, and its condition applies at `x`. -/
def Depends (w : Wiring) (x : Place) (k l : SortKey) : Prop :=
  ∃ e ∈ w.edges, w.sortKey? e.source = some k ∧ w.sortKey? e.target = some l ∧
    Condition.appliesAt e.condition x = true

section
variable {w : Wiring}

/-! ## Nodes -/

theorem sortKey?_eq_some {n : Nat} {k : SortKey} :
    w.sortKey? n = some k ↔ ∃ key, w.key? n = some key ∧ sortKey key = k := by
  simp [sortKey?]

theorem lt_size_of_key? {n : Nat} {key : NodeKey} (h : w.key? n = some key) : n < w.size := by
  unfold key? at h
  exact (List.getElem?_eq_some_iff.1 h).1

theorem lt_size_of_sortKey? {n : Nat} {k : SortKey} (h : w.sortKey? n = some k) : n < w.size := by
  obtain ⟨key, hk, -⟩ := sortKey?_eq_some.1 h
  exact lt_size_of_key? hk

theorem exists_key? {n : Nat} (h : n < w.size) : ∃ key, w.key? n = some key :=
  ⟨w.keys[n], List.getElem?_eq_getElem h⟩

theorem exists_sortKey? {n : Nat} (h : n < w.size) : ∃ k, w.sortKey? n = some k := by
  obtain ⟨key, hk⟩ := exists_key? h
  exact ⟨sortKey key, sortKey?_eq_some.2 ⟨key, hk, rfl⟩⟩

theorem mem_keys_of_key? {n : Nat} {key : NodeKey} (h : w.key? n = some key) : key ∈ w.keys :=
  List.mem_of_getElem? h

theorem exists_node_of_mem {key : NodeKey} (h : key ∈ w.keys) : ∃ n, w.key? n = some key :=
  List.mem_iff_getElem?.1 h

theorem mem_nodes {n : Nat} : n ∈ w.nodes ↔ n < w.size := List.mem_range

theorem holds_iff {p : NodeKey → Bool} {n : Nat} :
    w.holds p n = true ↔ ∃ key, w.key? n = some key ∧ p key = true :=
  Option.any_eq_true ..

theorem lt_size_of_holds {p : NodeKey → Bool} {n : Nat} (h : w.holds p n = true) : n < w.size := by
  obtain ⟨key, hk, -⟩ := holds_iff.1 h
  exact lt_size_of_key? hk

theorem WellFormed.node_eq (hw : w.WellFormed) {n m : Nat} {k : SortKey}
    (hn : w.sortKey? n = some k) (hm : w.sortKey? m = some k) : n = m := by
  have hn' : (w.keys.map sortKey)[n]? = some k := by rw [List.getElem?_map]; exact hn
  have hm' : (w.keys.map sortKey)[m]? = some k := by rw [List.getElem?_map]; exact hm
  obtain ⟨hnl, -⟩ := List.getElem?_eq_some_iff.1 hn'
  exact (List.getElem?_inj hnl hw.distinct).1 (hn'.trans hm'.symm)

theorem sortKey?_of_node? {key : NodeKey} {n : Nat} (h : w.node? key = some n) :
    w.sortKey? n = some (sortKey key) := by
  unfold node? at h
  obtain ⟨hn, hs, -⟩ := List.findIdx?_eq_some_iff_getElem.1 h
  exact sortKey?_eq_some.2 ⟨w.keys[n], List.getElem?_eq_getElem hn, (same_iff.1 hs).symm⟩

theorem node?_eq_none {key : NodeKey} :
    w.node? key = none ↔ sortKey key ∉ w.keys.map sortKey := by
  unfold node?
  rw [List.findIdx?_eq_none_iff]
  constructor
  · intro h hm
    obtain ⟨k, hk, he⟩ := List.mem_map.1 hm
    have := h k hk
    rw [same_iff.2 he.symm] at this
    cases this
  · intro h k hk
    rw [Bool.eq_false_iff]
    intro hs
    exact h (List.mem_map.2 ⟨k, hk, (same_iff.1 hs).symm⟩)

theorem mem_sortKeys {k : SortKey} : k ∈ w.keys.map sortKey ↔ ∃ n, w.sortKey? n = some k := by
  constructor
  · intro h
    obtain ⟨key, hk, rfl⟩ := List.mem_map.1 h
    obtain ⟨n, hn⟩ := exists_node_of_mem hk
    exact ⟨n, sortKey?_eq_some.2 ⟨key, hn, rfl⟩⟩
  · rintro ⟨n, hn⟩
    obtain ⟨key, hk, rfl⟩ := sortKey?_eq_some.1 hn
    exact List.mem_map_of_mem (mem_keys_of_key? hk)

theorem WellFormed.node?_eq_some (hw : w.WellFormed) {key : NodeKey} {n : Nat} :
    w.node? key = some n ↔ w.sortKey? n = some (sortKey key) := by
  refine ⟨sortKey?_of_node?, fun h => ?_⟩
  cases hn : w.node? key with
  | none => exact absurd (mem_sortKeys.2 ⟨n, h⟩) (node?_eq_none.1 hn)
  | some m => rw [hw.node_eq (sortKey?_of_node? hn) h]

/-! ## Interning -/

structure Interned (w : Wiring) (key : NodeKey) (n : Nat) (w' : Wiring) : Prop where
  node : w'.sortKey? n = some (sortKey key)
  edges : w'.edges = w.edges
  grows : ∀ m k, w.sortKey? m = some k → w'.sortKey? m = some k
  keys : ∀ k, k ∈ w'.keys.map sortKey ↔ k ∈ w.keys.map sortKey ∨ k = sortKey key
  spelled : ∀ k ∈ w'.keys, k ∈ w.keys ∨ k = key

theorem intern_spec (w : Wiring) (key : NodeKey) :
    Interned w key (w.intern key).1 (w.intern key).2 := by
  unfold intern
  split
  · rename_i n hn
    have hs := sortKey?_of_node? hn
    refine ⟨hs, rfl, fun _ _ h => h, fun k => ⟨.inl, ?_⟩, fun k h => .inl h⟩
    rintro (h | rfl)
    · exact h
    · exact mem_sortKeys.2 ⟨n, hs⟩
  · refine ⟨?_, rfl, fun m k h => ?_, fun k => by simp, fun k h => by simpa using h⟩
    · simp [sortKey?, key?, size]
    · have hm : m < w.keys.length := lt_size_of_sortKey? h
      simpa [sortKey?, key?, List.getElem?_append_left hm] using h

theorem size_le_intern (w : Wiring) (key : NodeKey) : w.size ≤ (w.intern key).2.size := by
  unfold intern
  split
  · exact Nat.le_refl _
  · simp [size]

theorem WellFormed.intern (hw : w.WellFormed) (key : NodeKey) : (w.intern key).2.WellFormed := by
  have hsize := w.size_le_intern key
  have hedges := (w.intern_spec key).edges
  refine ⟨?_, ?_, ?_, ?_⟩
  · unfold Wiring.intern
    split
    · exact hw.distinct
    · rename_i hn
      rw [List.map_append, List.nodup_append]
      refine ⟨hw.distinct, by simp, ?_⟩
      intro k hk l hl he
      rw [List.map_cons, List.map_nil, List.mem_singleton] at hl
      exact node?_eq_none.1 hn (hl ▸ he ▸ hk)
  · rw [hedges]
    exact fun e he => Nat.lt_of_lt_of_le (hw.source_lt e he) hsize
  · rw [hedges]
    exact fun e he => Nat.lt_of_lt_of_le (hw.target_lt e he) hsize
  · rw [hedges]
    exact hw.single

theorem Interned.depends {key : NodeKey} {n : Nat} {w' : Wiring} (h : Interned w key n w')
    (hw : w.WellFormed) {x : Place} {k l : SortKey} : w'.Depends x k l ↔ w.Depends x k l := by
  constructor
  · rintro ⟨e, he, hk, hl, hx⟩
    rw [h.edges] at he
    obtain ⟨k', hk'⟩ := exists_sortKey? (hw.source_lt e he)
    obtain ⟨l', hl'⟩ := exists_sortKey? (hw.target_lt e he)
    rw [h.grows _ _ hk'] at hk
    rw [h.grows _ _ hl'] at hl
    exact ⟨e, he, hk'.trans hk, hl'.trans hl, hx⟩
  · rintro ⟨e, he, hk, hl, hx⟩
    exact ⟨e, h.edges ▸ he, h.grows _ _ hk, h.grows _ _ hl, hx⟩

/-! ## Linking -/

theorem edge?_eq_some {a b : Nat} {e : Edge} (h : w.edge? a b = some e) :
    e ∈ w.edges ∧ e.source = a ∧ e.target = b := by
  refine ⟨List.mem_of_find?_eq_some h, ?_⟩
  simpa using List.find?_some h

theorem WellFormed.edge? (hw : w.WellFormed) {e : Edge} (he : e ∈ w.edges) :
    w.edge? e.source e.target = some e := by
  cases h : w.edge? e.source e.target with
  | none =>
    have := List.find?_eq_none.1 h e he
    simp at this
  | some d =>
    obtain ⟨hd, hs, ht⟩ := edge?_eq_some h
    have := List.inj_on_of_nodup_map hw.single hd he (by simp [hs, ht])
    rw [this]

theorem hasEdge_iff {a b : Nat} :
    w.hasEdge a b = true ↔ ∃ e ∈ w.edges, e.source = a ∧ e.target = b := by
  simp [hasEdge, Wiring.edge?]

theorem WellFormed.conditionOn (hw : w.WellFormed) {e : Edge} (he : e ∈ w.edges) :
    w.conditionOn e.source e.target = e.condition := by
  rw [Wiring.conditionOn, hw.edge? he]
  rfl

theorem keys_link (w : Wiring) (a b : Nat) (c : Option Condition) : (w.link a b c).keys = w.keys := by
  unfold link
  split <;> rfl

theorem sortKey?_link (w : Wiring) (a b : Nat) (c : Option Condition) (n : Nat) :
    (w.link a b c).sortKey? n = w.sortKey? n := by
  rw [sortKey?, key?, keys_link]
  rfl

theorem WellFormed.link (hw : w.WellFormed) {a b : Nat} (ha : a < w.size) (hb : b < w.size)
    (c : Option Condition) : (w.link a b c).WellFormed := by
  unfold Wiring.link
  split
  · -- a wider condition leaves the ends of all edges as they are
    have hends : ∀ e : Edge, ((fun e : Edge => (e.source, e.target))
        (if e.source == a && e.target == b then
          { e with condition := Condition.either e.condition c } else e)) = (e.source, e.target) := by
      intro e
      split <;> rfl
    refine ⟨hw.distinct, ?_, ?_, ?_⟩
    · intro e he
      obtain ⟨d, hd, rfl⟩ := List.mem_map.1 he
      rw [(Prod.mk.inj (hends d)).1]
      exact hw.source_lt d hd
    · intro e he
      obtain ⟨d, hd, rfl⟩ := List.mem_map.1 he
      rw [(Prod.mk.inj (hends d)).2]
      exact hw.target_lt d hd
    · rw [List.map_map]
      exact (List.map_congr_left fun e _ => hends e) ▸ hw.single
  · rename_i hno
    refine ⟨hw.distinct, ?_, ?_, ?_⟩
    · intro e he
      rcases List.mem_append.1 he with he | he
      · exact hw.source_lt e he
      · rw [List.mem_singleton.1 he]
        exact ha
    · intro e he
      rcases List.mem_append.1 he with he | he
      · exact hw.target_lt e he
      · rw [List.mem_singleton.1 he]
        exact hb
    · rw [List.map_append, List.nodup_append]
      refine ⟨hw.single, by simp, ?_⟩
      intro p hp q hq hpq
      rw [List.map_cons, List.map_nil, List.mem_singleton] at hq
      obtain ⟨e, he, rfl⟩ := List.mem_map.1 hp
      rw [hq, Prod.mk.injEq] at hpq
      exact hno (hasEdge_iff.2 ⟨e, he, hpq⟩)

theorem depends_link {a b : Nat} {ka kb : SortKey}
    (ha : w.sortKey? a = some ka) (hb : w.sortKey? b = some kb) (c : Option Condition)
    {x : Place} {k l : SortKey} : (w.link a b c).Depends x k l ↔
      w.Depends x k l ∨ ka = k ∧ kb = l ∧ Condition.appliesAt c x = true := by
  unfold Depends
  simp only [sortKey?_link]
  unfold Wiring.link
  split
  · -- the edge is there, and its condition takes in the new one
    rename_i hhas
    obtain ⟨d, hd, hda, hdb⟩ := hasEdge_iff.1 hhas
    constructor
    · rintro ⟨e, he, hk, hl, hx⟩
      obtain ⟨e', he', rfl⟩ := List.mem_map.1 he
      by_cases hab : e'.source = a ∧ e'.target = b
      · simp only [hab, BEq.rfl, Bool.and_self, ite_true, ha, hb, Option.some.injEq] at hk hl hx
        rcases (Condition.appliesAt_either _ _ _).1 hx with hx | hx
        · exact .inl ⟨e', he', by rw [hab.1, ha, hk], by rw [hab.2, hb, hl], hx⟩
        · exact .inr ⟨hk, hl, hx⟩
      · have hne : (e'.source == a && e'.target == b) = false := by simpa using hab
        simp only [hne] at hk hl hx
        exact .inl ⟨e', he', hk, hl, hx⟩
    · rintro (⟨e, he, hk, hl, hx⟩ | ⟨hk, hl, hx⟩)
      · refine ⟨_, List.mem_map_of_mem he, ?_⟩
        split
        · exact ⟨hk, hl, (Condition.appliesAt_either _ _ _).2 (.inl hx)⟩
        · exact ⟨hk, hl, hx⟩
      · refine ⟨_, List.mem_map_of_mem hd, ?_⟩
        have hab : (d.source == a && d.target == b) = true := by simp [hda, hdb]
        rw [if_pos hab]
        exact ⟨by rw [hda, ha, hk], by rw [hdb, hb, hl],
          (Condition.appliesAt_either _ _ _).2 (.inr hx)⟩
  · constructor
    · rintro ⟨e, he, hk, hl, hx⟩
      rcases List.mem_append.1 he with he | he
      · exact .inl ⟨e, he, hk, hl, hx⟩
      · obtain rfl := List.mem_singleton.1 he
        rw [ha] at hk
        rw [hb] at hl
        exact .inr ⟨Option.some.inj hk, Option.some.inj hl, hx⟩
    · rintro (⟨e, he, hk, hl, hx⟩ | ⟨hk, hl, hx⟩)
      · exact ⟨e, List.mem_append_left _ he, hk, hl, hx⟩
      · exact ⟨⟨a, b, c⟩, by simp, by rw [ha, hk], by rw [hb, hl], hx⟩

/-! ## Connecting -/

section
variable (w) (a b : NodeKey) (c : Option Condition)

def withEnds : Wiring :=
  ((w.intern a).2.intern b).2

theorem connect_eq : w.connect a b c =
    (w.withEnds a b).link (w.intern a).1 ((w.intern a).2.intern b).1 c := rfl

theorem sortKey?_source : (w.withEnds a b).sortKey? (w.intern a).1 = some (sortKey a) :=
  ((w.intern a).2.intern_spec b).grows _ _ (w.intern_spec a).node

theorem sortKey?_target :
    (w.withEnds a b).sortKey? ((w.intern a).2.intern b).1 = some (sortKey b) :=
  ((w.intern a).2.intern_spec b).node

end

theorem WellFormed.withEnds (hw : w.WellFormed) (a b : NodeKey) : (w.withEnds a b).WellFormed :=
  (hw.intern a).intern b

theorem WellFormed.connect (hw : w.WellFormed) (a b : NodeKey) (c : Option Condition) :
    (w.connect a b c).WellFormed := by
  rw [connect_eq]
  exact (hw.withEnds a b).link (lt_size_of_sortKey? (w.sortKey?_source a b))
    (lt_size_of_sortKey? (w.sortKey?_target a b)) c

theorem depends_connect (hw : w.WellFormed) (a b : NodeKey) (c : Option Condition) {x : Place}
    {k l : SortKey} : (w.connect a b c).Depends x k l ↔
      w.Depends x k l ∨ sortKey a = k ∧ sortKey b = l ∧ Condition.appliesAt c x = true := by
  rw [connect_eq, depends_link (w.sortKey?_source a b) (w.sortKey?_target a b) c]
  have hb := ((w.intern a).2.intern_spec b).depends (hw.intern a) (x := x) (k := k) (l := l)
  have ha := (w.intern_spec a).depends hw (x := x) (k := k) (l := l)
  exact or_congr_left (hb.trans ha)

theorem mem_keys_connect (w : Wiring) (a b : NodeKey) (c : Option Condition) {k : SortKey} :
    k ∈ (w.connect a b c).keys.map sortKey ↔
      k ∈ w.keys.map sortKey ∨ k = sortKey a ∨ k = sortKey b := by
  rw [connect_eq, keys_link, withEnds, ((w.intern a).2.intern_spec b).keys,
    (w.intern_spec a).keys, or_assoc]

theorem spelled_connect (w : Wiring) (a b : NodeKey) (c : Option Condition) {k : NodeKey}
    (hk : k ∈ (w.connect a b c).keys) : k ∈ w.keys ∨ k = a ∨ k = b := by
  rw [connect_eq, keys_link, withEnds] at hk
  rcases ((w.intern a).2.intern_spec b).spelled k hk with hk | hk
  · rcases (w.intern_spec a).spelled k hk with hk | hk
    · exact .inl hk
    · exact .inr (.inl hk)
  · exact .inr (.inr hk)

end

end BuildGraph.Wiring
