import BuildGraph.Proofs.Interning

/-!
# Edges with the keys at their ends

What a wiring says without the numbers of its nodes: its keys, and links from one key to
another. A well-formed wiring has each link once.
-/

namespace BuildGraph

structure Link where
  source : NodeKey
  target : NodeKey
  condition : Option Condition
deriving DecidableEq

def Link.Joins (l : Link) (a b : NodeKey) : Prop :=
  sortKey l.source = sortKey a ∧ sortKey l.target = sortKey b

namespace Wiring

def link? (w : Wiring) (e : Edge) : Option Link := do
  return ⟨← w.key? e.source, ← w.key? e.target, e.condition⟩

def links (w : Wiring) : List Link :=
  w.edges.filterMap w.link?

section
variable {w : Wiring}

theorem link?_eq_some {e : Edge} {l : Link} : w.link? e = some l ↔
    w.key? e.source = some l.source ∧ w.key? e.target = some l.target ∧
      e.condition = l.condition := by
  cases l
  simp [link?, Option.bind_eq_some_iff]

theorem depends_iff_link {x : Place} {k l : SortKey} : w.Depends x k l ↔
    ∃ link ∈ w.links, sortKey link.source = k ∧ sortKey link.target = l ∧
      Condition.appliesAt link.condition x = true := by
  constructor
  · rintro ⟨e, he, hk, hl, hx⟩
    obtain ⟨a, ha, hak⟩ := sortKey?_eq_some.1 hk
    obtain ⟨b, hb, hbl⟩ := sortKey?_eq_some.1 hl
    have hlink : w.link? e = some ⟨a, b, e.condition⟩ := link?_eq_some.2 ⟨ha, hb, rfl⟩
    exact ⟨_, List.mem_filterMap.2 ⟨e, he, hlink⟩, hak, hbl, hx⟩
  · rintro ⟨link, hlink, hk, hl, hx⟩
    obtain ⟨e, he, hlink⟩ := List.mem_filterMap.1 hlink
    obtain ⟨ha, hb, hc⟩ := link?_eq_some.1 hlink
    exact ⟨e, he, sortKey?_eq_some.2 ⟨_, ha, hk⟩, sortKey?_eq_some.2 ⟨_, hb, hl⟩, hc ▸ hx⟩

/-! ## Well-formed wirings -/

theorem WellFormed.keys_nodup (hw : w.WellFormed) : w.keys.Nodup :=
  .of_map _ hw.distinct

theorem WellFormed.ends_eq (hw : w.WellFormed) {d e : Edge} {l m : Link} (hd : w.link? d = some l)
    (he : w.link? e = some m) (h : l.Joins m.source m.target) :
    d.source = e.source ∧ d.target = e.target := by
  obtain ⟨hds, hdt, -⟩ := link?_eq_some.1 hd
  obtain ⟨hes, het, -⟩ := link?_eq_some.1 he
  exact ⟨hw.node_eq (sortKey?_eq_some.2 ⟨_, hds, h.1⟩) (sortKey?_eq_some.2 ⟨_, hes, rfl⟩),
    hw.node_eq (sortKey?_eq_some.2 ⟨_, hdt, h.2⟩) (sortKey?_eq_some.2 ⟨_, het, rfl⟩)⟩

theorem WellFormed.link_unique (hw : w.WellFormed) {l m : Link} (hl : l ∈ w.links)
    (hm : m ∈ w.links) (h : l.Joins m.source m.target) : l = m := by
  obtain ⟨d, hd, hdl⟩ := List.mem_filterMap.1 hl
  obtain ⟨e, he, hem⟩ := List.mem_filterMap.1 hm
  obtain ⟨hsource, htarget⟩ := hw.ends_eq hdl hem h
  have hde : d = e := List.inj_on_of_nodup_map hw.single hd he (by rw [hsource, htarget])
  rw [hde, hem] at hdl
  exact (Option.some.inj hdl).symm

theorem WellFormed.links_nodup (hw : w.WellFormed) : w.links.Nodup := by
  refine List.Nodup.filterMap ?_ (.of_map _ hw.single)
  intro d e l hd he
  obtain ⟨hsource, htarget⟩ := hw.ends_eq hd he ⟨rfl, rfl⟩
  have hcondition := (link?_eq_some.1 hd).2.2.trans (link?_eq_some.1 he).2.2.symm
  cases d
  cases e
  simp_all

theorem WellFormed.appliesAt_link (hw : w.WellFormed) {l : Link} (hl : l ∈ w.links) {x : Place} :
    Condition.appliesAt l.condition x = true ↔
      w.Depends x (sortKey l.source) (sortKey l.target) := by
  rw [depends_iff_link]
  constructor
  · exact fun hx => ⟨l, hl, rfl, rfl, hx⟩
  · rintro ⟨m, hm, hsource, htarget, hx⟩
    rwa [← hw.link_unique hm hl ⟨hsource, htarget⟩]

theorem WellFormed.exists_link (hw : w.WellFormed) {e : Edge} (he : e ∈ w.edges) :
    ∃ l ∈ w.links, w.link? e = some l := by
  obtain ⟨a, ha⟩ := exists_key? (hw.source_lt e he)
  obtain ⟨b, hb⟩ := exists_key? (hw.target_lt e he)
  have hlink : w.link? e = some ⟨a, b, e.condition⟩ := link?_eq_some.2 ⟨ha, hb, rfl⟩
  exact ⟨_, List.mem_filterMap.2 ⟨e, he, hlink⟩, hlink⟩

/-! ## Wirings that stand for a list of links -/

/-- The wiring has the dependencies that the list declares, wherever they apply. -/
def StandsFor (w : Wiring) (ds : List Link) : Prop :=
  ∀ x k l, w.Depends x k l ↔ ∃ d ∈ ds, sortKey d.source = k ∧ sortKey d.target = l ∧
    Condition.appliesAt d.condition x = true

theorem StandsFor.joins_iff {ds : List Link} (h : w.StandsFor ds) {a b : NodeKey} :
    (∃ l ∈ w.links, l.Joins a b) ↔ ∃ d ∈ ds, d.Joins a b := by
  constructor
  · rintro ⟨l, hl, hsource, htarget⟩
    obtain ⟨p, hp⟩ := Condition.exists_appliesAt l.condition
    obtain ⟨d, hd, hds, hdt, -⟩ := (h _ _ _).1 (depends_iff_link.2 ⟨l, hl, hsource, htarget, hp⟩)
    exact ⟨d, hd, hds, hdt⟩
  · rintro ⟨d, hd, hsource, htarget⟩
    obtain ⟨p, hp⟩ := Condition.exists_appliesAt d.condition
    obtain ⟨l, hl, hls, hlt, -⟩ := depends_iff_link.1 ((h _ _ _).2 ⟨d, hd, hsource, htarget, hp⟩)
    exact ⟨l, hl, hls, hlt⟩

theorem StandsFor.ends_iff {ds : List Link} (h : w.StandsFor ds) {k : SortKey} :
    (∃ l ∈ w.links, sortKey l.source = k ∨ sortKey l.target = k) ↔
      ∃ d ∈ ds, sortKey d.source = k ∨ sortKey d.target = k := by
  constructor
  · rintro ⟨l, hl, hk⟩
    obtain ⟨d, hd, hsource, htarget⟩ := h.joins_iff.1 ⟨l, hl, rfl, rfl⟩
    exact ⟨d, hd, by rwa [hsource, htarget]⟩
  · rintro ⟨d, hd, hk⟩
    obtain ⟨l, hl, hsource, htarget⟩ := h.joins_iff.2 ⟨d, hd, rfl, rfl⟩
    exact ⟨l, hl, by rwa [hsource, htarget]⟩

theorem StandsFor.appliesAt_iff {ds : List Link} (h : w.StandsFor ds) (hw : w.WellFormed)
    {l : Link} (hl : l ∈ w.links) {a b : NodeKey} (hab : l.Joins a b) {x : Place} :
    Condition.appliesAt l.condition x = true ↔
      ∃ d ∈ ds, d.Joins a b ∧ Condition.appliesAt d.condition x = true := by
  rw [hw.appliesAt_link hl, hab.1, hab.2, h]
  simp only [Link.Joins, and_assoc]

section
variable {ds : List Link} (h : w.StandsFor ds) (hw : w.WellFormed) {l : Link} (hl : l ∈ w.links)
  {a b : NodeKey} (hab : l.Joins a b)
include h hw hl hab

theorem StandsFor.union_iff (x : Place) : Condition.appliesAt l.condition x = true ↔
    ∃ c, (∃ d ∈ ds, d.Joins a b ∧ d.condition = c) ∧ Condition.appliesAt c x = true := by
  rw [h.appliesAt_iff hw hl hab]
  constructor
  · rintro ⟨d, hd, hdab, hx⟩
    exact ⟨d.condition, ⟨d, hd, hdab, rfl⟩, hx⟩
  · rintro ⟨_, ⟨d, hd, hdab, rfl⟩, hx⟩
    exact ⟨d, hd, hdab, hx⟩

theorem StandsFor.condition_eq_none_iff :
    l.condition = none ↔ ∃ d ∈ ds, d.Joins a b ∧ d.condition = none :=
  Condition.eq_none_of_union (h.union_iff hw hl hab)

theorem StandsFor.contains_iff {c : Condition} (hc : l.condition = some c) {p : Platform} :
    c.contains p = true ↔
      ∃ d ∈ ds, d.Joins a b ∧ ∃ c', d.condition = some c' ∧ c'.contains p = true := by
  rw [Condition.contains_of_union (h.union_iff hw hl hab) hc]
  constructor
  · rintro ⟨c', ⟨d, hd, hdab, hc'⟩, hp⟩
    exact ⟨d, hd, hdab, c', hc', hp⟩
  · rintro ⟨d, hd, hdab, c', hc', hp⟩
    exact ⟨c', ⟨d, hd, hdab, hc'⟩, hp⟩

end

end

end Wiring

end BuildGraph
