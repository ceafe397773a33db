import BuildGraph.Wiring
import Mathlib.Data.Finset.Card
import Mathlib.Data.Finset.Filter
import Mathlib.Logic.Relation

/-!
# Routes

A route is the list of edges along a directed path; the empty route leads from a
node to itself. Without cycles each node has a rank that falls along every edge,
so routes are bounded and inductions along edges come to an end.
-/

namespace BuildGraph.Wiring

def IsRoute (w : Wiring) : Nat → List Edge → Nat → Prop
  | a, [], b => a = b
  | a, e :: es, b => e ∈ w.edges ∧ e.source = a ∧ IsRoute w e.target es b

def Reaches (w : Wiring) (a b : Nat) : Prop :=
  ∃ es, w.IsRoute a es b

/-- No route but the empty one leads back to where it starts. -/
def Acyclic (w : Wiring) : Prop :=
  ∀ a es, w.IsRoute a es a → es = []

section
variable {w : Wiring}

@[simp] theorem isRoute_nil {a b : Nat} : w.IsRoute a [] b ↔ a = b := Iff.rfl

@[simp] theorem isRoute_cons {a b : Nat} {e : Edge} {es : List Edge} :
    w.IsRoute a (e :: es) b ↔ e ∈ w.edges ∧ e.source = a ∧ w.IsRoute e.target es b := Iff.rfl

theorem isRoute_append {b : Nat} : ∀ {a : Nat} {es fs : List Edge},
    w.IsRoute a (es ++ fs) b ↔ ∃ c, w.IsRoute a es c ∧ w.IsRoute c fs b
  | a, [], fs => by simp
  | a, e :: es, fs => by
    rw [List.cons_append, isRoute_cons, isRoute_append]
    constructor
    · rintro ⟨he, ha, c, h₁, h₂⟩
      exact ⟨c, ⟨he, ha, h₁⟩, h₂⟩
    · rintro ⟨c, ⟨he, ha, h₁⟩, h₂⟩
      exact ⟨he, ha, c, h₁, h₂⟩

theorem isRoute_single {e : Edge} (he : e ∈ w.edges) : w.IsRoute e.source [e] e.target :=
  ⟨he, rfl, rfl⟩

theorem IsRoute.mem_edges {a b : Nat} {es : List Edge} (h : w.IsRoute a es b) :
    ∀ e ∈ es, e ∈ w.edges := by
  induction es generalizing a with
  | nil => intro e he; cases he
  | cons d ds ih =>
    intro e he
    rcases List.mem_cons.1 he with rfl | he
    · exact h.1
    · exact ih h.2.2 e he

/-! ## Reaching -/

theorem Reaches.trans {a b c : Nat} (h₁ : w.Reaches a b) (h₂ : w.Reaches b c) :
    w.Reaches a c := by
  obtain ⟨es, he⟩ := h₁
  obtain ⟨fs, hf⟩ := h₂
  exact ⟨es ++ fs, isRoute_append.2 ⟨b, he, hf⟩⟩

theorem Reaches.single {e : Edge} (he : e ∈ w.edges) : w.Reaches e.source e.target :=
  ⟨[e], isRoute_single he⟩

theorem mem_successors {a b : Nat} :
    b ∈ w.successors a ↔ ∃ e ∈ w.edges, e.source = a ∧ e.target = b := by
  simp [successors, and_assoc]

theorem mem_predecessors {a b : Nat} :
    a ∈ w.predecessors b ↔ ∃ e ∈ w.edges, e.source = a ∧ e.target = b := by
  simp only [predecessors, List.mem_map, List.mem_filter, beq_iff_eq]
  constructor
  · rintro ⟨e, ⟨he, hb⟩, ha⟩
    exact ⟨e, he, ha, hb⟩
  · rintro ⟨e, he, ha, hb⟩
    exact ⟨e, ⟨he, hb⟩, ha⟩

theorem Reaches.of_successor {a b : Nat} (h : b ∈ w.successors a) : w.Reaches a b := by
  obtain ⟨e, he, rfl, rfl⟩ := mem_successors.1 h
  exact .single he

/-! ## Cycles -/

def Next (w : Wiring) (a b : Nat) : Prop :=
  b ∈ w.successors a

theorem transGen_next_iff {a b : Nat} :
    Relation.TransGen w.Next a b ↔ ∃ es, es ≠ [] ∧ w.IsRoute a es b := by
  constructor
  · intro h
    induction h with
    | single h =>
      obtain ⟨e, he, rfl, rfl⟩ := mem_successors.1 h
      exact ⟨[e], by simp, isRoute_single he⟩
    | tail _ h ih =>
      obtain ⟨es, hne, hes⟩ := ih
      obtain ⟨e, he, rfl, rfl⟩ := mem_successors.1 h
      exact ⟨es ++ [e], by simp, isRoute_append.2 ⟨_, hes, isRoute_single he⟩⟩
  · rintro ⟨es, hne, hes⟩
    induction es generalizing a with
    | nil => exact absurd rfl hne
    | cons e es ih =>
      obtain ⟨he, rfl, hes⟩ := hes
      have hnext : w.Next e.source e.target := mem_successors.2 ⟨e, he, rfl, rfl⟩
      cases es with
      | nil => exact hes ▸ .single hnext
      | cons d ds => exact .head hnext (ih (by simp) hes)

theorem acyclic_iff : w.Acyclic ↔ ∀ a, ¬ Relation.TransGen w.Next a a := by
  constructor
  · intro hw a h
    obtain ⟨es, hne, hes⟩ := transGen_next_iff.1 h
    exact hne (hw a es hes)
  · intro h a es hes
    by_contra hne
    exact h a (transGen_next_iff.2 ⟨es, hne, hes⟩)

/-! ## Ranks -/

open Classical in
/-- The number of edge ends that a node reaches by a route that is not empty. -/
noncomputable def rank (w : Wiring) (a : Nat) : Nat :=
  ((w.edges.map (·.target)).toFinset.filter fun b => ∃ es, es ≠ [] ∧ w.IsRoute a es b).card

theorem rank_lt (hw : w.Acyclic) {e : Edge} (he : e ∈ w.edges) :
    w.rank e.target < w.rank e.source := by
  classical
  refine Finset.card_lt_card (Finset.ssubset_iff_of_subset ?_ |>.2 ⟨e.target, ?_, ?_⟩)
  · intro b hb
    rw [Finset.mem_filter] at hb ⊢
    obtain ⟨hm, es, -, hes⟩ := hb
    exact ⟨hm, e :: es, by simp, he, rfl, hes⟩
  · rw [Finset.mem_filter]
    exact ⟨by simpa using ⟨e, he, rfl⟩, [e], by simp, isRoute_single he⟩
  · rw [Finset.mem_filter]
    rintro ⟨-, es, hne, hes⟩
    exact hne (hw _ _ hes)

theorem rank_le_edges (w : Wiring) (a : Nat) : w.rank a ≤ w.edges.length := by
  classical
  calc w.rank a ≤ (w.edges.map (·.target)).toFinset.card := Finset.card_filter_le _ _
    _ ≤ (w.edges.map (·.target)).length := List.toFinset_card_le _
    _ = w.edges.length := List.length_map _

theorem IsRoute.length_le_rank (hw : w.Acyclic) {a b : Nat} {es : List Edge}
    (h : w.IsRoute a es b) : es.length ≤ w.rank a := by
  induction es generalizing a with
  | nil => exact Nat.zero_le _
  | cons e es ih =>
    obtain ⟨he, rfl, h⟩ := h
    have := rank_lt hw he
    have := ih h
    simp only [List.length_cons]
    omega

theorem Acyclic.induction (hw : w.Acyclic) {motive : Nat → Prop}
    (step : ∀ a, (∀ b ∈ w.successors a, motive b) → motive a) (a : Nat) : motive a := by
  induction h : w.rank a using Nat.strongRecOn generalizing a with
  | ind n ih =>
    subst h
    refine step a fun b hb => ?_
    obtain ⟨e, he, rfl, rfl⟩ := mem_successors.1 hb
    exact ih _ (rank_lt hw he) _ rfl

end

/-! ## All routes between two nodes -/

def routesWithin (w : Wiring) (b : Nat) : Nat → Nat → List (List Edge)
  | 0, a => if a = b then [[]] else []
  | n + 1, a =>
    (if a = b then [[]] else []) ++
      (w.edges.filter (·.source == a)).flatMap fun e =>
        (w.routesWithin b n e.target).map (e :: ·)

/-- The routes from `a` to `b`, if there are no cycles. -/
def routes (w : Wiring) (a b : Nat) : List (List Edge) :=
  w.routesWithin b w.edges.length a

theorem mem_routesWithin {w : Wiring} {b : Nat} : ∀ {n a : Nat} {es : List Edge},
    es ∈ w.routesWithin b n a ↔ w.IsRoute a es b ∧ es.length ≤ n
  | 0, a, es => by
    by_cases h : a = b <;> cases es <;> simp [routesWithin, h]
  | n + 1, a, [] => by
    by_cases h : a = b <;> simp [routesWithin, h]
  | n + 1, a, e :: es => by
    have ih := @mem_routesWithin w b n e.target es
    have hhead : e :: es ∉ (if a = b then [[]] else [] : List (List Edge)) := by
      split <;> simp
    rw [routesWithin, List.mem_append, or_iff_right hhead]
    simp only [List.mem_flatMap, List.mem_filter, List.mem_map, beq_iff_eq, isRoute_cons,
      List.length_cons, Nat.add_le_add_iff_right]
    constructor
    · rintro ⟨d, ⟨hd, ha⟩, fs, hfs, h⟩
      cases h
      exact ⟨⟨hd, ha, (ih.1 hfs).1⟩, (ih.1 hfs).2⟩
    · rintro ⟨⟨he, ha, hes⟩, hn⟩
      exact ⟨e, ⟨he, ha⟩, es, ih.2 ⟨hes, hn⟩, rfl⟩

theorem mem_routes {w : Wiring} (hw : w.Acyclic) {a b : Nat} {es : List Edge} :
    es ∈ w.routes a b ↔ w.IsRoute a es b := by
  rw [routes, mem_routesWithin]
  refine and_iff_left_of_imp fun h => ?_
  exact (h.length_le_rank hw).trans (w.rank_le_edges a)

theorem routesWithin_nodup {w : Wiring} (hw : w.edges.Nodup) (b : Nat) :
    ∀ n a : Nat, (w.routesWithin b n a).Nodup
  | 0, a => by rw [routesWithin]; split <;> simp
  | n + 1, a => by
    rw [routesWithin, List.nodup_append]
    refine ⟨by split <;> simp, ?_, ?_⟩
    · rw [List.nodup_flatMap]
      refine ⟨fun e _ => (routesWithin_nodup hw b n e.target).map fun _ _ h => by simpa using h, ?_⟩
      refine (hw.filter _).imp fun {d e} hne => ?_
      refine List.disjoint_left.2 ?_
      intro es hd he
      obtain ⟨_, -, rfl⟩ := List.mem_map.1 hd
      obtain ⟨_, -, h⟩ := List.mem_map.1 he
      simp only [List.cons.injEq] at h
      exact hne h.1.symm
    · intro es hes fs hfs
      have : es = [] := by split at hes <;> simp_all
      obtain ⟨e, -, h⟩ := List.mem_flatMap.1 hfs
      obtain ⟨_, -, rfl⟩ := List.mem_map.1 h
      simp [this]

end BuildGraph.Wiring
