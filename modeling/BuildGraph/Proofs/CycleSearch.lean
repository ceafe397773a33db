import BuildGraph.CycleSearch
import Mathlib.Data.Finset.Card
import Mathlib.Data.Finset.Filter
import Mathlib.Data.List.Chain
import Mathlib.Data.List.Nodup
import Mathlib.Logic.Relation

/-!
# Correctness of the cycle search

Nodes are compared by keys. Where finitely many keys are reached the search ends:
each step enters a new key or leaves less to do. What it returns is a cycle, and if
it returns none then every node that it finished has its successors among those
finished earlier, so that no cycle lies below any of them.
-/

namespace BuildGraph.CycleSearch

section
variable {ν κ : Type} (eq : ν → ν → Bool) (successors : ν → List ν) (key : ν → κ)

/-- Nodes along edges, the last one under the key of the first, else all different. -/
structure IsCycle (c : List ν) : Prop where
  chain : c.IsChain fun a b => b ∈ successors a
  closed : c.head?.map key = c.getLast?.map key
  long : 2 ≤ c.length
  distinct : (c.dropLast.map key).Nodup

/-- An edge between keys, whichever nodes stand for them. -/
def Leads (k l : κ) : Prop :=
  ∃ a, key a = k ∧ ∃ b ∈ successors a, key b = l

/-! ## Finished nodes -/

def Settled : List ν → Prop
  | [] => True
  | v :: rest => (∀ s ∈ successors v, key s ∈ rest.map key) ∧ Settled rest

section
variable {successors key}
  (hsucc : ∀ a b, key a = key b → ∀ s ∈ successors a, ∃ t ∈ successors b, key t = key s)
include hsucc

theorem Settled.closed {k l : κ} (hkl : Leads successors key k l) : ∀ {F : List ν},
    Settled successors key F → k ∈ F.map key → l ∈ F.map key
  | [], _, hk => nomatch hk
  | v :: rest, hF, hk => by
    rw [List.map_cons, List.mem_cons] at hk ⊢
    rcases hk with rfl | hk
    · obtain ⟨a, ha, b, hb, rfl⟩ := hkl
      obtain ⟨t, ht, hts⟩ := hsucc a v ha b hb
      exact .inr (hts ▸ hF.1 t ht)
    · exact .inr (Settled.closed hkl hF.2 hk)

theorem Settled.reaches {k l : κ} (hkl : Relation.TransGen (Leads successors key) k l)
    {F : List ν} (hF : Settled successors key F) (hk : k ∈ F.map key) : l ∈ F.map key := by
  induction hkl with
  | single h => exact Settled.closed hsucc h hF hk
  | tail _ h ih => exact Settled.closed hsucc h hF ih

theorem Settled.acyclic {k : κ} : ∀ {F : List ν}, Settled successors key F → k ∈ F.map key →
    ¬ Relation.TransGen (Leads successors key) k k
  | [], _, hk => nomatch hk
  | v :: rest, hF, hk => by
    intro hkk
    by_cases hrest : k ∈ rest.map key
    · exact Settled.acyclic hF.2 hrest hkk
    -- the first step from the newest node leads to an older one, and no way leads back
    · have hkv : k = key v := by
        rcases List.mem_cons.1 hk with h | h
        · exact h
        · exact absurd h hrest
      obtain ⟨l, ⟨a, ha, b, hb, hbl⟩, hl⟩ := Relation.TransGen.head'_iff.1 hkk
      obtain ⟨t, ht, hts⟩ := hsucc a v (ha.trans hkv) b hb
      have hlr : l ∈ rest.map key := hbl ▸ hts ▸ hF.1 t ht
      rcases Relation.reflTransGen_iff_eq_or_transGen.1 hl with rfl | hl
      · exact hrest hlr
      · exact hrest (Settled.reaches hsucc hl hF.2 hlr)

end

/-! ## The stack -/

/-- What is known of the frames below a node: each successor of a node is still to be
tried, is finished, or is the node above. -/
def Stacked (finished : List ν) : Option ν → List (Frame ν) → Prop
  | _, [] => True
  | above, f :: below =>
    (∀ s ∈ successors f.node, s ∈ f.untried ∨ key s ∈ finished.map key ∨ above = some s) ∧
      (∀ v, above = some v → v ∈ successors f.node) ∧ Stacked finished (some f.node) below

theorem Stacked.mono {finished finished' : List ν}
    (h : ∀ k ∈ finished.map key, k ∈ finished'.map key) : ∀ {above : Option ν}
    {frames : List (Frame ν)}, Stacked successors key finished above frames →
      Stacked successors key finished' above frames
  | _, [], _ => trivial
  | _, _ :: _, hs =>
    ⟨fun s hm => (hs.1 s hm).imp id (Or.imp (h _) id), hs.2.1,
      Stacked.mono h hs.2.2⟩

theorem Stacked.leave {finished : List ν} {node : ν} {below : List (Frame ν)}
    (hs : Stacked successors key finished (some node) below) :
    Stacked successors key (node :: finished) none below := by
  have hgrow : ∀ k ∈ finished.map key, k ∈ (node :: finished).map key := fun k hk =>
    List.mem_cons_of_mem _ hk
  cases below with
  | nil => trivial
  | cons g rest =>
    refine ⟨fun s hm => ?_, fun v hv => (nomatch hv),
      (Stacked.mono successors key hgrow hs).2.2⟩
    rcases hs.1 s hm with h | h | h
    · exact .inl h
    · exact .inr (.inl (hgrow _ h))
    · cases h
      exact .inr (.inl (List.mem_cons_self ..))

theorem Stacked.isChain {finished : List ν} : ∀ {above : Option ν} {frames : List (Frame ν)},
    Stacked successors key finished above frames →
      (frames.map (·.node)).IsChain fun a b => a ∈ successors b
  | _, [], _ => .nil
  | _, [_], _ => .singleton _
  | _, f :: _ :: _, hs =>
    .cons_cons (hs.2.2.2.1 f.node rfl) (Stacked.isChain hs.2.2)

/-! ## The invariant -/

variable (P : ν → Prop)

structure Inv (frames : List (Frame ν)) (p : Progress ν) : Prop where
  stacked : Stacked successors key p.finished none frames
  untried : ∀ f ∈ frames, ∀ s ∈ f.untried, s ∈ successors f.node
  inside : ∀ f ∈ frames, P f.node
  active : ∀ k, k ∈ p.active.map key ↔ k ∈ frames.map (key ·.node)
  distinct : (frames.map (key ·.node)).Nodup
  settled : Settled successors key p.finished

variable {eq successors key P} (heq : ∀ a b, eq a b = true ↔ key a = key b)

include heq in
theorem isActive_iff {p : Progress ν} {v : ν} :
    p.isActive eq v = true ↔ key v ∈ p.active.map key := by
  simp only [Progress.isActive, List.any_eq_true, heq, List.mem_map, eq_comm (a := key v)]

include heq in
theorem isFinished_iff {p : Progress ν} {v : ν} :
    p.isFinished eq v = true ↔ key v ∈ p.finished.map key := by
  simp only [Progress.isFinished, List.any_eq_true, heq, List.mem_map, eq_comm (a := key v)]

def met (key : ν → κ) (p : Progress ν) : List κ :=
  p.active.map key ++ p.finished.map key

theorem Inv.skip {node next : ν} {untried : List ν} {below : List (Frame ν)} {p : Progress ν}
    (h : Inv successors key P (⟨node, next :: untried⟩ :: below) p)
    (hnext : key next ∈ p.finished.map key) :
    Inv successors key P (⟨node, untried⟩ :: below) p := by
  obtain ⟨hs, hu, hi, ha, hd, hF⟩ := h
  have hnode : P node := hi _ (List.mem_cons_self ..)
  refine ⟨⟨fun s hm => ?_, hs.2.1, hs.2.2⟩, ?_, ?_, ha, hd, hF⟩
  · rcases hs.1 s hm with h | h | h
    · rcases List.mem_cons.1 h with rfl | h
      · exact .inr (.inl hnext)
      · exact .inl h
    · exact .inr (.inl h)
    · exact .inr (.inr h)
  · intro f hf s hm
    rcases List.mem_cons.1 hf with rfl | hf
    · exact hu _ (List.mem_cons_self ..) s (List.mem_cons_of_mem _ hm)
    · exact hu f (List.mem_cons_of_mem _ hf) s hm
  · intro f hf
    rcases List.mem_cons.1 hf with rfl | hf
    · exact hnode
    · exact hi f (List.mem_cons_of_mem _ hf)

theorem Inv.enter (hP : ∀ a, P a → ∀ b ∈ successors a, P b) {node next : ν} {untried : List ν}
    {below : List (Frame ν)} {p : Progress ν}
    (h : Inv successors key P (⟨node, next :: untried⟩ :: below) p)
    (hnext : key next ∉ p.active.map key) :
    Inv successors key P (⟨next, successors next⟩ :: ⟨node, untried⟩ :: below) (p.enter next) := by
  obtain ⟨hs, hu, hi, ha, hd, hF⟩ := h
  have hnode : P node := hi _ (List.mem_cons_self ..)
  have hmem : next ∈ successors node := hu _ (List.mem_cons_self ..) next (List.mem_cons_self ..)
  refine ⟨⟨fun s hm => .inl hm, fun v hv => (nomatch hv), fun s hm => ?_, fun v hv => ?_, hs.2.2⟩,
    ?_, ?_, fun k => ?_, List.nodup_cons.2 ⟨fun hk => ?_, hd⟩, hF⟩
  · rcases hs.1 s hm with h | h | h
    · rcases List.mem_cons.1 h with rfl | h
      · exact .inr (.inr rfl)
      · exact .inl h
    · exact .inr (.inl h)
    · cases h
  · cases hv
    exact hmem
  · intro f hf s hm
    rcases List.mem_cons.1 hf with rfl | hf
    · exact hm
    rcases List.mem_cons.1 hf with rfl | hf
    · exact hu _ (List.mem_cons_self ..) s (List.mem_cons_of_mem _ hm)
    · exact hu f (List.mem_cons_of_mem _ hf) s hm
  · intro f hf
    rcases List.mem_cons.1 hf with rfl | hf
    · exact hP node hnode next hmem
    rcases List.mem_cons.1 hf with rfl | hf
    · exact hnode
    · exact hi f (List.mem_cons_of_mem _ hf)
  · have := ha k
    simp only [Progress.enter, List.map_cons, List.mem_cons] at this ⊢
    rw [this]
  · exact hnext ((ha _).2 hk)

theorem Inv.nil : Inv successors key P [] {} := by
  refine ⟨trivial, ?_, ?_, fun k => Iff.rfl, .nil, trivial⟩ <;> exact fun _ h => nomatch h

theorem Inv.root {p : Progress ν} (h : Inv successors key P [] p) {node : ν} (hnode : P node) :
    Inv successors key P [⟨node, successors node⟩] (p.enter node) := by
  refine ⟨⟨fun s hm => .inl hm, fun v hv => (nomatch hv), trivial⟩, ?_, ?_, fun k => ?_,
    List.nodup_singleton _, h.settled⟩
  · intro f hf s hm
    rwa [List.mem_singleton.1 hf] at hm ⊢
  · intro f hf
    rwa [List.mem_singleton.1 hf]
  · have := h.active k
    simp only [Progress.enter, List.map_cons, List.mem_cons, this]

include heq in
theorem Inv.leave {node : ν} {below : List (Frame ν)} {p : Progress ν}
    (h : Inv successors key P (⟨node, []⟩ :: below) p) :
    Inv successors key P below (p.leave eq node) := by
  obtain ⟨hs, hu, hi, ha, hd, hF⟩ := h
  rw [List.map_cons, List.nodup_cons] at hd
  refine ⟨Stacked.leave successors key hs.2.2, fun f hf => hu f (List.mem_cons_of_mem _ hf),
    fun f hf => hi f (List.mem_cons_of_mem _ hf), fun k => ?_, hd.2, ⟨fun s hm => ?_, hF⟩⟩
  · have hk := ha k
    simp only [List.map_cons, List.mem_cons] at hk
    simp only [Progress.leave, List.mem_map, List.mem_filter, Bool.not_eq_true', ← Bool.not_eq_true,
      heq]
    constructor
    · rintro ⟨v, ⟨hv, hne⟩, rfl⟩
      rcases hk.1 (List.mem_map_of_mem hv) with h | h
      · exact absurd h.symm hne
      · simpa using h
    · intro hb
      have hb' : k ∈ below.map (key ·.node) := by simpa using hb
      obtain ⟨v, hv, rfl⟩ := List.mem_map.1 (hk.2 (.inr hb'))
      exact ⟨v, ⟨hv, fun e => hd.1 (e ▸ hb')⟩, rfl⟩
  · rcases hs.1 s hm with h | h | h
    · cases h
    · exact h
    · cases h

/-- A path turns into a cycle if a node is added that leads on from its end and has the
key of a node on it, from that node on. -/
theorem isCycle_drop {path : List ν} {i : Nat} {last next : ν}
    (hchain : path.IsChain fun a b => b ∈ successors a) (hdist : (path.map key).Nodup)
    (hlast : path.getLast? = some last) (hmem : next ∈ successors last) (hi : i < path.length)
    (hkey : key path[i] = key next) : IsCycle successors key (path.drop i ++ [next]) where
  chain := by
    refine (hchain.drop i).append (.singleton _) ?_
    intro x hx y hy
    rw [List.getLast?_drop, if_neg (by omega), hlast] at hx
    cases hx
    cases hy
    exact hmem
  closed := by
    rw [List.head?_append, List.head?_drop, List.getElem?_eq_getElem hi, List.getLast?_concat]
    simp [hkey]
  long := by
    rw [List.length_append, List.length_drop, List.length_singleton]
    omega
  distinct := by
    rw [List.dropLast_concat, List.map_drop]
    exact hdist.sublist (List.drop_sublist _ _)

include heq in
theorem Inv.exists_place {frames : List (Frame ν)} {p : Progress ν} {node : ν}
    (h : Inv successors key P frames p) (hnode : key node ∈ p.active.map key) :
    ∃ i, (pathOf frames).findIdx? (fun v => eq v node) = some i := by
  obtain ⟨f, hf, hk⟩ := List.mem_map.1 ((h.active _).1 hnode)
  have hpath : f.node ∈ pathOf frames :=
    List.mem_reverse.2 (List.mem_map_of_mem hf)
  rw [← Option.isSome_iff_exists, List.findIdx?_isSome, List.any_eq_true]
  exact ⟨f.node, hpath, (heq _ _).2 hk⟩

include heq in
theorem Inv.close {node next : ν} {untried : List ν} {below : List (Frame ν)} {p : Progress ν}
    (h : Inv successors key P (⟨node, next :: untried⟩ :: below) p)
    (hnext : key next ∈ p.active.map key) :
    IsCycle successors key (close eq (⟨node, untried⟩ :: below) next) := by
  obtain ⟨i, hi⟩ : ∃ i, (pathOf (⟨node, untried⟩ :: below)).findIdx? (fun v => eq v next) = some i :=
    h.exists_place heq hnext
  obtain ⟨hs, hu, -, -, hd, -⟩ := h
  have hmem : next ∈ successors node := hu _ (List.mem_cons_self ..) next (List.mem_cons_self ..)
  have hlast : (pathOf (⟨node, untried⟩ :: below)).getLast? = some node := by
    simp [pathOf]
  have hchain : (pathOf (⟨node, untried⟩ :: below)).IsChain fun a b => b ∈ successors a := by
    have hframes := Stacked.isChain successors key hs
    rw [pathOf, List.isChain_reverse]
    exact hframes
  have hdist : ((pathOf (⟨node, untried⟩ :: below)).map key).Nodup := by
    rw [pathOf, List.map_reverse, List.nodup_reverse, List.map_map]
    exact hd
  obtain ⟨hlt, hk, -⟩ := List.findIdx?_eq_some_iff_getElem.1 hi
  rw [CycleSearch.close, hi]
  exact isCycle_drop hchain hdist hlast hmem hlt ((heq _ _).1 hk)

theorem Inv.close_inside (hP : ∀ a, P a → ∀ b ∈ successors a, P b) {node next : ν}
    {untried : List ν} {below : List (Frame ν)} {p : Progress ν}
    (h : Inv successors key P (⟨node, next :: untried⟩ :: below) p) :
    ∀ v ∈ CycleSearch.close eq (⟨node, untried⟩ :: below) next, P v := by
  have hnode : P node := h.inside _ (List.mem_cons_self ..)
  have hmem : next ∈ successors node :=
    h.untried _ (List.mem_cons_self ..) next (List.mem_cons_self ..)
  intro v hv
  simp only [CycleSearch.close] at hv
  rcases List.mem_append.1 hv with hv | hv
  · have hv := List.mem_of_mem_drop hv
    simp only [pathOf, List.mem_reverse, List.map_cons, List.mem_cons, List.mem_map] at hv
    rcases hv with rfl | ⟨f, hf, rfl⟩
    · exact hnode
    · exact h.inside f (List.mem_cons_of_mem _ hf)
  · rw [List.mem_singleton.1 hv]
    exact hP node hnode next hmem

/-! ## The end of the search -/

theorem met_enter (p : Progress ν) (node : ν) : met key (p.enter node) = key node :: met key p :=
  rfl

include heq in
theorem mem_met_leave {p : Progress ν} {node : ν} {k : κ} (hk : k ∈ met key p) :
    k ∈ met key (p.leave eq node) := by
  simp only [met, Progress.leave, List.mem_append, List.mem_map, List.map_cons, List.mem_cons,
    List.mem_filter, Bool.not_eq_true', ← Bool.not_eq_true, heq] at hk ⊢
  rcases hk with ⟨v, hv, rfl⟩ | hk
  · by_cases he : key node = key v
    · exact .inr (.inl he.symm)
    · exact .inl ⟨v, ⟨hv, he⟩, rfl⟩
  · exact .inr (.inr hk)

open Classical in
noncomputable def unmet (key : ν → κ) (U : Finset κ) (p : Progress ν) : Nat :=
  (U.filter (· ∉ met key p)).card

def todo (frames : List (Frame ν)) : Nat :=
  (frames.flatMap fun f => f.node :: f.untried).length

theorem unmet_enter {U : Finset κ} {p : Progress ν} {node : ν} (hU : key node ∈ U)
    (hnew : key node ∉ met key p) : unmet key U (p.enter node) < unmet key U p := by
  classical
  refine Finset.card_lt_card (Finset.ssubset_iff_of_subset ?_ |>.2 ⟨key node, ?_, ?_⟩)
  · intro k hk
    simp only [Finset.mem_filter, met_enter, List.mem_cons, not_or] at hk ⊢
    exact ⟨hk.1, hk.2.2⟩
  · exact Finset.mem_filter.2 ⟨hU, hnew⟩
  · simp [met_enter]

include heq in
theorem unmet_leave (U : Finset κ) (p : Progress ν) (node : ν) :
    unmet key U (p.leave eq node) ≤ unmet key U p := by
  classical
  refine Finset.card_le_card fun k hk => ?_
  simp only [Finset.mem_filter] at hk ⊢
  exact ⟨hk.1, fun h => hk.2 (mem_met_leave heq h)⟩

variable (successors key P) in
def Sound (p : Progress ν) : Except (CycleSearch ν) (Progress ν) → Prop
  | .ok p' => Inv successors key P [] p' ∧ ∀ k ∈ met key p, k ∈ met key p'
  | .error found =>
    ∃ c, found.cycle? = some c ∧ IsCycle successors key c ∧ ∀ v ∈ c, P v

theorem Sound.of_met {p q : Progress ν} {r : Except (CycleSearch ν) (Progress ν)}
    (hr : Sound successors key P q r) (hmet : ∀ k ∈ met key p, k ∈ met key q) :
    Sound successors key P p r := by
  cases r with
  | ok p' => exact ⟨hr.1, fun k hk => hr.2 k (hmet k hk)⟩
  | error found => exact hr

theorem met_of_inv_nil {p : Progress ν} (h : Inv successors key P [] p) :
    met key p = p.finished.map key := by
  have hactive : p.active.map key = [] := by
    rw [List.eq_nil_iff_forall_not_mem]
    intro k hk
    exact nomatch (h.active k).1 hk
  rw [met, hactive, List.nil_append]

section
variable (hP : ∀ a, P a → ∀ b ∈ successors a, P b) {U : Finset κ} (hU : ∀ a, P a → key a ∈ U)
include heq hP hU

/-- Where the keys are among finitely many the stack is worked off: the keys not met yet
become fewer, or stay as they are and the stack has less to do. -/
theorem run_spec (frames : List (Frame ν)) (p : Progress ν)
    (h : Inv successors key P frames p) :
    ∃ r, p.run eq successors frames = some r ∧ Sound successors key P p r := by
  match frames, h with
  | [], h => exact ⟨.ok p, by rw [Progress.run], h, fun _ hk => hk⟩
  | ⟨node, []⟩ :: below, h =>
    have hless := unmet_leave heq U p node
    obtain ⟨r, hr, hs⟩ := run_spec below (p.leave eq node) (h.leave heq)
    exact ⟨r, by rw [Progress.run, hr], hs.of_met fun _ => mem_met_leave heq⟩
  | ⟨node, next :: untried⟩ :: below, h =>
    by_cases hactive : p.isActive eq next = true
    · refine ⟨.error ⟨some _, p.expanded⟩, by rw [Progress.run, if_pos hactive], _, rfl, ?_,
        h.close_inside hP⟩
      exact h.close heq ((isActive_iff heq).1 hactive)
    by_cases hfinished : p.isFinished eq next = true
    · obtain ⟨r, hr, hs⟩ :=
        run_spec (⟨node, untried⟩ :: below) p (h.skip ((isFinished_iff heq).1 hfinished))
      exact ⟨r, by rw [Progress.run, if_neg hactive, if_pos hfinished, hr], hs⟩
    · rw [isActive_iff heq] at hactive
      rw [isFinished_iff heq] at hfinished
      have hnew : key next ∉ met key p := by simp [met, *]
      have hnode : P node := h.inside _ (List.mem_cons_self ..)
      have hmem : next ∈ successors node :=
        h.untried _ (List.mem_cons_self ..) next (List.mem_cons_self ..)
      have hless := unmet_enter (hU next (hP node hnode next hmem)) hnew
      obtain ⟨r, hr, hs⟩ := run_spec (⟨next, successors next⟩ :: ⟨node, untried⟩ :: below)
        (p.enter next) (h.enter hP hactive)
      refine ⟨r, ?_, hs.of_met fun k hk => List.mem_cons_of_mem _ hk⟩
      rw [Progress.run, if_neg (mt (isActive_iff heq).1 hactive),
        if_neg (mt (isFinished_iff heq).1 hfinished), hr]
termination_by (unmet key U p, todo frames)
decreasing_by
  · exact Prod.Lex.right' _ hless (by simp [todo])
  · exact Prod.Lex.right' _ (Nat.le_refl _) (by simp [todo])
  · exact Prod.Lex.left _ _ hless

theorem runAll_spec : ∀ (roots : List ν) (p : Progress ν), Inv successors key P [] p →
    (∀ v ∈ roots, P v) → ∃ r, runAll eq successors p roots = some r ∧
      ((∃ c, r.cycle? = some c ∧ IsCycle successors key c ∧ ∀ v ∈ c, P v) ∨
        (r.cycle? = none ∧ ∃ F, Settled successors key F ∧
          (∀ k ∈ p.finished.map key, k ∈ F.map key) ∧ ∀ v ∈ roots, key v ∈ F.map key))
  | [], p, h, _ => ⟨_, rfl, .inr ⟨rfl, p.finished, h.settled, fun _ hk => hk, fun _ hv => nomatch hv⟩⟩
  | root :: roots, p, h, hroots => by
    have hroot : P root := hroots _ (List.mem_cons_self ..)
    have hrest : ∀ v ∈ roots, P v := fun v hv => hroots v (List.mem_cons_of_mem _ hv)
    by_cases hfin : p.isFinished eq root = true
    · obtain ⟨r, hr, hs⟩ := runAll_spec roots p h hrest
      refine ⟨r, by rw [runAll, if_pos hfin, hr], hs.imp id ?_⟩
      rintro ⟨hnone, F, hF, hmono, hall⟩
      refine ⟨hnone, F, hF, hmono, fun v hv => ?_⟩
      rcases List.mem_cons.1 hv with rfl | hv
      · exact hmono _ ((isFinished_iff heq).1 hfin)
      · exact hall v hv
    · obtain ⟨r, hr, hs⟩ := run_spec heq hP hU _ _ (h.root hroot)
      cases r with
      | error found =>
        exact ⟨found, by rw [runAll, if_neg hfin, hr], .inl hs⟩
      | ok q =>
        obtain ⟨hq, hmet⟩ := hs
        -- with the stack worked off, the root and all that was met are finished
        rw [met_of_inv_nil hq] at hmet
        obtain ⟨r, hr', hs⟩ := runAll_spec roots q hq hrest
        refine ⟨r, by simp only [runAll, if_neg hfin, hr, hr'], hs.imp id ?_⟩
        rintro ⟨hnone, F, hF, hmono, hall⟩
        refine ⟨hnone, F, hF, fun k hk => ?_, fun v hv => ?_⟩
        · exact hmono k (hmet k (List.mem_append_right _ hk))
        · rcases List.mem_cons.1 hv with rfl | hv
          · exact hmono _ (hmet _ (List.mem_append_left _ (List.mem_cons_self ..)))
          · exact hall v hv

/-- Over finitely many keys the search comes to an end. It returns a cycle, or no cycle
lies on or below any of the roots. -/
theorem searchCycle_spec
    (hsucc : ∀ a b, key a = key b → ∀ s ∈ successors a, ∃ t ∈ successors b, key t = key s)
    (roots : List ν) (hroots : ∀ v ∈ roots, P v) :
    ∃ r, searchCycle eq successors roots = some r ∧
      ((∃ c, r.cycle? = some c ∧ IsCycle successors key c ∧ ∀ v ∈ c, P v) ∨
        (r.cycle? = none ∧ ∀ v ∈ roots, ∀ k,
          Relation.ReflTransGen (Leads successors key) (key v) k →
            ¬ Relation.TransGen (Leads successors key) k k)) := by
  obtain ⟨r, hr, hs⟩ := runAll_spec heq hP hU roots {} .nil hroots
  refine ⟨r, hr, hs.imp id ?_⟩
  rintro ⟨hnone, F, hF, -, hall⟩
  refine ⟨hnone, fun v hv k hk => Settled.acyclic hsucc hF ?_⟩
  rcases Relation.reflTransGen_iff_eq_or_transGen.1 hk with rfl | hk
  · exact hall v hv
  · exact Settled.reaches hsucc hk hF (hall v hv)

end

end

end BuildGraph.CycleSearch
