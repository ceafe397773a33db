import BuildGraph.Proofs.CycleSearch
import BuildGraph.Proofs.NodeKey
import Mathlib.Data.Set.Finite.Basic

/-!
# Turns of the cycle search

The search goes from moment to moment: at each turn it takes up a root, tries a successor
or leaves a node, until nothing is left or a node of the path is met again. Every moment
keeps the invariant, so a node that is met again has a place on the path. From a finite
part of a graph the search returns a cycle if and only if there is one.
-/

namespace BuildGraph.CycleSearch

structure Moment (ν : Type) where
  frames : List (Frame ν)
  progress : Progress ν
  roots : List ν

section
variable {ν κ : Type} (eq : ν → ν → Bool) (successors : ν → List ν) (key : ν → κ)

/-! ## Turns -/

/-- There is no turn where a node of the path is met again. -/
inductive Turn : Moment ν → Moment ν → Prop where
  | pass {p : Progress ν} {root : ν} {roots : List ν} (finished : p.isFinished eq root = true) :
    Turn ⟨[], p, root :: roots⟩ ⟨[], p, roots⟩
  | start {p : Progress ν} {root : ν} {roots : List ν} (fresh : p.isFinished eq root = false) :
    Turn ⟨[], p, root :: roots⟩ ⟨[⟨root, successors root⟩], p.enter root, roots⟩
  | skip {p : Progress ν} {node next : ν} {untried roots : List ν} {below : List (Frame ν)}
      (inactive : p.isActive eq next = false) (finished : p.isFinished eq next = true) :
    Turn ⟨⟨node, next :: untried⟩ :: below, p, roots⟩ ⟨⟨node, untried⟩ :: below, p, roots⟩
  | enter {p : Progress ν} {node next : ν} {untried roots : List ν} {below : List (Frame ν)}
      (inactive : p.isActive eq next = false) (fresh : p.isFinished eq next = false) :
    Turn ⟨⟨node, next :: untried⟩ :: below, p, roots⟩
      ⟨⟨next, successors next⟩ :: ⟨node, untried⟩ :: below, p.enter next, roots⟩
  | leave {p : Progress ν} {node : ν} {roots : List ν} {below : List (Frame ν)} :
    Turn ⟨⟨node, []⟩ :: below, p, roots⟩ ⟨below, p.leave eq node, roots⟩

/-- The next successor of the newest node is active, so it closes a cycle. -/
def Moment.Meets (m : Moment ν) (next : ν) : Prop :=
  ∃ node untried below, m.frames = ⟨node, next :: untried⟩ :: below ∧
    m.progress.isActive eq next = true

inductive Moment.Ends : Moment ν → CycleSearch ν → Prop where
  | done {p : Progress ν} : Ends ⟨[], p, []⟩ ⟨none, p.expanded⟩
  | met {m : Moment ν} {next : ν} (meets : m.Meets eq next) :
    Ends m ⟨some (close eq m.frames next), m.progress.expanded⟩

def Visits (roots : List ν) : Moment ν → Prop :=
  Relation.ReflTransGen (Turn eq successors) ⟨[], {}, roots⟩

def Moment.outcome? (m : Moment ν) : Option (CycleSearch ν) :=
  match m.progress.run eq successors m.frames with
  | none => none
  | some (.error found) => some found
  | some (.ok p) => runAll eq successors p m.roots

variable {eq successors} {m n : Moment ν} {r : CycleSearch ν} {roots : List ν}

theorem Turn.outcome?_eq (h : Turn eq successors m n) :
    m.outcome? eq successors = n.outcome? eq successors := by
  cases h with
  | pass finished => simp only [Moment.outcome?, Progress.run, runAll, if_pos finished]
  | start fresh =>
    rw [Moment.outcome?, Progress.run, Moment.outcome?]
    simp only [runAll, fresh]
    rfl
  | skip inactive finished =>
    rw [Moment.outcome?, Progress.run, Moment.outcome?, if_neg (by simp [inactive]), if_pos finished]
  | enter inactive fresh =>
    rw [Moment.outcome?, Progress.run, Moment.outcome?, if_neg (by simp [inactive]),
      if_neg (by simp [fresh])]
  | leave => rw [Moment.outcome?, Progress.run, Moment.outcome?]

theorem Moment.Ends.outcome?_eq (h : m.Ends eq r) : m.outcome? eq successors = some r := by
  cases h with
  | done => simp only [Moment.outcome?, Progress.run, runAll]
  | met meets =>
    obtain ⟨frames, p, roots⟩ := m
    obtain ⟨node, untried, below, rfl, hactive⟩ := meets
    rw [Moment.outcome?, Progress.run, if_pos hactive]
    rfl

/-! ## From the first moment to the last -/

theorem outcome?_of_turns (h : Relation.ReflTransGen (Turn eq successors) m n) :
    m.outcome? eq successors = n.outcome? eq successors := by
  induction h with
  | refl => rfl
  | tail _ hturn ih => exact ih.trans hturn.outcome?_eq

variable (eq successors) in
def Moment.LeadsTo (m : Moment ν) : Except (CycleSearch ν) (Progress ν) → Prop
  | .ok p => Relation.ReflTransGen (Turn eq successors) m ⟨[], p, m.roots⟩
  | .error found => ∃ n, Relation.ReflTransGen (Turn eq successors) m n ∧ n.Ends eq found

theorem Turn.leadsTo {r : Except (CycleSearch ν) (Progress ν)} (h : Turn eq successors m n)
    (hroots : n.roots = m.roots) (hn : n.LeadsTo eq successors r) : m.LeadsTo eq successors r := by
  cases r with
  | ok p => exact .head h (hroots ▸ hn)
  | error found =>
    obtain ⟨l, hl, hends⟩ := hn
    exact ⟨l, .head h hl, hends⟩

theorem leadsTo_of_run {p : Progress ν} {frames : List (Frame ν)}
    {r : Except (CycleSearch ν) (Progress ν)} (h : p.run eq successors frames = some r)
    (roots : List ν) : Moment.LeadsTo eq successors ⟨frames, p, roots⟩ r := by
  refine Progress.run.partial_correctness eq successors
    (fun p frames r => Moment.LeadsTo eq successors ⟨frames, p, roots⟩ r) ?_ p frames r h
  intro run ih p frames r hr
  match frames, hr with
  | [], hr =>
    cases Option.some.inj hr
    exact .refl
  | ⟨node, []⟩ :: below, hr => exact Turn.leave.leadsTo rfl (ih _ _ _ hr)
  | ⟨node, next :: untried⟩ :: below, hr =>
    simp only at hr
    by_cases hactive : p.isActive eq next = true
    · rw [if_pos hactive] at hr
      cases Option.some.inj hr
      exact ⟨_, .refl, .met ⟨node, untried, below, rfl, hactive⟩⟩
    rw [if_neg hactive] at hr
    rw [Bool.not_eq_true] at hactive
    by_cases hfinished : p.isFinished eq next = true
    · rw [if_pos hfinished] at hr
      exact (Turn.skip hactive hfinished).leadsTo rfl (ih _ _ _ hr)
    · rw [if_neg hfinished] at hr
      rw [Bool.not_eq_true] at hfinished
      exact (Turn.enter hactive hfinished).leadsTo rfl (ih _ _ _ hr)

theorem exists_ends_of_runAll : ∀ {roots : List ν} {p : Progress ν},
    runAll eq successors p roots = some r →
      ∃ n, Relation.ReflTransGen (Turn eq successors) ⟨[], p, roots⟩ n ∧ n.Ends eq r
  | [], p, h => by
    cases Option.some.inj h
    exact ⟨_, .refl, .done⟩
  | root :: roots, p, h => by
    rw [runAll] at h
    by_cases hfinished : p.isFinished eq root = true
    · rw [if_pos hfinished] at h
      obtain ⟨n, hn, hends⟩ := exists_ends_of_runAll h
      exact ⟨n, .head (.pass hfinished) hn, hends⟩
    rw [if_neg hfinished] at h
    rw [Bool.not_eq_true] at hfinished
    cases hrun : (p.enter root).run eq successors [⟨root, successors root⟩] with
    | none => simp [hrun] at h
    | some outcome =>
      have hleads := leadsTo_of_run hrun roots
      rw [hrun] at h
      cases outcome with
      | error found =>
        cases Option.some.inj h
        obtain ⟨n, hn, hends⟩ := hleads
        exact ⟨n, .head (.start hfinished) hn, hends⟩
      | ok q =>
        obtain ⟨n, hn, hends⟩ := exists_ends_of_runAll h
        exact ⟨n, .head (.start hfinished) (Relation.ReflTransGen.trans hleads hn), hends⟩

theorem searchCycle_eq_some_iff :
    searchCycle eq successors roots = some r ↔ ∃ m, Visits eq successors roots m ∧ m.Ends eq r := by
  constructor
  · exact exists_ends_of_runAll
  · rintro ⟨m, hm, hends⟩
    have hstart : Moment.outcome? eq successors ⟨[], {}, roots⟩ = searchCycle eq successors roots := by
      simp only [Moment.outcome?, Progress.run]
      rfl
    rw [← hstart, outcome?_of_turns hm, hends.outcome?_eq]

/-! ## The invariant at every moment -/

section
variable {key} (heq : ∀ a b, eq a b = true ↔ key a = key b)
include heq

theorem Turn.inv (h : Turn eq successors m n)
    (hm : Inv successors key (fun _ => True) m.frames m.progress) :
    Inv successors key (fun _ => True) n.frames n.progress := by
  cases h with
  | pass => exact hm
  | start => exact hm.root trivial
  | skip _ finished => exact hm.skip ((isFinished_iff heq).1 finished)
  | enter inactive _ =>
    refine hm.enter (fun _ _ _ _ => trivial) fun hnext => ?_
    rw [(isActive_iff heq).2 hnext] at inactive
    cases inactive
  | leave => exact hm.leave heq

theorem Visits.inv (h : Visits eq successors roots m) :
    Inv successors key (fun _ => True) m.frames m.progress := by
  induction h with
  | refl => exact .nil
  | tail _ hturn ih => exact hturn.inv heq ih

theorem Visits.exists_place (h : Visits eq successors roots m) {next : ν} (hnext : m.Meets eq next) :
    ∃ i, (pathOf m.frames).findIdx? (fun v => eq v next) = some i := by
  obtain ⟨-, -, -, -, hactive⟩ := hnext
  exact (h.inv heq).exists_place heq ((isActive_iff heq).1 hactive)

end

end

/-! ## Answers -/

section
variable {ν κ : Type} (eq : ν → ν → Bool) (successors : ν → List ν) (key : ν → κ) (roots : List ν)

def Reached (v : ν) : Prop :=
  ∃ root ∈ roots, Relation.ReflTransGen (fun a b => b ∈ successors a) root v

/-- Nodes that are not told apart have the same successors. -/
def RespectsKeys : Prop :=
  ∀ a b, key a = key b → ∀ s ∈ successors a, ∃ t ∈ successors b, key t = key s

structure Answers (r : CycleSearch ν) : Prop where
  sound : ∀ c, r.cycle? = some c →
    IsCycle successors key c ∧ ∀ v ∈ c, Reached successors roots v
  complete : RespectsKeys successors key → (r.cycle? = none ↔ ∀ v, Reached successors roots v →
    ¬ Relation.TransGen (Leads successors key) (key v) (key v))
  /-- The turns of the search end with it and with nothing else. -/
  ended : ∀ s, (∃ m, Visits eq successors roots m ∧ m.Ends eq s) ↔ s = r
  /-- On the way a node that is met again always has a place on the path. -/
  placed : ∀ m, Visits eq successors roots m → ∀ next, m.Meets eq next →
    ∃ i, (pathOf m.frames).findIdx? (fun v => eq v next) = some i

variable {eq successors key roots} {r : CycleSearch ν}

theorem Reached.next {a b : ν} (h : Reached successors roots a) (hb : b ∈ successors a) :
    Reached successors roots b := by
  obtain ⟨root, hroot, hpath⟩ := h
  exact ⟨root, hroot, hpath.tail hb⟩

theorem Reached.root {root : ν} (h : root ∈ roots) : Reached successors roots root :=
  ⟨root, h, .refl⟩

theorem Reached.key_mem (hfinite : (key '' {v | Reached successors roots v}).Finite) {a : ν}
    (h : Reached successors roots a) : key a ∈ hfinite.toFinset :=
  hfinite.mem_toFinset.2 ⟨a, h, rfl⟩

theorem RespectsKeys.of_injective (hkey : key.Injective) : RespectsKeys successors key :=
  fun _ _ hab s hs => ⟨s, hkey hab ▸ hs, rfl⟩

theorem leads_of_mem {a b : ν} (h : b ∈ successors a) : Leads successors key (key a) (key b) :=
  ⟨a, rfl, b, h, rfl⟩

theorem IsCycle.transGen {c : List ν} (h : IsCycle successors key c) :
    ∃ v ∈ c, Relation.TransGen (Leads successors key) (key v) (key v) := by
  match c, h with
  | [], h => exact absurd h.long (by simp)
  | [_], h => exact absurd h.long (by simp)
  | a :: b :: rest, h =>
    obtain ⟨hab, hchain⟩ := List.isChain_cons_cons.1 h.chain
    have hsteps : ((b :: rest).map key).IsChain (Leads successors key) :=
      (List.isChain_map key).2 (hchain.imp fun _ _ => leads_of_mem)
    have hback : ((b :: rest).map key).getLast (by simp) = key a := by
      have hclosed := h.closed
      rw [← List.getLast?_map, List.map_cons, List.getLast?_cons_of_ne_nil (by simp),
        List.getLast?_eq_some_getLast (by simp)] at hclosed
      exact (Option.some.inj hclosed).symm
    refine ⟨a, List.mem_cons_self .., Relation.TransGen.head' (leads_of_mem hab) ?_⟩
    exact List.relationReflTransGen_of_exists_isChain_cons _ hsteps hback

section
variable (heq : ∀ a b, eq a b = true ↔ key a = key b)
  (hfinite : (key '' {v | Reached successors roots v}).Finite)
include heq hfinite

theorem exists_searchCycle : ∃ r, searchCycle eq successors roots = some r ∧
    ∀ c, r.cycle? = some c → IsCycle successors key c ∧ ∀ v ∈ c, Reached successors roots v := by
  obtain ⟨r, hr, hspec⟩ :=
    runAll_spec heq (fun _ ha _ => ha.next) (fun _ => Reached.key_mem hfinite) roots {} .nil
      fun _ => Reached.root
  refine ⟨r, hr, fun c hc => ?_⟩
  rcases hspec with ⟨d, hd, hcycle, hall⟩ | ⟨hnone, -⟩
  · obtain rfl : d = c := Option.some.inj (hd.symm.trans hc)
    exact ⟨hcycle, hall⟩
  · rw [hnone] at hc
    cases hc

theorem not_transGen_of_none (hrespects : RespectsKeys successors key)
    (hr : searchCycle eq successors roots = some r) (hnone : r.cycle? = none) {v : ν}
    (hv : Reached successors roots v) :
    ¬ Relation.TransGen (Leads successors key) (key v) (key v) := by
  obtain ⟨s, hs, hfound⟩ := searchCycle_spec heq (fun _ ha _ => ha.next)
    (fun _ => Reached.key_mem hfinite) hrespects roots fun _ => Reached.root
  obtain rfl : s = r := Option.some.inj (hs.symm.trans hr)
  rcases hfound with ⟨c, hc, -⟩ | ⟨-, hacyclic⟩
  · rw [hnone] at hc
    cases hc
  · obtain ⟨root, hroot, hpath⟩ := hv
    exact hacyclic root hroot _ (hpath.lift key fun _ _ => leads_of_mem)

end

/-- Where finitely many nodes are reached the search comes to an end. What it returns is a
cycle of reached nodes, and it returns none exactly if no reached node lies on a cycle. -/
theorem searchCycle_answers (heq : ∀ a b, eq a b = true ↔ key a = key b) (roots : List ν)
    (hfinite : (key '' {v | Reached successors roots v}).Finite) :
    ∃ r, searchCycle eq successors roots = some r ∧ Answers eq successors key roots r := by
  obtain ⟨r, hr, hsound⟩ := exists_searchCycle heq hfinite
  refine ⟨r, hr, hsound, fun hrespects => ⟨fun hnone v => ?_, fun hacyclic => ?_⟩, fun s => ?_, ?_⟩
  · exact not_transGen_of_none heq hfinite hrespects hr hnone
  · by_contra hsome
    obtain ⟨c, hc⟩ := Option.ne_none_iff_exists'.1 hsome
    obtain ⟨hcycle, hall⟩ := hsound c hc
    obtain ⟨v, hv, hround⟩ := hcycle.transGen
    exact hacyclic v (hall v hv) hround
  · rw [← searchCycle_eq_some_iff, hr, Option.some.injEq, eq_comm]
  · exact fun m hm next hnext => Visits.exists_place heq hm hnext

end

/-! ## A cycle under several spellings -/

def respelledNeeds (id : TargetId) : List TargetId :=
  if id.name = "App" then [⟨⟨"/w/"⟩, "Kit"⟩] else [⟨⟨"//w"⟩, "App"⟩]

def respelledRoots : List TargetId :=
  [⟨⟨"/w"⟩, "App"⟩, ⟨⟨"/w/."⟩, "App"⟩]

theorem mem_of_reached_respelled {id : TargetId} (h : Reached respelledNeeds respelledRoots id) :
    id ∈ respelledRoots ++ [⟨⟨"/w/"⟩, "Kit"⟩, ⟨⟨"//w"⟩, "App"⟩] := by
  obtain ⟨root, hroot, hpath⟩ := h
  rcases hpath.cases_tail with rfl | ⟨_, -, hlast⟩
  · exact List.mem_append_left _ hroot
  · unfold respelledNeeds at hlast
    split at hlast <;> simp [List.mem_singleton.1 hlast]

theorem respectsKeys_respelled : RespectsKeys respelledNeeds sortKey := by
  intro a b hab s hs
  have hname : a.name = b.name := (sortKey_targetId.1 hab).2
  exact ⟨s, by rwa [respelledNeeds, ← hname], rfl⟩

theorem answers_respelled :
    (∀ a b : TargetId, same a b = true ↔ sortKey a = sortKey b) ∧
      (sortKey '' {v | Reached respelledNeeds respelledRoots v}).Finite ∧
      ∃ r c, searchCycle same respelledNeeds respelledRoots = some r ∧ r.cycle? = some c ∧
        IsCycle respelledNeeds sortKey c := by
  have hsame (a b : TargetId) : same a b = true ↔ sortKey a = sortKey b := same_iff
  have hfinite : (sortKey '' {v | Reached respelledNeeds respelledRoots v}).Finite :=
    ((List.finite_toSet _).subset fun _ => mem_of_reached_respelled).image sortKey
  obtain ⟨r, hr, hanswers⟩ := searchCycle_answers hsame respelledRoots hfinite
  have happ : Reached respelledNeeds respelledRoots ⟨⟨"/w"⟩, "App"⟩ :=
    .root (List.mem_cons_self ..)
  have hround : Relation.TransGen (Leads respelledNeeds sortKey)
      (sortKey (⟨⟨"/w"⟩, "App"⟩ : TargetId)) (sortKey (⟨⟨"/w"⟩, "App"⟩ : TargetId)) :=
    .head ⟨⟨⟨"/w"⟩, "App"⟩, rfl, ⟨⟨"/w/"⟩, "Kit"⟩, by decide, rfl⟩
      (.single ⟨⟨⟨"/w/"⟩, "Kit"⟩, rfl, ⟨⟨"//w"⟩, "App"⟩, by decide, by decide +kernel⟩)
  have hsome : r.cycle? ≠ none := fun hnone =>
    (hanswers.complete respectsKeys_respelled).1 hnone _ happ hround
  obtain ⟨c, hc⟩ := Option.ne_none_iff_exists'.1 hsome
  exact ⟨hsame, hfinite, r, c, hr, hc, (hanswers.sound c hc).1⟩

end BuildGraph.CycleSearch
