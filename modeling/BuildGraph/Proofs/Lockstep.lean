import BuildGraph.Proofs.CycleSearch
import BuildGraph.Proofs.Paired

/-!
# Runs in step

Checks that are made in the same order over entries that correspond have outcomes that
correspond. So have two cycle searches over matching nodes, if matching nodes have
matching successors in the same order: they go through matching states and return
matching cycles.
-/

namespace BuildGraph

inductive SameOutcome {ε δ α β : Type} (E : ε → δ → Prop) (R : α → β → Prop) :
    Except ε α → Except δ β → Prop where
  | ok {a : α} {b : β} (h : R a b) : SameOutcome E R (.ok a) (.ok b)
  | error {e : ε} {f : δ} (h : E e f) : SameOutcome E R (.error e) (.error f)

section
variable {ε δ α β α' β' : Type} {E : ε → δ → Prop} {R : α → β → Prop} {S : α' → β' → Prop}

theorem SameOutcome.bind {x : Except ε α} {y : Except δ β} {f : α → Except ε α'}
    {g : β → Except δ β'} (h : SameOutcome E R x y)
    (hfg : ∀ a b, x = .ok a → y = .ok b → R a b → SameOutcome E S (f a) (g b)) :
    SameOutcome E S (x >>= f) (y >>= g) := by
  cases h with
  | ok h => exact hfg _ _ rfl rfl h
  | error h => exact .error h

theorem SameOutcome.forM {f : α → Except ε Unit} {g : β → Except δ Unit} {xs : List α}
    {ys : List β} (h : List.Forall₂ R xs ys)
    (hfg : ∀ x y, R x y → SameOutcome E Eq (f x) (g y)) :
    SameOutcome E Eq (xs.forM f) (ys.forM g) := by
  induction h with
  | nil => exact .ok rfl
  | cons hxy _ ih => exact (hfg _ _ hxy).bind fun _ _ _ _ _ => ih

theorem findIdx?_eq_of_forall₂ {f : α → Bool} {g : β → Bool} {xs : List α} {ys : List β}
    (h : List.Forall₂ R xs ys) (hfg : ∀ x y, R x y → f x = g y) :
    xs.findIdx? f = ys.findIdx? g := by
  induction h with
  | nil => rfl
  | cons hxy _ ih => rw [List.findIdx?_cons, List.findIdx?_cons, hfg _ _ hxy, ih]

end

namespace CycleSearch

section
variable {ν μ : Type} (R : ν → μ → Prop)

/-! ## Matching states -/

structure FramesMatch (f : Frame ν) (g : Frame μ) : Prop where
  node : R f.node g.node
  untried : List.Forall₂ R f.untried g.untried

structure ProgressMatch (p : Progress ν) (q : Progress μ) : Prop where
  active : List.Forall₂ R p.active q.active
  finished : List.Forall₂ R p.finished q.finished
  expanded : p.expanded = q.expanded

structure FoundMatch (r : CycleSearch ν) (s : CycleSearch μ) : Prop where
  cycle : Option.Rel (List.Forall₂ R) r.cycle? s.cycle?
  expanded : r.expanded = s.expanded

variable {R} {eq : ν → ν → Bool} {eq' : μ → μ → Bool} {p : Progress ν} {q : Progress μ}
  {a : ν} {b : μ}

theorem ProgressMatch.enter (h : ProgressMatch R p q) (hab : R a b) :
    ProgressMatch R (p.enter a) (q.enter b) :=
  ⟨.cons hab h.active, h.finished, congrArg (· + 1) h.expanded⟩

section
variable (heq : ∀ a b a' b', R a a' → R b b' → eq a b = eq' a' b')
include heq

theorem ProgressMatch.leave (h : ProgressMatch R p q) (hab : R a b) :
    ProgressMatch R (p.leave eq a) (q.leave eq' b) := by
  refine ⟨List.rel_filter (fun x y hxy => ?_) h.active, .cons hab h.finished, h.expanded⟩
  show (!eq a x) = true ↔ (!eq' b y) = true
  rw [heq a x b y hab hxy]

theorem ProgressMatch.isActive (h : ProgressMatch R p q) (hab : R a b) :
    p.isActive eq a = q.isActive eq' b :=
  (Paired.of_forall₂ h.active).any_eq fun x y hxy => heq a x b y hab hxy

theorem ProgressMatch.isFinished (h : ProgressMatch R p q) (hab : R a b) :
    p.isFinished eq a = q.isFinished eq' b :=
  (Paired.of_forall₂ h.finished).any_eq fun x y hxy => heq a x b y hab hxy

theorem close_match {frames : List (Frame ν)} {frames' : List (Frame μ)}
    (h : List.Forall₂ (FramesMatch R) frames frames') (hab : R a b) :
    List.Forall₂ R (close eq frames a) (close eq' frames' b) := by
  have hpath : List.Forall₂ R (pathOf frames) (pathOf frames') :=
    List.rel_reverse (List.rel_map (fun _ _ hfg => hfg.node) h)
  have hindex : (pathOf frames).findIdx? (fun v => eq v a) =
      (pathOf frames').findIdx? fun v => eq' v b :=
    findIdx?_eq_of_forall₂ hpath fun x y hxy => heq x a y b hxy hab
  simp only [close, hindex]
  exact List.rel_append (List.forall₂_drop _ hpath) (.cons hab .nil)

/-! ## Searches -/

variable {successors : ν → List ν} {successors' : μ → List μ}
  (hsucc : ∀ a b, R a b → List.Forall₂ R (successors a) (successors' b))
include hsucc

theorem run_match {frames : List (Frame ν)} {r : Except (CycleSearch ν) (Progress ν)}
    (hr : p.run eq successors frames = some r) {q : Progress μ} {frames' : List (Frame μ)}
    (hpq : ProgressMatch R p q) (hframes : List.Forall₂ (FramesMatch R) frames frames') :
    ∃ s, q.run eq' successors' frames' = some s ∧
      SameOutcome (FoundMatch R) (ProgressMatch R) r s := by
  revert q frames'
  -- the search may have no end, so the induction is on the run that came to one
  refine Progress.run.partial_correctness eq successors (fun p frames r =>
    ∀ {q : Progress μ} {frames' : List (Frame μ)}, ProgressMatch R p q →
      List.Forall₂ (FramesMatch R) frames frames' →
        ∃ s, q.run eq' successors' frames' = some s ∧
          SameOutcome (FoundMatch R) (ProgressMatch R) r s) ?_ p frames r hr
  intro run ih p frames r hr q frames' hpq hframes
  cases hframes with
  | nil =>
    cases Option.some.inj hr
    exact ⟨.ok q, by rw [Progress.run], .ok hpq⟩
  | @cons f g below below' hfg hbelow =>
    obtain ⟨node, untried⟩ := f
    obtain ⟨node', untried'⟩ := g
    obtain ⟨hnode, huntried⟩ := hfg
    cases huntried with
    | nil =>
      rw [Progress.run]
      exact ih _ _ _ hr (hpq.leave heq hnode) hbelow
    | @cons next next' untried untried' hnext huntried =>
      have hrest : List.Forall₂ (FramesMatch R) (⟨node, untried⟩ :: below)
          (⟨node', untried'⟩ :: below') := .cons ⟨hnode, huntried⟩ hbelow
      rw [Progress.run, ← hpq.isActive heq hnext, ← hpq.isFinished heq hnext]
      simp only at hr
      by_cases hactive : p.isActive eq next = true
      · rw [if_pos hactive] at hr ⊢
        cases Option.some.inj hr
        exact ⟨_, rfl, .error ⟨.some (close_match heq hrest hnext), hpq.expanded⟩⟩
      rw [if_neg hactive] at hr ⊢
      by_cases hfinished : p.isFinished eq next = true
      · rw [if_pos hfinished] at hr ⊢
        exact ih _ _ _ hr hpq hrest
      · rw [if_neg hfinished] at hr ⊢
        exact ih _ _ _ hr (hpq.enter hnext) (.cons ⟨hnext, hsucc _ _ hnext⟩ hrest)

theorem runAll_match {roots : List ν} {roots' : List μ} (hroots : List.Forall₂ R roots roots') :
    ∀ {p : Progress ν} {q : Progress μ} {r : CycleSearch ν}, ProgressMatch R p q →
      runAll eq successors p roots = some r →
        ∃ s, runAll eq' successors' q roots' = some s ∧ FoundMatch R r s := by
  induction hroots with
  | nil =>
    intro p q r hpq hr
    cases Option.some.inj hr
    exact ⟨_, rfl, .none, hpq.expanded⟩
  | @cons root root' roots roots' hroot _ ih =>
    intro p q r hpq hr
    rw [runAll] at hr ⊢
    rw [← hpq.isFinished heq hroot]
    by_cases hfinished : p.isFinished eq root = true
    · rw [if_pos hfinished] at hr ⊢
      exact ih hpq hr
    rw [if_neg hfinished] at hr ⊢
    cases hrun : (p.enter root).run eq successors [⟨root, successors root⟩] with
    | none => simp [hrun] at hr
    | some outcome =>
      have hframe : FramesMatch R ⟨root, successors root⟩ ⟨root', successors' root'⟩ :=
        ⟨hroot, hsucc _ _ hroot⟩
      obtain ⟨s, hs, hsame⟩ := run_match heq hsucc hrun (hpq.enter hroot) (.cons hframe .nil)
      rw [hrun] at hr
      rw [hs]
      cases hsame with
      | ok h => exact ih h hr
      | error h =>
        cases Option.some.inj hr
        exact ⟨_, rfl, h⟩

theorem searchCycle_match {roots : List ν} {roots' : List μ} (hroots : List.Forall₂ R roots roots')
    {r : CycleSearch ν} (hr : searchCycle eq successors roots = some r) :
    ∃ s, searchCycle eq' successors' roots' = some s ∧ FoundMatch R r s :=
  runAll_match heq hsucc hroots ⟨.nil, .nil, rfl⟩ hr

end

end

end CycleSearch

end BuildGraph
