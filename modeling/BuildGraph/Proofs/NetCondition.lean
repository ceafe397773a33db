import BuildGraph.Proofs.Ordered
import BuildGraph.Platform.Condition

/-!
# The places where a condition applies

A condition is known by the places where it applies: the platforms, and one more
place that stands for what no platform names, where only the unconditional applies.
There the operations on net conditions are intersection and union.
-/

namespace BuildGraph

/-- A platform, or nowhere in particular. -/
abbrev Place := Option Platform

theorem Platform.eq_of_sortKey {p q : Platform} (h : sortKey p = sortKey q) : p = q := by
  cases p <;> cases q <;> first | rfl | (revert h; decide)

namespace Condition

def appliesAt : Option Condition → Place → Bool
  | none, _ => true
  | some c, some p => c.contains p
  | some _, none => false

@[simp] theorem appliesAt_none (x : Place) : appliesAt none x = true := rfl

@[simp] theorem appliesAt_some (c : Condition) (p : Platform) :
    appliesAt (some c) (some p) = c.contains p := rfl

@[simp] theorem appliesAt_some_none (c : Condition) : appliesAt (some c) none = false := rfl

theorem eq_of_contains {c d : Condition} (h : ∀ p, c.contains p = true ↔ d.contains p = true) :
    c = d := by
  have hp := OrderedSet.eq_of_contains (fun _ _ => Platform.eq_of_sortKey) h
  cases c
  cases d
  cases hp
  rfl

theorem eq_of_sortKey {c d : Option Condition} (h : sortKey c = sortKey d) : c = d := by
  have hmap : c.map sortKey = d.map sortKey := SortKey.ofOption_inj.1 h
  cases c with
  | none => cases d <;> simp_all
  | some c =>
    cases d with
    | none => simp at hmap
    | some d =>
      have hkeys := OrderedSet.sortKey_inj.1 (Option.some.inj hmap)
      refine congrArg some (eq_of_contains fun p => ?_)
      rw [contains, contains, OrderedSet.contains_iff, OrderedSet.contains_iff, hkeys]

theorem exists_contains (c : Condition) : ∃ p, c.contains p = true := by
  obtain ⟨p, hp⟩ := List.exists_mem_of_ne_nil _ c.nonempty
  exact ⟨p, OrderedSet.contains_iff.2 (List.mem_map_of_mem hp)⟩

theorem exists_appliesAt (c : Option Condition) : ∃ p : Platform, appliesAt c (some p) = true := by
  cases c with
  | none => exact ⟨.ios, rfl⟩
  | some c => exact c.exists_contains

theorem eq_of_appliesAt {c d : Option Condition}
    (h : ∀ x, appliesAt c x = true ↔ appliesAt d x = true) : c = d := by
  cases c with
  | none =>
    cases d with
    | none => rfl
    | some d => exact absurd ((h none).1 rfl) (by simp)
  | some c =>
    cases d with
    | none => exact absurd ((h none).2 rfl) (by simp)
    | some d => exact congrArg some (eq_of_contains fun p => h (some p))

theorem appliesAt_nowhere {c : Option Condition} : appliesAt c none = true ↔ c = none := by
  cases c <;> simp

section
variable {c : Option Condition} {F : Option Condition → Prop}
  (h : ∀ x, appliesAt c x = true ↔ ∃ d, F d ∧ appliesAt d x = true)
include h

theorem eq_none_of_union : c = none ↔ F none := by
  rw [← appliesAt_nowhere, h none]
  constructor
  · rintro ⟨d, hd, hnowhere⟩
    exact appliesAt_nowhere.1 hnowhere ▸ hd
  · exact fun hnone => ⟨none, hnone, rfl⟩

theorem contains_of_union {c' : Condition} (hc : c = some c') {p : Platform} :
    c'.contains p = true ↔ ∃ d, F (some d) ∧ d.contains p = true := by
  have hp := h (some p)
  rw [hc, appliesAt_some] at hp
  rw [hp]
  constructor
  · rintro ⟨_ | d, hd, happlies⟩
    · have hnone := (eq_none_of_union h).2 hd
      rw [hc] at hnone
      cases hnone
    · exact ⟨d, hd, happlies⟩
  · rintro ⟨d, hd, hcontains⟩
    exact ⟨some d, hd, hcontains⟩

end

theorem appliesAt_either (c d : Option Condition) (x : Place) :
    appliesAt (either c d) x = true ↔ appliesAt c x = true ∨ appliesAt d x = true := by
  cases c with
  | none => simp [either]
  | some c =>
    cases d with
    | none => simp [either]
    | some d =>
      cases x with
      | none => simp [either]
      | some p => exact OrderedSet.contains_union

end Condition

namespace NetCondition

open Condition (appliesAt)

def appliesAt : NetCondition → Place → Bool
  | incompatible, _ => false
  | condition c, x => Condition.appliesAt c x

@[simp] theorem appliesAt_incompatible (x : Place) : appliesAt incompatible x = false := rfl

@[simp] theorem appliesAt_condition (c : Option Condition) (x : Place) :
    appliesAt (condition c) x = Condition.appliesAt c x := rfl

@[simp] theorem appliesAt_unconditional (x : Place) : appliesAt unconditional x = true := rfl

theorem eq_incompatible_iff {n : NetCondition} :
    n = incompatible ↔ ∀ p : Platform, n.appliesAt (some p) = false := by
  cases n with
  | incompatible => simp
  | condition c =>
    obtain ⟨p, hp⟩ := Condition.exists_appliesAt c
    simp only [reduceCtorEq, appliesAt_condition, false_iff]
    intro h
    rw [h p] at hp
    cases hp

theorem eq_unconditional_iff {n : NetCondition} :
    n = unconditional ↔ n.appliesAt none = true := by
  match n with
  | incompatible => simp [unconditional]
  | condition none => simp [unconditional]
  | condition (some c) => simp [unconditional]

theorem eq_of_appliesAt {n m : NetCondition}
    (h : ∀ x, n.appliesAt x = true ↔ m.appliesAt x = true) : n = m := by
  cases n with
  | incompatible =>
    refine (eq_incompatible_iff.2 fun p => ?_).symm
    have := h (some p)
    simpa using this
  | condition c =>
    cases m with
    | incompatible =>
      obtain ⟨p, hp⟩ := Condition.exists_appliesAt c
      exact absurd ((h (some p)).1 hp) (by simp)
    | condition d => exact congrArg condition (Condition.eq_of_appliesAt h)

theorem appliesAt_ofInter (c d : Condition) (x : Place) :
    (ofInter c d).appliesAt x = true ↔
      Condition.appliesAt (some c) x = true ∧ Condition.appliesAt (some d) x = true := by
  have hmem (p : Platform) : (c.platforms.inter d.platforms).contains p = true ↔
      c.contains p = true ∧ d.contains p = true :=
    OrderedSet.contains_inter fun _ _ => Platform.eq_of_sortKey
  unfold ofInter Condition.ofSet?
  split
  · rename_i h
    split at h
    · rename_i hnil
      cases x with
      | none => simp
      | some p => simp [← hmem, OrderedSet.contains, hnil]
    · cases h
  · rename_i common h
    split at h
    · cases h
    · cases h
      cases x with
      | none => simp
      | some p => exact hmem p

theorem appliesAt_meet (n : NetCondition) (c : Option Condition) (x : Place) :
    (n.meet c).appliesAt x = true ↔ n.appliesAt x = true ∧ Condition.appliesAt c x = true := by
  match n, c with
  | incompatible, c => simp [meet]
  | condition none, none => simp [meet]
  | condition (some d), none => simp [meet]
  | condition none, some c => simp [meet]
  | condition (some d), some c => exact appliesAt_ofInter d c x

theorem appliesAt_join (n m : NetCondition) (x : Place) :
    (n.join m).appliesAt x = true ↔ n.appliesAt x = true ∨ m.appliesAt x = true := by
  match n, m with
  | incompatible, m => simp [join]
  | condition c, incompatible => simp [join]
  | condition c, condition d => exact Condition.appliesAt_either c d x

/-! ## Folds -/

theorem appliesAt_foldl_meet (x : Place) : ∀ (cs : List (Option Condition)) (n : NetCondition),
    (cs.foldl meet n).appliesAt x = true ↔
      n.appliesAt x = true ∧ ∀ c ∈ cs, Condition.appliesAt c x = true
  | [], n => by simp
  | c :: cs, n => by
    rw [List.foldl_cons, appliesAt_foldl_meet x cs, appliesAt_meet]
    simp [and_assoc]

theorem appliesAt_ofPath (cs : List (Option Condition)) (x : Place) :
    (ofPath cs).appliesAt x = true ↔ ∀ c ∈ cs, Condition.appliesAt c x = true := by
  rw [ofPath, appliesAt_foldl_meet]
  simp

theorem appliesAt_foldl_join {α : Type} (f : α → NetCondition) (x : Place) :
    ∀ (as : List α) (n : NetCondition),
      (as.foldl (fun net a => net.join (f a)) n).appliesAt x = true ↔
        n.appliesAt x = true ∨ ∃ a ∈ as, (f a).appliesAt x = true
  | [], n => by simp
  | a :: as, n => by
    rw [List.foldl_cons, appliesAt_foldl_join f x as, appliesAt_join]
    simp [or_assoc]

end NetCondition

end BuildGraph
