import BuildGraph.Order.OrderedSet
import Mathlib.Data.List.Perm.Basic
import Mathlib.Data.List.Nodup
import Mathlib.Data.Option.Basic

/-!
# Lists in key order

Sorting permutes, and entries that their keys tell apart have one sorted order. An
increasing list is known by the entry that it holds under each key, and collecting a
list folds the entries of one key into one, in their order.
-/

namespace BuildGraph

/-! ## Keys that tell parts apart -/

namespace SortKey

@[simp] theorem ofList_inj {xs ys : List SortKey} : ofList xs = ofList ys ↔ xs = ys := by
  induction xs generalizing ys with
  | nil => cases ys <;> simp [ofList]
  | cons x xs ih =>
    cases ys with
    | nil => simp [ofList]
    | cons y ys =>
      simp only [ofList, List.foldr_cons, cons.injEq, List.cons.injEq] at ih ⊢
      rw [ih]

@[simp] theorem variant_inj {m n : Nat} {xs ys : List SortKey} :
    variant m xs = variant n ys ↔ m = n ∧ xs = ys := by
  simp [variant]

@[simp] theorem ofOption_inj {x y : Option SortKey} : ofOption x = ofOption y ↔ x = y := by
  cases x <;> cases y <;> simp [ofOption]

theorem compare_ofList_cons (a b : SortKey) (xs ys : List SortKey) :
    compare (ofList (a :: xs)) (ofList (b :: ys)) =
      (compare a b).then (compare (ofList xs) (ofList ys)) := rfl

/-! ## Keys that do not come after -/

theorem le_trans {a b c : SortKey} (hab : compare a b ≠ .gt) (hbc : compare b c ≠ .gt) :
    compare a c ≠ .gt := by
  cases hab' : compare a b with
  | gt => exact absurd hab' hab
  | eq => rwa [eq_of_compare hab']
  | lt =>
    cases hbc' : compare b c with
    | gt => exact absurd hbc' hbc
    | eq => rw [← eq_of_compare hbc', hab']; simp
    | lt => rw [lt_trans hab' hbc']; simp

theorem le_antisymm {a b : SortKey} (hab : compare a b ≠ .gt) (hba : compare b a ≠ .gt) :
    a = b := by
  rcases lt_or_eq_or_gt a b with h | h | h
  · rw [compare_swap, h] at hba
    exact absurd rfl hba
  · exact h
  · rw [compare_swap, h] at hab
    exact absurd rfl hab

end SortKey

section
variable {α β γ : Type}

/-! ## Sorting -/

theorem insertKeyed_perm (x : SortKey × α) : ∀ ys : List (SortKey × α),
    (insertKeyed x ys).Perm (x :: ys)
  | [] => .refl _
  | y :: ys => by
    unfold insertKeyed
    split
    · exact ((insertKeyed_perm x ys).cons y).trans (.swap x y ys)
    · exact .refl _

theorem foldr_insertKeyed_perm : ∀ xs : List (SortKey × α), (xs.foldr insertKeyed []).Perm xs
  | [] => .refl _
  | x :: xs => (insertKeyed_perm x _).trans ((foldr_insertKeyed_perm xs).cons x)

theorem sortBy_perm (key : α → SortKey) (xs : List α) : (sortBy key xs).Perm xs := by
  have h := (foldr_insertKeyed_perm (xs.map fun x => (key x, x))).map (·.2)
  have hid : (xs.map fun x => (key x, x)).map (·.2) = xs := by
    rw [List.map_map]
    exact List.map_id xs
  rwa [hid] at h

theorem sorted_perm [Sortable α] (xs : List α) : (sorted xs).Perm xs :=
  sortBy_perm sortKey xs

@[simp] theorem mem_sortBy {key : α → SortKey} {xs : List α} {x : α} :
    x ∈ sortBy key xs ↔ x ∈ xs :=
  (sortBy_perm key xs).mem_iff

@[simp] theorem mem_sorted [Sortable α] {xs : List α} {x : α} : x ∈ sorted xs ↔ x ∈ xs :=
  (sorted_perm xs).mem_iff

theorem insertKeyed_pairwise (x : SortKey × α) : ∀ {ys : List (SortKey × α)},
    (ys.Pairwise fun a b => compare a.1 b.1 ≠ .gt) →
      (insertKeyed x ys).Pairwise fun a b => compare a.1 b.1 ≠ .gt
  | [], _ => List.pairwise_singleton ..
  | y :: ys, h => by
    have hy := List.pairwise_cons.1 h
    unfold insertKeyed
    split
    · rename_i hgt
      refine List.pairwise_cons.2 ⟨fun z hz => ?_, insertKeyed_pairwise x hy.2⟩
      rcases List.mem_cons.1 ((insertKeyed_perm x ys).mem_iff.1 hz) with rfl | hz
      · rw [SortKey.compare_swap, hgt]
        simp
      · exact hy.1 z hz
    · rename_i hle
      refine List.pairwise_cons.2 ⟨fun z hz => ?_, h⟩
      rcases List.mem_cons.1 hz with rfl | hz
      · exact hle
      · exact SortKey.le_trans hle (hy.1 z hz)

theorem sortBy_pairwise (key : α → SortKey) (xs : List α) :
    (sortBy key xs).Pairwise fun a b => compare (key a) (key b) ≠ .gt := by
  have hsorted : ((xs.map fun x => (key x, x)).foldr insertKeyed []).Pairwise
      fun a b => compare a.1 b.1 ≠ .gt := by
    induction xs with
    | nil => exact .nil
    | cons x xs ih => exact insertKeyed_pairwise _ ih
  refine List.pairwise_map.2 (hsorted.imp_of_mem fun {a b} ha hb hab => ?_)
  obtain ⟨x, -, rfl⟩ := List.mem_map.1 ((foldr_insertKeyed_perm _).mem_iff.1 ha)
  obtain ⟨y, -, rfl⟩ := List.mem_map.1 ((foldr_insertKeyed_perm _).mem_iff.1 hb)
  exact hab

theorem sortBy_eq_of_perm {key : α → SortKey} (hkey : Function.Injective key) {xs ys : List α}
    (h : xs.Perm ys) : sortBy key xs = sortBy key ys := by
  have hperm : (sortBy key xs).Perm (sortBy key ys) :=
    (sortBy_perm key xs).trans (h.trans (sortBy_perm key ys).symm)
  refine hperm.eq_of_pairwise ?_ (sortBy_pairwise key xs) (sortBy_pairwise key ys)
  exact fun a b _ _ hab hba => hkey (SortKey.le_antisymm hab hba)

theorem sortBy_increasing {key : α → SortKey} {xs : List α} (h : (xs.map key).Nodup) :
    IncreasingBy key (sortBy key xs) := by
  have hdistinct : (sortBy key xs).Pairwise fun a b => key a ≠ key b :=
    List.pairwise_map.1 (((sortBy_perm key xs).map key).nodup_iff.2 h)
  refine (List.Pairwise.and hdistinct (sortBy_pairwise key xs)).imp fun {a b} hab => ?_
  rcases SortKey.lt_or_eq_or_gt (key a) (key b) with hlt | heq | hgt
  · exact hlt
  · exact absurd heq hab.1
  · rw [SortKey.compare_swap, hgt] at hab
    exact absurd rfl hab.2

theorem insertKeyed_map (f : α → β) (x : SortKey × α) : ∀ ys : List (SortKey × α),
    insertKeyed (x.1, f x.2) (ys.map fun y => (y.1, f y.2)) =
      (insertKeyed x ys).map fun y => (y.1, f y.2)
  | [] => rfl
  | y :: ys => by
    simp only [List.map_cons, insertKeyed]
    split
    · rw [insertKeyed_map f x ys, List.map_cons]
    · rfl

theorem sortBy_map (key : β → SortKey) (f : α → β) (xs : List α) :
    sortBy key (xs.map f) = (sortBy (fun x => key (f x)) xs).map f := by
  have hpairs : ((xs.map f).map fun y => (key y, y)).foldr insertKeyed [] =
      ((xs.map fun x => (key (f x), x)).foldr insertKeyed []).map fun p => (p.1, f p.2) := by
    induction xs with
    | nil => rfl
    | cons x xs ih =>
      simp only [List.map_cons, List.foldr_cons] at ih ⊢
      rw [ih, insertKeyed_map f (key (f x), x)]
  rw [sortBy, hpairs, sortBy, List.map_map, List.map_map]
  rfl

theorem head?_sorted_le [Sortable α] {xs : List α} {x y : α} (h : (sorted xs).head? = some x)
    (hy : y ∈ xs) : compare (sortKey x) (sortKey y) ≠ .gt := by
  have hsorted := sortBy_pairwise sortKey xs
  have hy : y ∈ sorted xs := mem_sorted.2 hy
  unfold sorted at h hy
  cases hs : sortBy sortKey xs with
  | nil => simp [hs] at h
  | cons z zs =>
    rw [hs] at h hy hsorted
    cases Option.some.inj h
    rcases List.mem_cons.1 hy with rfl | hy
    · simp [SortKey.compare_self]
    · exact (List.pairwise_cons.1 hsorted).1 y hy

theorem head?_sorted [Sortable α] {xs ys : List α}
    (h : ∀ k, k ∈ xs.map sortKey ↔ k ∈ ys.map sortKey) :
    Option.Rel (fun x y => x ∈ xs ∧ y ∈ ys ∧ sortKey x = sortKey y) (sorted xs).head?
      (sorted ys).head? := by
  have hle {xs ys : List α} (h : ∀ k, k ∈ xs.map sortKey → k ∈ ys.map sortKey) {x y : α}
      (hx : x ∈ xs) (hy : (sorted ys).head? = some y) :
      compare (sortKey y) (sortKey x) ≠ .gt := by
    obtain ⟨z, hz, hzx⟩ := List.mem_map.1 (h _ (List.mem_map_of_mem hx))
    exact hzx ▸ head?_sorted_le hy hz
  cases hx : (sorted xs).head? with
  | none =>
    have hxs : xs = [] := List.length_eq_zero_iff.1
      ((sorted_perm xs).length_eq ▸ List.length_eq_zero_iff.2 (List.head?_eq_none_iff.1 hx))
    have hys : ys = [] := List.eq_nil_iff_forall_not_mem.2 fun y hy => by
      simpa [hxs] using (h _).2 (List.mem_map_of_mem hy)
    rw [hys]
    exact .none
  | some x =>
    have hxm : x ∈ xs := mem_sorted.1 (List.mem_of_head? hx)
    cases hy : (sorted ys).head? with
    | none =>
      obtain ⟨z, hz, -⟩ := List.mem_map.1 ((h _).1 (List.mem_map_of_mem hxm))
      have hz := mem_sorted.2 hz
      rw [List.head?_eq_none_iff.1 hy] at hz
      cases hz
    | some y =>
      have hym : y ∈ ys := mem_sorted.1 (List.mem_of_head? hy)
      exact .some ⟨hxm, hym, SortKey.le_antisymm (hle (fun k => (h k).2) hym hx)
        (hle (fun k => (h k).1) hxm hy)⟩

/-! ## Increasing lists -/

theorem IncreasingBy.nodup {key : α → SortKey} {xs : List α} (h : IncreasingBy key xs) :
    (xs.map key).Nodup := by
  rw [List.nodup_iff_pairwise_ne, List.pairwise_map]
  refine h.imp fun {a b} hab he => ?_
  rw [he] at hab
  exact SortKey.lt_irrefl _ hab

theorem IncreasingBy.eq_of_mem_iff {key : α → SortKey} {xs ys : List α} (hx : IncreasingBy key xs)
    (hy : IncreasingBy key ys) (h : ∀ x, x ∈ xs ↔ x ∈ ys) : xs = ys := by
  have hperm : xs.Perm ys := (List.perm_ext_iff_of_nodup hx.nodup.of_map hy.nodup.of_map).2 h
  refine hperm.eq_of_pairwise (fun a b _ _ hab hba => ?_) hx hy
  exact absurd (SortKey.lt_trans hab hba) (SortKey.lt_irrefl _)

theorem IncreasingBy.map_eq {key : α → SortKey} {key' : β → SortKey} {xs : List α}
    {ys : List β} (hx : IncreasingBy key xs) (hy : IncreasingBy key' ys)
    (h : ∀ k, k ∈ xs.map key ↔ k ∈ ys.map key') : xs.map key = ys.map key' := by
  have hx' : IncreasingBy id (xs.map key) := List.pairwise_map.2 hx
  have hy' : IncreasingBy id (ys.map key') := List.pairwise_map.2 hy
  exact hx'.eq_of_mem_iff hy' h

def findKey (key : α → SortKey) (xs : List α) (k : SortKey) : Option α :=
  xs.find? fun x => key x == k

theorem findKey_cons {key : α → SortKey} {x : α} {xs : List α} {k : SortKey} :
    findKey key (x :: xs) k = if key x = k then some x else findKey key xs k := by
  by_cases h : key x = k <;> simp [findKey, h]

theorem key_of_findKey {key : α → SortKey} {xs : List α} {k : SortKey} {x : α}
    (h : findKey key xs k = some x) : key x = k := by
  simpa using List.find?_some h

theorem mem_of_findKey {key : α → SortKey} {xs : List α} {k : SortKey} {x : α}
    (h : findKey key xs k = some x) : x ∈ xs :=
  List.mem_of_find?_eq_some h

theorem findKey_isSome {key : α → SortKey} {xs : List α} {k : SortKey} :
    (findKey key xs k).isSome = true ↔ k ∈ xs.map key := by
  simp [findKey]

theorem findKey_eq_none {key : α → SortKey} {xs : List α} {k : SortKey} :
    findKey key xs k = none ↔ k ∉ xs.map key := by
  rw [← findKey_isSome]
  simp

theorem findKey_of_mem {key : α → SortKey} {xs : List α} (h : (xs.map key).Nodup) {x : α}
    (hx : x ∈ xs) : findKey key xs (key x) = some x := by
  induction xs with
  | nil => cases hx
  | cons y ys ih =>
    rw [List.map_cons, List.nodup_cons] at h
    rw [findKey_cons]
    rcases List.mem_cons.1 hx with rfl | hx
    · rw [if_pos rfl]
    · have hne : key y ≠ key x := by
        intro he
        exact h.1 (he ▸ List.mem_map_of_mem hx)
      rw [if_neg hne]
      exact ih h.2 hx

theorem findKey_map_eq {key : α → SortKey} {key' : β → SortKey} {f : α → γ} {f' : β → γ} :
    ∀ {xs : List α} {ys : List β}, xs.map key = ys.map key' → xs.map f = ys.map f' →
      ∀ k, (findKey key xs k).map f = (findKey key' ys k).map f'
  | [], [], _, _, _ => rfl
  | x :: xs, y :: ys, hkeys, hf, k => by
    simp only [List.map_cons, List.cons.injEq] at hkeys hf
    rw [findKey_cons, findKey_cons, hkeys.1]
    split
    · exact congrArg some hf.1
    · exact findKey_map_eq hkeys.2 hf.2 k

theorem IncreasingBy.map_eq_of_findKey {key : α → SortKey} {key' : β → SortKey} {xs : List α}
    {ys : List β} (hx : IncreasingBy key xs) (hy : IncreasingBy key' ys) (f : α → γ) (f' : β → γ)
    (h : ∀ k, (findKey key xs k).map f = (findKey key' ys k).map f') :
    xs.map f = ys.map f' := by
  have hkeys : xs.map key = ys.map key' := by
    refine hx.map_eq hy fun k => ?_
    rw [← findKey_isSome, ← findKey_isSome, ← Option.isSome_map (f := f), h, Option.isSome_map]
  have hleft : (xs.map key).map (fun k => (findKey key xs k).map f) = xs.map fun x => some (f x) := by
    rw [List.map_map]
    exact List.map_congr_left fun x hm => by simp [findKey_of_mem hx.nodup hm]
  have hright : (ys.map key').map (fun k => (findKey key' ys k).map f') =
      ys.map fun y => some (f' y) := by
    rw [List.map_map]
    exact List.map_congr_left fun y hm => by simp [findKey_of_mem hy.nodup hm]
  have hsome : (xs.map f).map some = (ys.map f').map some := by
    rw [List.map_map, List.map_map]
    calc xs.map (some ∘ f) = (xs.map key).map (fun k => (findKey key xs k).map f) := hleft.symm
      _ = (ys.map key').map (fun k => (findKey key' ys k).map f') := by
        rw [hkeys]; exact List.map_congr_left fun k _ => h k
      _ = ys.map (some ∘ f') := hright
  exact List.map_injective_iff.2 (Option.some_injective γ) hsome

/-! ## Insertion and collection -/

/-- What is under a key once `x` of that key has come in. -/
def mergeInto (merge : α → α → α) (found : Option α) (x : α) : Option α :=
  some (found.elim x (merge · x))

variable {key : α → SortKey} {merge : α → α → α}

theorem findKey_insertBy (hm : KeepsKey key merge) (x : α) (k : SortKey) : ∀ {ys : List α},
    IncreasingBy key ys → findKey key (insertBy key merge x ys) k =
      if key x = k then mergeInto merge (findKey key ys k) x else findKey key ys k
  | [], _ => by
    by_cases h : key x = k <;> simp [insertBy, findKey, mergeInto, h]
  | y :: ys, hs => by
    have hy := List.pairwise_cons.1 hs
    unfold insertBy
    split
    · -- the new key is below all others, so nothing was under it
      rename_i hlt
      by_cases h : key x = k
      · have hnone : findKey key (y :: ys) k = none := by
          rw [findKey_eq_none]
          intro hk
          obtain ⟨z, hz, rfl⟩ := List.mem_map.1 hk
          rcases List.mem_cons.1 hz with rfl | hz
          · exact SortKey.lt_irrefl _ (h ▸ hlt)
          · exact SortKey.lt_irrefl _ (h ▸ SortKey.lt_trans hlt (hy.1 z hz))
        rw [if_pos h, hnone]
        rw [findKey_cons, if_pos h]
        rfl
      · rw [if_neg h, findKey_cons, if_neg h]
    · rename_i heq
      have heq := SortKey.eq_of_compare heq
      have hk := hm y x heq.symm
      by_cases h : key x = k
      · rw [if_pos h, findKey_cons, findKey_cons, hk, ← heq, if_pos h, if_pos h]
        rfl
      · rw [if_neg h, findKey_cons, findKey_cons, hk, ← heq, if_neg h, if_neg h]
    · rename_i hgt
      have hne : key x ≠ key y := by
        intro e
        rw [e, SortKey.compare_self] at hgt
        cases hgt
      by_cases hyk : key y = k
      · have hxk : key x ≠ k := fun e => hne (e.trans hyk.symm)
        rw [if_neg hxk, findKey_cons, findKey_cons, if_pos hyk, if_pos hyk]
      · rw [findKey_cons, findKey_cons, if_neg hyk, if_neg hyk]
        exact findKey_insertBy hm x k hy.2

/-- The entries of one key come together, in the order in which they come in. -/
theorem findKey_foldl_insertBy (hm : KeepsKey key merge) (k : SortKey) (xs : List α) :
    ∀ {found : List α}, IncreasingBy key found →
      findKey key (xs.foldl (fun found x => insertBy key merge x found) found) k =
        (xs.filter fun x => key x == k).foldl (mergeInto merge) (findKey key found k) := by
  induction xs with
  | nil => intro _ _; rfl
  | cons x xs ih =>
    intro found h
    rw [List.foldl_cons, ih (insertBy_increasing hm x h), findKey_insertBy hm x k h]
    by_cases hk : key x = k <;> simp [hk]

theorem findKey_collectBy (hm : KeepsKey key merge) (xs : List α) (k : SortKey) :
    findKey key (collectBy key merge xs) k =
      (xs.filter fun x => key x == k).foldl (mergeInto merge) none :=
  findKey_foldl_insertBy hm k xs .nil

theorem foldl_mergeInto_some (xs : List α) : ∀ x : α,
    xs.foldl (mergeInto merge) (some x) = some (xs.foldl merge x) := by
  induction xs with
  | nil => intro x; rfl
  | cons y ys ih => intro x; exact ih (merge x y)

theorem foldl_mergeInto_keepLast : ∀ (xs : List α) (found : Option α),
    xs.foldl (mergeInto keepLast) found = xs.getLast?.or found
  | [], _ => rfl
  | x :: xs, found => by
    have hx : mergeInto keepLast found x = some x := by cases found <;> rfl
    rw [List.foldl_cons, hx, foldl_mergeInto_keepLast xs, List.getLast?_cons]
    cases xs.getLast? <;> rfl

theorem findKey_collectBy_keepLast (xs : List α) (k : SortKey) :
    findKey key (collectBy key keepLast xs) k = (xs.filter fun x => key x == k).getLast? := by
  rw [findKey_collectBy (keepsKey_keepLast key), foldl_mergeInto_keepLast, Option.or_none]

theorem foldl_mergeInto_isSome (xs : List α) (found : Option α) :
    (xs.foldl (mergeInto merge) found).isSome = true ↔ found.isSome = true ∨ xs ≠ [] := by
  cases xs with
  | nil => simp
  | cons x xs =>
    rw [List.foldl_cons, mergeInto, foldl_mergeInto_some]
    simp

theorem key_mem_collectBy (hm : KeepsKey key merge) {xs : List α} {k : SortKey} :
    k ∈ (collectBy key merge xs).map key ↔ k ∈ xs.map key := by
  rw [← findKey_isSome, findKey_collectBy hm, foldl_mergeInto_isSome]
  simp [List.filter_eq_nil_iff]

theorem mem_collectBy_of_nodup (hm : KeepsKey key merge) {xs : List α} (hxs : (xs.map key).Nodup)
    {x : α} : x ∈ collectBy key merge xs ↔ x ∈ xs := by
  have hfind (x : α) (hx : x ∈ xs) : findKey key (collectBy key merge xs) (key x) = some x := by
    rw [findKey_collectBy hm]
    have hone : (xs.filter fun y => key y == key x) = [x] := by
      apply List.perm_singleton.1
      apply (List.perm_ext_iff_of_nodup (hxs.of_map.filter _) (List.nodup_singleton x)).2
      intro y
      simp only [List.mem_filter, beq_iff_eq, List.mem_singleton]
      constructor
      · rintro ⟨hy, hxy⟩
        exact List.inj_on_of_nodup_map hxs hy hx hxy
      · rintro rfl
        exact ⟨hx, rfl⟩
    rw [hone]
    rfl
  constructor
  · intro hx
    obtain ⟨y, hy, hyx⟩ := List.mem_map.1 ((key_mem_collectBy hm).1 (List.mem_map_of_mem hx))
    have hsame := hfind y hy
    rw [hyx, findKey_of_mem (collectBy_increasing hm xs).nodup hx] at hsame
    exact Option.some.inj hsame ▸ hy
  · intro hx
    exact mem_of_findKey (hfind x hx)

theorem forall_mem_insertBy {P : α → Prop}
    (hp : ∀ a b, key a = key b → P a → P b → P (merge a b)) {x : α} (hx : P x) : ∀ {ys : List α},
    (∀ y ∈ ys, P y) → ∀ y ∈ insertBy key merge x ys, P y
  | [], _ => by simpa [insertBy] using hx
  | y :: ys, h => by
    rw [List.forall_mem_cons] at h
    unfold insertBy
    split
    · exact List.forall_mem_cons.2 ⟨hx, List.forall_mem_cons.2 h⟩
    · rename_i heq
      exact List.forall_mem_cons.2 ⟨hp y x (SortKey.eq_of_compare heq).symm h.1 hx, h.2⟩
    · exact List.forall_mem_cons.2 ⟨h.1, forall_mem_insertBy hp hx h.2⟩

theorem forall_mem_collectBy {P : α → Prop}
    (hp : ∀ a b, key a = key b → P a → P b → P (merge a b)) {xs : List α} (hxs : ∀ x ∈ xs, P x) :
    ∀ x ∈ collectBy key merge xs, P x := by
  have hfold : ∀ (xs found : List α), (∀ x ∈ xs, P x) → (∀ x ∈ found, P x) →
      ∀ x ∈ xs.foldl (fun found x => insertBy key merge x found) found, P x := by
    intro xs
    induction xs with
    | nil => exact fun _ _ hfound => hfound
    | cons x xs ih =>
      intro found hxs hfound
      rw [List.forall_mem_cons] at hxs
      exact ih _ hxs.2 (forall_mem_insertBy hp hxs.1 hfound)
  exact hfold xs [] hxs fun _ h => nomatch h

theorem mem_of_mem_collectBy (hp : ∀ a b, merge a b = a ∨ merge a b = b) {xs : List α} {x : α}
    (hx : x ∈ collectBy key merge xs) : x ∈ xs := by
  refine forall_mem_collectBy (P := (· ∈ xs)) (fun a b _ ha hb => ?_) (fun _ h => h) x hx
  rcases hp a b with h | h
  · exact h.symm ▸ ha
  · exact h.symm ▸ hb

theorem mem_collectBy_keepLast {xs : List α} {x : α}
    (hx : x ∈ collectBy key keepLast xs) : x ∈ xs :=
  mem_of_mem_collectBy (fun _ _ => .inr rfl) hx

theorem mem_collectBy_of_inj (hp : ∀ a b, merge a b = a ∨ merge a b = b)
    (hm : KeepsKey key merge) {xs : List α} {x : α}
    (hinj : ∀ y ∈ xs, ∀ z ∈ xs, key y = key z → y = z) :
    x ∈ collectBy key merge xs ↔ x ∈ xs := by
  refine ⟨mem_of_mem_collectBy hp, fun hx => ?_⟩
  obtain ⟨y, hy, hyx⟩ := List.mem_map.1 ((key_mem_collectBy hm).2 (List.mem_map_of_mem hx))
  exact hinj y (mem_of_mem_collectBy hp hy) x hx hyx ▸ hy

theorem mem_collectBy_keepLast_of_inj {xs : List α} {x : α}
    (hinj : ∀ y ∈ xs, ∀ z ∈ xs, key y = key z → y = z) :
    x ∈ collectBy key keepLast xs ↔ x ∈ xs :=
  mem_collectBy_of_inj (fun _ _ => .inr rfl) (keepsKey_keepLast key) hinj

end

/-! ## Increasing lists as they are -/

section
variable {α : Type} {key : α → SortKey} {merge : α → α → α}

theorem insertBy_last {x : α} : ∀ {ys : List α}, (∀ y ∈ ys, compare (key y) (key x) = .lt) →
    insertBy key merge x ys = ys ++ [x]
  | [], _ => rfl
  | y :: ys, h => by
    have hgt : compare (key x) (key y) = .gt := by
      rw [SortKey.compare_swap, h y List.mem_cons_self]
      rfl
    have ih := insertBy_last (x := x) fun z hz => h z (List.mem_cons_of_mem _ hz)
    simp only [insertBy, hgt, ih, List.cons_append]

theorem foldl_insertBy_increasing : ∀ {xs found : List α}, IncreasingBy key (found ++ xs) →
    xs.foldl (fun found x => insertBy key merge x found) found = found ++ xs
  | [], found, _ => (List.append_nil found).symm
  | x :: xs, found, h => by
    have hbefore : ∀ y ∈ found, compare (key y) (key x) = .lt :=
      fun y hy => (List.pairwise_append.1 h).2.2 y hy x List.mem_cons_self
    rw [List.foldl_cons, insertBy_last hbefore, foldl_insertBy_increasing (by simpa using h),
      List.append_assoc, List.singleton_append]

end

/-! ## Ordered sets -/

theorem OrderedSet.toList_insertAll {α : Type} [Sortable α] : ∀ (xs : List α) (s : OrderedSet α),
    (s.insertAll xs).toList = xs.foldl (fun found x => insertBy sortKey keepFirst x found) s.toList
  | [], _ => rfl
  | x :: xs, s => toList_insertAll xs (s.insert x)

theorem OrderedSet.eq_of_toList {α : Type} [Sortable α] {s t : OrderedSet α}
    (h : s.toList = t.toList) : s = t := by
  cases s
  cases t
  cases h
  rfl

theorem OrderedSet.ofList_toList {α : Type} [Sortable α] (s : OrderedSet α) :
    OrderedSet.ofList s.toList = s :=
  eq_of_toList ((toList_insertAll _ _).trans (foldl_insertBy_increasing s.increasing))

theorem OrderedSet.sortKey_inj {α : Type} [Sortable α] {s t : OrderedSet α} :
    sortKey s = sortKey t ↔ s.toList.map sortKey = t.toList.map sortKey :=
  SortKey.ofList_inj

theorem OrderedSet.eq_of_contains {α : Type} [Sortable α]
    (hinj : ∀ a b : α, sortKey a = sortKey b → a = b) {s t : OrderedSet α}
    (h : ∀ x, s.contains x = true ↔ t.contains x = true) : s = t := by
  have hkeys : s.toList.map sortKey = t.toList.map sortKey := by
    refine s.increasing.map_eq t.increasing fun k => ?_
    constructor
    · intro hk
      obtain ⟨x, hx, rfl⟩ := List.mem_map.1 hk
      exact OrderedSet.contains_iff.1 ((h x).1 (OrderedSet.contains_iff.2 hk))
    · intro hk
      obtain ⟨x, hx, rfl⟩ := List.mem_map.1 hk
      exact OrderedSet.contains_iff.1 ((h x).2 (OrderedSet.contains_iff.2 hk))
  cases s
  cases t
  congr
  exact List.map_injective_iff.2 hinj hkeys

theorem OrderedSet.contains_inter {α : Type} [Sortable α] {s t : OrderedSet α}
    (ht : ∀ x y : α, sortKey x = sortKey y → x = y) {x : α} :
    (s.inter t).contains x = true ↔ s.contains x = true ∧ t.contains x = true := by
  simp only [OrderedSet.inter, OrderedSet.filter, OrderedSet.contains_iff, List.mem_map,
    List.mem_filter]
  constructor
  · rintro ⟨y, ⟨hy, hc⟩, he⟩
    obtain rfl := ht _ _ he
    exact ⟨⟨y, hy, rfl⟩, hc⟩
  · rintro ⟨⟨y, hy, he⟩, z, hz, hze⟩
    obtain rfl := ht _ _ he
    exact ⟨y, ⟨hy, z, hz, hze⟩, rfl⟩

end BuildGraph
