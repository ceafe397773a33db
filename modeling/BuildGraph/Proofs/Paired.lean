import BuildGraph.Proofs.Ordered

/-!
# Paired lists

Two lists are paired by a relation if each entry of one has a partner in the other, in
whatever order and however often. What is done to both lists alike keeps them paired, and
collecting them by keys that partners share gives lists in one order.
-/

namespace BuildGraph

section
variable {α β γ δ : Type}

/-- Each entry of one list has a partner in the other. -/
structure Paired (R : α → β → Prop) (xs : List α) (ys : List β) : Prop where
  forth : ∀ x ∈ xs, ∃ y ∈ ys, R x y
  back : ∀ y ∈ ys, ∃ x ∈ xs, R x y

namespace Paired

variable {R : α → β → Prop} {xs : List α} {ys : List β}

theorem nil : Paired R [] [] := ⟨by simp, by simp⟩

theorem of_halves {S : β → α → Prop} (hSR : ∀ x y, S y x → R x y)
    (forth : ∀ x ∈ xs, ∃ y ∈ ys, R x y) (back : ∀ y ∈ ys, ∃ x ∈ xs, S y x) : Paired R xs ys := by
  refine ⟨forth, fun y hy => ?_⟩
  obtain ⟨x, hx, hyx⟩ := back y hy
  exact ⟨x, hx, hSR x y hyx⟩

theorem of_map_eq {f : α → γ} {g : β → γ} (h : xs.map f = ys.map g) :
    Paired (fun x y => f x = g y) xs ys := by
  constructor
  · intro x hx
    obtain ⟨y, hy, hyx⟩ := List.mem_map.1 (h ▸ List.mem_map_of_mem hx)
    exact ⟨y, hy, hyx.symm⟩
  · intro y hy
    exact List.mem_map.1 (h ▸ List.mem_map_of_mem hy)

theorem append {xs' : List α} {ys' : List β} (h : Paired R xs ys) (h' : Paired R xs' ys') :
    Paired R (xs ++ xs') (ys ++ ys') := by
  constructor
  · intro x hx
    rcases List.mem_append.1 hx with hx | hx
    · obtain ⟨y, hy, hxy⟩ := h.forth x hx
      exact ⟨y, List.mem_append_left _ hy, hxy⟩
    · obtain ⟨y, hy, hxy⟩ := h'.forth x hx
      exact ⟨y, List.mem_append_right _ hy, hxy⟩
  · intro y hy
    rcases List.mem_append.1 hy with hy | hy
    · obtain ⟨x, hx, hxy⟩ := h.back y hy
      exact ⟨x, List.mem_append_left _ hx, hxy⟩
    · obtain ⟨x, hx, hxy⟩ := h'.back y hy
      exact ⟨x, List.mem_append_right _ hx, hxy⟩

theorem flatMap {S : γ → δ → Prop} {f : α → List γ} {g : β → List δ}
    (h : Paired R xs ys) (hfg : ∀ x y, R x y → Paired S (f x) (g y)) :
    Paired S (xs.flatMap f) (ys.flatMap g) := by
  constructor
  · intro z hz
    obtain ⟨x, hx, hz⟩ := List.mem_flatMap.1 hz
    obtain ⟨y, hy, hxy⟩ := h.forth x hx
    obtain ⟨z', hz', hzz⟩ := (hfg x y hxy).forth z hz
    exact ⟨z', List.mem_flatMap.2 ⟨y, hy, hz'⟩, hzz⟩
  · intro z hz
    obtain ⟨y, hy, hz⟩ := List.mem_flatMap.1 hz
    obtain ⟨x, hx, hxy⟩ := h.back y hy
    obtain ⟨z', hz', hzz⟩ := (hfg x y hxy).back z hz
    exact ⟨z', List.mem_flatMap.2 ⟨x, hx, hz'⟩, hzz⟩

theorem single {x : α} {y : β} (hxy : R x y) : Paired R [x] [y] := ⟨by simpa, by simpa⟩

theorem filterMap {S : γ → δ → Prop} {f : α → Option γ} {g : β → Option δ}
    (h : Paired R xs ys) (hfg : ∀ x y, R x y → Option.Rel S (f x) (g y)) :
    Paired S (xs.filterMap f) (ys.filterMap g) := by
  rw [List.filterMap_eq_flatMap_toList, List.filterMap_eq_flatMap_toList]
  apply h.flatMap
  intro x y hxy
  have hz := hfg x y hxy
  generalize f x = a at hz
  generalize g y = b at hz
  cases hz with
  | none => exact nil
  | some hab => exact single hab

theorem map {S : γ → δ → Prop} {f : α → γ} {g : β → δ} (h : Paired R xs ys)
    (hfg : ∀ x y, R x y → S (f x) (g y)) : Paired S (xs.map f) (ys.map g) := by
  rw [← List.filterMap_eq_map, ← List.filterMap_eq_map]
  exact h.filterMap fun x y hxy => .some (hfg x y hxy)

theorem filter {f : α → Bool} {g : β → Bool} (h : Paired R xs ys)
    (hfg : ∀ x y, R x y → f x = g y) : Paired R (xs.filter f) (ys.filter g) := by
  constructor
  · intro x hx
    obtain ⟨hx, hf⟩ := List.mem_filter.1 hx
    obtain ⟨y, hy, hxy⟩ := h.forth x hx
    exact ⟨y, List.mem_filter.2 ⟨hy, hfg x y hxy ▸ hf⟩, hxy⟩
  · intro y hy
    obtain ⟨hy, hg⟩ := List.mem_filter.1 hy
    obtain ⟨x, hx, hxy⟩ := h.back y hy
    exact ⟨x, List.mem_filter.2 ⟨hx, (hfg x y hxy).trans hg⟩, hxy⟩

theorem any_eq {f : α → Bool} {g : β → Bool} (h : Paired R xs ys)
    (hfg : ∀ x y, R x y → f x = g y) : xs.any f = ys.any g := by
  rw [Bool.eq_iff_iff, List.any_eq_true, List.any_eq_true]
  constructor
  · rintro ⟨x, hx, hf⟩
    obtain ⟨y, hy, hxy⟩ := h.forth x hx
    exact ⟨y, hy, hfg x y hxy ▸ hf⟩
  · rintro ⟨y, hy, hg⟩
    obtain ⟨x, hx, hxy⟩ := h.back y hy
    exact ⟨x, hx, (hfg x y hxy).trans hg⟩

theorem mem_map_iff {f : α → γ} {g : β → γ} (h : Paired R xs ys)
    (hfg : ∀ x y, R x y → f x = g y) (z : γ) : z ∈ xs.map f ↔ z ∈ ys.map g := by
  simp only [List.mem_map]
  constructor
  · rintro ⟨x, hx, rfl⟩
    obtain ⟨y, hy, hxy⟩ := h.forth x hx
    exact ⟨y, hy, (hfg x y hxy).symm⟩
  · rintro ⟨y, hy, rfl⟩
    obtain ⟨x, hx, hxy⟩ := h.back y hy
    exact ⟨x, hx, hfg x y hxy⟩

/-- Collected lists look alike if partners have one key and entries of one key look alike. -/
theorem collectBy_map_eq {key : α → SortKey} {key' : β → SortKey} {f : α → γ} {g : β → γ} (h : Paired R xs ys)
    (hkey : ∀ x y, R x y → key x = key' y)
    (hfg : ∀ x ∈ xs, ∀ y ∈ ys, key x = key' y → f x = g y) :
    (collectBy key keepLast xs).map f = (collectBy key' keepLast ys).map g := by
  have hx := collectBy_increasing (keepsKey_keepLast key) xs
  have hy := collectBy_increasing (keepsKey_keepLast key') ys
  apply hx.map_eq_of_findKey hy
  intro k
  have hsome : (findKey key (collectBy key keepLast xs) k).isSome = true ↔
      (findKey key' (collectBy key' keepLast ys) k).isSome = true := by
    rw [findKey_isSome, findKey_isSome, key_mem_collectBy (keepsKey_keepLast key),
      key_mem_collectBy (keepsKey_keepLast key'), h.mem_map_iff hkey]
  cases hx' : findKey key (collectBy key keepLast xs) k with
  | none => cases hy' : findKey key' (collectBy key' keepLast ys) k <;> simp_all
  | some x =>
    cases hy' : findKey key' (collectBy key' keepLast ys) k with
    | none => simp [hx', hy'] at hsome
    | some y =>
      have hxy : key x = key' y := (key_of_findKey hx').trans (key_of_findKey hy').symm
      have hxm := mem_collectBy_keepLast (mem_of_findKey hx')
      have hym := mem_collectBy_keepLast (mem_of_findKey hy')
      simp [hfg x hxm y hym hxy]

theorem of_forall₂ (h : List.Forall₂ R xs ys) : Paired R xs ys := by
  induction h with
  | nil => exact nil
  | cons hxy _ ih => exact (single hxy).append ih

theorem perm_left {xs' : List α} (hperm : xs'.Perm xs) (h : Paired R xs ys) : Paired R xs' ys := by
  constructor
  · intro x hx
    exact h.forth x (hperm.mem_iff.1 hx)
  · intro y hy
    obtain ⟨x, hx, hxy⟩ := h.back y hy
    exact ⟨x, hperm.mem_iff.2 hx, hxy⟩

theorem perm_right {ys' : List β} (hperm : ys'.Perm ys) (h : Paired R xs ys) : Paired R xs ys' := by
  refine ⟨fun x hx => ?_, fun y hy => h.back y (hperm.mem_iff.1 hy)⟩
  obtain ⟨y, hy, hxy⟩ := h.forth x hx
  exact ⟨y, hperm.mem_iff.2 hy, hxy⟩

theorem forall₂ {key : α → SortKey} {key' : β → SortKey} (hx : IncreasingBy key xs)
    (hy : IncreasingBy key' ys) (hkey : ∀ x y, R x y → key x = key' y) (h : Paired R xs ys) :
    List.Forall₂ R xs ys := by
  have hkeys : xs.map key = ys.map key' := hx.map_eq hy (h.mem_map_iff hkey)
  have hnodup := hy.nodup
  have hforth := h.forth
  clear hx hy h
  induction xs generalizing ys with
  | nil =>
    cases ys with
    | nil => exact .nil
    | cons y ys => cases hkeys
  | cons x xs ih =>
    cases ys with
    | nil => cases hkeys
    | cons y ys =>
      obtain ⟨hxy, hrest⟩ := List.cons.inj hkeys
      obtain ⟨y', hy', hR⟩ := hforth x (List.mem_cons_self ..)
      have hyy : y' = y :=
        List.inj_on_of_nodup_map hnodup hy' (List.mem_cons_self ..) ((hkey x y' hR).symm.trans hxy)
      have htail := List.nodup_cons.1 hnodup
      refine .cons (hyy ▸ hR) (ih hrest htail.2 fun z hz => ?_)
      obtain ⟨z', hz', hR'⟩ := hforth z (List.mem_cons_of_mem _ hz)
      rcases List.mem_cons.1 hz' with rfl | hz'
      · exact absurd (hrest ▸ hkey z z' hR' ▸ List.mem_map_of_mem hz) htail.1
      · exact ⟨z', hz', hR'⟩

end Paired

theorem rel_of_rel {R S : α → β → Prop} {x : Option α} {y : Option β} (h : Option.Rel R x y)
    (hRS : ∀ a b, x = some a → y = some b → R a b → S a b) : Option.Rel S x y := by
  cases h with
  | none => exact .none
  | some hab => exact .some (hRS _ _ rfl rfl hab)

theorem rel_of_map_eq {f : α → γ} {g : β → γ} {x : Option α} {y : Option β}
    (h : x.map f = y.map g) : Option.Rel (fun a b => f a = g b) x y := by
  cases x <;> cases y <;> simp_all

theorem forall₂_iff_map_eq {f : α → γ} {g : β → γ} {xs : List α} {ys : List β} :
    List.Forall₂ (fun x y => f x = g y) xs ys ↔ xs.map f = ys.map g := by
  rw [← List.forall₂_eq_eq_eq, List.forall₂_map_left_iff, List.forall₂_map_right_iff]

theorem find?_rel {R : α → β → Prop} {f : α → Bool} {g : β → Bool} {xs : List α} {ys : List β}
    (h : List.Forall₂ R xs ys) (hfg : ∀ x y, R x y → f x = g y) :
    Option.Rel R (xs.find? f) (ys.find? g) := by
  induction h with
  | nil => exact .none
  | @cons x y xs ys hxy _ ih =>
    rw [List.find?_cons, List.find?_cons, hfg x y hxy]
    by_cases hy : g y = true
    · simp only [hy]
      exact .some hxy
    · simp only [hy]
      exact ih

end

end BuildGraph
