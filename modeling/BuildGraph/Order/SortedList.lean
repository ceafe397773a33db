import BuildGraph.Order.SortKey

/-!
# Lists in increasing key order

Stable sorting by a key, insertion with a rule for an entry whose key is
already present, and collection of a whole list under such a rule. Insertion
keeps a list increasing, so a collected list has each key once.
-/

namespace BuildGraph

section
variable {α : Type}

/-! ## Stable sorting -/

def insertKeyed (x : SortKey × α) : List (SortKey × α) → List (SortKey × α)
  | [] => [x]
  | y :: ys => if compare x.1 y.1 = .gt then y :: insertKeyed x ys else x :: y :: ys

/-- Entries of equal keys stay in their order. -/
def sortBy (key : α → SortKey) (xs : List α) : List α :=
  ((xs.map fun x => (key x, x)).foldr insertKeyed []).map (·.2)

/-! ## Insertion and collection -/

variable (key : α → SortKey)

def IncreasingBy (xs : List α) : Prop :=
  xs.Pairwise fun a b => compare (key a) (key b) = .lt

/-- Inserts `x`; an entry of the same key is replaced by `merge entry x`. -/
def insertBy (merge : α → α → α) (x : α) : List α → List α
  | [] => [x]
  | y :: ys =>
    match compare (key x) (key y) with
    | .lt => x :: y :: ys
    | .eq => merge y x :: ys
    | .gt => y :: insertBy merge x ys

def collectBy (merge : α → α → α) (xs : List α) : List α :=
  xs.foldl (fun found x => insertBy key merge x found) []

def keepFirst (old _new : α) : α := old

def keepLast (_old new : α) : α := new

/-! ## Keys of a collected list -/

def KeepsKey (merge : α → α → α) : Prop :=
  ∀ a b, key a = key b → key (merge a b) = key a

theorem keepsKey_keepFirst : KeepsKey key keepFirst := fun _ _ _ => rfl

theorem keepsKey_keepLast : KeepsKey key keepLast := fun _ _ h => h.symm

variable {key} {merge : α → α → α}

theorem key_mem_insertBy (hm : KeepsKey key merge) (x : α) : ∀ (ys : List α) (k : SortKey),
    k ∈ (insertBy key merge x ys).map key ↔ k = key x ∨ k ∈ ys.map key
  | [], k => by simp [insertBy]
  | y :: ys, k => by
    unfold insertBy
    split
    · simp
    · rename_i h
      have h := SortKey.eq_of_compare h
      simp [hm y x h.symm, h]
    · have ih := key_mem_insertBy hm x ys k
      simp only [List.map_cons, List.mem_cons, ih]
      exact ⟨fun h => by rcases h with h | h | h <;> simp [h],
        fun h => by rcases h with h | h | h <;> simp [h]⟩

theorem insertBy_increasing (hm : KeepsKey key merge) (x : α) : ∀ {ys : List α},
    IncreasingBy key ys → IncreasingBy key (insertBy key merge x ys)
  | [], _ => by simp [insertBy, IncreasingBy]
  | y :: ys, h => by
    have hy := List.pairwise_cons.1 h
    unfold insertBy
    split
    · rename_i hlt
      refine List.pairwise_cons.2 ⟨fun z hz => ?_, h⟩
      rcases List.mem_cons.1 hz with rfl | hz
      · exact hlt
      · exact SortKey.lt_trans hlt (hy.1 z hz)
    · rename_i heq
      have hk := hm y x (SortKey.eq_of_compare heq).symm
      exact List.pairwise_cons.2 ⟨fun z hz => hk ▸ hy.1 z hz, hy.2⟩
    · rename_i hgt
      refine List.pairwise_cons.2 ⟨fun z hz => ?_, insertBy_increasing hm x hy.2⟩
      rcases (key_mem_insertBy hm x ys (key z)).1 (List.mem_map_of_mem hz) with hz | hz
      · rw [hz, SortKey.compare_swap, hgt]; rfl
      · obtain ⟨w, hw, hwz⟩ := List.mem_map.1 hz
        exact hwz ▸ hy.1 w hw

theorem insertBy_ne_nil (x : α) (ys : List α) : insertBy key merge x ys ≠ [] := by
  cases ys with
  | nil => simp [insertBy]
  | cons y ys => unfold insertBy; split <;> simp

theorem collectBy_increasing (hm : KeepsKey key merge) (xs : List α) :
    IncreasingBy key (collectBy key merge xs) := by
  have : ∀ (xs found : List α), IncreasingBy key found →
      IncreasingBy key (xs.foldl (fun found x => insertBy key merge x found) found) := by
    intro xs
    induction xs with
    | nil => exact fun _ h => h
    | cons x xs ih => exact fun _ h => ih _ (insertBy_increasing hm x h)
  exact this xs [] .nil

end

def sorted {α : Type} [Sortable α] (xs : List α) : List α :=
  sortBy sortKey xs

end BuildGraph
