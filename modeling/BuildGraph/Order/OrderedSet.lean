import BuildGraph.Order.SortedList

/-!
# Ordered sets

A finite set kept as the increasing list of its members, so that equal sets
have equal lists and every listing is in canonical order.
-/

namespace BuildGraph

structure OrderedSet (α : Type) [Sortable α] where
  toList : List α
  increasing : IncreasingBy sortKey toList

namespace OrderedSet

section
variable {α : Type} [Sortable α]

def empty : OrderedSet α := ⟨[], .nil⟩

instance : Inhabited (OrderedSet α) := ⟨empty⟩

def insert (s : OrderedSet α) (x : α) : OrderedSet α :=
  ⟨insertBy sortKey keepFirst x s.toList,
    insertBy_increasing (keepsKey_keepFirst sortKey) x s.increasing⟩

def insertAll (s : OrderedSet α) (xs : List α) : OrderedSet α :=
  xs.foldl insert s

def ofList (xs : List α) : OrderedSet α :=
  empty.insertAll xs

def contains (s : OrderedSet α) (x : α) : Bool :=
  s.toList.any (same x)

def union (s t : OrderedSet α) : OrderedSet α :=
  s.insertAll t.toList

def filter (p : α → Bool) (s : OrderedSet α) : OrderedSet α :=
  ⟨s.toList.filter p, s.increasing.filter p⟩

def inter (s t : OrderedSet α) : OrderedSet α :=
  s.filter t.contains

def isEmpty (s : OrderedSet α) : Bool :=
  s.toList.isEmpty

def size (s : OrderedSet α) : Nat :=
  s.toList.length

def first? (s : OrderedSet α) : Option α :=
  s.toList.head?

instance : Sortable (OrderedSet α) := ⟨fun s => sortKey s.toList⟩

instance [DecidableEq α] : DecidableEq (OrderedSet α) := fun s t =>
  decidable_of_iff (s.toList = t.toList)
    ⟨fun h => by cases s; cases t; cases h; rfl, fun h => h ▸ rfl⟩

instance [Repr α] : Repr (OrderedSet α) := ⟨fun s n => reprPrec s.toList n⟩

/-! ## Members -/

theorem contains_iff {s : OrderedSet α} {x : α} :
    s.contains x = true ↔ sortKey x ∈ s.toList.map sortKey := by
  simp only [contains, List.any_eq_true, same_iff, List.mem_map]
  exact ⟨fun ⟨y, hy, h⟩ => ⟨y, hy, h.symm⟩, fun ⟨y, hy, h⟩ => ⟨y, hy, h.symm⟩⟩

theorem contains_insert {s : OrderedSet α} {x y : α} :
    (s.insert x).contains y = true ↔ sortKey y = sortKey x ∨ s.contains y = true := by
  rw [contains_iff, contains_iff]
  exact key_mem_insertBy (keepsKey_keepFirst sortKey) x s.toList _

theorem contains_insertAll {x : α} : ∀ {xs : List α} {s : OrderedSet α},
    (s.insertAll xs).contains x = true ↔ s.contains x = true ∨ sortKey x ∈ xs.map sortKey
  | [], s => by simp [insertAll]
  | y :: ys, s => by
    have ih := @contains_insertAll x ys (s.insert y)
    rw [insertAll, List.foldl_cons, ← insertAll, ih, contains_insert]
    simp only [List.map_cons, List.mem_cons]
    exact ⟨fun h => by rcases h with (h | h) | h <;> simp [h],
      fun h => by rcases h with h | h | h <;> simp [h]⟩

theorem contains_union {s t : OrderedSet α} {x : α} :
    (s.union t).contains x = true ↔ s.contains x = true ∨ t.contains x = true := by
  rw [union, contains_insertAll, contains_iff (s := t)]

theorem insert_ne_nil (s : OrderedSet α) (x : α) : (s.insert x).toList ≠ [] :=
  insertBy_ne_nil _ _

theorem insertAll_ne_nil (xs : List α) : ∀ {s : OrderedSet α}, s.toList ≠ [] →
    (s.insertAll xs).toList ≠ [] := by
  induction xs with
  | nil => exact fun h => h
  | cons x xs ih => exact fun _ => ih (insert_ne_nil _ x)

end

end OrderedSet

end BuildGraph
