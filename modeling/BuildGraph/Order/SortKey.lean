/-!
# Sort keys

The place of a value in its canonical order, as a small tree. Records compare
field by field, variants by rank before their fields, and a list that is a
proper start of another is smaller. Values with equal keys count as the same
entry of every ordered collection, also when they are spelled differently.
-/

namespace BuildGraph

inductive SortKey where
  | nil
  | num (n : Nat)
  | text (s : String)
  | cons (head tail : SortKey)
deriving DecidableEq, Repr, Inhabited

namespace SortKey

def ofList (parts : List SortKey) : SortKey :=
  parts.foldr cons nil

/-- An absent value comes before every present one. -/
def ofOption : Option SortKey → SortKey
  | none => nil
  | some key => cons key nil

def variant (rank : Nat) (fields : List SortKey) : SortKey :=
  cons (num rank) (ofList fields)

def ofBool (b : Bool) : SortKey :=
  num b.toNat

protected def compare : SortKey → SortKey → Ordering
  | nil, nil => .eq
  | nil, _ => .lt
  | num _, nil => .gt
  | num a, num b => Ord.compare a b
  | num _, _ => .lt
  | text _, cons _ _ => .lt
  | text a, text b => Ord.compare a b
  | text _, _ => .gt
  | cons a b, cons c d => (a.compare c).then (b.compare d)
  | cons _ _, _ => .gt

instance : Ord SortKey := ⟨SortKey.compare⟩

/-! ## The order is total -/

theorem compare_def (a b : SortKey) : compare a b = a.compare b := rfl

theorem compare_cons (a b c d : SortKey) :
    compare (cons a b) (cons c d) = (compare a c).then (compare b d) := rfl

theorem compare_swap (a b : SortKey) : compare a b = (compare b a).swap := by
  induction a generalizing b with
  | nil => cases b <;> rfl
  | num n =>
    cases b with
    | num m => exact Std.OrientedOrd.eq_swap (a := n) (b := m)
    | _ => rfl
  | text s =>
    cases b with
    | text t => exact Std.OrientedOrd.eq_swap (a := s) (b := t)
    | _ => rfl
  | cons x y ihx ihy =>
    cases b with
    | cons z w => rw [compare_cons, compare_cons, ihx z, ihy w, Ordering.swap_then]
    | _ => rfl

theorem eq_of_compare {a b : SortKey} (h : compare a b = .eq) : a = b := by
  induction a generalizing b with
  | nil => cases b with
    | nil => rfl
    | _ => exact nomatch h
  | num n => cases b with
    | num m => exact congrArg num (Std.LawfulEqOrd.eq_of_compare (a := n) h)
    | _ => exact nomatch h
  | text s => cases b with
    | text t => exact congrArg text (Std.LawfulEqOrd.eq_of_compare (a := s) h)
    | _ => exact nomatch h
  | cons x y ihx ihy => cases b with
    | cons z w =>
      rw [compare_cons, Ordering.then_eq_eq] at h
      rw [ihx h.1, ihy h.2]
    | _ => exact nomatch h

theorem compare_self (a : SortKey) : compare a a = .eq := by
  induction a with
  | nil => rfl
  | num n => exact Std.ReflOrd.compare_self (a := n)
  | text s => exact Std.ReflOrd.compare_self (a := s)
  | cons x y ihx ihy => rw [compare_cons, ihx, ihy]; rfl

theorem compare_eq_iff {a b : SortKey} : compare a b = .eq ↔ a = b :=
  ⟨eq_of_compare, fun h => h ▸ compare_self a⟩

theorem lt_trans {a b c : SortKey} (hab : compare a b = .lt) (hbc : compare b c = .lt) :
    compare a c = .lt := by
  induction a generalizing b c with
  | nil => cases c with
    | nil => cases b <;> exact nomatch hbc
    | _ => rfl
  | num n =>
    cases b with
    | num m => cases c with
      | num k =>
        exact (Std.TransCmp.lt_trans (show compare n m = .lt from hab) hbc : compare n k = .lt)
      | nil => exact nomatch hbc
      | _ => rfl
    | nil => exact nomatch hab
    | _ => cases c <;> first | rfl | exact nomatch hbc
  | text s =>
    cases b with
    | text t => cases c with
      | text u =>
        exact (Std.TransCmp.lt_trans (show compare s t = .lt from hab) hbc : compare s u = .lt)
      | cons _ _ => rfl
      | _ => exact nomatch hbc
    | cons _ _ => cases c <;> first | rfl | exact nomatch hbc
    | _ => exact nomatch hab
  | cons x y ihx ihy =>
    cases b with
    | cons z w => cases c with
      | cons u v =>
        rw [compare_cons, Ordering.then_eq_lt] at hab hbc ⊢
        rcases hab with hab | ⟨hab, hab'⟩ <;> rcases hbc with hbc | ⟨hbc, hbc'⟩
        · exact .inl (ihx hab hbc)
        · exact .inl (eq_of_compare hbc ▸ hab)
        · exact .inl (eq_of_compare hab ▸ hbc)
        · exact .inr ⟨eq_of_compare hab ▸ hbc, ihy hab' hbc'⟩
      | _ => exact nomatch hbc
    | _ => exact nomatch hab

theorem lt_irrefl (a : SortKey) : compare a a ≠ .lt := by
  simp [compare_self]

theorem lt_or_eq_or_gt (a b : SortKey) :
    compare a b = .lt ∨ a = b ∨ compare b a = .lt := by
  cases h : compare a b with
  | lt => exact .inl rfl
  | eq => exact .inr (.inl (eq_of_compare h))
  | gt => exact .inr (.inr (by rw [compare_swap, h]; rfl))

end SortKey

/-! ## Values with a sort key -/

class Sortable (α : Type) where
  sortKey : α → SortKey

export Sortable (sortKey)

section
variable {α : Type} [Sortable α]

/-- Two values are the same entry, however they are spelled. -/
def same (a b : α) : Bool :=
  sortKey a == sortKey b

def compareKeys (a b : α) : Ordering :=
  compare (sortKey a) (sortKey b)

theorem same_iff {a b : α} : same a b = true ↔ sortKey a = sortKey b := by
  simp [same]

end

instance : Sortable String := ⟨.text⟩

instance : Sortable Nat := ⟨.num⟩

instance {α β : Type} [Sortable α] [Sortable β] : Sortable (α × β) :=
  ⟨fun x => .ofList [sortKey x.1, sortKey x.2]⟩

instance {α : Type} [Sortable α] : Sortable (List α) := ⟨fun xs => .ofList (xs.map sortKey)⟩

instance {α : Type} [Sortable α] : Sortable (Option α) := ⟨fun x => .ofOption (x.map sortKey)⟩

end BuildGraph
