import BuildGraph.Proofs.Reach

/-!
# Selections

A selection goes below its roots and below what it does not skip. It takes up a node
exactly if a path of such nodes leads to it, and takes up none twice. Of these it keeps
those that pass the test and are no roots, in the order of the nodes.
-/

namespace BuildGraph.Wiring

/-! ## Paths -/

def IsPath (w : Wiring) (a : Nat) (inner : List Nat) (b : Nat) : Prop :=
  (a :: (inner ++ [b])).IsChain w.Next

section
variable {w : Wiring} {a b : Nat}

theorem isPath_nil : w.IsPath a [] b ↔ w.Next a b := by
  simp [IsPath]

theorem isPath_cons {c : Nat} {inner : List Nat} :
    w.IsPath a (c :: inner) b ↔ w.Next a c ∧ w.IsPath c inner b :=
  List.isChain_cons_cons

theorem isPath_iff_route : ∀ {a : Nat} {inner : List Nat},
    w.IsPath a inner b ↔ ∃ es, w.IsRoute a es b ∧ es.map (·.source) = a :: inner
  | a, [] => by
    rw [isPath_nil]
    constructor
    · intro h
      obtain ⟨e, he, rfl, rfl⟩ := mem_successors.1 h
      exact ⟨[e], isRoute_single he, rfl⟩
    · rintro ⟨es, hes, hsources⟩
      obtain ⟨e, rfl, -⟩ := List.map_eq_singleton_iff.1 hsources
      obtain ⟨he, rfl, rfl⟩ := hes
      exact mem_successors.2 ⟨e, he, rfl, rfl⟩
  | a, c :: inner => by
    rw [isPath_cons, isPath_iff_route]
    constructor
    · rintro ⟨hnext, es, hes, hsources⟩
      obtain ⟨e, he, rfl, rfl⟩ := mem_successors.1 hnext
      exact ⟨e :: es, ⟨he, rfl, hes⟩, by rw [List.map_cons, hsources]⟩
    · rintro ⟨es, hes, hsources⟩
      obtain ⟨e, ds, rfl, -, hrest⟩ := List.map_eq_cons_iff.1 hsources
      obtain ⟨he, rfl, hds⟩ := hes
      -- the second edge starts where the first one ends
      have hmid : e.target = c := by
        obtain ⟨d, _, rfl, hd, -⟩ := List.map_eq_cons_iff.1 hrest
        exact hds.2.1.symm.trans hd
      subst hmid
      exact ⟨mem_successors.2 ⟨e, he, rfl, rfl⟩, ds, hds, hrest⟩

/-! ## What is taken up -/

theorem nodup_walk {enter : Nat → Bool} {seen stack : List Nat} (h : seen.Nodup) :
    (w.walk enter seen stack).Nodup := by
  fun_induction walk w enter seen stack with
  | case1 => exact h
  | case2 _ _ _ _ ih => exact ih h
  | case3 _ _ _ hnew _ ih => exact ih (List.nodup_cons.2 ⟨by simpa using hnew, h⟩)
  | case4 _ _ _ hnew _ ih => exact ih (List.nodup_cons.2 ⟨by simpa using hnew, h⟩)

def takenUp (w : Wiring) (roots : List Nat) (skip : NodeKey → Bool) : List Nat :=
  w.reach (fun node => roots.contains node || !w.holds skip node) roots

variable {roots : List Nat} {test skip : NodeKey → Bool} {n : Nat}

theorem nodup_takenUp : (w.takenUp roots skip).Nodup :=
  nodup_walk .nil

theorem mem_takenUp : n ∈ w.takenUp roots skip ↔
    n ∈ roots ∨ ∃ root ∈ roots, ∃ inner, w.IsPath root inner n ∧
      ∀ m ∈ inner, m ∈ roots ∨ w.holds skip m = false := by
  simp only [takenUp, mem_reach, Bool.or_eq_true, Bool.not_eq_true', List.contains_iff_mem]
  constructor
  · rintro ⟨root, hroot, es, hes, hall⟩
    cases es with
    | nil => exact .inl ((show root = n from hes) ▸ hroot)
    | cons e es =>
      refine .inr ⟨root, hroot, es.map (·.source), isPath_iff_route.2 ⟨e :: es, hes, ?_⟩, ?_⟩
      · rw [List.map_cons, hes.2.1]
      · rw [List.forall_mem_map]
        exact fun d hd => hall d (List.mem_cons_of_mem _ hd)
  · rintro (hn | ⟨root, hroot, inner, hpath, hall⟩)
    · exact ⟨n, hn, [], rfl, fun _ h => nomatch h⟩
    obtain ⟨es, hes, hsources⟩ := isPath_iff_route.1 hpath
    refine ⟨root, hroot, es, hes, fun e he => ?_⟩
    have hsource : e.source ∈ root :: inner := hsources ▸ List.mem_map_of_mem he
    rcases List.mem_cons.1 hsource with hstart | hinner
    · exact .inl (hstart ▸ hroot)
    · exact hall _ hinner

theorem select_perm : (w.select roots test skip).Perm
    ((w.takenUp roots skip).filter fun n => !roots.contains n && w.holds test n) := by
  have hselected : (w.select roots test skip).Nodup := List.nodup_range.filter _
  refine (List.perm_ext_iff_of_nodup hselected (nodup_takenUp.filter _)).2 fun n => ?_
  simp only [select, takenUp, List.mem_filter, mem_nodes, Bool.and_eq_true, List.contains_iff_mem]
  constructor
  · rintro ⟨-, ⟨hseen, hroot⟩, htest⟩
    exact ⟨hseen, hroot, htest⟩
  · rintro ⟨hseen, hroot, htest⟩
    exact ⟨lt_size_of_holds htest, ⟨hseen, hroot⟩, htest⟩

end

/-- The walk takes up no node twice. Selected are, in ascending order, the nodes other than the
roots that pass the test and to which a path leads from a root by way of roots and of nodes
that are not skipped. -/
theorem select_exactly (w : Wiring) (roots : List Nat) (test skip : NodeKey → Bool) :
    (w.takenUp roots skip).Nodup ∧
      (w.select roots test skip).Perm
        ((w.takenUp roots skip).filter fun n => !roots.contains n && w.holds test n) ∧
      (w.select roots test skip).Pairwise (· < ·) ∧
      ∀ n, n ∈ w.select roots test skip ↔ n ∉ roots ∧ w.holds test n = true ∧
        ∃ root ∈ roots, ∃ inner, w.IsPath root inner n ∧
          ∀ m ∈ inner, m ∈ roots ∨ w.holds skip m = false := by
  refine ⟨nodup_takenUp, select_perm, List.pairwise_lt_range.filter _, fun n => ?_⟩
  have hkept : (!roots.contains n && w.holds test n) = true ↔ n ∉ roots ∧ w.holds test n = true := by
    simp
  rw [select_perm.mem_iff, List.mem_filter, mem_takenUp, hkept]
  constructor
  · rintro ⟨hup, hn, htest⟩
    exact ⟨hn, htest, hup.resolve_left hn⟩
  · rintro ⟨hn, htest, hpath⟩
    exact ⟨.inr hpath, hn, htest⟩

/-- All nodes are to be skipped: the walk goes below the second root, and stops at the next node,
which is selected. -/
example : let key (name : String) : NodeKey := .bundle ⟨name⟩
    let w : Wiring := ⟨[key "/a", key "/b", key "/c", key "/d"],
      [⟨0, 1, none⟩, ⟨1, 2, none⟩, ⟨2, 3, none⟩]⟩
    w.select [0, 1] (fun _ => true) (fun _ => true) = [2] := by
  decide +kernel

end BuildGraph.Wiring
