import BuildGraph.Wiring

/-!
# Reachability

A depth-first walk that enters the nodes below a node only where it is allowed
to, and the selection of nodes made with it.
-/

namespace BuildGraph.Wiring

/-! ## The walk -/

def edgesAhead (w : Wiring) (seen : List Nat) : List Edge :=
  w.edges.filter fun e => !seen.contains e.source

/-- The successors not seen yet, as they go onto the stack: the last one on top. -/
def unseen (w : Wiring) (seen : List Nat) (node : Nat) : List Nat :=
  ((w.successors node).filter fun next => !seen.contains next).reverse

theorem length_edgesAhead_cons (w : Wiring) {seen : List Nat} {node : Nat}
    (h : seen.contains node = false) :
    (w.edgesAhead (node :: seen)).length + (w.successors node).length =
      (w.edgesAhead seen).length := by
  simp only [edgesAhead, successors, List.length_reverse, List.length_map]
  induction w.edges with
  | nil => rfl
  | cons e es ih =>
    by_cases he : e.source = node
    · subst he
      simp_all
      omega
    · by_cases hs : e.source ∈ seen <;> simp_all
      omega

theorem length_unseen_le (w : Wiring) (seen : List Nat) (node : Nat) :
    (w.unseen seen node).length ≤ (w.successors node).length := by
  rw [unseen, List.length_reverse]
  exact List.length_filter_le _ _

/-- Works off a stack of nodes and adds what it meets to `seen`; the successors of a
node go on top of the stack if `enter` allows it. -/
def walk (w : Wiring) (enter : Nat → Bool) (seen : List Nat) : List Nat → List Nat
  | [] => seen
  | node :: stack =>
    if seen.contains node then w.walk enter seen stack
    else if enter node then
      w.walk enter (node :: seen) (w.unseen (node :: seen) node ++ stack)
    else w.walk enter (node :: seen) stack
termination_by stack => (w.edgesAhead seen).length + stack.length
decreasing_by
  all_goals simp only [List.length_cons, List.length_append]
  · omega
  · rename_i hs _
    have := w.length_edgesAhead_cons (Bool.eq_false_iff.2 hs)
    have := w.length_unseen_le (node :: seen) node
    omega
  · rename_i hs _
    have := w.length_edgesAhead_cons (Bool.eq_false_iff.2 hs)
    omega

def reach (w : Wiring) (enter : Nat → Bool) (roots : List Nat) : List Nat :=
  w.walk enter [] roots.reverse

/-! ## Selections -/

/-- The nodes other than the roots that pass `test` and are reached without
going below a node that matches `skip`. Roots are neither tested nor skipped. -/
def select (w : Wiring) (roots : List Nat) (test skip : NodeKey → Bool) : List Nat :=
  let seen := w.reach (fun node => roots.contains node || !w.holds skip node) roots
  w.nodes.filter fun node => seen.contains node && !roots.contains node && w.holds test node

def reachable (w : Wiring) (node : Nat) : List Nat :=
  w.reach (fun _ => true) [node]

end BuildGraph.Wiring
