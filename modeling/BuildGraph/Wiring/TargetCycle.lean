import BuildGraph.CycleSearch
import BuildGraph.Wiring

/-!
# Cycles of targets

The search for a cycle among the target nodes of a graph, in key order.
-/

namespace BuildGraph.Wiring

def targetNodes (w : Wiring) : List Nat :=
  w.nodes.filter (w.holds NodeKey.isTarget)

def targetSuccessors (w : Wiring) (node : Nat) : List Nat :=
  w.sortNodes ((w.successors node).filter (w.holds NodeKey.isTarget))

def targetCycle? (w : Wiring) : Option (List TargetId) :=
  ((searchCycle (· == ·) w.targetSuccessors (w.sortNodes w.targetNodes)).bind (·.cycle?)).map
    fun cycle => cycle.filterMap fun node => (w.key? node).bind NodeKey.target?

end BuildGraph.Wiring
