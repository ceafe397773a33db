import BuildGraph.Wiring

/-!
# Topological order and longest chains

An order in which each node comes before everything it depends on, or a node
that shows there is none; and the length of the longest chain from each node.
-/

namespace BuildGraph.Wiring

/-! ## Topological order -/

/-- A finishing walk: the nodes discovered, and those finished, newest first. -/
structure Finishing where
  discovered : List Nat := []
  finished : List Nat := []

/-- Finishes `node` after all that it depends on, oldest edge first; a node that
depends on itself is an error. -/
def finish (w : Wiring) : Nat → Finishing → Nat → Except Nat Finishing
  | 0, walk, _ => .ok walk
  | fuel + 1, walk, node =>
    if walk.discovered.contains node then .ok walk
    else if (w.successors node).contains node then .error node
    else do
      let walk ← (w.successors node).reverse.foldlM (w.finish fuel)
        { walk with discovered := node :: walk.discovered }
      return { walk with finished := node :: walk.finished }

/-- Checks that each node follows all that depend on it; the first dependent out
of place is an error. -/
def checkOrder (w : Wiring) : List Nat → List Nat → Except Nat Unit
  | _, [] => .ok ()
  | placed, node :: rest =>
    let placed := node :: placed
    match (w.predecessors node).find? fun dependent => !placed.contains dependent with
    | some dependent => .error dependent
    | none => w.checkOrder placed rest

/-- The nodes, each before its dependencies, or a node on or below a cycle. -/
def topologicalOrder (w : Wiring) : Except Nat (List Nat) := do
  let walk ← w.nodes.foldlM (w.finish w.size) {}
  w.checkOrder [] walk.finished
  return walk.finished

/-! ## Longest chains -/

abbrev ChainTable := List (Nat × Nat)

def ChainTable.length (table : ChainTable) (node : Nat) : Nat :=
  ((table.find? fun entry => entry.1 == node).map (·.2)).getD 0

def longestChain (w : Wiring) (table : ChainTable) (node : Nat) : Nat :=
  (w.successors node).foldl (fun longest next => max longest (table.length next + 1)) 0

/-- Goes through nodes that follow their dependencies; the first with a chain of
more than `maxDepth` edges is an error, with the length of that chain. -/
def checkChains (w : Wiring) (maxDepth : Nat) : ChainTable → List Nat → Except (Nat × Nat) Unit
  | _, [] => .ok ()
  | table, node :: rest =>
    let longest := w.longestChain table node
    if maxDepth < longest then .error (node, longest)
    else w.checkChains maxDepth ((node, longest) :: table) rest

end BuildGraph.Wiring
