import BuildGraph.NodeKey
import BuildGraph.Platform.Condition

/-!
# Directed graphs of keys

Keys are interned: the first mention of a key gives its node the next number,
and every later mention of the same key, however spelled, means that node. An
edge from `a` to `b` says that `a` depends on `b`; there is at most one.
-/

namespace BuildGraph

structure Edge where
  source : Nat
  target : Nat
  condition : Option Condition
deriving DecidableEq, Repr

structure Wiring where
  keys : List NodeKey := []
  /-- In the order of their first declaration. -/
  edges : List Edge := []
deriving DecidableEq, Repr, Inhabited

namespace Wiring

/-! ## Nodes -/

def size (w : Wiring) : Nat :=
  w.keys.length

def nodes (w : Wiring) : List Nat :=
  List.range w.size

def key? (w : Wiring) (node : Nat) : Option NodeKey :=
  w.keys[node]?

def holds (w : Wiring) (p : NodeKey → Bool) (node : Nat) : Bool :=
  (w.key? node).any p

def node? (w : Wiring) (key : NodeKey) : Option Nat :=
  w.keys.findIdx? (same key)

/-- The node of `key`, which is added if it is new. -/
def intern (w : Wiring) (key : NodeKey) : Nat × Wiring :=
  match w.node? key with
  | some node => (node, w)
  | none => (w.size, { w with keys := w.keys ++ [key] })

def sortNodes (w : Wiring) (ns : List Nat) : List Nat :=
  sortBy (fun node => sortKey (w.key? node)) ns

/-! ## Edges -/

def edge? (w : Wiring) (source target : Nat) : Option Edge :=
  w.edges.find? fun e => e.source == source && e.target == target

def hasEdge (w : Wiring) (source target : Nat) : Bool :=
  (w.edge? source target).isSome

def conditionOn (w : Wiring) (source target : Nat) : Option Condition :=
  (w.edge? source target).bind (·.condition)

/-- The direct dependencies of a node, newest edge first. -/
def successors (w : Wiring) (node : Nat) : List Nat :=
  ((w.edges.filter (·.source == node)).map (·.target)).reverse

/-- The direct dependents of a node, oldest edge first. -/
def predecessors (w : Wiring) (node : Nat) : List Nat :=
  (w.edges.filter (·.target == node)).map (·.source)

/-- Declaring an edge again keeps one edge under the union of both conditions. -/
def link (w : Wiring) (source target : Nat) (condition : Option Condition) : Wiring :=
  if w.hasEdge source target then
    { w with edges := w.edges.map fun e =>
        if e.source == source && e.target == target then
          { e with condition := Condition.either e.condition condition }
        else e }
  else { w with edges := w.edges ++ [⟨source, target, condition⟩] }

def connect (w : Wiring) (source target : NodeKey) (condition : Option Condition) :
    Wiring :=
  let (a, w) := w.intern source
  let (b, w) := w.intern target
  w.link a b condition

def isConditional (w : Wiring) : Bool :=
  w.edges.any (·.condition.isSome)

def edgeKeys (w : Wiring) : List (NodeKey × NodeKey) :=
  w.edges.filterMap fun e => do return (← w.key? e.source, ← w.key? e.target)

end Wiring

end BuildGraph
