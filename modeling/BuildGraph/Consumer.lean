import BuildGraph.Graph.Role
import BuildGraph.Reference
import BuildGraph.Wiring.PathCondition
import BuildGraph.Wiring.Reach

/-!
# Consumers

A target of a graph, seen as the consumer of what it depends on. Selected nodes
become references under the net condition from the consumer; a node that no path
reaches on any platform is left out, and package products and macro executables
have no references.
-/

namespace BuildGraph

structure Consumer where
  graph : Graph
  node : Nat
  target : ProjectTarget
deriving DecidableEq, Repr

/-! ## Consumers of a graph -/

namespace Graph

variable (g : Graph)

def consumer? (path : Path) (name : String) : Option Consumer := do
  let target ← g.target? path name
  let node ← g.wiring.node? (.ofTarget path name)
  return ⟨g, node, target⟩

def consumerOf? (t : ProjectTarget) : Option Consumer :=
  g.consumer? t.path t.name

def netCondition (source target : NodeKey) : NetCondition :=
  match g.wiring.node? source, g.wiring.node? target with
  | some a, some b => (g.wiring.between [] a b).1
  | _, _ => .incompatible

end Graph

namespace Consumer

variable (c : Consumer)

def path : Path := c.target.path

def product : Product := c.target.product

def description : Target := c.target.target

/-! ## Nodes -/

def successors : List Nat :=
  c.graph.wiring.successors c.node

def select (test skip : NodeKey → Bool) : List Nat :=
  c.graph.wiring.select [c.node] test skip

def resolveAll (nodes : List Nat) : List (Nat × NetCondition) :=
  c.graph.wiring.resolveAll c.node [] nodes

/-! ## References -/

def referenceFor? (condition : Option Condition) : NodeKey → Option Reference
  | .target id => (c.graph.targetOfId? id).map fun t => .ofTarget t condition
  | .prebuilt b => some (.ofBinary b condition)
  | .sdk _ path status source => some (.sdk path status source condition)
  | .bundle path => some (.bundle path condition)
  | .packageProduct .. | .macroExecutable _ => none

def reference? (resolved : Nat × NetCondition) : Option Reference := do
  let condition ← resolved.2.condition?
  c.referenceFor? condition (← c.graph.wiring.key? resolved.1)

def collect (nodes : List Nat) : References :=
  .ofList ((c.resolveAll nodes).filterMap c.reference?)

/-! ## Targets -/

def targetUse? (resolved : Nat × NetCondition) : Option TargetUse := do
  let target ← c.graph.targetOfNode? resolved.1
  return ⟨target, ← resolved.2.condition?⟩

def targetUses (nodes : List Nat) : List TargetUse :=
  collectBy sortKey keepLast ((c.resolveAll nodes).filterMap c.targetUse?)

end Consumer

end BuildGraph
