import BuildGraph.Wiring.TargetCycle
import BuildGraph.Wiring.Topological
import BuildGraph.Graph
import BuildGraph.Fault

/-!
# Drafts

A graph under construction. Adding to a draft never fails; `build` checks the
whole and gives the graph or the first fault, in this order: a target node that
no project registers, an artifact that depends on a target, a cycle of targets,
any other cycle, a chain that is too long.
-/

namespace BuildGraph

/-- Whether the projects have a target; the path is reported as `id` spells it. -/
def ProjectTable.checkTarget (projects : ProjectTable) (id : TargetId) : Except Fault Unit :=
  match projects.at? id.projectPath with
  | none => .error (.unknownProject id.projectPath)
  | some entry =>
    match entry.project.target? id.name with
    | none => .error (.unknownTarget id.name id.projectPath)
    | some _ => .ok ()

structure Draft where
  workspace : Workspace
  projects : ProjectTable := []
  wiring : Wiring := {}
  maxDepth : Nat := 256
deriving DecidableEq, Repr

namespace Draft

/-! ## Adding -/

def intern (d : Draft) (key : NodeKey) : Nat × Draft :=
  let (node, wiring) := d.wiring.intern key
  (node, { d with wiring })

def register (d : Draft) (p : Project) : Draft :=
  { d with
    projects := insertBy sortKey ProjectEntry.replaceProject (.ofProject p) d.projects
    wiring := p.targets.foldl
      (fun wiring t => (wiring.intern (.ofTarget p.path t.name)).2) d.wiring }

def declare (d : Draft) (source target : NodeKey) (condition : Option Condition) : Draft :=
  { d with wiring := d.wiring.connect source target condition }

/-! ## Checks -/

def checkTargets (d : Draft) : Except Fault Unit :=
  ((sorted d.wiring.keys).filterMap NodeKey.target?).forM d.projects.checkTarget

def checkArtifactEdges (d : Draft) : Except Fault Unit :=
  let offending := d.wiring.edgeKeys.filter fun (a, b) => !a.isTarget && b.isTarget
  match (sorted offending).head? with
  | some (a, b) => .error (.unsupported (.artifactDependsOnTarget a b))
  | none => .ok ()

def checkTargetCycles (d : Draft) : Except Fault Unit :=
  match d.wiring.targetCycle? with
  | some cycle => .error (.targetCycle cycle)
  | none => .ok ()

/-- What the key of a node is called in a message; every node has one. -/
def keyed (d : Draft) (node : Nat) (reason : NodeKey → UnsupportedReason) : Fault :=
  .unsupported (((d.wiring.key? node).map reason).getD (.stated ""))

def checkDepth (d : Draft) : Except Fault Unit :=
  match d.wiring.topologicalOrder with
  | .error node => .error (d.keyed node .dependencyCycle)
  | .ok order =>
    match d.wiring.checkChains d.maxDepth [] order.reverse with
    | .error (node, length) => .error (d.keyed node (.chainTooLong length · d.maxDepth))
    | .ok () => .ok ()

def build (d : Draft) : Except Fault Graph := do
  d.checkTargets
  d.checkArtifactEdges
  d.checkTargetCycles
  d.checkDepth
  return ⟨d.workspace, d.projects, d.wiring⟩

end Draft

end BuildGraph
