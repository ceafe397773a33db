import BuildGraph.Wiring
import BuildGraph.Workspace

/-!
# Dependency graphs

A validated graph with the projects it was built from, and the lookup of the
targets behind its nodes.
-/

namespace BuildGraph

structure Graph where
  workspace : Workspace
  projects : ProjectTable
  wiring : Wiring
deriving DecidableEq, Repr

/-! ## Targets of a graph -/

/-- A target with the project it belongs to; `path` is where that project is registered. -/
structure ProjectTarget where
  path : Path
  target : Target
  project : Project
deriving DecidableEq, Repr

namespace ProjectTarget

instance : Sortable ProjectTarget := ⟨fun t => .ofList [sortKey t.path, sortKey t.target.name]⟩

def name (t : ProjectTarget) : String := t.target.name

def product (t : ProjectTarget) : Product := t.target.product

def id (t : ProjectTarget) : TargetId := ⟨t.path, t.name⟩

def key (t : ProjectTarget) : NodeKey := .target t.id

end ProjectTarget

structure TargetUse where
  target : ProjectTarget
  condition : Option Condition
deriving DecidableEq, Repr

instance : Sortable TargetUse := ⟨fun u => .ofList [sortKey u.target, sortKey u.condition]⟩

namespace Graph

variable (g : Graph)

def project? (path : Path) : Option Project :=
  (g.projects.at? path).map (·.project)

def target? (path : Path) (name : String) : Option ProjectTarget := do
  let entry ← g.projects.at? path
  let target ← entry.project.lastTarget? name
  return ⟨entry.path, target, entry.project⟩

def targetOfId? (id : TargetId) : Option ProjectTarget :=
  g.target? id.projectPath id.name

def targetOfKey? (key : NodeKey) : Option ProjectTarget :=
  key.target?.bind g.targetOfId?

def targetOfNode? (node : Nat) : Option ProjectTarget :=
  (g.wiring.key? node).bind g.targetOfKey?

def targetsOf (path : Path) : List ProjectTarget :=
  match g.projects.at? path with
  | none => []
  | some entry => entry.project.targetNames.filterMap fun name => g.target? path name

def targets : List ProjectTarget :=
  g.projects.flatMap fun entry => g.targetsOf entry.path

def dependencies (key : NodeKey) : List NodeKey :=
  match g.wiring.node? key with
  | none => []
  | some node => sorted ((g.wiring.successors node).filterMap g.wiring.key?)

end Graph

end BuildGraph
