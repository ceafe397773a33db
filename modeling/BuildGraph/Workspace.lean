import BuildGraph.Target

/-!
# Workspaces and projects

The descriptions that a graph is built from.
-/

namespace BuildGraph

inductive ProjectOrigin where
  | localProject
  | external
deriving DecidableEq, Repr, Inhabited

instance : Vocabulary ProjectOrigin where
  all := [.localProject, .external]
  name
    | .localProject => "local"
    | .external => "external"
  find?_name a := by cases a <;> decide

structure Project where
  path : Path
  name : String
  origin : ProjectOrigin := .localProject
  targets : List Target := []
deriving DecidableEq, Repr

namespace Project

def target? (p : Project) (name : String) : Option Target :=
  p.targets.find? fun t => t.name == name

/-- The last target of that name, which a registry keyed by name keeps. -/
def lastTarget? (p : Project) (name : String) : Option Target :=
  p.targets.reverse.find? fun t => t.name == name

def targetNames (p : Project) : List String :=
  collectBy sortKey keepFirst (p.targets.map (·.name))

def isExternal (p : Project) : Bool :=
  p.origin == .external

end Project

/-! ## Registered projects -/

structure ProjectEntry where
  path : Path
  project : Project
deriving DecidableEq, Repr

namespace ProjectEntry

instance : Sortable ProjectEntry := ⟨fun e => sortKey e.path⟩

def ofProject (p : Project) : ProjectEntry := ⟨p.path, p⟩

/-- A project registered again keeps the spelling of its path. -/
def replaceProject (old new : ProjectEntry) : ProjectEntry :=
  { old with project := new.project }

end ProjectEntry

abbrev ProjectTable := List ProjectEntry

namespace ProjectTable

def at? (table : ProjectTable) (path : Path) : Option ProjectEntry :=
  table.find? fun e => same e.path path

/-- Of several projects at one path the last counts. -/
def ofList (projects : List Project) : ProjectTable :=
  collectBy sortKey keepLast (projects.map .ofProject)

end ProjectTable

/-! ## Workspaces -/

structure Workspace where
  path : Path
  name : String
  projects : List Path := []
deriving DecidableEq, Repr

end BuildGraph
