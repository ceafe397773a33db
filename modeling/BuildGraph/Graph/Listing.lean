import BuildGraph.Graph

/-!
# Listings

The targets of a graph as a whole, also in an order for building them, and the
frameworks it uses.
-/

namespace BuildGraph.Graph

variable (g : Graph)

def listedTargets : List ProjectTarget :=
  collectBy sortKey keepLast (g.workspace.projects.flatMap g.targetsOf)

def successorTargets (t : ProjectTarget) : List ProjectTarget :=
  match g.wiring.node? t.key with
  | none => []
  | some node => collectBy sortKey keepLast ((g.wiring.successors node).filterMap g.targetOfNode?)

/-! ## Build order -/

/-- A target with its direct dependencies and how many of them are not listed yet. -/
structure Pending where
  target : ProjectTarget
  dependencies : List ProjectTarget
  unlisted : Nat

def Pending.afterListing (listed : ProjectTarget) (p : Pending) : Pending :=
  if p.dependencies.any (same listed) then { p with unlisted := p.unlisted - 1 } else p

def listReady : Nat → List Pending → List ProjectTarget
  | 0, _ => []
  | fuel + 1, pending =>
    match pending.find? (·.unlisted == 0) with
    | none => []
    | some ready =>
      let rest := pending.filter fun p => !same p.target ready.target
      ready.target :: listReady fuel (rest.map (·.afterListing ready.target))

/-- All targets, each after its direct dependencies; the least comes first among
those whose turn it can be. -/
def targetsInOrder : List ProjectTarget :=
  let pending := g.targets.map fun t =>
    let dependencies := g.successorTargets t
    { target := t, dependencies, unlisted := dependencies.length : Pending }
  listReady pending.length pending

/-! ## Frameworks -/

def frameworkPaths : List Path :=
  distinctPaths (((g.wiring.keys.filterMap NodeKey.prebuilt?).filter (·.isFramework)).map (·.path))

end BuildGraph.Graph
