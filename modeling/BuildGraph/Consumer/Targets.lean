import BuildGraph.Consumer

/-!
# Targets around a consumer

The targets that a consumer depends on, directly or not, and one that depends on it.
-/

namespace BuildGraph.Consumer

variable (c : Consumer)

/-! ## Direct dependencies -/

def directTargets : List TargetUse :=
  c.targetUses (c.graph.wiring.nodes.filter c.successors.contains)

def localTargets : List TargetUse :=
  c.directTargets.filter fun u => same u.target.path c.path

def foreignTargets : List TargetUse :=
  c.directTargets.filter fun u => !same u.target.path c.path

def staticTargets : References :=
  c.collect (c.successors.filter (c.graph.wiring.holds c.graph.isStaticTarget))

def extensionProducts : List Product :=
  [.appExtension, .stickerPackExtension, .watch2Extension, .tvTopShelfExtension,
    .messagesExtension]

def extensions : List TargetUse :=
  c.directTargets.filter fun u => extensionProducts.contains u.target.product

def appClip? : Option TargetUse :=
  c.directTargets.find? fun u => u.target.product == .appClip

/-! ## All dependencies -/

def reachedTargets : List ProjectTarget :=
  collectBy sortKey keepLast
    ((c.select NodeKey.isTarget fun key => !key.isTarget).filterMap c.graph.targetOfNode?)

/-! ## Dependents -/

/-- The first target of the same project that depends on the consumer directly. -/
def dependent? : Option ProjectTarget :=
  (c.graph.targetsOf c.path).find? fun candidate =>
    (c.graph.wiring.node? candidate.key).any fun node =>
      (c.graph.wiring.successors node).contains c.node

end BuildGraph.Consumer
