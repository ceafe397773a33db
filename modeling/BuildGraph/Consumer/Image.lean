import BuildGraph.Consumer.Tests

/-!
# The linked image

A target links its direct SDKs and dynamic code. A target that links an image
also links the static code that reaches it through static nodes, and what that
code needs; a static xcframework behind such a node is copied instead. A unit
test bundle links nothing that its host reaches, and nothing is linked that is
merged into the target. Macros are neither linked nor walked through.
-/

namespace BuildGraph.Consumer

variable (c : Consumer)

/-! ## Candidates -/

def staticNodes : List Nat :=
  c.select c.graph.isStatic fun key => c.graph.linksStaticCode key || c.graph.isMacro key

def isLinkedDirectly (node : Nat) : Bool :=
  c.successors.contains node && c.graph.wiring.holds c.graph.isLinkedByReference node

def isLinkedStatically (statics : List Nat) (node : Nat) : Bool :=
  statics.contains node &&
    (c.graph.wiring.holds (fun key => key.isTarget || key.isPlainStaticBinary) node
      || c.successors.contains node)

def isLinkedForStatic (statics : List Nat) (node : Nat) : Bool :=
  statics.any (fun s => (c.graph.wiring.successors s).contains node) &&
    c.graph.wiring.holds c.graph.isLinkedByReference node

def linkCandidates : List Nat :=
  if c.product.linksStaticCode then
    let statics := c.staticNodes
    c.graph.wiring.nodes.filter fun node =>
      c.isLinkedDirectly node || c.isLinkedStatically statics node ||
        c.isLinkedForStatic statics node
  else c.graph.wiring.nodes.filter c.isLinkedDirectly

/-! ## Exclusions -/

/-- What the host of a unit test bundle brings along, the host included. -/
def hostedNodes : List Nat :=
  if c.product == .unitTests then
    match c.host?.bind fun host => c.graph.wiring.node? host.key with
    | some host => c.graph.wiring.reachable host
    | none => []
  else []

def isMerged (node : Nat) : Bool :=
  c.graph.wiring.holds (c.graph.isMergedBy c.description) node

/-! ## The image -/

/-- What is linked if no host brings anything along. -/
def linkedNodesAlone : List Nat :=
  c.linkCandidates.filter fun node => !c.isMerged node

def linkedNodes : List Nat :=
  let hosted := c.hostedNodes
  c.linkedNodesAlone.filter fun node => !hosted.contains node

def linked : References :=
  c.collect c.linkedNodes

def linkedAlone : References :=
  c.collect c.linkedNodesAlone

/-! ## What the compiler sees -/

/-- Static frameworks and archives that an intermediate static target sees but
does not link. -/
def visibleStaticBinaries : List Nat :=
  c.select NodeKey.isPlainStaticBinary fun key =>
    c.graph.linksStaticCode key || c.graph.isMacro key

def searchable : References :=
  c.linkedAlone.insertAll (c.collect c.visibleStaticBinaries).toList

end BuildGraph.Consumer
