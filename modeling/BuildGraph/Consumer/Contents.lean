import BuildGraph.Consumer.Image

/-!
# Contents beside the image

Frameworks: a target with a bundle carries all dynamic code that is loaded into
its process, also what lies behind other dynamic code. The walk ends at targets
that embed for themselves and at macros. Tests embed nothing that their host
embeds already, and unit tests without a host embed nothing at all.

Resources: a local or prebuilt bundle goes up to the first target with a
resources phase. A bundle of an external project goes to the targets that embed
bundles.

Copies: the static xcframeworks that reach a target through static nodes, the
direct static products of a static target, the apps and extensions of other
projects, and the resource bundles.
-/

namespace BuildGraph.Consumer

variable (c : Consumer)

/-! ## Frameworks -/

def embeddedNodes : List Nat :=
  (c.select (fun key => key.isDynamicBinary || c.graph.isEmbeddableTarget key)
    fun key => c.graph.embedsFrameworks key || c.graph.isMacro key).filter fun node =>
      !c.isMerged node

def embeddedAlone : References :=
  if c.description.embedsFrameworks then c.collect c.embeddedNodes else .empty

/-- The frameworks that the target copies into its bundle. No host is a tests
bundle itself. -/
def embedded : References :=
  if c.product.isTests then
    match c.host?.bind c.graph.consumerOf? with
    | some host => c.embeddedAlone.subtract host.embeddedAlone
    | none => if c.product == .unitTests then .empty else c.embeddedAlone
  else c.embeddedAlone

/-! ## Resources -/

def localBundles : List Nat :=
  c.select (fun key => c.graph.isResourceBundle key && !c.graph.isExternal key)
    c.graph.hostsResources

def externalBundles : List Nat :=
  c.select (fun key => c.graph.isResourceBundle key && c.graph.isExternal key)
    c.graph.embedsBundles

def bundleNodes : List Nat :=
  if c.description.embedsBundles then
    let fromProjects := c.localBundles
    let fromPackages := c.externalBundles
    c.graph.wiring.nodes.filter fun node =>
      fromProjects.contains node || fromPackages.contains node
  else c.localBundles

def bundles : References :=
  if c.description.hostsResources then c.collect c.bundleNodes else .empty

/-! ## Copies -/

def copiedXcframeworks : List Nat :=
  c.select NodeKey.isStaticXcframework fun key =>
    key.isDynamicBinary || c.graph.isMacro key || (key.isTarget && !c.graph.isStatic key)

def foreignExecutables : List Nat :=
  c.successors.filter fun node =>
    (c.graph.targetOfNode? node).any fun t =>
      !same t.path c.path && (t.product == .app || t.product == .appExtension)

def copied : References :=
  let statics := if c.product.isStatic then c.staticTargets else .empty
  (((c.collect c.copiedXcframeworks).insertAll statics.toList).insertAll
    (c.collect c.foreignExecutables).toList).insertAll c.bundles.toList

end BuildGraph.Consumer
