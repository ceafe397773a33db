import BuildGraph.Graph

/-!
# Roles of keys

What a key is to the decisions about linking, embedding and resources. A
target key that the graph does not know plays no role.
-/

namespace BuildGraph

/-! ## Prebuilt binaries -/

namespace NodeKey

def isDynamicBinary (key : NodeKey) : Bool :=
  key.prebuilt?.any (·.isDynamic)

def isPlainStaticBinary (key : NodeKey) : Bool :=
  key.prebuilt?.any fun b => b.isStatic && !b.isXcframework

def isStaticXcframework (key : NodeKey) : Bool :=
  key.prebuilt?.any fun b => b.isStatic && b.isXcframework

end NodeKey

namespace Graph

variable (g : Graph)

def targetSatisfies (p : Target → Bool) (key : NodeKey) : Bool :=
  (g.targetOfKey? key).any fun t => p t.target

/-! ## Code -/

def isStatic : NodeKey → Bool
  | .prebuilt b => b.isStatic
  | key => g.targetSatisfies (·.product.isStatic) key

def isStaticTarget (key : NodeKey) : Bool :=
  key.isTarget && g.isStatic key

/-- Where static code goes no further: an image is linked here. -/
def linksStaticCode : NodeKey → Bool
  | .prebuilt b => b.isDynamic
  | key => g.targetSatisfies (·.product.linksStaticCode) key

def isDynamicTarget (key : NodeKey) : Bool :=
  g.targetSatisfies (·.product.isDynamic) key

/-- SDKs and dynamic code: what is linked by reference. -/
def isLinkedByReference (key : NodeKey) : Bool :=
  key.isSdk || key.isDynamicBinary || g.isDynamicTarget key

/-- Macro executables and macro targets; they run on the build host. -/
def isMacro (key : NodeKey) : Bool :=
  key.isMacroExecutable || g.targetSatisfies (·.product == .compilerMacro) key

/-! ## Embedding and resources -/

def isEmbeddableTarget (key : NodeKey) : Bool :=
  g.targetSatisfies (·.isEmbeddable) key

def embedsFrameworks (key : NodeKey) : Bool :=
  g.targetSatisfies (·.embedsFrameworks) key

def embedsBundles (key : NodeKey) : Bool :=
  g.targetSatisfies (·.embedsBundles) key

def hostsResources (key : NodeKey) : Bool :=
  g.targetSatisfies (·.hostsResources) key

def isResourceBundle (key : NodeKey) : Bool :=
  key.isBundle || g.targetSatisfies (·.product == .bundle) key

def isExternal (key : NodeKey) : Bool :=
  (g.targetOfKey? key).any (·.project.isExternal)

/-! ## Merging -/

/-- Whether a dependency goes into the binary of the target itself. A key is
named in a merge list by its target or by its binary. -/
def isMergedBy (target : Target) : NodeKey → Bool
  | .target id =>
    target.merging.covers (g.targetSatisfies (·.mergeable) (.target id)) (some id.name)
  | .prebuilt b => target.merging.covers b.mergeable b.mergeLabel?
  | _ => false

end Graph

end BuildGraph
