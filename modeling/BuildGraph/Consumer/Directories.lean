import BuildGraph.Consumer.Image

/-!
# Directories

The directories that the compiler, the linker and the loader look in.
-/

namespace BuildGraph

def Reference.libraryPath? : Reference → Option Path
  | .library path .. => some path
  | _ => none

namespace Prebuilt

def swiftModuleMap? (b : Prebuilt) : Option Path :=
  match b.origin with
  | .library _ swiftModuleMap => swiftModuleMap
  | _ => none

def publicHeaders? (b : Prebuilt) : Option Path :=
  match b.origin with
  | .library publicHeaders _ => some publicHeaders
  | _ => none

end Prebuilt

namespace Consumer

variable (c : Consumer)

/-! ## Libraries -/

def libraries : List Prebuilt :=
  ((c.successors.filterMap c.graph.wiring.key?).filterMap NodeKey.prebuilt?).filter (·.isLibrary)

def libraryDirectories : List Path :=
  parentDirectories (c.libraries.map (·.path) ++
    c.linkedAlone.toList.filterMap Reference.libraryPath?)

def moduleMapDirectories : List Path :=
  parentDirectories (c.libraries.filterMap Prebuilt.swiftModuleMap?)

def headerDirectories : List Path :=
  distinctPaths (c.libraries.filterMap Prebuilt.publicHeaders?)

/-! ## Frameworks at run time -/

def isLoadedFramework (key : NodeKey) : Bool :=
  key.prebuilt?.any fun b => b.isDynamic && !b.isLibrary

/-- The directories of the frameworks that a unit test bundle without a host
loads at run time; other targets have none. -/
def runtimeDirectories : List Path :=
  if c.product != .unitTests || !c.description.embedsFrameworks || c.host?.isSome then []
  else
    parentDirectories (((c.select isLoadedFramework c.graph.embedsFrameworks).filterMap
      c.graph.wiring.key?).filterMap NodeKey.path?)

end Consumer

end BuildGraph
