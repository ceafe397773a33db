import BuildGraph.Artifact.Prebuilt
import BuildGraph.Target.Id

/-!
# Node keys

The identity of a node of the graph. Two keys with equal sort keys name the
same node, also when their paths are spelled differently.
-/

namespace BuildGraph

inductive NodeKey where
  | target (id : TargetId)
  | prebuilt (binary : Prebuilt)
  | packageProduct (projectPath : Path) (product : String) (use : PackageUse)
  | sdk (name : String) (path : Path) (status : LinkStatus) (source : SdkOrigin)
  | bundle (path : Path)
  | macroExecutable (path : Path)
deriving DecidableEq, Repr

namespace NodeKey

def order : NodeKey → SortKey
  | target id => .cons (.num 0) (sortKey id)
  | prebuilt binary => .cons (.num 1) (sortKey binary)
  | packageProduct projectPath product use =>
    .variant 2 [sortKey projectPath, sortKey product, sortKey use]
  | sdk name path status source =>
    .variant 3 [sortKey name, sortKey path, sortKey status, sortKey source]
  | bundle path => .variant 4 [sortKey path]
  | macroExecutable path => .variant 5 [sortKey path]

instance : Sortable NodeKey := ⟨order⟩

def ofTarget (projectPath : Path) (name : String) : NodeKey :=
  .target ⟨projectPath, name⟩

def target? : NodeKey → Option TargetId
  | target id => some id
  | _ => none

def prebuilt? : NodeKey → Option Prebuilt
  | prebuilt binary => some binary
  | _ => none

def isTarget (k : NodeKey) : Bool :=
  k.target?.isSome

def isSdk : NodeKey → Bool
  | sdk .. => true
  | _ => false

def isBundle : NodeKey → Bool
  | bundle _ => true
  | _ => false

def isMacroExecutable : NodeKey → Bool
  | macroExecutable _ => true
  | _ => false

def path? : NodeKey → Option Path
  | target _ | packageProduct .. => none
  | prebuilt binary => some binary.path
  | sdk _ path _ _ | bundle path | macroExecutable path => some path

def text : NodeKey → String
  | target id => "target " ++ id.text
  | prebuilt binary => "precompiled " ++ binary.path.text
  | packageProduct projectPath product _ => "package " ++ product ++ " (" ++ projectPath.text ++ ")"
  | sdk name _ _ _ => "sdk " ++ name
  | bundle path => "bundle " ++ path.text
  | macroExecutable path => "macro " ++ path.text

end NodeKey

end BuildGraph
