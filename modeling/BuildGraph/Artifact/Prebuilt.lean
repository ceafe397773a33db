import BuildGraph.Artifact.Linkage
import BuildGraph.Order.OrderedSet
import BuildGraph.Path
import BuildGraph.Platform

/-!
# Precompiled binaries

A prebuilt framework, library or xcframework, with everything that tells it
apart from another.
-/

namespace BuildGraph

structure XcframeworkSlice where
  identifier : String
  /-- The slice's binary or framework, relative to the xcframework. -/
  path : Path
  binaryName : String
  architectures : OrderedSet Architecture
  platform : Platform
deriving DecidableEq, Repr

instance : Sortable XcframeworkSlice where
  sortKey s := .ofList [sortKey s.identifier, sortKey s.path, sortKey s.binaryName,
    sortKey s.architectures, sortKey s.platform]

structure XcframeworkInfo where
  slices : List XcframeworkSlice
deriving DecidableEq, Repr, Inhabited

namespace XcframeworkInfo

instance : Sortable XcframeworkInfo := ⟨fun info => sortKey info.slices⟩

def binaryName? (info : XcframeworkInfo) : Option String :=
  info.slices.head?.map (·.binaryName)

def architectures (info : XcframeworkInfo) : OrderedSet Architecture :=
  .ofList (info.slices.flatMap (·.architectures.toList))

end XcframeworkInfo

inductive BinaryOrigin where
  | framework
  | library (publicHeaders : Path) (swiftModuleMap : Option Path)
  | xcframework (info : XcframeworkInfo)
deriving DecidableEq, Repr

def BinaryOrigin.order : BinaryOrigin → SortKey
  | framework => .variant 0 []
  | library publicHeaders swiftModuleMap =>
    .variant 1 [sortKey publicHeaders, sortKey swiftModuleMap]
  | xcframework info => .variant 2 [sortKey info]

instance : Sortable BinaryOrigin := ⟨BinaryOrigin.order⟩

structure Prebuilt where
  path : Path
  binaryPath : Path
  linking : Linking
  architectures : OrderedSet Architecture
  dsymPath : Option Path
  bcsymbolmapPaths : List Path
  origin : BinaryOrigin
  status : LinkStatus
  mergeable : Bool
deriving DecidableEq, Repr

namespace Prebuilt

instance : Sortable Prebuilt where
  sortKey b := .ofList [sortKey b.path, sortKey b.binaryPath, sortKey b.linking,
    sortKey b.architectures, sortKey b.dsymPath, sortKey b.bcsymbolmapPaths, sortKey b.origin,
    sortKey b.status, .ofBool b.mergeable]

def isStatic (b : Prebuilt) : Bool := b.linking.isStatic

def isDynamic (b : Prebuilt) : Bool := b.linking.isDynamic

def isFramework (b : Prebuilt) : Bool :=
  match b.origin with
  | .framework => true
  | _ => false

def isLibrary (b : Prebuilt) : Bool :=
  match b.origin with
  | .library _ _ => true
  | _ => false

def isXcframework (b : Prebuilt) : Bool :=
  match b.origin with
  | .xcframework _ => true
  | _ => false

def mergeLabel? (b : Prebuilt) : Option String :=
  match b.origin with
  | .xcframework info => info.binaryName?
  | _ => b.binaryPath.fileName?

end Prebuilt

end BuildGraph
