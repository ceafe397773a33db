import BuildGraph.Target.Dependency
import BuildGraph.Target.Product

/-!
# Targets

A target as its manifest describes it.
-/

namespace BuildGraph

inductive Merging where
  | disabled
  | automatic
  | manual (names : OrderedSet String)
deriving DecidableEq, Repr, Inhabited

namespace Merging

def isEnabled : Merging → Bool
  | disabled => false
  | _ => true

/-- Whether a dependency is merged, given whether it is mergeable and the name
that a list of names would use for it. -/
def covers (m : Merging) (mergeable : Bool) (name : Option String) : Bool :=
  match m with
  | disabled => false
  | automatic => mergeable
  | manual names => mergeable || name.any names.contains

end Merging

structure Target where
  name : String
  product : Product
  productName? : Option String := none
  destinations : OrderedSet Platform := OrderedSet.empty.insert .ios
  /-- In the order of the manifest. -/
  dependencies : List Dependency := []
  merging : Merging := .disabled
  mergeable : Bool := false
  hasResources : Bool := false
  usesTestingSearchPaths : Bool := false
deriving DecidableEq, Repr

namespace Target

def productName (t : Target) : String :=
  t.productName?.getD t.name

def builtFile (t : Target) : String :=
  t.product.fileName t.productName

/-- The platform that decisions for one platform are made for. -/
def mainPlatform? (t : Target) : Option Platform :=
  t.destinations.first?

def supports (t : Target) (platform : Platform) : Bool :=
  t.destinations.contains platform

/-! ## Roles that depend on the target alone -/

/-- A static framework with resources is embedded, so that its resources ship. -/
def isResourcefulStaticFramework (t : Target) : Bool :=
  t.product == .staticFramework && t.hasResources

def embedsFrameworks (t : Target) : Bool :=
  match t.product with
  | .bundle => t.destinations.size == 1 && t.supports .macos
  | .staticLibrary | .dynamicLibrary | .framework | .staticFramework | .commandLineTool
  | .compilerMacro => false
  | _ => true

def embedsBundles (t : Target) : Bool :=
  match t.product with
  | .app | .appClip | .appExtension | .extensionKitExtension | .watch2App | .watch2Extension
  | .unitTests | .uiTests | .systemExtension | .xpc => true
  | _ => false

/-- Targets with a resources phase; a local bundle goes no further than the first. -/
def hostsResources (t : Target) : Bool :=
  t.product.hasResourcesPhase

def isEmbeddable (t : Target) : Bool :=
  t.product.isDynamic || t.isResourcefulStaticFramework

end Target

end BuildGraph
