import BuildGraph.Vocabulary

/-!
# Linkage

How prebuilt code is linked, where an SDK is found, which CPU slices a
binary holds and what a package exposes.
-/

namespace BuildGraph

inductive Linking where
  | static
  | dynamic
deriving DecidableEq, Repr, Inhabited

namespace Linking

def name : Linking → String
  | static => "static"
  | dynamic => "dynamic"

instance : Vocabulary Linking where
  all := [static, dynamic]
  name := name
  find?_name a := by cases a <;> decide

instance : Sortable Linking := ⟨fun l => .num l.ctorIdx⟩

def isStatic (l : Linking) : Bool := l == static

def isDynamic (l : Linking) : Bool := l == dynamic

end Linking

/-- Whether a missing binary fails the link or is linked weakly. -/
inductive LinkStatus where
  | required
  | optional
deriving DecidableEq, Repr, Inhabited

namespace LinkStatus

def name : LinkStatus → String
  | required => "required"
  | optional => "optional"

instance : Vocabulary LinkStatus where
  all := [required, optional]
  name := name
  find?_name a := by cases a <;> decide

instance : Sortable LinkStatus := ⟨fun s => .num s.ctorIdx⟩

def stronger : LinkStatus → LinkStatus → LinkStatus
  | optional, optional => optional
  | _, _ => required

end LinkStatus

inductive SdkOrigin where
  | system
  | developer
deriving DecidableEq, Repr, Inhabited

namespace SdkOrigin

def name : SdkOrigin → String
  | system => "system"
  | developer => "developer"

instance : Vocabulary SdkOrigin where
  all := [system, developer]
  name := name
  find?_name a := by cases a <;> decide

instance : Sortable SdkOrigin := ⟨fun s => .num s.ctorIdx⟩

end SdkOrigin

inductive Architecture where
  | x8664
  | i386
  | arm64
  | arm64e
  | armv7
  | armv7s
  | armv7k
  | arm6432
deriving DecidableEq, Repr, Inhabited

namespace Architecture

def name : Architecture → String
  | x8664 => "x86_64"
  | i386 => "i386"
  | arm64 => "arm64"
  | arm64e => "arm64e"
  | armv7 => "armv7"
  | armv7s => "armv7s"
  | armv7k => "armv7k"
  | arm6432 => "arm64_32"

instance : Vocabulary Architecture where
  all := [x8664, i386, arm64, arm64e, armv7, armv7s, armv7k, arm6432]
  name := name
  find?_name a := by cases a <;> decide

instance : Sortable Architecture := ⟨fun a => .num a.ctorIdx⟩

end Architecture

inductive PackageUse where
  | runtime
  | plugin
  | compilerMacro
deriving DecidableEq, Repr, Inhabited

namespace PackageUse

def name : PackageUse → String
  | runtime => "runtime"
  | plugin => "plugin"
  | compilerMacro => "macro"

instance : Vocabulary PackageUse where
  all := [runtime, plugin, compilerMacro]
  name := name
  find?_name a := by cases a <;> decide

instance : Sortable PackageUse := ⟨fun k => .num k.ctorIdx⟩

end PackageUse

inductive ArtifactKind where
  | framework
  | library
  | xcframework
  | sdk
deriving DecidableEq, Repr, Inhabited

namespace ArtifactKind

def name : ArtifactKind → String
  | framework => "framework"
  | library => "library"
  | xcframework => "xcframework"
  | sdk => "sdk"

instance : Vocabulary ArtifactKind where
  all := [framework, library, xcframework, sdk]
  name := name
  find?_name a := by cases a <;> decide

end ArtifactKind

end BuildGraph
