import BuildGraph.Artifact.Prebuilt

/-!
# Inspection of artifacts

What an inspection of the artifacts on disk finds out, and the inspectors and
locators that are asked about artifacts and SDKs.
-/

namespace BuildGraph

inductive InspectionError where
  | notFound (path : Path)
  | unsupported (reason : String)
deriving DecidableEq, Repr

def InspectionError.message : InspectionError → String
  | notFound path => "no artifact at " ++ path.text
  | unsupported reason => reason

structure FrameworkFacts where
  binaryPath : Path
  linking : Linking
  architectures : OrderedSet Architecture
  dsymPath : Option Path
  bcsymbolmapPaths : List Path
deriving DecidableEq, Repr

structure LibraryFacts where
  linking : Linking
  architectures : OrderedSet Architecture
deriving DecidableEq, Repr

structure XcframeworkFacts where
  info : XcframeworkInfo
  /-- The binary of the slice for the platform being generated. -/
  primaryBinaryPath : Path
  linking : Linking
  mergeable : Bool
  macroPath : Option Path
deriving DecidableEq, Repr

/-! ## Binaries -/

def FrameworkFacts.binary (facts : FrameworkFacts) (path : Path) (status : LinkStatus) :
    Prebuilt where
  path
  binaryPath := facts.binaryPath
  linking := facts.linking
  architectures := facts.architectures
  dsymPath := facts.dsymPath
  bcsymbolmapPaths := facts.bcsymbolmapPaths
  origin := .framework
  status
  mergeable := false

def LibraryFacts.binary (facts : LibraryFacts) (path publicHeaders : Path)
    (swiftModuleMap : Option Path) : Prebuilt where
  path
  binaryPath := path
  linking := facts.linking
  architectures := facts.architectures
  dsymPath := none
  bcsymbolmapPaths := []
  origin := .library publicHeaders swiftModuleMap
  status := .required
  mergeable := false

def XcframeworkFacts.binary (facts : XcframeworkFacts) (path : Path) (status : LinkStatus) :
    Prebuilt where
  path
  binaryPath := facts.primaryBinaryPath
  linking := facts.linking
  architectures := facts.info.architectures
  dsymPath := none
  bcsymbolmapPaths := []
  origin := .xcframework facts.info
  status
  mergeable := facts.mergeable

/-! ## Inspectors -/

structure ArtifactInspector where
  framework : Path → Except InspectionError FrameworkFacts
  library : (path publicHeaders : Path) → (swiftModuleMap : Option Path) →
    Except InspectionError LibraryFacts
  xcframework : Path → Except InspectionError XcframeworkFacts

abbrev SdkLocator :=
  String → Platform → LinkStatus → SdkOrigin → Except InspectionError Path

/-! ## Known facts -/

/-- Facts by path, newest entry first; the newest entry of a path counts. -/
structure ArtifactCatalog where
  frameworks : List (Path × FrameworkFacts) := []
  libraries : List (Path × LibraryFacts) := []
  xcframeworks : List (Path × XcframeworkFacts) := []
deriving DecidableEq, Repr, Inhabited

namespace ArtifactCatalog

def lookup? {α : Type} (entries : List (Path × α)) (path : Path) : Option α :=
  (entries.find? fun e => same e.1 path).map (·.2)

def addFramework (c : ArtifactCatalog) (path : Path) (facts : FrameworkFacts) :
    ArtifactCatalog :=
  { c with frameworks := (path, facts) :: c.frameworks }

def addLibrary (c : ArtifactCatalog) (path : Path) (facts : LibraryFacts) :
    ArtifactCatalog :=
  { c with libraries := (path, facts) :: c.libraries }

def addXcframework (c : ArtifactCatalog) (path : Path) (facts : XcframeworkFacts) :
    ArtifactCatalog :=
  { c with xcframeworks := (path, facts) :: c.xcframeworks }

def orNotFound {α : Type} (path : Path) : Option α → Except InspectionError α
  | some facts => .ok facts
  | none => .error (.notFound path)

def inspector (c : ArtifactCatalog) : ArtifactInspector where
  framework path := orNotFound path (lookup? c.frameworks path)
  library path _ _ := orNotFound path (lookup? c.libraries path)
  xcframework path := orNotFound path (lookup? c.xcframeworks path)

end ArtifactCatalog

end BuildGraph
