import BuildGraph.Artifact.SystemSdk
import BuildGraph.Draft
import BuildGraph.Settings

/-!
# Assembly of a graph from manifests

The dependencies that targets declare become edges, in the order of the
manifests. Declared cycles of targets are rejected before any artifact is
looked at. An artifact is inspected once per path, and every inquiry is logged.
The first failure ends the assembly.
-/

namespace BuildGraph

/-! ## Declared cycles -/

namespace ProjectTable

variable (projects : ProjectTable)

def declares (id : TargetId) : Bool :=
  (projects.at? id.projectPath).any fun entry => (entry.project.target? id.name).isSome

def declaredTargets (id : TargetId) : List TargetId :=
  match (projects.at? id.projectPath).bind (·.project.target? id.name) with
  | none => []
  | some target =>
    (target.dependencies.filterMap (·.targetId? id.projectPath)).filter projects.declares

def targetIds : List TargetId :=
  projects.flatMap fun entry => entry.project.targets.map fun t => ⟨entry.project.path, t.name⟩

def declaredCycle? : Option (List TargetId) :=
  (searchCycle same projects.declaredTargets projects.targetIds).bind (·.cycle?)

def checkDeclaredCycles : Except Fault Unit :=
  match projects.declaredCycle? with
  | some cycle => .error (.targetCycle cycle)
  | none => .ok ()

/-- The key of a target, under the path as the dependency on it spells it. -/
def findTarget (id : TargetId) : Except Fault NodeKey :=
  (projects.checkTarget id).map fun () => .target id

end ProjectTable

/-! ## State of an assembly -/

inductive Inquiry where
  | framework (path : Path)
  | library (path publicHeaders : Path) (swiftModuleMap : Option Path)
  | xcframework (path : Path)
  | sdk (name : String) (platform : Platform) (status : LinkStatus) (source : SdkOrigin)
deriving DecidableEq, Repr

structure Assembly where
  draft : Draft
  known : ArtifactCatalog := {}
  /-- The inquiries so far, newest first. -/
  inquiries : List Inquiry := []
deriving DecidableEq, Repr

/-- A step of an assembly; what it did so far outlives its failure. -/
abbrev Assembling := ExceptT Fault (StateM Assembly)

/-! ## Inquiries -/

structure Sources where
  inspector : ArtifactInspector
  locator : SdkLocator
  settings : Settings := {}

namespace Sources

def declare (source target : NodeKey) (condition : Option Condition) : Assembling Unit :=
  modify fun a => { a with draft := a.draft.declare source target condition }

def ask {α : Type} (inquiry : Inquiry) (kind : ArtifactKind) (path : Path)
    (result : Except InspectionError α) : Assembling α := do
  modify fun a => { a with inquiries := inquiry :: a.inquiries }
  match result with
  | .ok facts => return facts
  | .error (.notFound _) => throw (.missingArtifact kind path)
  | .error (.unsupported reason) => throw (.unsupported (.stated reason))

def askOnce {α : Type} (entries : ArtifactCatalog → List (Path × α))
    (add : ArtifactCatalog → Path → α → ArtifactCatalog) (inquiry : Inquiry)
    (kind : ArtifactKind) (path : Path) (result : Except InspectionError α) : Assembling α := do
  match ArtifactCatalog.lookup? (entries (← get).known) path with
  | some facts => return facts
  | none =>
    let facts ← ask inquiry kind path result
    modify fun a => { a with known := add a.known path facts }
    return facts

variable (s : Sources)

def framework (path : Path) : Assembling FrameworkFacts :=
  askOnce (·.frameworks) .addFramework (.framework path) .framework path
    (s.inspector.framework path)

def library (path publicHeaders : Path) (swiftModuleMap : Option Path) :
    Assembling LibraryFacts :=
  askOnce (·.libraries) .addLibrary (.library path publicHeaders swiftModuleMap) .library path
    (s.inspector.library path publicHeaders swiftModuleMap)

def xcframework (path : Path) : Assembling XcframeworkFacts :=
  askOnce (·.xcframeworks) .addXcframework (.xcframework path) .xcframework path
    (s.inspector.xcframework path)

def sdk (target : Target) (name : String) (platform? : Option Platform) (status : LinkStatus)
    (source : SdkOrigin) : Assembling NodeKey := do
  match platform? <|> target.mainPlatform? with
  | none => throw (.unsupported (.noDestinations target.name name))
  | some platform =>
    let path ← ask (.sdk name platform status source) .sdk ⟨name⟩
      (s.locator name platform status source)
    return .sdk name path status source

/-! ## Dependencies -/

/-- The key of a dependency that `target` of the project at `projectPath` declares. An
xcframework that holds a macro executable brings an edge to it. -/
def resolve (projects : ProjectTable) (projectPath : Path) (target : Target) :
    Dependency → Assembling NodeKey
  | .target name _ => orFail (projects.findTarget ⟨projectPath, name⟩)
  | .project name path _ => orFail (projects.findTarget ⟨path, name⟩)
  | .framework path status _ => do
    let facts ← s.framework path
    return .prebuilt (facts.binary path status)
  | .library path publicHeaders swiftModuleMap _ => do
    let facts ← s.library path publicHeaders swiftModuleMap
    return .prebuilt (facts.binary path publicHeaders swiftModuleMap)
  | .xcframework path status _ => do
    let facts ← s.xcframework path
    let key := NodeKey.prebuilt (facts.binary path status)
    match facts.macroPath with
    | some macroPath => declare key (.macroExecutable macroPath) none
    | none => pure ()
    return key
  | .sdk name status _ => s.sdk target name none status .system
  | .package product use _ => return .packageProduct projectPath product use
  | .bundle path _ => return .bundle path
  | .xctest => s.sdk target SystemSdk.xctest none .required .developer
where
  orFail (found : Except Fault NodeKey) : Assembling NodeKey :=
    match found with
    | .ok key => return key
    | .error e => throw e

def addTarget (projects : ProjectTable) (projectPath : Path) (target : Target) :
    Assembling Unit := do
  let key := NodeKey.ofTarget projectPath target.name
  target.dependencies.forM fun dependency => do
    declare key (← s.resolve projects projectPath target dependency) dependency.condition
  if target.product == .appClip && s.settings.implicitAppClipSdk then
    declare key (← s.sdk target SystemSdk.appClip (some .ios) .required .system)
      (some (.only .ios))

def addTargets (projects : ProjectTable) : Assembling Unit :=
  projects.forM fun entry =>
    entry.project.targets.forM (s.addTarget projects entry.project.path)

/-! ## The whole assembly -/

/-- A graph or the first failure, with the inquiries that were made, oldest first. -/
structure Outcome where
  graph : Except Fault Graph
  inquiries : List Inquiry

def checkProjects (workspace : Workspace) (projects : ProjectTable) : Except Fault Unit :=
  match workspace.projects.find? fun path => (projects.at? path).isNone with
  | some path => .error (.unknownProject path)
  | none => .ok ()

def assemble (workspace : Workspace) (projects : List Project) : Outcome :=
  let table := ProjectTable.ofList projects
  match checkProjects workspace table, table.checkDeclaredCycles with
  | .error e, _ => ⟨.error e, []⟩
  | .ok (), .error e => ⟨.error e, []⟩
  | .ok (), .ok () =>
    let draft := table.foldl (fun d entry => d.register entry.project)
      { workspace, maxDepth := s.settings.maxDepth }
    let (result, final) := (s.addTargets table).run.run { draft }
    ⟨result.bind fun () => final.draft.build, final.inquiries.reverse⟩

end Sources

end BuildGraph
