import BuildGraph.NodeKey

/-!
# Faults

Why a graph could not be built, with the wording and the stable code of each
cause.
-/

namespace BuildGraph

/-! ## Codes -/

inductive FaultCode where
  | malformedSettings
  | unknownProject
  | unknownTarget
  | targetCycle
  | missingArtifact
  | unsupported
deriving DecidableEq, Repr

namespace FaultCode

def text : FaultCode → String
  | malformedSettings => "E1001"
  | unknownProject => "E2001"
  | unknownTarget => "E2002"
  | targetCycle => "E2003"
  | missingArtifact => "E3001"
  | unsupported => "E3002"

def message : FaultCode → String
  | malformedSettings => "Config file parse error"
  | unknownProject => "Project not found"
  | unknownTarget => "Target not found"
  | targetCycle => "Circular dependency between targets"
  | missingArtifact => "Precompiled artifact not found"
  | unsupported => "Unsupported dependency configuration"

def hint? : FaultCode → Option String
  | malformedSettings => some "Fix syntax in .xcgraph/config.toml and retry."
  | unknownProject =>
    some "Add the project to the workspace or fix the dependency's project path."
  | unknownTarget => some "Check the target name for typos."
  | targetCycle => some "Break the cycle by moving shared code into a separate target."
  | missingArtifact => some "Make sure the artifact was built or fetched before generating."
  | unsupported => none

end FaultCode

/-! ## Causes -/

inductive UnsupportedReason where
  | artifactDependsOnTarget (artifact target : NodeKey)
  | dependencyCycle (through : NodeKey)
  | chainTooLong (length : Nat) (start : NodeKey) (maxDepth : Nat)
  | noDestinations (target sdk : String)
  | stated (reason : String)
deriving DecidableEq, Repr

def UnsupportedReason.text : UnsupportedReason → String
  | artifactDependsOnTarget artifact target =>
    artifact.text ++ " cannot depend on " ++ target.text ++ ": only targets may depend on targets"
  | dependencyCycle through => "dependency cycle through " ++ through.text
  | chainTooLong length start maxDepth =>
    "dependency chain of " ++ toString length ++ " edges from " ++ start.text
      ++ " exceeds max_depth " ++ toString maxDepth
  | noDestinations target sdk =>
    "target '" ++ target ++ "' has no destinations to resolve sdk '" ++ sdk ++ "' for"
  | stated reason => reason

inductive Fault where
  | unknownProject (path : Path)
  | unknownTarget (name : String) (projectPath : Path)
  | targetCycle (cycle : List TargetId)
  | missingArtifact (kind : ArtifactKind) (path : Path)
  | unsupported (reason : UnsupportedReason)
deriving DecidableEq, Repr

namespace Fault

def message : Fault → String
  | unknownProject path => "project not found at " ++ path.text
  | unknownTarget name projectPath =>
    "target '" ++ name ++ "' not found in project at " ++ projectPath.text
  | targetCycle cycle =>
    "circular dependency: " ++ String.intercalate " -> " (cycle.map TargetId.text)
  | missingArtifact kind path => kind.name ++ " not found at " ++ path.text
  | unsupported reason => "unsupported configuration: " ++ reason.text

def code : Fault → FaultCode
  | unknownProject _ => .unknownProject
  | unknownTarget .. => .unknownTarget
  | targetCycle _ => .targetCycle
  | missingArtifact .. => .missingArtifact
  | unsupported _ => .unsupported

end Fault

end BuildGraph
