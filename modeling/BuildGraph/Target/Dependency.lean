import BuildGraph.Artifact.Linkage
import BuildGraph.Platform.Condition
import BuildGraph.Target.Id

/-!
# Declared dependencies

One dependency as a target manifest writes it.
-/

namespace BuildGraph

inductive Dependency where
  | target (name : String) (condition : Option Condition)
  | project (target : String) (path : Path) (condition : Option Condition)
  | framework (path : Path) (status : LinkStatus) (condition : Option Condition)
  | library (path publicHeaders : Path) (swiftModuleMap : Option Path)
      (condition : Option Condition)
  | xcframework (path : Path) (status : LinkStatus) (condition : Option Condition)
  | sdk (name : String) (status : LinkStatus) (condition : Option Condition)
  | package (product : String) (use : PackageUse) (condition : Option Condition)
  | bundle (path : Path) (condition : Option Condition)
  | xctest
deriving DecidableEq, Repr

namespace Dependency

def condition : Dependency → Option Condition
  | target _ c | project _ _ c | framework _ _ c | library _ _ _ c | xcframework _ _ c
  | sdk _ _ c | package _ _ c | bundle _ c => c
  | xctest => none

/-- Replaces the condition; a dependency on the test framework takes none. -/
def when (d : Dependency) (c : Option Condition) : Dependency :=
  match d with
  | target name _ => target name c
  | project name path _ => project name path c
  | framework path status _ => framework path status c
  | library path headers moduleMap _ => library path headers moduleMap c
  | xcframework path status _ => xcframework path status c
  | sdk name status _ => sdk name status c
  | package product use _ => package product use c
  | bundle path _ => bundle path c
  | xctest => xctest

def targetId? (d : Dependency) (projectPath : Path) : Option TargetId :=
  match d with
  | target name _ => some ⟨projectPath, name⟩
  | project name path _ => some ⟨path, name⟩
  | _ => none

end Dependency

end BuildGraph
