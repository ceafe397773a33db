import BuildGraph.Path

/-!
# Target identities

A target is known by the path of its project and its name there.
-/

namespace BuildGraph

structure TargetId where
  projectPath : Path
  name : String
deriving DecidableEq, Repr, Inhabited

namespace TargetId

instance : Sortable TargetId := ⟨fun id => .ofList [sortKey id.projectPath, sortKey id.name]⟩

def text (id : TargetId) : String :=
  id.projectPath.text ++ ":" ++ id.name

end TargetId

end BuildGraph
