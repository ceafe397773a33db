import BuildGraph.Path

/-!
# Settings

What shapes the construction of a graph.
-/

namespace BuildGraph

structure Settings where
  maxDepth : Nat := 256
  platformsRoot : Path := ⟨"/Applications/Xcode.app/Contents/Developer/Platforms"⟩
  /-- Whether an app clip depends on its system framework without saying so. -/
  implicitAppClipSdk : Bool := true
deriving DecidableEq, Repr, Inhabited

end BuildGraph
