import BuildGraph.Artifact.SystemSdk
import BuildGraph.Consumer.Targets

/-!
# Tests

Where tests run, and which targets need the search paths of the test framework.
-/

namespace BuildGraph

def NodeKey.isXctest : NodeKey → Bool
  | .sdk name _ _ _ => name == SystemSdk.xctest
  | _ => false

namespace Consumer

variable (c : Consumer)

def host? : Option ProjectTarget :=
  (c.directTargets.map (·.target)).find? (·.product.hostsTests)

/-- Test bundles, targets that ask for testing search paths, and targets that
depend on the test framework directly. -/
def usesXctest : Bool :=
  c.product.isTests || c.description.usesTestingSearchPaths ||
    c.successors.any (c.graph.wiring.holds NodeKey.isXctest)

def needsTestingSearchPaths : Bool :=
  c.usesXctest || c.reachedTargets.any fun t => (c.graph.consumerOf? t).any usesXctest

end Consumer

end BuildGraph
