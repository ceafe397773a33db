import BuildGraph.Fingerprint.Blake3
import BuildGraph.Fingerprint.KeyText
import BuildGraph.Graph

/-!
# Fingerprints

A digest of the keys and conditional edges of a graph, which does not depend
on the order in which they were added. It does not cover what the projects say
about their targets.
-/

namespace BuildGraph

namespace Wiring

variable (g : Wiring)

def nodeLines : List String :=
  g.keys.map NodeKey.canonicalText

def keyText (node : Nat) : String :=
  ((g.key? node).map NodeKey.canonicalText).getD ""

def edgeLine (e : Edge) : String :=
  g.keyText e.source ++ "\x00" ++ g.keyText e.target ++ "\x00"
    ++ (e.condition.map Condition.text).getD "-"

/-- The lines of the nodes, then those of the edges, sorted as their bytes are
ordered and each closed by a zero. -/
def digestInput : String :=
  String.join ((sorted g.nodeLines ++ sorted (g.edges.map g.edgeLine)).map (· ++ "\x00"))

end Wiring

def Graph.fingerprint (g : Graph) : String :=
  "blake3:" ++ Blake3.hex (Blake3.hash g.wiring.digestInput.toUTF8.toList)

end BuildGraph
