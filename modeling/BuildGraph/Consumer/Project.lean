import BuildGraph.Consumer.Contents

/-!
# Whole projects
-/

namespace BuildGraph

def Consumer.addNeeds (found : References) (c : Consumer) : References :=
  ((found.insertAll c.linked.toList).insertAll c.embedded.toList).insertAll c.copied.toList

def Graph.projectReferences (g : Graph) (path : Path) : References :=
  ((g.targetsOf path).filterMap g.consumerOf?).foldl Consumer.addNeeds .empty

end BuildGraph
