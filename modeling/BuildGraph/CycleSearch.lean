/-!
# Cycle search

A depth-first search for a directed cycle, over any successor function. A node
is on the current path, or finished, when nothing below it lies on a cycle.
Finished nodes are not expanded again. The search keeps its calls on a stack; it
comes to an end where finitely many nodes are reached.
-/

namespace BuildGraph

/-- What a search found, and how often it asked for the successors of a node. -/
structure CycleSearch (ν : Type) where
  /-- Starts and ends with the first node that was met twice. -/
  cycle? : Option (List ν)
  expanded : Nat
deriving DecidableEq, Repr

namespace CycleSearch

/-- A node under expansion, with those of its successors that are still to be tried. -/
structure Frame (ν : Type) where
  node : ν
  untried : List ν

structure Progress (ν : Type) where
  active : List ν := []
  /-- The nodes known to lie above no cycle. -/
  finished : List ν := []
  expanded : Nat := 0

variable {ν : Type} (eq : ν → ν → Bool) (successors : ν → List ν)

namespace Progress

variable (p : Progress ν)

def isActive (node : ν) : Bool :=
  p.active.any (eq node)

def isFinished (node : ν) : Bool :=
  p.finished.any (eq node)

def enter (node : ν) : Progress ν :=
  { p with active := node :: p.active, expanded := p.expanded + 1 }

def leave (node : ν) : Progress ν :=
  { p with active := p.active.filter fun v => !eq node v, finished := node :: p.finished }

end Progress

/-- The current path, from its root on; the newest frame is first. -/
def pathOf (frames : List (Frame ν)) : List ν :=
  (frames.map (·.node)).reverse

def close (frames : List (Frame ν)) (node : ν) : List ν :=
  let path := pathOf frames
  path.drop ((path.findIdx? fun v => eq v node).getD 0) ++ [node]

def Progress.run (p : Progress ν) (frames : List (Frame ν)) :
    Option (Except (CycleSearch ν) (Progress ν)) :=
  match frames with
  | [] => some (.ok p)
  | ⟨node, []⟩ :: below => p.leave eq node |>.run below
  | ⟨node, next :: untried⟩ :: below =>
    if p.isActive eq next then
      some (.error ⟨some (close eq (⟨node, untried⟩ :: below) next), p.expanded⟩)
    else if p.isFinished eq next then p |>.run (⟨node, untried⟩ :: below)
    else p.enter next |>.run (⟨next, successors next⟩ :: ⟨node, untried⟩ :: below)
partial_fixpoint

def runAll : Progress ν → List ν → Option (CycleSearch ν)
  | p, [] => some ⟨none, p.expanded⟩
  | p, root :: roots =>
    if p.isFinished eq root then runAll p roots
    else
      match (p.enter root).run eq successors [⟨root, successors root⟩] with
      | none => none
      | some (.error found) => some found
      | some (.ok p) => runAll p roots

end CycleSearch

/-- The first cycle met from `roots`, which are tried in order; nothing if the search
has no end. -/
def searchCycle {ν : Type} (eq : ν → ν → Bool) (successors : ν → List ν) (roots : List ν) :
    Option (CycleSearch ν) :=
  CycleSearch.runAll eq successors {} roots

end BuildGraph
