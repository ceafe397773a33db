import BuildGraph.Wiring

/-!
# Net conditions between nodes

The condition under which one node needs another: over all paths between them,
the union of the intersections of the edge conditions. Paths are not listed.
The result at a node follows from those at its successors, each of which is
worked out once for a destination and kept.
-/

namespace BuildGraph

abbrev ConditionColumn := List (Nat × NetCondition)

abbrev ConditionMemo := List (Nat × ConditionColumn)

namespace Wiring

variable (w : Wiring)

def conditionIn (column : ConditionColumn) (node : Nat) : NetCondition :=
  (column.lookup node).getD .incompatible

def throughSuccessors (column : ConditionColumn) (node : Nat) : NetCondition :=
  (w.successors node).foldl
    (fun result next =>
      result.join ((conditionIn column next).meet (w.conditionOn node next)))
    .incompatible

/-- The successors without a result, as they go onto the stack: the last one on top. -/
def unsettled (column : ConditionColumn) (node : Nat) : List (Nat × Bool) :=
  (((w.successors node).filter fun next => (column.lookup next).isNone).map fun next =>
    (next, false)).reverse

/-- Works off a stack of nodes. A node comes up twice: first its successors go on top
of it, then, marked as expanded, it gets its result from theirs. Without an end where
a cycle is met. -/
def settle (w : Wiring) (destination : Nat) (column : ConditionColumn) :
    List (Nat × Bool) → Option ConditionColumn
  | [] => some column
  | (node, expanded) :: stack =>
    if (column.lookup node).isSome then w |>.settle destination column stack
    else if node = destination then
      w |>.settle destination ((node, .unconditional) :: column) stack
    else if expanded then
      w |>.settle destination ((node, w.throughSuccessors column node) :: column) stack
    else w |>.settle destination column (w.unsettled column node ++ (node, true) :: stack)
partial_fixpoint

def columnOf (memo : ConditionMemo) (destination : Nat) : ConditionColumn :=
  (memo.lookup destination).getD []

def between (memo : ConditionMemo) (source destination : Nat) : NetCondition × ConditionMemo :=
  if source = destination then (.unconditional, memo)
  else
    let known := columnOf memo destination
    match known.lookup source with
    | some net => (net, memo)
    | none =>
      let column := (w.settle destination known [(source, false)]).getD known
      (conditionIn column source, (destination, column) :: memo)

/-- The net condition where `destination` is known to be reached from `source`:
without conditional edges there is nothing to work out. -/
def resolve (memo : ConditionMemo) (source destination : Nat) : NetCondition × ConditionMemo :=
  if w.isConditional then w.between memo source destination else (.unconditional, memo)

def resolveAll (w : Wiring) (source : Nat) : ConditionMemo → List Nat → List (Nat × NetCondition)
  | _, [] => []
  | memo, destination :: rest =>
    let (net, memo) := w.resolve memo source destination
    (destination, net) :: resolveAll w source memo rest

end Wiring

end BuildGraph
