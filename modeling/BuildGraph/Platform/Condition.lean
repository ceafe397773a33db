import BuildGraph.Order.OrderedSet
import BuildGraph.Platform

/-!
# Platform conditions

An edge may be restricted to some platforms; no condition means all of them.
Along one path the conditions of the edges intersect, and an empty
intersection rules the path out. Over several paths the results unite: an
unconditional path absorbs the others, an incompatible one adds nothing.
-/

namespace BuildGraph

structure Condition where
  platforms : OrderedSet Platform
  nonempty : platforms.toList ≠ []
deriving DecidableEq

namespace Condition

def ofSet? (platforms : OrderedSet Platform) : Option Condition :=
  if h : platforms.toList = [] then none else some ⟨platforms, h⟩

def when? (platforms : List Platform) : Option Condition :=
  ofSet? (.ofList platforms)

def only (platform : Platform) : Condition :=
  ⟨OrderedSet.empty.insert platform, OrderedSet.insert_ne_nil _ _⟩

def contains (c : Condition) (platform : Platform) : Bool :=
  c.platforms.contains platform

def union (c d : Condition) : Condition :=
  ⟨c.platforms.union d.platforms, OrderedSet.insertAll_ne_nil _ c.nonempty⟩

def text (c : Condition) : String :=
  "when[" ++ String.intercalate "," (c.platforms.toList.map Platform.name) ++ "]"

def emptyMessage : String :=
  "a platform condition needs at least one platform"

instance : Sortable Condition := ⟨fun c => sortKey c.platforms⟩

instance : Repr Condition := ⟨fun c n => reprPrec c.platforms n⟩

/-- The union of two optional conditions, where no condition absorbs. -/
def either : Option Condition → Option Condition → Option Condition
  | some c, some d => some (c.union d)
  | _, _ => none

end Condition

/-! ## The net condition between two nodes -/

inductive NetCondition where
  /-- No path applies on any platform. -/
  | incompatible
  /-- Some path applies; without a condition on every platform. -/
  | condition (c : Option Condition)
deriving DecidableEq, Repr

namespace NetCondition

def unconditional : NetCondition := .condition none

def ofInter (c d : Condition) : NetCondition :=
  match Condition.ofSet? (c.platforms.inter d.platforms) with
  | none => .incompatible
  | some common => .condition (some common)

/-- One more edge along the same path. -/
def meet : NetCondition → Option Condition → NetCondition
  | .incompatible, _ => .incompatible
  | current, none => current
  | .condition none, some edge => .condition (some edge)
  | .condition (some current), some edge => ofInter current edge

/-- The result of one more path. -/
def join : NetCondition → NetCondition → NetCondition
  | .incompatible, other => other
  | this, .incompatible => this
  | .condition c, .condition d => .condition (Condition.either c d)

def ofPath (conditions : List (Option Condition)) : NetCondition :=
  conditions.foldl meet unconditional

def condition? : NetCondition → Option (Option Condition)
  | .incompatible => none
  | .condition c => some c

end NetCondition

end BuildGraph
