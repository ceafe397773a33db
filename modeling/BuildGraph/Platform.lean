import BuildGraph.Vocabulary

/-!
# Platforms

The platforms a target is built for, in the order in which sets of them are
written, and the names under which each is known.
-/

namespace BuildGraph

inductive Platform where
  | ios
  | macos
  | tvos
  | watchos
  | visionos
deriving DecidableEq, Repr, Inhabited

namespace Platform

def name : Platform → String
  | ios => "ios"
  | macos => "macos"
  | tvos => "tvos"
  | watchos => "watchos"
  | visionos => "visionos"

instance : Vocabulary Platform where
  all := [ios, macos, tvos, watchos, visionos]
  name := name
  find?_name a := by cases a <;> decide

instance : Sortable Platform := ⟨fun p => .num p.ctorIdx⟩

def sdkStem : Platform → String
  | ios => "iPhoneOS"
  | macos => "MacOSX"
  | tvos => "AppleTVOS"
  | watchos => "WatchOS"
  | visionos => "XROS"

/-- Reads a name in any ASCII case; macOS and visionOS have a second name each. -/
def ofText? (text : String) : Option Platform :=
  match text.toLower with
  | "ios" => some ios
  | "macos" | "osx" => some macos
  | "tvos" => some tvos
  | "watchos" => some watchos
  | "visionos" | "xros" => some visionos
  | _ => none

def unknownMessage (text : String) : String :=
  "unknown platform '" ++ text ++ "'"

end Platform

end BuildGraph
