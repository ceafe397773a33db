import BuildGraph.Consumer.Targets

/-!
# Compiler plugins

Macros run on the build host, so they are not linked but handed to the
compiler: a macro executable beside an xcframework under its path, a macro
target under the product it builds.
-/

namespace BuildGraph

/-! ## Specifiers -/

namespace Plugin

def fileEnding : String := ".macro"

def ofExecutable (path : Path) : String :=
  let file := (path.fileName?.getD "").toList
  path.text ++ "#" ++ String.ofList (Text.stripSuffix fileEnding.toList file)

/-- The place of a macro that is built from source, and the module in it. -/
def ofProduct (productName : String) : String :=
  "$BUILD_DIR/Debug$EFFECTIVE_PLATFORM_NAME/" ++ productName ++ "#" ++ productName

end Plugin

namespace Consumer

variable (c : Consumer)

/-! ## Macro targets -/

def macroTargets : List ProjectTarget :=
  (c.directTargets.map (·.target)).filter (·.product == .compilerMacro)

def macroReferences : List Reference :=
  collectBy sortKey keepLast (c.macroTargets.map fun t => .ofTarget t (some (.only .macos)))

/-! ## All plugins -/

def wrapperProducts : List Product :=
  [.staticFramework, .framework, .dynamicLibrary, .staticLibrary]

def macroWrappers : List ProjectTarget :=
  c.reachedTargets.filter (wrapperProducts.contains ·.product) ++ [c.target]

def executableNodes : List Nat :=
  c.select NodeKey.isMacroExecutable NodeKey.isMacroExecutable

def plugins : List String :=
  let executables :=
    (c.executableNodes.filterMap c.graph.wiring.key?).filterMap NodeKey.path?
  let built := (c.macroWrappers.filterMap c.graph.consumerOf?).flatMap macroTargets
  collectBy sortKey keepLast
    (executables.map Plugin.ofExecutable ++
      built.map fun t => Plugin.ofProduct t.target.productName)

end Consumer

end BuildGraph
