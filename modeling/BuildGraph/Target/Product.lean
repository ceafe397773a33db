import BuildGraph.Vocabulary

/-!
# Products

What a target builds, and the classes of products that linking, embedding and
resource decisions are made on.
-/

namespace BuildGraph

inductive Product where
  | app
  | staticLibrary
  | dynamicLibrary
  | framework
  | staticFramework
  | unitTests
  | uiTests
  | bundle
  | commandLineTool
  | appClip
  | appExtension
  | watch2App
  | watch2Extension
  | tvTopShelfExtension
  | messagesExtension
  | stickerPackExtension
  | xpc
  | systemExtension
  | extensionKitExtension
  | compilerMacro
deriving DecidableEq, Repr, Inhabited

namespace Product

def name : Product → String
  | app => "app"
  | staticLibrary => "static_library"
  | dynamicLibrary => "dynamic_library"
  | framework => "framework"
  | staticFramework => "static_framework"
  | unitTests => "unit_tests"
  | uiTests => "ui_tests"
  | bundle => "bundle"
  | commandLineTool => "command_line_tool"
  | appClip => "app_clip"
  | appExtension => "app_extension"
  | watch2App => "watch2_app"
  | watch2Extension => "watch2_extension"
  | tvTopShelfExtension => "tv_top_shelf_extension"
  | messagesExtension => "messages_extension"
  | stickerPackExtension => "sticker_pack_extension"
  | xpc => "xpc"
  | systemExtension => "system_extension"
  | extensionKitExtension => "extension_kit_extension"
  | compilerMacro => "macro"

instance : Vocabulary Product where
  all := [app, staticLibrary, dynamicLibrary, framework, staticFramework, unitTests, uiTests,
    bundle, commandLineTool, appClip, appExtension, watch2App, watch2Extension,
    tvTopShelfExtension, messagesExtension, stickerPackExtension, xpc, systemExtension,
    extensionKitExtension, compilerMacro]
  name := name
  find?_name a := by cases a <;> decide

instance : Sortable Product := ⟨fun p => .num p.ctorIdx⟩

/-! ## Classes of products -/

/-- Code that is linked straight into the consumer's binary. -/
def isStatic : Product → Bool
  | staticLibrary | staticFramework => true
  | _ => false

def isDynamic : Product → Bool
  | framework | dynamicLibrary => true
  | _ => false

/-- A linked image that static code is folded into. -/
def linksStaticCode : Product → Bool
  | staticLibrary | staticFramework | bundle | stickerPackExtension => false
  | _ => true

def hostsTests : Product → Bool
  | app | appClip => true
  | _ => false

def isTests : Product → Bool
  | unitTests | uiTests => true
  | _ => false

def hasResourcesPhase : Product → Bool
  | staticLibrary | staticFramework | dynamicLibrary | commandLineTool | xpc | systemExtension
  | compilerMacro => false
  | _ => true

def isLaunchable : Product → Bool
  | app | appClip | commandLineTool | watch2App => true
  | _ => false

def isExtension : Product → Bool
  | appExtension | tvTopShelfExtension | messagesExtension | stickerPackExtension
  | extensionKitExtension => true
  | _ => false

/-! ## The built file -/

def fileName (product : Product) (productName : String) : String :=
  match product with
  | staticLibrary => "lib" ++ productName ++ ".a"
  | dynamicLibrary => "lib" ++ productName ++ ".dylib"
  | framework | staticFramework => productName ++ ".framework"
  | app | appClip | watch2App => productName ++ ".app"
  | unitTests | uiTests => productName ++ ".xctest"
  | bundle => productName ++ ".bundle"
  | appExtension | watch2Extension | tvTopShelfExtension | messagesExtension
  | stickerPackExtension | extensionKitExtension => productName ++ ".appex"
  | xpc => productName ++ ".xpc"
  | systemExtension => productName ++ ".systemextension"
  | commandLineTool | compilerMacro => productName

end Product

end BuildGraph
