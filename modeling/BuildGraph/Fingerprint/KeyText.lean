import BuildGraph.NodeKey
import BuildGraph.Text.Printable

/-!
# Canonical text of keys

The line that stands for a key when a graph is fingerprinted. Records name
their fields, strings are quoted, and sets and lists are bracketed, so that a
line determines the key down to the spelling of its paths.
-/

namespace BuildGraph.KeyText

/-! ## Shapes -/

/-- What follows the backslash. An apostrophe needs none inside double quotes. -/
def shortEscape? : Char → Option Char
  | '"' => some '"'
  | '\\' => some '\\'
  | '\n' => some 'n'
  | '\t' => some 't'
  | '\r' => some 'r'
  | '\x00' => some '0'
  | _ => none

def codePoint (c : Char) : String :=
  String.ofList (Nat.toDigits 16 c.toNat)

def escapeChar (c : Char) : List Char :=
  match shortEscape? c with
  | some letter => ['\\', letter]
  | none =>
    if Text.isPrintable c then [c] else ['\\', 'u', '\x7b'] ++ (codePoint c).toList ++ ['\x7d']

def quoted (s : String) : String :=
  "\"" ++ String.ofList (s.toList.flatMap escapeChar) ++ "\""

def commaSeparated (items : List String) : String :=
  String.intercalate ", " items

def record (name : String) (fields : List (String × String)) : String :=
  name ++ " \x7b " ++ commaSeparated (fields.map fun (field, value) => field ++ ": " ++ value)
    ++ " \x7d"

def wrapped (name inner : String) : String :=
  name ++ "(" ++ inner ++ ")"

def list (items : List String) : String :=
  "[" ++ commaSeparated items ++ "]"

def set (items : List String) : String :=
  "\x7b" ++ commaSeparated items ++ "\x7d"

def option : Option String → String
  | none => "None"
  | some inner => wrapped "Some" inner

def bool (b : Bool) : String :=
  if b then "true" else "false"

/-! ## Parts of keys -/

def path (p : Path) : String := quoted p.text

def linking : Linking → String
  | .static => "Static"
  | .dynamic => "Dynamic"

def status : LinkStatus → String
  | .required => "Required"
  | .optional => "Optional"

def source : SdkOrigin → String
  | .system => "System"
  | .developer => "Developer"

def packageUse : PackageUse → String
  | .runtime => "Runtime"
  | .plugin => "Plugin"
  | .compilerMacro => "Macro"

def platform : Platform → String
  | .ios => "Ios"
  | .macos => "Macos"
  | .tvos => "Tvos"
  | .watchos => "Watchos"
  | .visionos => "Visionos"

def architecture : Architecture → String
  | .x8664 => "X8664"
  | .i386 => "I386"
  | .arm64 => "Arm64"
  | .arm64e => "Arm64e"
  | .armv7 => "Armv7"
  | .armv7s => "Armv7s"
  | .armv7k => "Armv7k"
  | .arm6432 => "Arm6432"

def architectures (s : OrderedSet Architecture) : String :=
  set (s.toList.map architecture)

def slice (s : XcframeworkSlice) : String :=
  record "XcFrameworkLibrary" [("identifier", quoted s.identifier), ("path", path s.path),
    ("binary_name", quoted s.binaryName), ("architectures", architectures s.architectures),
    ("platform", platform s.platform)]

def info (i : XcframeworkInfo) : String :=
  record "XcFrameworkInfoPlist" [("libraries", list (i.slices.map slice))]

def origin : BinaryOrigin → String
  | .framework => "Framework"
  | .library publicHeaders swiftModuleMap =>
    record "Library" [("public_headers", path publicHeaders),
      ("swift_module_map", option (swiftModuleMap.map path))]
  | .xcframework i => record "XcFramework" [("info_plist", info i)]

def binary (b : Prebuilt) : String :=
  record "PrecompiledBinary" [("path", path b.path), ("binary_path", path b.binaryPath),
    ("linking", linking b.linking), ("architectures", architectures b.architectures),
    ("dsym_path", option (b.dsymPath.map path)),
    ("bcsymbolmap_paths", list (b.bcsymbolmapPaths.map path)), ("origin", origin b.origin),
    ("status", status b.status), ("mergeable", bool b.mergeable)]

def targetId (id : TargetId) : String :=
  record "TargetKey" [("project_path", path id.projectPath), ("name", quoted id.name)]

end KeyText

/-! ## Keys -/

def NodeKey.canonicalText : NodeKey → String
  | .target id => KeyText.wrapped "Target" (KeyText.targetId id)
  | .prebuilt binary => KeyText.wrapped "Precompiled" (KeyText.binary binary)
  | .packageProduct projectPath product use =>
    KeyText.record "PackageProduct" [("project_path", KeyText.path projectPath),
      ("product", KeyText.quoted product), ("kind", KeyText.packageUse use)]
  | .sdk name path status source =>
    KeyText.record "Sdk" [("name", KeyText.quoted name), ("path", KeyText.path path),
      ("status", KeyText.status status), ("source", KeyText.source source)]
  | .bundle path => KeyText.record "Bundle" [("path", KeyText.path path)]
  | .macroExecutable path => KeyText.record "Macro" [("path", KeyText.path path)]

end BuildGraph
