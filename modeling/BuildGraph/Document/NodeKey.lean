import BuildGraph.Document.Target
import BuildGraph.NodeKey

/-!
# Documents of node keys

A key names its form in the entry `type`; the entries of a prebuilt binary
stand beside it.
-/

namespace BuildGraph

instance : Documented Linking := .ofVocabulary

instance : Documented SdkOrigin := .ofVocabulary

instance : Documented Architecture := .ofVocabulary

/-! ## Precompiled binaries -/

namespace XcframeworkSlice

def encode (s : XcframeworkSlice) : Document :=
  .record [
    ("identifier", .text s.identifier),
    ("path", BuildGraph.encode s.path),
    ("binary_name", .text s.binaryName),
    ("architectures", BuildGraph.encode s.architectures),
    ("platform", BuildGraph.encode s.platform)]

def fields : FieldReader XcframeworkSlice := do
  return {
    identifier := ← .required "identifier"
    path := ← .required "path"
    binaryName := ← .required "binary_name"
    architectures := ← .required "architectures"
    platform := ← .required "platform" }

end XcframeworkSlice

instance : Documented XcframeworkSlice :=
  ⟨XcframeworkSlice.encode, XcframeworkSlice.fields.read? true⟩

def XcframeworkInfo.fields : FieldReader XcframeworkInfo := do
  return { slices := ← .required "libraries" }

instance : Documented XcframeworkInfo where
  encode info := .record [("libraries", encode info.slices)]
  readAs? := XcframeworkInfo.fields.read? true

namespace BinaryOrigin

def encode : BinaryOrigin → Document
  | framework => .tagged "kind" "framework" []
  | library headers moduleMap =>
    .tagged "kind" "library"
      [("public_headers", BuildGraph.encode headers),
        ("swift_module_map", BuildGraph.encode moduleMap)]
  | xcframework info => .tagged "kind" "xcframework" [("info_plist", BuildGraph.encode info)]

def forms : Forms BinaryOrigin := [
  ("framework", do return framework),
  ("library", do
    return library (← .required "public_headers") (← .optional "swift_module_map")),
  ("xcframework", do return xcframework (← .required "info_plist"))]

end BinaryOrigin

instance : Documented BinaryOrigin := ⟨BinaryOrigin.encode, BinaryOrigin.forms.read? "kind"⟩

namespace Prebuilt

def entries (b : Prebuilt) : List (String × Document) := [
  ("path", encode b.path),
  ("binary_path", encode b.binaryPath),
  ("linking", encode b.linking),
  ("architectures", encode b.architectures),
  ("dsym_path", encode b.dsymPath),
  ("bcsymbolmap_paths", encode b.bcsymbolmapPaths),
  ("origin", encode b.origin),
  ("status", encode b.status),
  ("mergeable", .bool b.mergeable)]

def fields : FieldReader Prebuilt := do
  return {
    path := ← .required "path"
    binaryPath := ← .required "binary_path"
    linking := ← .required "linking"
    architectures := ← .required "architectures"
    dsymPath := ← .optional "dsym_path"
    bcsymbolmapPaths := ← .required "bcsymbolmap_paths"
    origin := ← .required "origin"
    status := ← .required "status"
    mergeable := ← .required "mergeable" }

end Prebuilt

instance : Documented Prebuilt where
  encode b := .record b.entries
  readAs? := Prebuilt.fields.read? true

/-! ## Keys -/

namespace TargetId

def entries (id : TargetId) : List (String × Document) :=
  [("project_path", encode id.projectPath), ("name", .text id.name)]

def fields : FieldReader TargetId := do
  return { projectPath := ← .required "project_path", name := ← .required "name" }

end TargetId

instance : Documented TargetId where
  encode id := .record id.entries
  readAs? := TargetId.fields.read? true

namespace NodeKey

def encode : NodeKey → Document
  | target id => .tagged "type" "target" id.entries
  | prebuilt binary => .tagged "type" "precompiled" binary.entries
  | packageProduct projectPath product use =>
    .tagged "type" "package_product"
      [("project_path", BuildGraph.encode projectPath), ("product", .text product),
        ("kind", BuildGraph.encode use)]
  | sdk name path status source =>
    .tagged "type" "sdk"
      [("name", .text name), ("path", BuildGraph.encode path),
        ("status", BuildGraph.encode status), ("source", BuildGraph.encode source)]
  | bundle path => .tagged "type" "bundle" [("path", BuildGraph.encode path)]
  | macroExecutable path => .tagged "type" "macro" [("path", BuildGraph.encode path)]

def forms : Forms NodeKey := [
  ("target", do return target (← TargetId.fields)),
  ("precompiled", do return prebuilt (← Prebuilt.fields)),
  ("package_product", do
    return packageProduct (← .required "project_path") (← .required "product")
      (← .required "kind")),
  ("sdk", do
    return sdk (← .required "name") (← .required "path") (← .required "status")
      (← .required "source")),
  ("bundle", do return bundle (← .required "path")),
  ("macro", do return macroExecutable (← .required "path"))]

end NodeKey

instance : Documented NodeKey := ⟨NodeKey.encode, NodeKey.forms.read? "type"⟩

end BuildGraph
