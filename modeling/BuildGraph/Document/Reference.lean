import BuildGraph.Document.NodeKey
import BuildGraph.Reference

/-!
# Documents of references
-/

namespace BuildGraph

namespace Reference

def encode : Reference → Document
  | sdk path status source c =>
    .tagged "kind" "sdk"
      [("path", BuildGraph.encode path), ("status", BuildGraph.encode status),
        ("source", BuildGraph.encode source), ("condition", BuildGraph.encode c)]
  | product productName project target c =>
    .tagged "kind" "product"
      [("product_name", .text productName), ("project", BuildGraph.encode project),
        ("target", .text target), ("condition", BuildGraph.encode c)]
  | library path headers moduleMap linking architectures c =>
    .tagged "kind" "library"
      [("path", BuildGraph.encode path), ("public_headers", BuildGraph.encode headers),
        ("swift_module_map", BuildGraph.encode moduleMap),
        ("linking", BuildGraph.encode linking),
        ("architectures", BuildGraph.encode architectures), ("condition", BuildGraph.encode c)]
  | framework path binary dsym bcsymbolmaps linking architectures isThirdParty status c =>
    .tagged "kind" "framework"
      [("path", BuildGraph.encode path), ("binary_path", BuildGraph.encode binary),
        ("dsym_path", BuildGraph.encode dsym),
        ("bcsymbolmap_paths", BuildGraph.encode bcsymbolmaps),
        ("linking", BuildGraph.encode linking),
        ("architectures", BuildGraph.encode architectures),
        ("is_third_party", .bool isThirdParty), ("status", BuildGraph.encode status),
        ("condition", BuildGraph.encode c)]
  | xcframework path info binary linking status c =>
    .tagged "kind" "xc_framework"
      [("path", BuildGraph.encode path), ("info_plist", BuildGraph.encode info),
        ("primary_binary_path", BuildGraph.encode binary),
        ("linking", BuildGraph.encode linking), ("status", BuildGraph.encode status),
        ("condition", BuildGraph.encode c)]
  | bundle path c =>
    .tagged "kind" "bundle"
      [("path", BuildGraph.encode path), ("condition", BuildGraph.encode c)]

def conditionField : FieldReader (Option Condition) :=
  .optional "condition"

def forms : Forms Reference := [
  ("sdk", do
    return sdk (← .required "path") (← .required "status") (← .required "source")
      (← conditionField)),
  ("product", do
    return product (← .required "product_name") (← .required "project") (← .required "target")
      (← conditionField)),
  ("library", do
    return library (← .required "path") (← .required "public_headers")
      (← .optional "swift_module_map") (← .required "linking")
      (← .required "architectures") (← conditionField)),
  ("framework", do
    return framework (← .required "path") (← .required "binary_path")
      (← .optional "dsym_path") (← .required "bcsymbolmap_paths")
      (← .required "linking") (← .required "architectures") (← .required "is_third_party")
      (← .required "status") (← conditionField)),
  ("xc_framework", do
    return xcframework (← .required "path") (← .required "info_plist")
      (← .required "primary_binary_path") (← .required "linking") (← .required "status")
      (← conditionField)),
  ("bundle", do return bundle (← .required "path") (← conditionField))]

end Reference

instance : Documented Reference := ⟨Reference.encode, Reference.forms.read? "kind"⟩

def ReferenceKey.encode : ReferenceKey → Document
  | .sdk path => .list [.text "sdk", BuildGraph.encode path]
  | .product productName project target =>
    .list [.text "product", .text productName, BuildGraph.encode project, .text target]
  | .library path => .list [.text "library", BuildGraph.encode path]
  | .framework path => .list [.text "framework", BuildGraph.encode path]
  | .xcframework path => .list [.text "xcframework", BuildGraph.encode path]
  | .bundle path => .list [.text "bundle", BuildGraph.encode path]

end BuildGraph
