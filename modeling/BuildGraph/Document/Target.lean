import BuildGraph.Document.Fields
import BuildGraph.Target

/-!
# Documents of targets

Targets and their dependencies as manifests write them. A condition is a list
of at least one platform, or null.
-/

namespace BuildGraph

instance : Documented Platform := .ofVocabulary

instance : Documented Product := .ofVocabulary

instance : Documented LinkStatus := .ofVocabulary

instance : Documented PackageUse := .ofVocabulary

instance : Documented Path where
  encode p := .text p.text
  readAs? _ d := d.text?.map Path.mk

instance : Documented Condition where
  encode c := encode c.platforms
  readAs? reading d := (readAs? reading d).bind Condition.ofSet?

/-! ## Merging -/

namespace Merging

def encode : Merging → Document
  | disabled => .tagged "mode" "disabled" []
  | automatic => .tagged "mode" "automatic" []
  | manual names => .tagged "mode" "manual" [("names", BuildGraph.encode names)]

/-- Only the manual mode has names. -/
def ofMode? (reading : Reading) (names : Option Document) : String → Option Merging
  | "disabled" => if names.all Document.isNull then some disabled else none
  | "automatic" => if names.all Document.isNull then some automatic else none
  | "manual" => (names.bind (BuildGraph.readAs? reading)).map manual
  | _ => none

/-- By position, the mode stands alone, and names or null follow it. -/
def readAs? (reading : Reading) : Document → Option Merging
  | .record entries => do
    ofMode? reading (entries.lookup "names") (← (← entries.lookup "mode").word? reading)
  | .list [.text mode, names] => ofMode? reading (some names) mode
  | _ => none

end Merging

instance : Documented Merging := ⟨Merging.encode, Merging.readAs?⟩

/-! ## Dependencies -/

namespace Dependency

def encode : Dependency → Document
  | target name c =>
    .tagged "type" "target" [("name", .text name), ("condition", BuildGraph.encode c)]
  | project name path c =>
    .tagged "type" "project"
      [("target", .text name), ("path", BuildGraph.encode path),
        ("condition", BuildGraph.encode c)]
  | framework path status c =>
    .tagged "type" "framework"
      [("path", BuildGraph.encode path), ("status", BuildGraph.encode status),
        ("condition", BuildGraph.encode c)]
  | library path headers moduleMap c =>
    .tagged "type" "library"
      [("path", BuildGraph.encode path), ("public_headers", BuildGraph.encode headers),
        ("swift_module_map", BuildGraph.encode moduleMap), ("condition", BuildGraph.encode c)]
  | xcframework path status c =>
    .tagged "type" "xcframework"
      [("path", BuildGraph.encode path), ("status", BuildGraph.encode status),
        ("condition", BuildGraph.encode c)]
  | sdk name status c =>
    .tagged "type" "sdk"
      [("name", .text name), ("status", BuildGraph.encode status),
        ("condition", BuildGraph.encode c)]
  | package product use c =>
    .tagged "type" "package"
      [("product", .text product), ("kind", BuildGraph.encode use),
        ("condition", BuildGraph.encode c)]
  | bundle path c =>
    .tagged "type" "bundle"
      [("path", BuildGraph.encode path), ("condition", BuildGraph.encode c)]
  | xctest => .tagged "type" "xctest" []

def conditionField : FieldReader (Option Condition) :=
  .withDefault "condition" none

def statusField : FieldReader LinkStatus :=
  .withDefault "status" .required

def forms : Forms Dependency := [
  ("target", do return target (← .required "name") (← conditionField)),
  ("project", do
    return project (← .required "target") (← .required "path") (← conditionField)),
  ("framework", do
    return framework (← .required "path") (← statusField) (← conditionField)),
  ("library", do
    return library (← .required "path") (← .required "public_headers")
      (← .withDefault "swift_module_map" none) (← conditionField)),
  ("xcframework", do
    return xcframework (← .required "path") (← statusField) (← conditionField)),
  ("sdk", do return sdk (← .required "name") (← statusField) (← conditionField)),
  ("package", do
    return package (← .required "product") (← .withDefault "kind" .runtime)
      (← conditionField)),
  ("bundle", do return bundle (← .required "path") (← conditionField)),
  ("xctest", do return xctest)]

end Dependency

instance : Documented Dependency := ⟨Dependency.encode, Dependency.forms.read? "type"⟩

/-! ## Targets -/

namespace Target

def encode (t : Target) : Document :=
  .record [
    ("name", .text t.name),
    ("product", BuildGraph.encode t.product),
    ("product_name", BuildGraph.encode t.productName?),
    ("destinations", BuildGraph.encode t.destinations),
    ("dependencies", BuildGraph.encode t.dependencies),
    ("merged_binary", BuildGraph.encode t.merging),
    ("mergeable", .bool t.mergeable),
    ("contains_resources", .bool t.hasResources),
    ("enable_testing_search_paths", .bool t.usesTestingSearchPaths)]

def fields : FieldReader Target := do
  return {
    name := ← .required "name"
    product := ← .required "product"
    productName? := ← .withDefault "product_name" none
    destinations := ← .withDefault "destinations" .empty
    dependencies := ← .withDefault "dependencies" []
    merging := ← .withDefault "merged_binary" .disabled
    mergeable := ← .withDefault "mergeable" false
    hasResources := ← .withDefault "contains_resources" false
    usesTestingSearchPaths := ← .withDefault "enable_testing_search_paths" false }

end Target

instance : Documented Target := ⟨Target.encode, Target.fields.read? true⟩

end BuildGraph
