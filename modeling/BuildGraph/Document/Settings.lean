import BuildGraph.Document.Target
import BuildGraph.Settings

/-!
# Documents of settings

Settings stand in three sections, each of which may be missing, and so may
everything in them. With `exact`, a section that is written as a list holds
nothing but its fields.
-/

namespace BuildGraph.Settings

def defaults : Settings := {}

def maxDepthField : FieldReader Nat :=
  .withDefault "max_depth" defaults.maxDepth

def platformsRootField : FieldReader Path :=
  .withDefault "platforms_root" defaults.platformsRoot

def implicitAppClipSdkField : FieldReader Bool :=
  .withDefault "implicit_app_clip_sdk" defaults.implicitAppClipSdk

def sectionField {α : Type} (exact : Bool) (name : String) (field : FieldReader α) (default : α) :
    FieldReader α := do
  match ← FieldReader.next name with
  | none => return default
  | some d => FieldReader.content (field.read? exact) d

def fields (exact : Bool) : FieldReader Settings := do
  return {
    maxDepth := ← sectionField exact "traversal" maxDepthField defaults.maxDepth
    platformsRoot := ← sectionField exact "sdk" platformsRootField defaults.platformsRoot
    implicitAppClipSdk :=
      ← sectionField exact "linking" implicitAppClipSdkField defaults.implicitAppClipSdk }

def ofDocument? (exact : Bool) : Document → Option Settings :=
  (fields exact).read? exact .strict

end BuildGraph.Settings
