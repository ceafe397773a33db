import BuildGraph.Artifact.Inspection

/-!
# System SDKs

Where an SDK lies below the directory of all platforms: system frameworks,
text-based stubs and Swift modules inside the SDK of a platform, developer
frameworks beside it. Any other kind of name is not supported.
-/

namespace BuildGraph.SystemSdk

def xctest : String := "XCTest.framework"

def appClip : String := "AppClip.framework"

def platformDirectory (root : Path) (platform : Platform) : Path :=
  root.join ⟨platform.sdkStem ++ ".platform"⟩

def sdkDirectory (root : Path) (platform : Platform) : Path :=
  ((platformDirectory root platform).join ⟨"Developer/SDKs"⟩).join ⟨platform.sdkStem ++ ".sdk"⟩

def sourceWord : SdkOrigin → String
  | .system => "System"
  | .developer => "Developer"

/-- Goes by the extension of the name and the source alone. -/
def locator (root : Path) : SdkLocator := fun name platform _ source =>
  let sdk := sdkDirectory root platform
  match source, ((Path.mk name).extension?).getD "" with
  | .developer, "framework" =>
    .ok (((platformDirectory root platform).join ⟨"Developer/Library/Frameworks"⟩).join ⟨name⟩)
  | .system, "framework" => .ok ((sdk.join ⟨"System/Library/Frameworks"⟩).join ⟨name⟩)
  | .system, "tbd" => .ok ((sdk.join ⟨"usr/lib"⟩).join ⟨name⟩)
  | .system, "swiftmodule" => .ok ((sdk.join ⟨"usr/lib/swift"⟩).join ⟨name⟩)
  | source, _ =>
    .error (.unsupported
      ("sdk '" ++ name ++ "' has an unsupported extension for a " ++ sourceWord source ++ " sdk"))

end BuildGraph.SystemSdk
