import BuildGraph.Document.Settings
import BuildGraph.Fault
import BuildGraph.Text.Whitespace
import BuildGraph.Toml

/-!
# Resolving settings

The settings file of a workspace counts before that of the user, and that
before the defaults. An environment variable then replaces the depth limit.
-/

namespace BuildGraph

inductive SettingsFile where
  | absent
  | unreadable
  | text (content : String)
deriving DecidableEq, Repr

inductive SettingsError where
  | unreadable (path : Path)
  | malformed (path : Path)
  | depthNotNumeric (raw : String)
  | depthZero
deriving DecidableEq, Repr

namespace Settings

/-! ## Names -/

def workspaceFile (workspace : Path) : Path :=
  workspace.join ⟨".xcgraph/config.toml"⟩

def userFile (configDirectory : Path) : Path :=
  configDirectory.join ⟨"xcgraph/config.toml"⟩

def depthVariable : String := "XCGRAPH_MAX_DEPTH"

end Settings

def SettingsError.message : SettingsError → String
  | unreadable path => "Failed to read " ++ path.text
  | malformed path =>
    FaultCode.malformedSettings.text ++ ": " ++ FaultCode.malformedSettings.message
      ++ " in " ++ path.text
  | depthNotNumeric raw =>
    Settings.depthVariable ++ " must be a positive integer, got '" ++ raw ++ "'"
  | depthZero => Settings.depthVariable ++ " must be greater than zero"

namespace Settings

/-! ## Files -/

def ofText? (content : String) : Option Settings :=
  (Toml.read? content).bind (ofDocument? false)

def load (path : Path) : SettingsFile → Except SettingsError (Option Settings)
  | .absent => .ok none
  | .unreadable => .error (.unreadable path)
  | .text content =>
    match ofText? content with
    | some settings => .ok (some settings)
    | none => .error (.malformed path)

/-! ## The environment -/

/-- A number of decimal digits, perhaps after a plus sign, that fits into 64 bits. -/
def depthOfText? (raw : String) : Option Nat :=
  let digits :=
    match Text.trim raw.toList with
    | '+' :: cs => cs
    | cs => cs
  if digits.isEmpty || !digits.all Char.isDigit then none
  else
    let n := digits.foldl (fun n c => n * 10 + (c.toNat - '0'.toNat)) 0
    if n < UInt64.size then some n else none

def withDepthText (settings : Settings) : Option String → Except SettingsError Settings
  | none => .ok settings
  | some raw =>
    match depthOfText? raw with
    | none => .error (.depthNotNumeric raw)
    | some 0 => .error .depthZero
    | some depth => .ok { settings with maxDepth := depth }

/-! ## Resolution -/

structure Origin where
  workspacePath : Path
  workspaceFile : SettingsFile
  userPath : Path
  userFile : SettingsFile
  depth? : Option String

def Origin.ofWorkspace (o : Origin) : Except SettingsError (Option Settings) :=
  load o.workspacePath o.workspaceFile

def Origin.ofUser (o : Origin) : Except SettingsError (Option Settings) :=
  load o.userPath o.userFile

/-- The file of the user is not looked at if the workspace has one. -/
def Origin.inFile (o : Origin) : Except SettingsError Settings := do
  match ← o.ofWorkspace with
  | some settings => return settings
  | none => return (← o.ofUser).getD {}

def Origin.resolve (o : Origin) : Except SettingsError Settings := do
  (← o.inFile).withDepthText o.depth?

end Settings

end BuildGraph
