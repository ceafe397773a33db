import BuildGraph.Graph

/-!
# References

One item of the answer to a query: an instruction to link, embed or copy an
artifact. Its order is that of its category, then of the field that identifies
it; two keys for the same artifact give references of one identity.
-/

namespace BuildGraph

inductive Reference where
  | sdk (path : Path) (status : LinkStatus) (source : SdkOrigin)
      (condition : Option Condition)
  | product (productName : String) (project : Path) (target : String)
      (condition : Option Condition)
  | library (path publicHeaders : Path) (swiftModuleMap : Option Path) (linking : Linking)
      (architectures : OrderedSet Architecture) (condition : Option Condition)
  | framework (path binaryPath : Path) (dsymPath : Option Path) (bcsymbolmapPaths : List Path)
      (linking : Linking) (architectures : OrderedSet Architecture) (isThirdParty : Bool)
      (status : LinkStatus) (condition : Option Condition)
  | xcframework (path : Path) (info : XcframeworkInfo) (primaryBinaryPath : Path)
      (linking : Linking) (status : LinkStatus) (condition : Option Condition)
  | bundle (path : Path) (condition : Option Condition)
deriving DecidableEq, Repr

/-- Category and identifying field of a reference. -/
inductive ReferenceKey where
  | sdk (path : Path)
  /-- Products are in the order of their files; project and target identify them. -/
  | product (productName : String) (project : Path) (target : String)
  | library (path : Path)
  | framework (path : Path)
  | xcframework (path : Path)
  | bundle (path : Path)
deriving DecidableEq, Repr

def ReferenceKey.order : ReferenceKey → SortKey
  | sdk path => .variant 0 [sortKey path]
  | product productName project target =>
    .variant 1 [sortKey productName, sortKey project, sortKey target]
  | library path => .variant 2 [sortKey path]
  | framework path => .variant 3 [sortKey path]
  | xcframework path => .variant 4 [sortKey path]
  | bundle path => .variant 5 [sortKey path]

instance : Sortable ReferenceKey := ⟨ReferenceKey.order⟩

namespace Reference

def order : Reference → SortKey
  | sdk path status source c =>
    .variant 0 [sortKey path, sortKey status, sortKey source, sortKey c]
  | product productName project target c =>
    .variant 1 [sortKey productName, sortKey project, sortKey target, sortKey c]
  | library path publicHeaders swiftModuleMap linking architectures c =>
    .variant 2 [sortKey path, sortKey publicHeaders, sortKey swiftModuleMap, sortKey linking,
      sortKey architectures, sortKey c]
  | framework path binaryPath dsymPath bcsymbolmapPaths linking architectures isThirdParty
      status c =>
    .variant 3 [sortKey path, sortKey binaryPath, sortKey dsymPath, sortKey bcsymbolmapPaths,
      sortKey linking, sortKey architectures, .ofBool isThirdParty, sortKey status, sortKey c]
  | xcframework path info primaryBinaryPath linking status c =>
    .variant 4 [sortKey path, sortKey info, sortKey primaryBinaryPath, sortKey linking,
      sortKey status, sortKey c]
  | bundle path c => .variant 5 [sortKey path, sortKey c]

instance : Sortable Reference := ⟨order⟩

/-! ## Making references -/

def ofProduct (target : Target) (project : Path) (c : Option Condition) : Reference :=
  .product target.builtFile project target.name c

def ofTarget (t : ProjectTarget) (c : Option Condition) : Reference :=
  .ofProduct t.target t.path c

def thirdPartyDirectory : String := "Carthage/Build"

def ofBinary (b : Prebuilt) (c : Option Condition) : Reference :=
  match b.origin with
  | .framework =>
    .framework b.path b.binaryPath b.dsymPath b.bcsymbolmapPaths b.linking b.architectures
      (Text.occursIn thirdPartyDirectory.toList b.path.text.toList) b.status c
  | .library publicHeaders swiftModuleMap =>
    .library b.path publicHeaders swiftModuleMap b.linking b.architectures c
  | .xcframework info => .xcframework b.path info b.binaryPath b.linking b.status c

/-! ## Fields -/

def condition : Reference → Option Condition
  | sdk _ _ _ c | product _ _ _ c | library _ _ _ _ _ c | framework _ _ _ _ _ _ _ _ c
  | xcframework _ _ _ _ _ c | bundle _ c => c

def path? : Reference → Option Path
  | product .. => none
  | sdk path .. | library path .. | framework path .. | xcframework path .. | bundle path _ =>
    some path

def status? : Reference → Option LinkStatus
  | sdk _ status _ _ | framework _ _ _ _ _ _ _ status _ | xcframework _ _ _ _ status _ =>
    some status
  | _ => none

def id : Reference → ReferenceKey
  | sdk path .. => .sdk path
  | product productName project target _ => .product productName project target
  | library path .. => .library path
  | framework path .. => .framework path
  | xcframework path .. => .xcframework path
  | bundle path _ => .bundle path

/-! ## Merging -/

/-- Takes in a reference of the same identity: the conditions unite, the stronger
status stays, all else is kept. -/
def absorb (r other : Reference) : Reference :=
  let c := Condition.either r.condition other.condition
  let strengthen (status : LinkStatus) := (other.status?.map status.stronger).getD status
  match r with
  | sdk path status source _ => sdk path (strengthen status) source c
  | product productName project target _ => product productName project target c
  | library path headers moduleMap linking architectures _ =>
    library path headers moduleMap linking architectures c
  | framework path binary dsym bcsymbolmaps linking architectures isThirdParty status _ =>
    framework path binary dsym bcsymbolmaps linking architectures isThirdParty
      (strengthen status) c
  | xcframework path info binary linking status _ =>
    xcframework path info binary linking (strengthen status) c
  | bundle path _ => bundle path c

theorem id_absorb (r other : Reference) : (r.absorb other).id = r.id := by
  cases r <;> rfl

end Reference

/-! ## Sets of references -/

/-- References in canonical order, one for each identity. -/
structure References where
  toList : List Reference
  increasing : IncreasingBy (fun r => sortKey r.id) toList

namespace References

def empty : References := ⟨[], .nil⟩

instance : Inhabited References := ⟨empty⟩

theorem keepsKey_absorb : KeepsKey (fun r => sortKey r.id) Reference.absorb :=
  fun r other _ => congrArg sortKey (r.id_absorb other)

def insert (s : References) (r : Reference) : References :=
  ⟨insertBy _ Reference.absorb r s.toList, insertBy_increasing keepsKey_absorb r s.increasing⟩

def insertAll (s : References) (rs : List Reference) : References :=
  rs.foldl insert s

def ofList (rs : List Reference) : References :=
  empty.insertAll rs

def filter (p : Reference → Bool) (s : References) : References :=
  ⟨s.toList.filter p, s.increasing.filter p⟩

def contains (s : References) (id : ReferenceKey) : Bool :=
  s.toList.any fun r => same r.id id

def subtract (s t : References) : References :=
  s.filter fun r => !t.contains r.id

def size (s : References) : Nat :=
  s.toList.length

end References

end BuildGraph
