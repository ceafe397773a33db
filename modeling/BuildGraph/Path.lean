import BuildGraph.Order.SortedList
import BuildGraph.Text.Split

/-!
# File paths

A path keeps the spelling it was given. It is compared by components: repeated
and trailing separators do not count, nor does a `.` except at the start of a
relative path, and a `..` is never resolved.
-/

namespace BuildGraph

structure Path where
  text : String
deriving DecidableEq, Repr, Inhabited

inductive Component where
  | root
  | current
  | parent
  | name (text : String)
deriving DecidableEq, Repr

instance : Sortable Component where
  sortKey
    | .root => .num 0
    | .current => .num 1
    | .parent => .num 2
    | .name text => .text text

namespace Path

/-! ## Components -/

/-- The leading separator or leading `.` of a path, and what follows it. -/
def splitHead : List Char → List Char × List Char
  | '/' :: body => (['/'], body)
  | ['.'] => (['.'], [])
  | '.' :: '/' :: body => (['.'], '/' :: body)
  | body => ([], body)

def headComponents : List Char → List Component
  | ['/'] => [.root]
  | ['.'] => [.current]
  | _ => []

def isTrivial (piece : List Char) : Bool :=
  piece == [] || piece == ['.']

def pieceComponent? (piece : List Char) : Option Component :=
  if isTrivial piece then none
  else if piece = ['.', '.'] then some .parent
  else some (.name (String.ofList piece))

def components (p : Path) : List Component :=
  let (head, body) := splitHead p.text.toList
  headComponents head ++ (Text.pieces '/' body).filterMap pieceComponent?

instance : Sortable Path := ⟨fun p => sortKey p.components⟩

def isAbsolute (p : Path) : Bool :=
  p.text.toList.head? == some '/'

/-! ## Joining and taking apart -/

/-- An absolute `rest` stands alone; otherwise it follows `p` after a separator. -/
def join (p rest : Path) : Path :=
  if rest.isAbsolute then rest
  else
    match p.text.toList.getLast? with
    | none => rest
    | some '/' => ⟨p.text ++ rest.text⟩
    | some _ => ⟨p.text ++ "/" ++ rest.text⟩

def parent? (p : Path) : Option Path :=
  let (head, body) := splitHead p.text.toList
  match Text.dropTrailing isTrivial (Text.pieces '/' body) with
  | [] => if head = ['.'] then some ⟨""⟩ else none
  | kept =>
    let above := Text.dropTrailing isTrivial kept.dropLast
    some ⟨String.ofList (head ++ Text.joinPieces '/' above)⟩

def fileName? (p : Path) : Option String :=
  match p.components.getLast? with
  | some (.name text) => some text
  | _ => none

/-- What follows the last dot of the file name, unless that dot starts it. -/
def extension? (p : Path) : Option String := do
  let name ← p.fileName?
  match Text.splitLast? '.' name.toList with
  | some (_ :: _, ext) => some (String.ofList ext)
  | _ => none

end Path

/-! ## Lists of paths -/

/-- The paths in order, one for each; of several spellings the last counts. -/
def distinctPaths (paths : List Path) : List Path :=
  collectBy sortKey keepLast paths

def parentDirectories (paths : List Path) : List Path :=
  distinctPaths (paths.filterMap Path.parent?)

end BuildGraph
