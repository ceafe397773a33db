import BuildGraph.Toml.Value

/-!
# Configuration files

A file is a sequence of statements, each on a line of its own: an assignment to
the table that is open, or a header that opens another one.
-/

namespace BuildGraph.Toml

open Scanner

inductive Statement where
  | assign (path : List String) (d : Document)
  | openTable (path : List String)
  | openElement (path : List String)
  | blank

def statement : Scanner Statement := do
  blanks
  let s ← choose [
    (fun _ => .blank) <$> newline,
    (fun _ => .blank) <$> (do comment; newline <|> ended),
    .openElement <$> (do word "[["; let path ← key; word "]]"; lineEnd; return path),
    .openTable <$> (do let path ← between '[' ']' key; lineEnd; return path),
    (fun a => .assign a.1 a.2) <$> (do let a ← assignment (value maxNesting); lineEnd; return a)]
  return s

structure Progress where
  root : Entries := []
  opened : List String := []

namespace Progress

def openAt (p : Progress) (path : List String) (f : Option Item → Option Item) :
    Option Progress := do
  let root ← Entries.within (Entries.alter (← path.getLast?) f) path.dropLast p.root
  return { root, opened := path }

def step (p : Progress) : Statement → Option Progress
  | .blank => some p
  | .assign path d => do
    let root ← Entries.within (fun entries => entries.assign (path, d)) p.opened p.root
    return { p with root }
  | .openTable path => p.openAt path Entries.openTable
  | .openElement path => p.openAt path Entries.openElement

end Progress

/-- A byte order mark at the start does not count. -/
def withoutMark : List Char → List Char
  | '\uFEFF' :: cs => cs
  | cs => cs

def statements : Scanner (List Statement) := do
  let list ← many statement
  blanks
  ended
  return list

def read? (text : String) : Option Document := do
  let (list, _) ← statements (withoutMark text.toList)
  let progress ← list.foldlM Progress.step {}
  return .record (documents progress.root)

end BuildGraph.Toml
