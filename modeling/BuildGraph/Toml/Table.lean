import BuildGraph.Document

/-!
# Tables

What has been read of a file so far. A header opens a table once. A table on
the way to a header may still get its own header; one that dotted keys made may
not. Dotted keys add to tables that dotted keys made. A list of tables grows by
headers of its own and is extended in its newest table. Written values are closed.
-/

namespace BuildGraph.Toml

inductive TableForm where
  /-- Opened by its own header. -/
  | opened
  /-- On the way to a header. -/
  | implied
  /-- Made by a dotted key. -/
  | dotted
deriving DecidableEq, Repr

inductive Item where
  | value (d : Document)
  | table (form : TableForm) (entries : List (String × Item))
  /-- A list of tables, by the newest one and those before it, newest first. -/
  | tables (newest : List (String × Item)) (older : List (List (String × Item)))

abbrev Entries := List (String × Item)

namespace Entries

def alter (key : String) (f : Option Item → Option Item) : Entries → Option Entries
  | [] => (f none).map fun item => [(key, item)]
  | (k, item) :: rest =>
    if k == key then (f (some item)).map fun item => (k, item) :: rest
    else (alter key f rest).map ((k, item) :: ·)

def put (d : Document) : String → List String → Entries → Option Entries
  | key, [], entries => entries.alter key fun
    | none => some (.value d)
    | some _ => none
  | key, next :: rest, entries => entries.alter key fun
    | none => (put d next rest []).map (.table .dotted)
    | some (.table form inner) =>
      if form = .opened || (form = .implied && rest.isEmpty) then none
      else (put d next rest inner).map (.table form)
    | some (.tables newest older) =>
      if rest.isEmpty then none else (put d next rest newest).map (.tables · older)
    | some (.value _) => none

def within (f : Entries → Option Entries) : List String → Entries → Option Entries
  | [], entries => f entries
  | key :: rest, entries => entries.alter key fun
    | none => (within f rest []).map (.table .implied)
    | some (.table form inner) => (within f rest inner).map (.table form)
    | some (.tables newest older) => (within f rest newest).map (.tables · older)
    | some (.value _) => none

def openTable : Option Item → Option Item
  | none => some (.table .opened [])
  | some (.table .implied inner) => some (.table .opened inner)
  | some _ => none

def openElement : Option Item → Option Item
  | none => some (.tables [] [])
  | some (.tables newest older) => some (.tables [] (newest :: older))
  | some _ => none

end Entries

/-! ## Finished tables -/

mutual

def Item.document : Item → Document
  | .value d => d
  | .table _ entries => .record (documents entries)
  | .tables newest older => .list (tableDocuments older [.record (documents newest)])

def documents : List (String × Item) → List (String × Document)
  | [] => []
  | (key, item) :: rest => (key, item.document) :: documents rest

def tableDocuments : List (List (String × Item)) → List Document → List Document
  | [], later => later
  | entries :: older, later => tableDocuments older (.record (documents entries) :: later)

end

end BuildGraph.Toml
