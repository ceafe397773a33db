import BuildGraph.Toml.Moment
import BuildGraph.Toml.Number
import BuildGraph.Toml.Table

/-!
# Values

Lists may have comments, line ends and a comma after the last item; inline
tables may not.
-/

namespace BuildGraph.Toml

open Scanner

def truthValue : Scanner Bool :=
  (fun _ => true) <$> word "true" <|> (fun _ => false) <$> word "false"

def scalar : Scanner Document := choose [
  .text <$> quoted,
  .bool <$> truthValue,
  (fun _ => .record []) <$> moment,
  (fun _ => .fraction) <$> float,
  .int <$> integer]

def listOf (item : Scanner Document) : Scanner Document :=
  between '[' ']' do
    let items ← maybe (separated (discard (char ',')) (do gap; let d ← item; gap; return d))
    if items.isSome then discard (maybe (char ','))
    gap
    return .list (items.getD [])

def assignment (item : Scanner Document) : Scanner (List String × Document) := do
  let path ← key
  discard (char '=')
  blanks
  return (path, ← item)

def Entries.assign (entries : Entries) : List String × Document → Option Entries
  | ([], _) => none
  | (key :: rest, d) => entries.put d key rest

def inlineTableOf (item : Scanner Document) : Scanner Document :=
  between '{' '}' do
    let assignments ←
      maybe (separated (discard (char ',')) (do let a ← assignment item; blanks; return a))
    blanks
    match (assignments.getD []).foldlM Entries.assign [] with
    | some entries => return .record (documents entries)
    | none => failure

def value : Nat → Scanner Document
  | 0 => scalar
  | depth + 1 => scalar <|> listOf (value depth) <|> inlineTableOf (value depth)

end BuildGraph.Toml
