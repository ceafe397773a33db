/-!
# Documents

The data that descriptions are written in: words, numbers and truth values,
arranged in lists and in records of named entries.
-/

namespace BuildGraph

inductive Document where
  | null
  | bool (b : Bool)
  | int (i : Int)
  | fraction
  | text (s : String)
  | list (items : List Document)
  | record (entries : List (String × Document))
deriving Repr, Inhabited

/-- How much is taken for the same. Reading is lax within a record that names its
own form, and strict elsewhere. -/
inductive Reading where
  | strict
  | lax
deriving DecidableEq, Repr

namespace Document

def entry (name : String) : Document → Document
  | record entries => (entries.lookup name).getD null
  | _ => null

def isNull : Document → Bool
  | null => true
  | _ => false

def list? : Document → Option (List Document)
  | list items => some items
  | _ => none

def text? : Document → Option String
  | text s => some s
  | _ => none

/-- A word stands alone, or as the name of a single entry without content. Read
laxly, that entry may hold an empty record. -/
def word? : Reading → Document → Option String
  | _, text s => some s
  | _, record [(s, null)] => some s
  | .lax, record [(s, record [])] => some s
  | _, _ => none

def unsigned? : Document → Option Nat
  | int i => if 0 ≤ i ∧ i < UInt64.size then some i.toNat else none
  | _ => none

def signed? : Document → Option Int
  | int i => if Int64.minValue.toInt ≤ i ∧ i ≤ Int64.maxValue.toInt then some i else none
  | _ => none

end Document

end BuildGraph
