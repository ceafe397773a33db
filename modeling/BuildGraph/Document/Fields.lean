import BuildGraph.Document
import BuildGraph.Order.OrderedSet
import BuildGraph.Vocabulary

/-!
# Reading and writing documents

A type is documented if its values are written as documents and read back. A
record is written with the names of its fields. It is read by name, where other
entries do not matter, or from a list by position, where defaults may be left
out at the end only. A record may name its own form; within it, reading is lax.
-/

namespace BuildGraph

class Documented (α : Type) where
  encode : α → Document
  readAs? : Reading → Document → Option α

export Documented (encode readAs?)

def decode? {α : Type} [Documented α] (d : Document) : Option α :=
  readAs? .strict d

/-! ## Plain values -/

section
variable {α : Type}

instance : Documented String := ⟨.text, fun _ => Document.text?⟩

instance : Documented Bool where
  encode := .bool
  readAs?
    | _, .bool b => some b
    | _, _ => none

instance : Documented Nat := ⟨fun n => .int n, fun _ => Document.unsigned?⟩

instance [Documented α] : Documented (Option α) where
  encode
    | none => .null
    | some a => encode a
  readAs?
    | _, .null => some none
    | reading, d => (readAs? reading d).map some

instance [Documented α] : Documented (List α) where
  encode as := .list (as.map encode)
  readAs? reading d := d.list?.bind (·.mapM (readAs? reading))

instance [Documented α] [Sortable α] : Documented (OrderedSet α) where
  encode s := encode s.toList
  readAs? reading d := (readAs? reading d).map OrderedSet.ofList

@[reducible] def Documented.ofVocabulary [Vocabulary α] : Documented α where
  encode a := .text (Vocabulary.name a)
  readAs? reading d := (d.word? reading).bind Vocabulary.ofName?

end

/-! ## Records -/

inductive Fields where
  | named (entries : List (String × Document))
  | ordered (items : List Document)

abbrev FieldReader := ReaderT Reading (StateT Fields Option)

namespace FieldReader

variable {α : Type}

def next (name : String) : FieldReader (Option Document) := fun _ fields =>
  match fields with
  | .named entries => some (entries.lookup name, fields)
  | .ordered [] => some (none, fields)
  | .ordered (item :: rest) => some (some item, .ordered rest)

def content (reader : Reading → Document → Option α) (d : Document) : FieldReader α :=
  fun reading fields => (reader reading d).map (·, fields)

def withDefault [Documented α] (name : String) (default : α) : FieldReader α := do
  match ← next name with
  | none => return default
  | some d => content readAs? d

def required [Documented α] (name : String) : FieldReader α := do
  match ← next name with
  | none => failure
  | some d => content readAs? d

/-- A field that may be missing, except by position. -/
def optional [Documented α] (name : String) : FieldReader (Option α) := fun reading fields =>
  match fields with
  | .ordered [] => none
  | _ => withDefault name none reading fields

/-- Reads all of a list; `exact` forbids further items. -/
def ofItems? (reader : FieldReader α) (exact : Bool) (reading : Reading)
    (items : List Document) : Option α :=
  match reader reading (.ordered items) with
  | some (a, .ordered (_ :: _)) => if exact then none else some a
  | some (a, _) => some a
  | none => none

def read? (reader : FieldReader α) (exact : Bool) (reading : Reading) : Document → Option α
  | .record entries => (reader reading (.named entries)).map (·.1)
  | .list items => reader.ofItems? exact reading items
  | _ => none

end FieldReader

/-! ## Records of several forms -/

abbrev Forms (α : Type) := List (String × FieldReader α)

namespace Forms

variable {α : Type}

/-- The form that a document names. Read laxly, its number in the order will do. -/
def named? (forms : Forms α) : Reading → Document → Option (FieldReader α)
  | _, .text name => forms.lookup name
  | .lax, .int (.ofNat number) => forms[number]?.map (·.2)
  | _, _ => none

/-- Reads a record that names its own form: in the entry `tag`, or in the first item. -/
def read? (forms : Forms α) (tag : String) (reading : Reading) : Document → Option α
  | .record entries => do
    let reader ← forms.named? reading (← entries.lookup tag)
    (reader .lax (.named entries)).map (·.1)
  | .list (form :: items) => do
    let reader ← forms.named? reading form
    reader.ofItems? true .lax items
  | _ => none

end Forms

def Document.tagged (tag form : String) (entries : List (String × Document)) : Document :=
  .record ((tag, .text form) :: entries)

end BuildGraph
