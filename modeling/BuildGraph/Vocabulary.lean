import BuildGraph.Order.SortKey

/-!
# Vocabularies

Types with finitely many values, each written as one fixed word.
-/

namespace BuildGraph

class Vocabulary (α : Type) where
  all : List α
  name : α → String
  find?_name : ∀ a, all.find? (fun b => name b == name a) = some a

namespace Vocabulary

variable {α : Type} [Vocabulary α]

def ofName? (text : String) : Option α :=
  (all : List α).find? fun a => name a == text

theorem ofName?_name (a : α) : ofName? (name a) = some a :=
  find?_name a

theorem name_of_ofName? {text : String} {a : α} (h : ofName? text = some a) : name a = text := by
  simpa using List.find?_some h

end Vocabulary

end BuildGraph
