/-!
# Splitting text at a separator

The pieces of a text hold no separator, there is one more of them than there
are separators, and joining them gives the text back.
-/

namespace BuildGraph.Text

def pieces (sep : Char) : List Char → List (List Char)
  | [] => [[]]
  | c :: cs =>
    if c = sep then [] :: pieces sep cs
    else match pieces sep cs with
      | [] => [[c]]
      | piece :: rest => (c :: piece) :: rest

def joinPieces (sep : Char) : List (List Char) → List Char
  | [] => []
  | [piece] => piece
  | piece :: rest => piece ++ sep :: joinPieces sep rest

theorem pieces_ne_nil (sep : Char) (cs : List Char) : pieces sep cs ≠ [] := by
  cases cs with
  | nil => simp [pieces]
  | cons c cs =>
    unfold pieces
    split
    · simp
    · split <;> simp

theorem joinPieces_cons_cons (sep c : Char) (piece : List Char) (rest : List (List Char)) :
    joinPieces sep ((c :: piece) :: rest) = c :: joinPieces sep (piece :: rest) := by
  cases rest <;> simp [joinPieces]

theorem joinPieces_pieces (sep : Char) : ∀ cs : List Char, joinPieces sep (pieces sep cs) = cs
  | [] => rfl
  | c :: cs => by
    have ih := joinPieces_pieces sep cs
    unfold pieces
    split
    · rename_i h
      cases hp : pieces sep cs with
      | nil => exact absurd hp (pieces_ne_nil sep cs)
      | cons piece rest => rw [hp] at ih; simp [joinPieces, ih, h]
    · split
      · rename_i hp; exact absurd hp (pieces_ne_nil sep cs)
      · rename_i piece rest hp
        rw [hp] at ih
        rw [joinPieces_cons_cons, ih]

theorem not_mem_of_mem_pieces (sep : Char) : ∀ (cs : List Char) {piece : List Char},
    piece ∈ pieces sep cs → sep ∉ piece
  | [], piece, h => by simp [pieces] at h; simp [h]
  | c :: cs, piece, h => by
    have ih := @not_mem_of_mem_pieces sep cs
    unfold pieces at h
    split at h
    · rcases List.mem_cons.1 h with rfl | h
      · simp
      · exact ih h
    · rename_i hc
      split at h
      · rename_i hp; exact absurd hp (pieces_ne_nil sep cs)
      · rename_i first rest hp
        rcases List.mem_cons.1 h with rfl | h
        · simp only [List.mem_cons, not_or]
          exact ⟨fun e => hc e.symm, ih (by simp [hp])⟩
        · exact ih (by simp [hp, h])

def splitLast? (sep : Char) (cs : List Char) : Option (List Char × List Char) :=
  let tail := cs.reverse.takeWhile (· ≠ sep)
  match cs.reverse.drop tail.length with
  | [] => none
  | _ :: before => some (before.reverse, tail.reverse)

def dropTrailing {α : Type} (p : α → Bool) (xs : List α) : List α :=
  (xs.reverse.dropWhile p).reverse

def occursIn (part : List Char) : List Char → Bool
  | [] => part.isEmpty
  | c :: cs => part.isPrefixOf (c :: cs) || occursIn part cs

def stripSuffix (suffix cs : List Char) : List Char :=
  if suffix.isSuffixOf cs then cs.take (cs.length - suffix.length) else cs

end BuildGraph.Text
