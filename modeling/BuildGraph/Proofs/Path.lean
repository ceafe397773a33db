import BuildGraph.Proofs.NodeKey
import Mathlib.Data.List.DropRight

/-!
# Parent directories

A parent directory has the components of the path but the last. So paths with the same
components have parents with the same components, however they are spelled.
-/

namespace BuildGraph

namespace Text

/-! ## Joining pieces -/

theorem pieces_append {sep : Char} {piece : List Char} (h : sep ∉ piece) (rest : List Char) :
    pieces sep (piece ++ sep :: rest) = piece :: pieces sep rest := by
  induction piece with
  | nil => simp [pieces]
  | cons c piece ih =>
    simp only [List.mem_cons, not_or] at h
    rw [List.cons_append, pieces, if_neg (Ne.symm h.1), ih h.2]

theorem pieces_of_not_mem {sep : Char} {piece : List Char} (h : sep ∉ piece) :
    pieces sep piece = [piece] := by
  induction piece with
  | nil => rfl
  | cons c piece ih =>
    simp only [List.mem_cons, not_or] at h
    rw [pieces, if_neg (Ne.symm h.1), ih h.2]

theorem pieces_joinPieces {sep : Char} {ps : List (List Char)} (hne : ps ≠ [])
    (h : ∀ p ∈ ps, sep ∉ p) : pieces sep (joinPieces sep ps) = ps := by
  induction ps with
  | nil => exact absurd rfl hne
  | cons p ps ih =>
    rw [List.forall_mem_cons] at h
    cases ps with
    | nil => exact pieces_of_not_mem h.1
    | cons q qs =>
      rw [joinPieces, pieces_append h.1, ih (List.cons_ne_nil q qs) h.2]
      exact List.cons_ne_nil q qs

theorem exists_joinPieces_cons (sep : Char) (p : List Char) (ps : List (List Char)) :
    ∃ rest, joinPieces sep (p :: ps) = p ++ rest := by
  cases ps with
  | nil => exact ⟨[], (List.append_nil p).symm⟩
  | cons q qs => exact ⟨_, rfl⟩

/-! ## Dropping at the end -/

theorem dropTrailing_start {α : Type} (p : α → Bool) (xs : List α) : dropTrailing p xs <+: xs :=
  List.rdropWhile_prefix p xs

theorem filterMap_dropTrailing {α β : Type} {p : α → Bool} {f : α → Option β}
    (hf : ∀ x, p x = true → f x = none) (xs : List α) :
    (dropTrailing p xs).filterMap f = xs.filterMap f := by
  induction xs using List.reverseRecOn with
  | nil => rfl
  | append_singleton xs x ih =>
    change (List.rdropWhile p (xs ++ [x])).filterMap f = _
    rw [List.rdropWhile_concat]
    by_cases hx : p x = true
    · rw [if_pos hx, List.filterMap_append, List.filterMap_cons_none (hf x hx), List.filterMap_nil,
        List.append_nil]
      exact ih
    · rw [if_neg hx]

theorem exists_last_dropTrailing {α : Type} {p : α → Bool} {xs : List α}
    (h : dropTrailing p xs ≠ []) :
    ∃ front last, dropTrailing p xs = front ++ [last] ∧ p last = false := by
  refine ⟨_, _, (List.dropLast_append_getLast h).symm, ?_⟩
  exact Bool.eq_false_iff.2 (List.rdropWhile_last_not p xs h)

end Text

namespace Path

open Text

/-! ## Components of pieces -/

theorem pieceComponent?_of_trivial {piece : List Char} (h : isTrivial piece = true) :
    pieceComponent? piece = none := if_pos h

theorem filterMap_untrailed (ps : List (List Char)) :
    (dropTrailing isTrivial ps).filterMap pieceComponent? = ps.filterMap pieceComponent? :=
  filterMap_dropTrailing (fun _ h => pieceComponent?_of_trivial h) ps

theorem exists_component {piece : List Char} (h : isTrivial piece = false) :
    ∃ c, pieceComponent? piece = some c ∧ c ≠ .root := by
  unfold pieceComponent?
  rw [if_neg (by simp [h])]
  by_cases hp : piece = ['.', '.']
  · exact ⟨.parent, by rw [if_pos hp], by simp⟩
  · exact ⟨.name (String.ofList piece), by rw [if_neg hp], by simp⟩

theorem splitHead_piece {piece : List Char} (hp : isTrivial piece = false) (hsep : '/' ∉ piece)
    (rest : List Char) : splitHead (piece ++ rest) = ([], piece ++ rest) := by
  unfold splitHead
  cases piece with
  | nil => simp [isTrivial] at hp
  | cons c piece =>
    cases piece with
    | nil =>
      have hc : c ≠ '.' := by rintro rfl; simp [isTrivial] at hp
      split <;> simp_all
    | cons e piece => split <;> simp_all

/-- A body that starts with a trivial piece is empty or is taken for more than a body. -/
theorem trivial_first {cs p : List Char} {ps : List (List Char)} (h : splitHead cs = ([], cs))
    (hcs : pieces '/' cs = p :: ps) (hp : isTrivial p = true) : p = [] ∧ ps = [] := by
  have hjoin := joinPieces_pieces '/' cs
  rw [hcs] at hjoin
  have hcases : p = [] ∨ p = ['.'] := by simpa [isTrivial] using hp
  rcases hcases with rfl | rfl <;> cases ps with
  | nil =>
    first
    | exact ⟨rfl, rfl⟩
    | rw [← hjoin] at h
      cases h
  | cons q qs =>
    rw [← hjoin] at h
    cases h

theorem splitHead_shorter {cs head body : List Char} (h : splitHead cs = (head, body))
    {above : List (List Char)} (habove : above <+: pieces '/' body) :
    splitHead (head ++ joinPieces '/' above) = (head, joinPieces '/' above) := by
  have hbody := h
  unfold splitHead at h
  split at h
  · cases h
    rfl
  · -- a lone `.` has no body to shorten
    cases h
    have hjoin : joinPieces '/' above = [] := by
      cases above with
      | nil => rfl
      | cons p ps =>
        have hlen := habove.length_le
        obtain ⟨rfl, -⟩ := List.cons_prefix_cons.1 habove
        cases ps with
        | nil => rfl
        | cons q qs => simp [pieces] at hlen
    rw [hjoin]
    rfl
  · cases h
    cases above with
    | nil => rfl
    | cons p ps =>
      simp only [pieces, if_true] at habove
      obtain ⟨rfl, -⟩ := List.cons_prefix_cons.1 habove
      cases ps <;> rfl
  · cases h
    cases above with
    | nil => rfl
    | cons p ps =>
      obtain ⟨qs, hqs⟩ := habove
      -- without a head the first piece is a name, and it is still there
      by_cases hp : isTrivial p = true
      · obtain ⟨rfl, hps⟩ := trivial_first hbody hqs.symm hp
        obtain ⟨rfl, -⟩ := List.append_eq_nil_iff.1 hps
        rfl
      · have hsep : '/' ∉ p := by
          apply not_mem_of_mem_pieces '/' cs
          rw [← hqs]
          exact List.mem_cons_self ..
        obtain ⟨rest, hrest⟩ := exists_joinPieces_cons '/' p ps
        rw [hrest]
        exact splitHead_piece (Bool.eq_false_iff.2 hp) hsep rest

/-! ## Components of the parent -/

theorem components_of_splitHead {p : Path} {head body : List Char}
    (h : splitHead p.text.toList = (head, body)) :
    p.components = headComponents head ++ (pieces '/' body).filterMap pieceComponent? := by
  rw [components, h]

theorem filterMap_pieces_join {ps : List (List Char)} (h : ∀ p ∈ ps, '/' ∉ p) :
    (pieces '/' (joinPieces '/' ps)).filterMap pieceComponent? = ps.filterMap pieceComponent? := by
  by_cases hne : ps = []
  · subst hne
    rfl
  · rw [pieces_joinPieces hne h]

theorem parent?_of_none {p : Path} {head body : List Char}
    (h : splitHead p.text.toList = (head, body))
    (hnil : dropTrailing isTrivial (pieces '/' body) = []) :
    p.parent? = if head = ['.'] then some ⟨""⟩ else none := by
  rw [parent?, h]
  simp only [hnil]

theorem parent?_of_kept {p : Path} {head body : List Char} {kept : List (List Char)}
    (h : splitHead p.text.toList = (head, body))
    (hkept : dropTrailing isTrivial (pieces '/' body) = kept) (hne : kept ≠ []) :
    p.parent? =
      some ⟨String.ofList (head ++ joinPieces '/' (dropTrailing isTrivial kept.dropLast))⟩ := by
  rw [parent?, h]
  simp only [hkept]

theorem head_of_splitHead {cs head body : List Char} (h : splitHead cs = (head, body)) :
    head = ['/'] ∨ head = ['.'] ∨ head = [] := by
  unfold splitHead at h
  split at h <;> cases h <;> simp

theorem components_parent? (p : Path) : p.parent?.map components =
    if p.components = [] ∨ p.components = [.root] then none else some p.components.dropLast := by
  obtain ⟨head, body, hsplit⟩ : ∃ head body, splitHead p.text.toList = (head, body) := ⟨_, _, rfl⟩
  have hcomponents := components_of_splitHead hsplit
  rw [← filterMap_untrailed] at hcomponents
  by_cases hnil : dropTrailing isTrivial (pieces '/' body) = []
  · rw [hnil] at hcomponents
    rw [hcomponents, parent?_of_none hsplit hnil]
    rcases head_of_splitHead hsplit with rfl | rfl | rfl <;> rfl
  obtain ⟨front, last, hkept, hlast⟩ := exists_last_dropTrailing hnil
  obtain ⟨c, hc, hroot⟩ := exists_component hlast
  have hstart : dropTrailing isTrivial front <+: pieces '/' body :=
    (dropTrailing_start _ front).trans ((List.prefix_append front [last]).trans
      (hkept ▸ dropTrailing_start _ _))
  have hsep : ∀ q ∈ dropTrailing isTrivial front, '/' ∉ q := fun q hq =>
    not_mem_of_mem_pieces '/' body (hstart.subset hq)
  have hparent : components ⟨String.ofList (head ++ joinPieces '/' (dropTrailing isTrivial front))⟩ =
      headComponents head ++ front.filterMap pieceComponent? := by
    rw [components_of_splitHead, filterMap_pieces_join hsep, filterMap_untrailed]
    rw [String.toList_ofList]
    exact splitHead_shorter hsplit hstart
  rw [hkept, List.filterMap_append, List.filterMap_cons_some hc, List.filterMap_nil,
    ← List.append_assoc] at hcomponents
  -- the last component is never the root, so there is one to drop
  have hlong : ¬(p.components = [] ∨ p.components = [.root]) := by
    rw [hcomponents]
    rintro (h | h)
    · simp at h
    · have hlast := congrArg List.getLast? h
      rw [List.getLast?_concat] at hlast
      exact hroot (Option.some.inj hlast)
  rw [if_neg hlong, parent?_of_kept hsplit hkept (by simp), List.dropLast_concat, Option.map_some,
    hparent, hcomponents, List.dropLast_concat]

theorem parent?_congr {p q : Path} (h : sortKey p = sortKey q) :
    p.parent?.map sortKey = q.parent?.map sortKey := by
  have hkey (p : Path) : p.parent?.map sortKey =
      (p.parent?.map components).map fun cs => SortKey.ofList (cs.map sortKey) := by
    rw [Option.map_map]
    rfl
  rw [hkey p, hkey q, components_parent?, components_parent?, sortKey_path.1 h]

end Path

end BuildGraph
