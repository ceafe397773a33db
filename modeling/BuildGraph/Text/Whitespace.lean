import BuildGraph.Text.Split

/-!
# White space

The characters that have the Unicode property White_Space.
-/

namespace BuildGraph.Text

/-- Inclusive ranges of code points, in increasing order. -/
def whitespaceRanges : List (Nat × Nat) := [
  (0x09, 0x0D), (0x20, 0x20), (0x85, 0x85), (0xA0, 0xA0), (0x1680, 0x1680), (0x2000, 0x200A),
  (0x2028, 0x2029), (0x202F, 0x202F), (0x205F, 0x205F), (0x3000, 0x3000)]

def isWhitespace (c : Char) : Bool :=
  whitespaceRanges.any fun (low, high) => low ≤ c.toNat && c.toNat ≤ high

theorem isWhitespace_of_core {c : Char} (h : c.isWhitespace = true) : isWhitespace c = true := by
  simp only [Char.isWhitespace, Bool.or_eq_true, decide_eq_true_eq] at h
  rcases h with ((rfl | rfl) | rfl) | rfl <;> decide

def trim (cs : List Char) : List Char :=
  dropTrailing isWhitespace (cs.dropWhile isWhitespace)

end BuildGraph.Text
