/-!
# Scanners

A scanner takes a value off the front of a text, or fails and takes nothing.
-/

namespace BuildGraph.Toml

abbrev Scanner := StateT (List Char) Option

namespace Scanner

variable {α : Type}

/-! ## Single characters -/

def satisfying (p : Char → Bool) : Scanner Char := fun cs =>
  match cs with
  | c :: rest => if p c then some (c, rest) else none
  | [] => none

def char (c : Char) : Scanner Char :=
  satisfying (· == c)

def ended : Scanner Unit := fun cs =>
  if cs.isEmpty then some ((), cs) else none

/-! ## Runs -/

def literal (text : List Char) : Scanner Unit := fun cs =>
  if text.isPrefixOf cs then some ((), cs.drop text.length) else none

def word (text : String) : Scanner Unit :=
  literal text.toList

def takeWhile (p : Char → Bool) : Scanner (List Char) := fun cs =>
  some (cs.takeWhile p, cs.dropWhile p)

def exactly (n : Nat) (p : Char → Bool) : Scanner (List Char) := fun cs =>
  let run := (cs.take n).takeWhile p
  if run.length = n then some (run, cs.drop n) else none

/-! ## Combinations -/

def maybe (s : Scanner α) : Scanner (Option α) :=
  some <$> s <|> pure none

/-- As many values in a row as there are; each must take something. -/
def manyFrom (s : Scanner α) (cs : List Char) : List α × List Char :=
  match s cs with
  | none => ([], cs)
  | some (a, rest) =>
    if rest.length < cs.length then
      let (as, rest) := manyFrom s rest
      (a :: as, rest)
    else ([], cs)
termination_by cs.length

def many (s : Scanner α) : Scanner (List α) := fun cs =>
  some (manyFrom s cs)

def separated (separator : Scanner Unit) (s : Scanner α) : Scanner (List α) := do
  let first ← s
  let rest ← many (do separator; s)
  return first :: rest

def between (opening closing : Char) (s : Scanner α) : Scanner α := do
  discard (char opening)
  let a ← s
  discard (char closing)
  return a

def choose (alternatives : List (Scanner α)) : Scanner α :=
  alternatives.foldr (· <|> ·) failure

end Scanner

/-! ## Blanks, line ends and comments -/

open Scanner

def isBlank (c : Char) : Bool :=
  c == ' ' || c == '\t'

/-- Tabs, and all characters except the control characters of ASCII. -/
def isPrintable (c : Char) : Bool :=
  c == '\t' || (' ' ≤ c && c != '\x7f')

def blanks : Scanner Unit :=
  discard (takeWhile isBlank)

def newline : Scanner Unit :=
  discard (char '\n') <|> literal ['\r', '\n']

def comment : Scanner Unit := do
  discard (char '#')
  discard (takeWhile isPrintable)

def lineEnd : Scanner Unit := do
  blanks
  discard (maybe comment)
  newline <|> ended

def gap : Scanner Unit :=
  discard (many (discard (satisfying isBlank) <|> newline <|> comment))

end BuildGraph.Toml
