import BuildGraph.Toml.Scanner

/-!
# Quoted texts and keys

Between double quotes a backslash starts an escape; between single quotes every
character stands for itself. A text between triple quotes may span lines, and
one or two quotes may stand in it, also at its end.
-/

namespace BuildGraph.Toml

open Scanner

/-! ## Escapes -/

def isHexDigit (c : Char) : Bool :=
  c.isDigit || ('a' ≤ c && c ≤ 'f') || ('A' ≤ c && c ≤ 'F')

def hexValue (c : Char) : Nat :=
  if c.isDigit then c.toNat - '0'.toNat else c.toLower.toNat - 'a'.toNat + 10

def natOfDigits (base : Nat) (digits : List Char) : Nat :=
  digits.foldl (fun n c => n * base + hexValue c) 0

def numberedChar (n : Nat) : Scanner Char := do
  let number := natOfDigits 16 (← exactly n isHexDigit)
  if number.isValidChar then return Char.ofNat number else failure

def escapedChar : Scanner Char := do
  discard (char '\\')
  match ← satisfying fun _ => true with
  | 'b' => return '\x08'
  | 't' => return '\t'
  | 'n' => return '\n'
  | 'f' => return '\x0c'
  | 'r' => return '\r'
  | '"' => return '"'
  | '\\' => return '\\'
  | 'u' => numberedChar 4
  | 'U' => numberedChar 8
  | _ => failure

/-- A backslash at the end of a line takes all blanks and line ends that follow. -/
def continuedLine : Scanner Unit := do
  discard (char '\\')
  blanks
  newline
  discard (many (discard (satisfying isBlank) <|> newline))

/-! ## Texts on one line -/

def plainChar (quote : Char) : Scanner Char :=
  satisfying fun c => isPrintable c && c != quote

def literalChar : Scanner Char :=
  plainChar '\''

def basicChar : Scanner Char :=
  satisfying (fun c => isPrintable c && c != '"' && c != '\\') <|> escapedChar

def quotedOnLine : Scanner String :=
  String.ofList <$>
    (between '"' '"' (many basicChar) <|> between '\'' '\'' (many literalChar))

/-! ## Texts on several lines -/

def fewQuotes (quote : Char) : Scanner (List Char) := do
  let run ← takeWhile (· == quote)
  if run.length ≤ 2 then return run else failure

/-- A line end at the very start does not count. -/
def tripleQuoted (quote : Char) (item : Scanner (List Char)) : Scanner String := do
  literal [quote, quote, quote]
  discard (maybe newline)
  let parts ← many (item <|> fewQuotes quote)
  let run ← takeWhile (· == quote)
  if 3 ≤ run.length ∧ run.length ≤ 5 then return String.ofList (parts.flatten ++ run.drop 3)
  else failure

def lineBreak : Scanner (List Char) :=
  (fun _ => ['\n']) <$> newline

def basicItem : Scanner (List Char) :=
  (fun _ => []) <$> continuedLine <|> (fun c => [c]) <$> basicChar <|> lineBreak

def literalItem : Scanner (List Char) :=
  (fun c => [c]) <$> literalChar <|> lineBreak

def quoted : Scanner String :=
  tripleQuoted '"' basicItem <|> tripleQuoted '\'' literalItem <|> quotedOnLine

/-! ## Keys -/

def isBareKeyChar (c : Char) : Bool :=
  c.isAlphanum || c == '-' || c == '_'

def bareKey : Scanner String := do
  let cs ← takeWhile isBareKeyChar
  if cs.isEmpty then failure else return String.ofList cs

def simpleKey : Scanner String := do
  blanks
  let name ← quotedOnLine <|> bareKey
  blanks
  return name

/-- The most brackets in each other, and a key has no more parts. -/
def maxNesting : Nat := 79

def key : Scanner (List String) := do
  let parts ← separated (discard (char '.')) simpleKey
  if parts.length ≤ maxNesting then return parts else failure

end BuildGraph.Toml
