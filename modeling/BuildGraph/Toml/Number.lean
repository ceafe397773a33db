import BuildGraph.Toml.Quoted

/-!
# Numbers

Integers have 64 bits. The value of a floating-point number is not kept, but a
number that rounds to positive infinity is refused.
-/

namespace BuildGraph.Toml

open Scanner

/-! ## Digits -/

/-- Digits after the first one, with single underscores between them. -/
def moreDigits (p : Char → Bool) : Scanner (List Char) :=
  many (do discard (maybe (char '_')); satisfying p)

def digits (p : Char → Bool) : Scanner (List Char) := do
  let first ← satisfying p
  return first :: (← moreDigits p)

def sign : Scanner Bool := do
  return (← maybe (char '+' <|> char '-')) == some '-'

/-- Decimal digits that start with a zero only if it stands alone. -/
def wholeDigits : Scanner (List Char) := do
  let first ← satisfying Char.isDigit
  if first == '0' then return [first] else return first :: (← moreDigits Char.isDigit)

/-! ## Integers -/

def inRange (i : Int) : Scanner Int :=
  if Int64.minValue.toInt ≤ i ∧ i ≤ Int64.maxValue.toInt then return i else failure

def decimalInteger : Scanner Int := do
  let negative ← sign
  let n := natOfDigits 10 (← wholeDigits)
  inRange (if negative then -n else n)

def basedInteger (mark : String) (base : Nat) (p : Char → Bool) : Scanner Int := do
  word mark
  inRange (natOfDigits base (← digits p))

def integer : Scanner Int :=
  basedInteger "0x" 16 isHexDigit <|>
    basedInteger "0o" 8 (fun c => '0' ≤ c && c ≤ '7') <|>
    basedInteger "0b" 2 (fun c => c == '0' || c == '1') <|> decimalInteger

/-! ## Floating-point numbers -/

/-- The least number that rounds to infinity: half a step above the largest finite one. -/
def infinityThreshold : Nat := Nat.pow 2 1024 - Nat.pow 2 970

/-- Whether the number with these digits, times `10 ^ exponent`, rounds to infinity.
A number that is below `10 ^ 308`, or not below `10 ^ 309`, is told by its length. -/
def overflows (digits : List Char) (exponent : Int) : Bool :=
  let n := natOfDigits 10 digits
  if n == 0 || exponent + digits.length ≤ 308 then false
  else if exponent ≥ 309 then true
  else if exponent ≥ 0 then n * Nat.pow 10 exponent.toNat ≥ infinityThreshold
  else n ≥ infinityThreshold * Nat.pow 10 (-exponent).toNat

def exponentPart : Scanner Int := do
  discard (char 'e' <|> char 'E')
  let negative ← sign
  let n := natOfDigits 10 (← digits Char.isDigit)
  return if negative then -n else n

def fractionPart : Scanner (List Char) := do
  discard (char '.')
  digits Char.isDigit

def finiteFloat : Scanner Unit := do
  let negative ← sign
  let whole ← wholeDigits
  let fraction? ← maybe fractionPart
  let exponent? ← maybe exponentPart
  let fraction := fraction?.getD []
  if fraction?.isNone && exponent?.isNone then failure
  if !negative && overflows (whole ++ fraction) (exponent?.getD 0 - fraction.length) then failure

def specialFloat : Scanner Unit := do
  discard sign
  word "inf" <|> word "nan"

def float : Scanner Unit :=
  finiteFloat <|> specialFloat

end BuildGraph.Toml
