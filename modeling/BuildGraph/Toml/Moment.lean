import BuildGraph.Toml.Quoted

/-!
# Dates and times

A date, a time of day, or both, with or without an offset. Only their form and
the ranges of their parts matter.
-/

namespace BuildGraph.Toml

open Scanner

def boundedNumber (n low high : Nat) : Scanner Nat := do
  let number := natOfDigits 10 (← exactly n Char.isDigit)
  if low ≤ number ∧ number ≤ high then return number else failure

def isLeapYear (year : Nat) : Bool :=
  year % 4 == 0 && (year % 100 != 0 || year % 400 == 0)

def daysInMonth (year : Nat) : Nat → Nat
  | 2 => if isLeapYear year then 29 else 28
  | 4 | 6 | 9 | 11 => 30
  | _ => 31

def date : Scanner Unit := do
  let year ← boundedNumber 4 0 9999
  discard (char '-')
  let month ← boundedNumber 2 1 12
  discard (char '-')
  discard (boundedNumber 2 1 (daysInMonth year month))

/-- The second 60 is a leap second. -/
def timeOfDay : Scanner Unit := do
  discard (boundedNumber 2 0 23)
  discard (char ':')
  discard (boundedNumber 2 0 59)
  discard (char ':')
  discard (boundedNumber 2 0 60)
  discard (maybe do
    discard (char '.')
    discard (satisfying Char.isDigit)
    takeWhile Char.isDigit)

def offset : Scanner Unit :=
  discard (char 'Z' <|> char 'z') <|> do
    discard (char '+' <|> char '-')
    discard (boundedNumber 2 0 23)
    discard (char ':')
    discard (boundedNumber 2 0 59)

def moment : Scanner Unit :=
  (do
    date
    discard (maybe do
      discard (char 'T' <|> char 't' <|> char ' ')
      timeOfDay
      maybe offset)) <|> timeOfDay

end BuildGraph.Toml
