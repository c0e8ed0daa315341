/-!
# Indexes in decimal

An index is written in decimal digits, with zeros in front if one likes, and fits 64 bits.
-/

namespace ScopeLexer.Decimal

def value (digits : List Char) : Nat :=
  digits.foldl (fun value c => value * 10 + (c.toNat - '0'.toNat)) 0

def maxIndex : Nat := 0xFFFFFFFFFFFFFFFF

def indexOfDigits? (digits : List Char) : Option Nat :=
  if digits.isEmpty || maxIndex < value digits then none else some (value digits)

/-- The index that a text stands for: digits, maybe behind a plus sign. -/
def indexOfText? (text : List Char) : Option Nat :=
  let digits := match text with
    | '+' :: digits => digits
    | digits => digits
  if digits.all Char.isDigit then indexOfDigits? digits else none

end ScopeLexer.Decimal
