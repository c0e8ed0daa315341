/-!
# Shortest decimals

The fewest decimal digits that still name one binary floating point number, and how such a number
is written.
-/

namespace ScopeLexer.Decimal

structure Binary where
  mantissa : Nat
  exponent : Int
  /-- Whether the number below is only half as far away as the one above. -/
  narrowBelow : Bool
  deriving Repr, DecidableEq, Inhabited

structure Scientific where
  digits : Nat
  exponent : Int
  deriving Repr, DecidableEq, Inhabited

/-- A power of two; an exponent below zero counts as zero. -/
def twoTo (exponent : Int) : Nat := Nat.pow 2 exponent.toNat

def tenTo (exponent : Int) : Nat := Nat.pow 10 exponent.toNat

def Binary.ofBits (bits : UInt64) : Binary :=
  let n := bits.toNat
  let fraction : Nat := n % twoTo 52
  let scale : Nat := n / twoTo 52 % twoTo 11
  if scale == 0 then ⟨fraction, -1074, false⟩
  else ⟨fraction + twoTo 52, (scale : Int) - 1075, fraction == 0 && scale != 1⟩

def compareScaled (a : Nat) (p : Int) (b : Nat) (q : Int) : Ordering :=
  compare (a * tenTo p * twoTo (-q)) (b * twoTo q * tenTo (-p))

/-- Whether a decimal rounds to a binary number.  The ends of the interval belong to it when the
mantissa is even. -/
def namesBinary (value : Binary) (digits : Nat) (p : Int) : Bool :=
  let q := value.exponent - 2
  let low := 4 * value.mantissa - (if value.narrowBelow then 1 else 2)
  let high := 4 * value.mantissa + 2
  let even := value.mantissa % 2 == 0
  let above := compareScaled digits p low q
  let below := compareScaled digits p high q
  (above == .gt || (even && above == .eq)) && (below == .lt || (even && below == .eq))

def floorAt (value : Binary) (p : Int) : Nat :=
  (value.mantissa * twoTo value.exponent * tenTo (-p)) / (twoTo (-value.exponent) * tenTo p)

/-- The exponent of the first digit, from an estimate that is too high. -/
def leadingExponent (value : Binary) : (fuel : Nat) → Int → Int
  | 0, p => p
  | fuel + 1, p => if floorAt value p == 0 then leadingExponent value fuel (p - 1) else p

def atPlace? (value : Binary) (p : Int) : Option Scientific :=
  let digits := floorAt value p
  let lower := namesBinary value digits p
  let upper := namesBinary value (digits + 1) p
  let nearerUpper :=
    compareScaled (2 * digits + 1) p (2 * value.mantissa) value.exponent == .lt
  if lower && upper then some ⟨if nearerUpper then digits + 1 else digits, p⟩
  else if lower then some ⟨digits, p⟩
  else if upper then some ⟨digits + 1, p⟩
  else none

def fromPlace (value : Binary) : (fuel : Nat) → Int → Scientific
  | 0, p => ⟨floorAt value p, p⟩
  | fuel + 1, p => (atPlace? value p).getD (fromPlace value fuel (p - 1))

def shortest (value : Binary) : Scientific :=
  let first := leadingExponent value 700 310
  fromPlace value 17 first

def trim : (fuel : Nat) → Scientific → Scientific
  | 0, value => value
  | fuel + 1, value =>
      if value.digits != 0 && value.digits % 10 == 0 then
        trim fuel ⟨value.digits / 10, value.exponent + 1⟩
      else value

def placePoint (digits : List Char) (point : Int) : String :=
  let zeros (n : Int) := List.replicate n.toNat '0'
  if digits.length ≤ point then
    String.ofList (digits ++ zeros (point - digits.length)) ++ ".0"
  else if 0 < point then
    String.ofList (digits.take point.toNat ++ '.' :: digits.drop point.toNat)
  else
    String.ofList ('0' :: '.' :: zeros (-point) ++ digits)

def withExponent (digits : List Char) (exponent : Int) : String :=
  let fraction := digits.drop 1
  String.ofList (digits.take 1 ++ (if fraction.isEmpty then [] else '.' :: fraction))
    ++ "e" ++ toString exponent

inductive Layout where
  | positional
  | exponential
  deriving Repr, DecidableEq, Inhabited

/-- A decimal between 10^-5 and 10^16 in positional notation, and any other one as asked for. -/
def write (value : Scientific) (outside : Layout) : String :=
  let digits := (toString value.digits).toList
  let point : Int := digits.length + value.exponent
  if outside == .positional || (-5 < point && point ≤ 16) then placePoint digits point
  else withExponent digits (point - 1)

def ofFloat (x : Float) (outside : Layout := .exponential) : String :=
  let bits := x.toBits
  let sign := if bits.toNat / twoTo 63 == 1 then "-" else ""
  let value := Binary.ofBits bits
  if x.isNaN then "NaN"
  else if x.isInf then sign ++ "inf"
  else if value.mantissa == 0 then sign ++ "0.0"
  else sign ++ write (trim 20 (shortest value)) outside

end ScopeLexer.Decimal
