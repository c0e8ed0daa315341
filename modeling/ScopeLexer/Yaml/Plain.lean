import ScopeLexer.Yaml.Scalar

/-!
# Values of plain scalars

Without quotes a scalar may be null, a truth value or a number.
-/

namespace ScopeLexer.Yaml

inductive PlainValue where
  | null
  | boolean (value : Bool)
  | integer (value : Int)
  | float (value : Float)
  | text
  deriving Repr, Inhabited

def isNull (text : List Char) : Bool :=
  ["null", "Null", "NULL", "~"].contains (String.ofList text)

def boolean? (text : List Char) : Option Bool :=
  if ["true", "True", "TRUE"].contains (String.ofList text) then some true
  else if ["false", "False", "FALSE"].contains (String.ofList text) then some false
  else none

def natural? (base : Nat) (digits : List Char) : Option Nat :=
  if digits.isEmpty then none
  else
    digits.foldlM (fun value c => do
      let digit ← hexValue? [c]
      if digit < base then some (value * base + digit) else none) 0

def markedNatural? : List Char → Option Nat
  | '0' :: 'x' :: digits => natural? 16 digits
  | '0' :: 'o' :: digits => natural? 8 digits
  | '0' :: 'b' :: digits => natural? 2 digits
  | _ => none

def unsigned (sign : Char) : List Char → List Char
  | c :: rest => if c == sign then rest else c :: rest
  | [] => []

/-- Whether a text has digits only, but zeros in front: then it is no number. -/
def hasLeadingZero (text : List Char) : Bool :=
  let digits := if text.head? == some '-' then unsigned '-' text else unsigned '+' text
  1 < digits.length && digits.head? == some '0' && digits.all Char.isDigit

/-- Whether an integer is small enough to be read as one: with its sign it fits 128 bits. -/
def isReadable (value : Int) : Bool :=
  -0x80000000000000000000000000000000 ≤ value && value < 0x100000000000000000000000000000000

def anyInteger? (text : List Char) : Option Int :=
  let positive := unsigned '+' text
  match markedNatural? positive with
  | some n => some n
  | none =>
      if hasLeadingZero text then none
      else
        match natural? 10 positive with
        | some n => some n
        | none =>
            match text with
            | '-' :: digits => ((markedNatural? digits).or (natural? 10 digits)).map fun n => -(n : Int)
            | _ => none

def integer? (text : List Char) : Option Int := (anyInteger? text).filter isReadable

def exponent? : List Char → Option Int
  | [] => some 0
  | letter :: rest =>
      if letter == 'e' || letter == 'E' then
        match rest with
        | '-' :: digits => (natural? 10 digits).map fun n => -(n : Int)
        | digits => (natural? 10 (unsigned '+' digits)).map Int.ofNat
      else
        none

def decimal? (text : List Char) : Option Float := do
  let whole := text.takeWhile Char.isDigit
  let rest := text.drop whole.length
  let fraction := match rest with
    | '.' :: rest => rest.takeWhile Char.isDigit
    | _ => []
  let rest := match rest with
    | '.' :: rest => rest.drop fraction.length
    | rest => rest
  let exponent ← exponent? rest
  let digits ← natural? 10 (whole ++ fraction)
  let scale := exponent - fraction.length
  let value := Float.ofScientific digits (scale < 0) (min scale.natAbs 100000)
  if value.isInf then none else some value

def float? (text : List Char) : Option Float :=
  if [".inf", ".Inf", ".INF"].contains (String.ofList (unsigned '+' text)) then some (1.0 / 0.0)
  else if ["-.inf", "-.Inf", "-.INF"].contains (String.ofList text) then some (-1.0 / 0.0)
  else if [".nan", ".NaN", ".NAN"].contains (String.ofList text) then some (0.0 / 0.0)
  else
    match text with
    | '-' :: rest => (decimal? rest).map fun value => -value
    | '+' :: rest => decimal? rest
    | _ => decimal? text

def PlainValue.ofText (text : List Char) : PlainValue :=
  if text.isEmpty || isNull text then .null
  else
    match boolean? text with
    | some value => .boolean value
    | none =>
        match integer? text with
        | some value => .integer value
        | none =>
            if hasLeadingZero text then .text
            else
              match float? text with
              | some value => .float value
              | none => .text

end ScopeLexer.Yaml
