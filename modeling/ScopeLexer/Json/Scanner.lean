import ScopeLexer.Json.Fault
import ScopeLexer.Text.Utf8

/-!
# Scanning JSON text

Blanks, words, numbers and strings of JSON, and skipping over values that nobody asked for.  Text
is a list of bytes; a scanner returns what it read and the bytes that follow.
-/

namespace ScopeLexer.Json

def ascii (word : String) : List UInt8 := word.toList.map fun c => c.toNat.toUInt8

def byteOf (c : Char) : UInt8 := c.toNat.toUInt8

def skipBlanks (bytes : List UInt8) : List UInt8 :=
  bytes.dropWhile fun b => b == 0x20 || b == 0x0A || b == 0x09 || b == 0x0D

def scanWord : (word : List UInt8) → List UInt8 → Except Fault (List UInt8)
  | [], bytes => .ok bytes
  | _ :: _, [] => .error .endInValue
  | expected :: word, b :: bytes =>
      if b == expected then scanWord word bytes else .error .expectedWord

/-! ## Numbers -/

def isDigit (b : UInt8) : Bool := 0x30 ≤ b && b ≤ 0x39

def isExponent (b : UInt8) : Bool := b == byteOf 'e' || b == byteOf 'E'

def maxExact : Nat := 0xFFFFFFFFFFFFFFFF

/-- Digits gathered into a number as long as it stays exact: the number, how many digits went into
it, and what follows. -/
def scanDigits : (value count : Nat) → List UInt8 → (Nat × Nat) × List UInt8
  | value, count, [] => ((value, count), [])
  | value, count, b :: bytes =>
      if isDigit b && value * 10 + (b.toNat - 0x30) ≤ maxExact then
        scanDigits (value * 10 + (b.toNat - 0x30)) (count + 1) bytes
      else
        ((value, count), b :: bytes)

/-- The number `significand · 10 ^ exponent`, rounded as it is scaled. -/
def scale : (fuel : Nat) → Float → Int → Except Fault Float
  | 0, x, _ => .ok x
  | fuel + 1, x, exponent =>
      if exponent.natAbs ≤ 308 then
        let power := Float.ofScientific 1 false exponent.natAbs
        if 0 ≤ exponent then
          if (x * power).isInf then .error .numberOutOfRange else .ok (x * power)
        else
          .ok (x / power)
      else if x == 0.0 then .ok x
      else if 0 ≤ exponent then .error .numberOutOfRange
      else scale fuel (x / Float.ofScientific 1 false 308) (exponent + 308)

def floatOf (positive : Bool) (significand : Nat) (exponent : Int) (rest : List UInt8) :
    Except Fault (Number × List UInt8) := do
  let x ← scale 100 (Float.ofNat significand) exponent
  return (.float (if positive then x else -x), rest)

def maxExponent : Nat := 0x7FFFFFFF

def scanExponentDigits : (value : Nat) → List UInt8 → Option Nat × List UInt8
  | value, [] => (some value, [])
  | value, b :: bytes =>
      if isDigit b then
        if value * 10 + (b.toNat - 0x30) ≤ maxExponent then
          scanExponentDigits (value * 10 + (b.toNat - 0x30)) bytes
        else
          (none, bytes.dropWhile isDigit)
      else
        (some value, b :: bytes)

def scanExponent (positive : Bool) (significand : Nat) (starting : Int) (bytes : List UInt8) :
    Except Fault (Number × List UInt8) :=
  let (upwards, bytes) := match bytes with
    | b :: rest =>
        if b == byteOf '+' then (true, rest)
        else if b == byteOf '-' then (false, rest)
        else (true, bytes)
    | [] => (true, [])
  match bytes with
  | [] => .error .endInValue
  | b :: rest =>
      if !isDigit b then .error .invalidNumber
      else
        match scanExponentDigits (b.toNat - 0x30) rest with
        | (some value, rest) =>
            floatOf positive significand
              (if upwards then starting + value else starting - value) rest
        | (none, rest) =>
            if significand != 0 && upwards then .error .numberOutOfRange
            else .ok (.float (if positive then 0.0 else -0.0), rest)

def scanFraction (positive : Bool) (significand : Nat) (before : Int) (bytes : List UInt8) :
    Except Fault (Number × List UInt8) :=
  let ((value, count), rest) := scanDigits significand 0 bytes
  let overflows := rest.head?.any isDigit
  if count == 0 && !overflows then
    if rest.isEmpty then .error .endInValue else .error .invalidNumber
  else
    let rest := rest.dropWhile isDigit
    let exponent := before - count
    match rest with
    | b :: rest' =>
        if isExponent b then scanExponent positive value exponent rest'
        else floatOf positive value exponent rest
    | [] => floatOf positive value exponent []

def scanNumber (positive : Bool) (bytes : List UInt8) : Except Fault (Number × List UInt8) :=
  match bytes with
  | [] => .error .endInValue
  | b :: rest =>
      if !isDigit b then .error .invalidNumber
      else if b == 0x30 && rest.head?.any isDigit then .error .invalidNumber
      else
        let ((value, _), rest) := scanDigits 0 0 bytes
        let skipped := (rest.takeWhile isDigit).length
        let rest := rest.dropWhile isDigit
        let whole : Except Fault (Number × List UInt8) :=
          if skipped != 0 then floatOf positive value skipped rest
          else if positive then .ok (.unsigned value, rest)
          else if value == 0 || 0x8000000000000000 < value then
            .ok (.float (-(Float.ofNat value)), rest)
          else .ok (.negative value, rest)
        match rest with
        | b :: rest' =>
            if b == byteOf '.' then scanFraction positive value skipped rest'
            else if isExponent b then scanExponent positive value skipped rest'
            else whole
        | [] => whole

/-! ## Strings -/

def scanHex (bytes : List UInt8) : Except Fault (Nat × List UInt8) :=
  let value? (b : UInt8) : Option Nat :=
    if isDigit b then some (b.toNat - 0x30)
    else if byteOf 'a' ≤ b && b ≤ byteOf 'f' then some (b.toNat - 0x61 + 10)
    else if byteOf 'A' ≤ b && b ≤ byteOf 'F' then some (b.toNat - 0x41 + 10)
    else none
  match bytes with
  | a :: b :: c :: d :: rest =>
      match value? a, value? b, value? c, value? d with
      | some a, some b, some c, some d => .ok (((a * 16 + b) * 16 + c) * 16 + d, rest)
      | _, _, _, _ => .error .invalidEscape
  | _ => .error .endInString

def isHighSurrogate (code : Nat) : Bool := 0xD800 ≤ code && code ≤ 0xDBFF

def isLowSurrogate (code : Nat) : Bool := 0xDC00 ≤ code && code ≤ 0xDFFF

def scanCodePoint (bytes : List UInt8) : Except Fault (Char × List UInt8) := do
  let (high, rest) ← scanHex bytes
  if isLowSurrogate high then throw .loneSurrogate
  if !isHighSurrogate high then return (Char.ofNat high, rest)
  match rest with
  | [] => throw .endInString
  | b :: rest =>
      if b != byteOf '\\' then throw .endInEscape
      match rest with
      | [] => throw .endInString
      | b :: rest =>
          if b != byteOf 'u' then throw .endInEscape
          let (low, rest) ← scanHex rest
          if !isLowSurrogate low then throw .loneSurrogate
          return (Char.ofNat ((high - 0xD800) * 1024 + (low - 0xDC00) + 0x10000), rest)

def letterEscape? (b : UInt8) : Option Char :=
  match Char.ofNat b.toNat with
  | '"' => some '"'
  | '\\' => some '\\'
  | '/' => some '/'
  | 'b' => some '\x08'
  | 'f' => some '\x0c'
  | 'n' => some '\n'
  | 'r' => some '\r'
  | 't' => some '\t'
  | _ => none

def scanString : (fuel : Nat) → (soFar : List UInt8) → List UInt8 →
    Except Fault (List UInt8 × List UInt8)
  | _, _, [] => .error .endInString
  | 0, _, _ => .error .endInString
  | fuel + 1, soFar, b :: rest =>
      if b == byteOf '"' then .ok (soFar.reverse, rest)
      else if b == byteOf '\\' then
        match rest with
        | [] => .error .endInString
        | letter :: rest =>
            if letter == byteOf 'u' then do
              let (c, rest) ← scanCodePoint rest
              scanString fuel ((Utf8.encode [c]).reverse ++ soFar) rest
            else
              match letterEscape? letter with
              | some c => scanString fuel (byteOf c :: soFar) rest
              | none => .error .invalidEscape
      else if b < 0x20 then .error .controlCharacter
      else scanString fuel (b :: soFar) rest

def scanText (bytes : List UInt8) : Except Fault (String × List UInt8) := do
  let (content, rest) ← scanString (bytes.length + 1) [] bytes
  match Utf8.decode content with
  | .ok chars => return (String.ofList chars, rest)
  | .error _ => throw .invalidCodePoint

/-! ## Skipping -/

def skipString : (fuel : Nat) → List UInt8 → Except Fault (List UInt8)
  | _, [] => .error .endInString
  | 0, _ => .error .endInString
  | fuel + 1, b :: rest =>
      if b == byteOf '"' then .ok rest
      else if b == byteOf '\\' then
        match rest with
        | [] => .error .endInString
        | letter :: rest =>
            if letter == byteOf 'u' then do
              let (_, rest) ← scanHex rest
              skipString fuel rest
            else
              match letterEscape? letter with
              | some _ => skipString fuel rest
              | none => .error .invalidEscape
      else if b < 0x20 then .error .controlCharacter
      else skipString fuel rest

def skipExponent (bytes : List UInt8) : Except Fault (List UInt8) :=
  let bytes := match bytes with
    | b :: rest => if b == byteOf '+' || b == byteOf '-' then rest else bytes
    | [] => []
  match bytes with
  | b :: rest => if isDigit b then .ok (rest.dropWhile isDigit) else .error .invalidNumber
  | [] => .error .invalidNumber

def skipNumber (bytes : List UInt8) : Except Fault (List UInt8) := do
  let rest ← match bytes with
    | [] => throw .invalidNumber
    | b :: rest =>
        if b == 0x30 then
          if rest.head?.any isDigit then throw .invalidNumber else pure rest
        else if isDigit b then pure (rest.dropWhile isDigit)
        else throw .invalidNumber
  match rest with
  | b :: rest' =>
      if b == byteOf '.' then
        let fraction := rest'.takeWhile isDigit
        if fraction.isEmpty then throw .invalidNumber
        let rest := rest'.dropWhile isDigit
        match rest with
        | b :: rest' => if isExponent b then skipExponent rest' else return rest
        | [] => return []
      else if isExponent b then skipExponent rest'
      else return rest
  | [] => return []

inductive Skipping where
  | value
  | after (acceptComma : Bool)
  deriving Repr, DecidableEq, Inhabited

def skipKey (inList : Bool) (bytes : List UInt8) : Except Fault (List UInt8) :=
  if inList then .ok bytes
  else
    match skipBlanks bytes with
    | [] => .error .endInObject
    | b :: rest =>
        if b != byteOf '"' then .error .keyNotString
        else do
          let rest ← skipString (rest.length + 1) rest
          match skipBlanks rest with
          | [] => throw .endInObject
          | b :: rest => if b == byteOf ':' then return rest else throw .expectedColon

/-- Skip a value.  `around` tells for each value around it, innermost first, whether it is a
list. -/
def skipFrom : (fuel : Nat) → Skipping → (around : List Bool) → List UInt8 →
    Except Fault (List UInt8)
  | 0, _, _, _ => .error .endInValue
  | fuel + 1, .value, around, bytes => do
      match skipBlanks bytes with
      | [] => throw .endInValue
      | b :: rest =>
          if b == byteOf '[' then skipFrom fuel (.after false) (true :: around) rest
          else if b == byteOf '{' then skipFrom fuel (.after false) (false :: around) rest
          else
            let rest ←
              if b == byteOf 'n' then scanWord (ascii "ull") rest
              else if b == byteOf 't' then scanWord (ascii "rue") rest
              else if b == byteOf 'f' then scanWord (ascii "alse") rest
              else if b == byteOf '-' then skipNumber rest
              else if isDigit b then skipNumber (b :: rest)
              else if b == byteOf '"' then skipString (rest.length + 1) rest
              else throw .expectedValue
            if around.isEmpty then return rest
            skipFrom fuel (.after true) around rest
  | _ + 1, .after _, [], bytes => .ok bytes
  | fuel + 1, .after acceptComma, inList :: around, bytes => do
      match skipBlanks bytes with
      | [] => throw (if inList then .endInList else .endInObject)
      | b :: rest =>
          if acceptComma && b == byteOf ',' then
            skipFrom fuel .value (inList :: around) (← skipKey inList rest)
          else if b == byteOf (if inList then ']' else '}') then
            if around.isEmpty then return rest
            skipFrom fuel (.after true) around rest
          else if acceptComma then
            throw (if inList then .expectedListEnd else .expectedObjectEnd)
          else
            skipFrom fuel .value (inList :: around) (← skipKey inList (b :: rest))

def skipValue (bytes : List UInt8) : Except Fault (List UInt8) :=
  skipFrom (2 * bytes.length + 2) .value [] bytes

end ScopeLexer.Json
