import ScopeLexer.Regex.Fault
import ScopeLexer.Regex.CharClass

/-!
# Escapes

What a backslash stands for, inside and outside of brackets: numbers, code points, control
characters and named classes.  Readers take the text still to read and return the rest with what
they read.
-/

namespace ScopeLexer.Regex

def digitValue? (base : Nat) (c : Char) : Option Nat :=
  let value :=
    if c.isDigit then c.toNat - '0'.toNat
    else if 'a' ≤ c && c ≤ 'f' then c.toNat - 'a'.toNat + 10
    else if 'A' ≤ c && c ≤ 'F' then c.toNat - 'A'.toNat + 10
    else 16
  if value < base then some value else none

def readDigits (base : Nat) : (limit : Nat) → (value count : Nat) → List Char →
    (Nat × Nat) × List Char
  | limit + 1, value, count, c :: rest =>
      match digitValue? base c with
      | some digit => readDigits base limit (value * base + digit) (count + 1) rest
      | none => ((value, count), c :: rest)
  | _, value, count, rest => ((value, count), rest)

def characterAt (code : Nat) : Except Fault Char :=
  if code.isValidChar then .ok (Char.ofNat code)
  else if code < 0xE000 then .error .codePoint
  else .error .codePointTooBig

def byteCount (first : Nat) : Nat :=
  if first < 0x80 then 1
  else if first < 0xC2 then 0
  else if first < 0xE0 then 2
  else if first < 0xF0 then 3
  else if first < 0xF5 then 4
  else 0

def readByte? : List Char → Option (Nat × List Char)
  | '\\' :: 'x' :: rest =>
      let read := readDigits 16 2 0 0 rest
      some (read.1.1, read.2)
  | '\\' :: rest =>
      let read := readDigits 8 3 0 0 rest
      if read.1.2 == 0 then none else some (read.1.1 % 256, read.2)
  | _ => none

def readTail : (missing : Nat) → (code : Nat) → List Char → Except Fault (Nat × List Char)
  | 0, code, rest => .ok (code, rest)
  | missing + 1, code, text =>
      match readByte? text with
      | some (byte, rest) =>
          if 0x80 ≤ byte && byte < 0xC0 then readTail missing (code * 64 + (byte - 0x80)) rest
          else .error .codePoint
      | none => .error .partialCharacter

/-- The character that begins with a byte given by number; its further bytes follow likewise. -/
def readBytes (first : Nat) (rest : List Char) : Except Fault (Char × List Char) :=
  match byteCount first with
  | 0 => .error .codePoint
  | 1 => .ok (Char.ofNat first, rest)
  | count + 1 => do
      let lead := if count == 1 then first - 0xC0 else if count == 2 then first - 0xE0
        else first - 0xF0
      let (code, rest) ← readTail count lead rest
      return (← characterAt code, rest)

def readBraced : (fuel : Nat) → (base : Nat) → List Char → Except Fault (List Char × List Char)
  | 0, _, _ => .error .codePoint
  | fuel + 1, base, text =>
      match readDigits base 8 0 0 text with
      | ((_, 0), _) => .error .codePoint
      | ((value, _ + 1), rest) =>
          match rest with
          | '}' :: rest => do return ([← characterAt value], rest)
          | ' ' :: rest =>
              match rest.dropWhile (· == ' ') with
              | '}' :: rest => do return ([← characterAt value], rest)
              | rest => do
                  let first ← characterAt value
                  let (others, rest) ← readBraced fuel base rest
                  return (first :: others, rest)
          | c :: _ =>
              if (digitValue? base c).isSome then .error .codePointTooLong else .error .codePoint
          | [] => .error .codePoint

/-- What follows `\x`: braced code points, a byte of up to two digits, or the letter itself when
a brace does not begin a number. -/
def readHex (text : List Char) : Except Fault (List Char × List Char) :=
  match text with
  | '{' :: rest =>
      match rest with
      | c :: _ =>
          if (digitValue? 16 c).isSome then readBraced (rest.length + 1) 16 rest
          else .ok (['x'], text)
      | [] => .ok (['x'], text)
  | [] => .ok (['x'], [])
  | _ => do
      let read := readDigits 16 2 0 0 text
      let (c, rest) ← readBytes read.1.1 read.2
      return ([c], rest)

def readOctalBraces (text : List Char) : Except Fault (List Char × List Char) :=
  match text with
  | '{' :: rest =>
      match rest with
      | c :: _ =>
          if (digitValue? 8 c).isSome then readBraced (rest.length + 1) 8 rest
          else .ok (['o'], text)
      | [] => .ok (['o'], text)
  | _ => .ok (['o'], text)

def readUnicode (text : List Char) : Except Fault (Char × List Char) :=
  match text with
  | [] => .ok ('u', [])
  | _ =>
      match readDigits 16 4 0 0 text with
      | ((value, 4), rest) => do return (← characterAt value, rest)
      | _ => .error .codePoint

/-- An octal number of at most `limit` digits, taken as a byte. -/
def readOctal (limit : Nat) (text : List Char) : Except Fault (Char × List Char) :=
  let read := readDigits 8 limit 0 0 text
  if read.1.1 > 255 then .error .numberTooBig else readBytes read.1.1 read.2

def controlLetter (c : Char) : Char :=
  match c with
  | 'n' => '\n'
  | 't' => '\t'
  | 'r' => '\r'
  | 'f' => '\x0c'
  | 'a' => '\x07'
  | 'b' => '\x08'
  | 'e' => '\x1b'
  | 'v' => '\x0b'
  | other => other

def readLetter : (fuel : Nat) → List Char → Except Fault (Nat × List Char)
  | 0, _ => .error .endAtEscape
  | _, [] => .error .endAtEscape
  | fuel + 1, 'M' :: rest =>
      match rest with
      | [] => .error .endAtMeta
      | '-' :: '\\' :: rest => do
          let (code, rest) ← readLetter fuel rest
          return (code % 128 + 128, rest)
      | '-' :: c :: rest => .ok (c.toNat % 128 + 128, rest)
      | ['-'] => .error .endAtMeta
      | _ => .error .metaForm
  | fuel + 1, 'C' :: rest =>
      match rest with
      | [] => .error .endAtControl
      | '-' :: rest => control fuel rest
      | _ => .error .controlForm
  | fuel + 1, 'c' :: rest => control fuel rest
  | _, c :: rest => .ok ((controlLetter c).toNat, rest)
where
  control : (fuel : Nat) → List Char → Except Fault (Nat × List Char)
    | _, [] => .error .endAtControl
    | _, '?' :: rest => .ok (0x7F, rest)
    | fuel, '\\' :: rest => do
        match fuel with
        | 0 => .error .endAtControl
        | fuel + 1 =>
            let (code, rest) ← readLetter fuel rest
            return (Nat.land code 0x9F, rest)
    | _, c :: rest => .ok (Nat.land c.toNat 0x9F, rest)

def classLetter? : Char → Option CharClass
  | 'w' => some (.property .word)
  | 'W' => some (.complement (.property .word))
  | 'd' => some (.property .digit)
  | 'D' => some (.complement (.property .digit))
  | 's' => some (.property .whiteSpace)
  | 'S' => some (.complement (.property .whiteSpace))
  | 'h' => some (.property .hexDigit)
  | 'H' => some (.complement (.property .hexDigit))
  | _ => none

def readPropertyName (soFar : List Char) :
    List Char → Except Fault (String × List Char)
  | [] => .error (.propertyName (String.ofList soFar.dropLast))
  | '}' :: rest => .ok (String.ofList soFar, rest)
  | c :: rest =>
      if c == '(' || c == ')' || c == '{' || c == '|' then
        .error (.propertyName (String.ofList soFar))
      else
        readPropertyName (soFar ++ [c]) rest

def readProperty (negated : Bool) (text : List Char) : Except Fault (CharClass × List Char) := do
  let (negated, text) := match text with
    | '^' :: rest => (!negated, rest)
    | _ => (negated, text)
  let (name, rest) ← readPropertyName [] text
  match CharProperty.named? name with
  | some property => return (.negateIf negated (.property property), rest)
  | none => .error (.propertyName name)

end ScopeLexer.Regex
