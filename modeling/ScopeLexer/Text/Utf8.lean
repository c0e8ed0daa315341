/-!
# Bytes of text

`encode` writes characters as UTF-8, `decode` reads them back and says where bytes stop being text.
-/

namespace ScopeLexer.Utf8

/-- What begins a sequence of bytes: a character with the bytes that follow it, `length` bytes that
begin no character, or the beginning of a character that is cut short. -/
inductive Lead where
  | character (c : Char) (rest : List UInt8)
  | invalid (length : Nat)
  | incomplete
  deriving Repr, DecidableEq, Inhabited

def isContinuation (byte : UInt8) : Bool := 0x80 ≤ byte && byte < 0xC0

def bits (byte : UInt8) : Nat := byte.toNat - 0x80

def allowsSecondOfThree (first second : UInt8) : Bool :=
  if first == 0xE0 then 0xA0 ≤ second && second < 0xC0
  else if first == 0xED then 0x80 ≤ second && second < 0xA0
  else isContinuation second

def allowsSecondOfFour (first second : UInt8) : Bool :=
  if first == 0xF0 then 0x90 ≤ second && second < 0xC0
  else if first == 0xF4 then 0x80 ≤ second && second < 0x90
  else isContinuation second

def lead (first : UInt8) (rest : List UInt8) : Lead :=
  let n := first.toNat
  if n < 0x80 then .character (Char.ofNat n) rest
  else if n < 0xC2 then .invalid 1
  else if n < 0xE0 then
    match rest with
    | [] => .incomplete
    | b :: rest =>
        if isContinuation b then .character (Char.ofNat ((n - 0xC0) * 64 + bits b)) rest
        else .invalid 1
  else if n < 0xF0 then
    match rest with
    | [] => .incomplete
    | b :: rest =>
        if !allowsSecondOfThree first b then .invalid 1
        else
          match rest with
          | [] => .incomplete
          | c :: rest =>
              if isContinuation c then
                .character (Char.ofNat (((n - 0xE0) * 64 + bits b) * 64 + bits c)) rest
              else .invalid 2
  else if n < 0xF5 then
    match rest with
    | [] => .incomplete
    | b :: rest =>
        if !allowsSecondOfFour first b then .invalid 1
        else
          match rest with
          | [] => .incomplete
          | c :: rest =>
              if !isContinuation c then .invalid 2
              else
                match rest with
                | [] => .incomplete
                | d :: rest =>
                    if isContinuation d then
                      .character
                        (Char.ofNat ((((n - 0xF0) * 64 + bits b) * 64 + bits c) * 64 + bits d))
                        rest
                    else .invalid 3
  else .invalid 1

inductive Fault where
  | invalid (offset length : Nat)
  | incomplete (offset : Nat)
  deriving Repr, DecidableEq, Inhabited

def Fault.message : Fault → String
  | .invalid offset length =>
      "invalid utf-8 sequence of " ++ toString length ++ " bytes from index " ++ toString offset
  | .incomplete offset => "incomplete utf-8 byte sequence from index " ++ toString offset

/-- Read bytes from an offset on; `fuel` is at least their number. -/
def decodeFrom : (fuel : Nat) → (offset : Nat) → List UInt8 → Except Fault (List Char)
  | _, _, [] => .ok []
  | 0, offset, _ :: _ => .error (.incomplete offset)
  | fuel + 1, offset, first :: rest =>
      match lead first rest with
      | .character c rest => (decodeFrom fuel (offset + c.utf8Size) rest).map (c :: ·)
      | .invalid length => .error (.invalid offset length)
      | .incomplete => .error (.incomplete offset)

def decode (bytes : List UInt8) : Except Fault (List Char) :=
  decodeFrom bytes.length 0 bytes

def encode (chars : List Char) : List UInt8 :=
  chars.flatMap String.utf8EncodeChar

end ScopeLexer.Utf8
