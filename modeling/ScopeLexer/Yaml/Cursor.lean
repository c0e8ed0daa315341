import ScopeLexer.Text.Utf8
import ScopeLexer.Yaml.Fault

/-!
# Reading YAML text

`decodeText` turns bytes into the characters that YAML allows.  A `Cursor` is a place in them, with
its line and column.
-/

namespace ScopeLexer.Yaml

/-! ## Characters -/

def isAllowed (c : Char) : Bool :=
  let n := c.toNat
  c == '\t' || c == '\n' || c == '\r' || (0x20 ≤ n && n ≤ 0x7E) || n == 0x85
    || (0xA0 ≤ n && n ≤ 0xFFFD) || 0x10000 ≤ n

def isBreak (c : Char) : Bool :=
  c == '\n' || c == '\r' || c == '\x85' || c == '\u2028' || c == '\u2029'

def isBlank (c : Char) : Bool := c == ' ' || c == '\t'

def isNameChar (c : Char) : Bool := c.isAlphanum || c == '_' || c == '-'

def atBreak : List Char → Bool
  | [] => true
  | c :: _ => isBreak c

def atSpace : List Char → Bool
  | [] => true
  | c :: _ => isBlank c || isBreak c

/-- What a break stands for in a scalar: a line feed, unless it separates lines or paragraphs. -/
def breakText (c : Char) : List Char :=
  if c == '\u2028' || c == '\u2029' then [c] else ['\n']

/-! ## Encodings -/

def unitsOf (highFirst : Bool) : List UInt8 → Except Fault (List Nat)
  | a :: b :: rest => do
      let unit := if highFirst then a.toNat * 256 + b.toNat else b.toNat * 256 + a.toNat
      return unit :: (← unitsOf highFirst rest)
  | [_] => .error { problem := .encoding }
  | [] => .ok []

def charsOfUnits : List Nat → Except Fault (List Char)
  | [] => .ok []
  | unit :: rest =>
      if 0xD800 ≤ unit && unit < 0xDC00 then
        match rest with
        | low :: rest =>
            if 0xDC00 ≤ low && low < 0xE000 then do
              let c := Char.ofNat (0x10000 + (unit - 0xD800) * 0x400 + (low - 0xDC00))
              return c :: (← charsOfUnits rest)
            else .error { problem := .encoding }
        | [] => .error { problem := .encoding }
      else if 0xDC00 ≤ unit && unit < 0xE000 then .error { problem := .encoding }
      else do return Char.ofNat unit :: (← charsOfUnits rest)

def charsOfBytes (bytes : List UInt8) : Except Fault (List Char) :=
  (Utf8.decode bytes).mapError fun _ => { problem := .encoding }

/-- The characters of bytes in the encoding that a mark at the front tells, UTF-8 without one. -/
def decodeText (bytes : List UInt8) : Except Fault (List Char) := do
  let chars ← match bytes with
    | 0xFF :: 0xFE :: rest => do charsOfUnits (← unitsOf false rest)
    | 0xFE :: 0xFF :: rest => do charsOfUnits (← unitsOf true rest)
    | 0xEF :: 0xBB :: 0xBF :: rest => charsOfBytes rest
    | bytes => charsOfBytes bytes
  if chars.all isAllowed then return chars
  throw { problem := .controlCharacter }

/-! ## Places -/

structure Cursor where
  rest : List Char
  index : Nat := 0
  line : Nat := 0
  column : Nat := 0
  deriving Repr, Inhabited

namespace Cursor

def skip (cursor : Cursor) (count : Nat := 1) : Cursor :=
  { cursor with
    rest := cursor.rest.drop count
    index := cursor.index + count
    column := cursor.column + count }

def skipWhile (cursor : Cursor) (p : Char → Bool) : Cursor :=
  cursor.skip (cursor.rest.takeWhile p).length

def takeWhile (cursor : Cursor) (p : Char → Bool) : List Char × Cursor :=
  let taken := cursor.rest.takeWhile p
  (taken, cursor.skip taken.length)

def skipBreak (cursor : Cursor) : Cursor :=
  match cursor.rest with
  | '\r' :: '\n' :: rest => ⟨rest, cursor.index + 2, cursor.line + 1, 0⟩
  | c :: rest => if isBreak c then ⟨rest, cursor.index + 1, cursor.line + 1, 0⟩ else cursor
  | [] => cursor

def takeBreak (cursor : Cursor) : List Char × Cursor :=
  match cursor.rest with
  | c :: _ => if isBreak c then (breakText c, cursor.skipBreak) else ([], cursor)
  | [] => ([], cursor)

def skipBlanks (cursor : Cursor) : Cursor := cursor.skipWhile isBlank

def skipComment (cursor : Cursor) : Cursor :=
  match cursor.rest with
  | '#' :: _ => cursor.skipWhile fun c => !isBreak c
  | _ => cursor

/-- Whether a line begins here with three of a character, alone or in front of white space. -/
def atTriple (cursor : Cursor) (c : Char) : Bool :=
  cursor.column == 0 && cursor.rest.take 3 == [c, c, c] && atSpace (cursor.rest.drop 3)

def atIndicator (cursor : Cursor) : Bool := cursor.atTriple '-' || cursor.atTriple '.'

end Cursor

end ScopeLexer.Yaml
