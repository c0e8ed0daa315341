/-!
# Text and positions

A `Text` is a sequence of characters.  Positions in it are byte offsets of its UTF-8 form, and only
the offsets between two characters are positions.
-/

namespace ScopeLexer

def byteLength : List Char → Nat
  | [] => 0
  | c :: rest => c.utf8Size + byteLength rest

def dropBytes? : List Char → (offset : Nat) → Option (List Char)
  | chars, 0 => some chars
  | [], _ + 1 => none
  | c :: rest, offset => if c.utf8Size ≤ offset then dropBytes? rest (offset - c.utf8Size) else none

def takeBytes? : List Char → (size : Nat) → Option (List Char)
  | _, 0 => some []
  | [], _ + 1 => none
  | c :: rest, size =>
      if c.utf8Size ≤ size then (takeBytes? rest (size - c.utf8Size)).map (c :: ·) else none

def countBefore? : List Char → (offset : Nat) → Option Nat
  | _, 0 => some 0
  | [], _ + 1 => none
  | c :: rest, offset =>
      if c.utf8Size ≤ offset then (countBefore? rest (offset - c.utf8Size)).map (· + 1) else none

structure Range where
  start : Nat
  stop : Nat
  deriving Repr, DecidableEq, Inhabited

namespace Range

def isEmpty (range : Range) : Bool := range.stop ≤ range.start

end Range

/-- The ranges of the groups of a match, the whole match first; a group may have none. -/
abbrev Groups := List (Option Range)

structure Text where
  chars : Array Char
  deriving Repr, DecidableEq, Inhabited

namespace Text

def ofString (s : String) : Text := ⟨s.toList.toArray⟩

def toList (text : Text) : List Char := text.chars.toList

def toString (text : Text) : String := String.ofList text.toList

instance : ToString Text := ⟨Text.toString⟩

def byteSize (text : Text) : Nat := byteLength text.toList

def offset (text : Text) (index : Nat) : Nat := byteLength (text.toList.take index)

def index? (text : Text) (offset : Nat) : Option Nat := countBefore? text.toList offset

/-- The characters of a range, when both its ends are positions in order. -/
def slice? (text : Text) (range : Range) : Option (List Char) :=
  if range.start ≤ range.stop then do
    let rest ← dropBytes? text.toList range.start
    takeBytes? rest (range.stop - range.start)
  else
    none

def slice (text : Text) (range : Range) : List Char := (text.slice? range).getD []

def upTo (text : Text) (offset : Nat) : Text :=
  match takeBytes? text.toList offset with
  | some chars => ⟨chars.toArray⟩
  | none => text

def next? (text : Text) (offset : Nat) : Option Nat :=
  match dropBytes? text.toList offset with
  | some (c :: _) => some (offset + c.utf8Size)
  | _ => none

def endLine (text : Text) : Text :=
  if text.chars.back? == some '\n' then text else ⟨text.chars.push '\n'⟩

def group? (text : Text) (groups : Groups) (index : Nat) : Option (List Char) :=
  match groups[index]? with
  | some (some range) => text.slice? range
  | _ => none

end Text

end ScopeLexer
