import ScopeLexer.Unicode.Property

/-!
# Quoted text

Text between double quotes on one line: signs that would not show are written by name or number.
-/

namespace ScopeLexer.Quoted

open Unicode

def hexDigits (n : Nat) : List Char := Nat.toDigits 16 n

def byNumber (c : Char) : List Char :=
  ['\\', 'u', '{'] ++ hexDigits c.toNat ++ ['}']

/-- How a character is written between quotes; an apostrophe only needs an escape when asked. -/
def escape (apostrophe : Bool) (c : Char) : List Char :=
  match c with
  | '\x00' => ['\\', '0']
  | '\t' => ['\\', 't']
  | '\r' => ['\\', 'r']
  | '\n' => ['\\', 'n']
  | '"' => ['\\', '"']
  | '\\' => ['\\', '\\']
  | '\'' => if apostrophe then ['\\', '\''] else ['\'']
  | c => if isPrintable c && !isGraphemeExtend c then [c] else byNumber c

def encode (chars : List Char) (apostrophe : Bool := false) : String :=
  String.ofList ('"' :: chars.flatMap (escape apostrophe) ++ ['"'])

end ScopeLexer.Quoted
