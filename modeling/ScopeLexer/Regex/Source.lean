import ScopeLexer.Text
import ScopeLexer.Unicode.WhiteSpace

/-!
# The text of expressions

These functions walk the text of an expression escape by escape, without reading it otherwise: they
find its anchors and references, switch anchors off, and put text in place of references.
-/

namespace ScopeLexer.Regex

structure Features where
  /-- It has a `\G`, which only matches at the anchor position. -/
  searchAnchor : Bool := false
  /-- It has a `\A`, which only matches on the first line. -/
  textAnchor : Bool := false
  references : Bool := false
  deriving Repr, DecidableEq, Inhabited

def isReferenceDigit (c : Char) : Bool := '1' ≤ c && c ≤ '9'

namespace Features

def ofEscape (c : Char) : Features :=
  { searchAnchor := c == 'G', textAnchor := c == 'A', references := isReferenceDigit c }

def join (left right : Features) : Features :=
  { searchAnchor := left.searchAnchor || right.searchAnchor
    textAnchor := left.textAnchor || right.textAnchor
    references := left.references || right.references }

def ofSource : List Char → Features
  | '\\' :: c :: rest => (ofEscape c).join (ofSource rest)
  | ['\\'] => {}
  | _ :: rest => ofSource rest
  | [] => {}

end Features

def never : List Char := ['(', '?', '!', ')']

def disableAnchor (anchor : Char) : List Char → List Char
  | '\\' :: c :: rest =>
      (if c == anchor then never else ['\\', c]) ++ disableAnchor anchor rest
  | ['\\'] => ['\\']
  | c :: rest => c :: disableAnchor anchor rest
  | [] => []

def isSpecial (c : Char) : Bool :=
  "-\\\x7b\x7d*+?|^$.,[]()#".toList.contains c

def needsEscape (c : Char) : Bool := isSpecial c || Unicode.isWhiteSpace c

def escapeChar (c : Char) : List Char := if needsEscape c then ['\\', c] else [c]

def escape (text : List Char) : List Char := text.flatMap escapeChar

/-- Put the text of groups in place of the references to them; a group without text leaves
nothing. -/
def substitute (line : Text) (groups : Groups) : List Char → List Char
  | '\\' :: c :: rest =>
      (if isReferenceDigit c then
          escape ((line.group? groups (c.toNat - '0'.toNat)).getD [])
        else
          ['\\', c])
        ++ substitute line groups rest
  | ['\\'] => ['\\']
  | c :: rest => c :: substitute line groups rest
  | [] => []

end ScopeLexer.Regex
