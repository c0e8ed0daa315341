import ScopeLexer.Regex.Options
import ScopeLexer.Unicode.Property
import ScopeLexer.Unicode.Script
import ScopeLexer.Unicode.CaseFolding

/-!
# Character classes

A class is an expression over characters, ranges and properties; `CharClass.contains` is its
meaning.
-/

namespace ScopeLexer.Regex

open Unicode

inductive CharProperty where
  | any
  | ascii
  | assigned
  | alphabetic
  | alphanumeric
  | blank
  | casedLetter
  | control
  | digit
  | graphic
  | hexDigit
  | lowercase
  | printed
  | punctuation
  | uppercase
  | whiteSpace
  | word
  | major (letter : Char)
  | category (category : Category)
  | ranges (table : RangeTable)
  /-- A property by a name that is no bracket name. -/
  | derived (property : CharProperty)
  deriving Repr, DecidableEq, Inhabited

namespace CharProperty

def isGraphic (c : Char) : Bool :=
  if c.toNat < 128 then 32 < c.toNat && c.toNat < 127
  else
    !(isWhiteSpace c || [Category.control, .unassigned, .surrogate].contains (Category.of c))

/-- Punctuation, and the signs among the first 128 characters. -/
def isPunctuation (c : Char) : Bool :=
  (Category.of c).major == 'P' || "$+<=>^`|~".toList.contains c

def isHexDigit (c : Char) : Bool :=
  c.isDigit || ('a' ≤ c && c ≤ 'f') || ('A' ≤ c && c ≤ 'F')

def holds : CharProperty → Char → Bool
  | .any, _ => true
  | .ascii, c => c.toNat < 128
  | .assigned, c => Category.of c != .unassigned
  | .alphabetic, c => isAlphabetic c
  | .alphanumeric, c => isAlphabetic c || isDecimalDigit c
  | .blank, c => c == '\t' || Category.of c == .spaceSeparator
  | .casedLetter, c =>
      [Category.uppercaseLetter, .lowercaseLetter, .titlecaseLetter].contains (Category.of c)
  | .control, c => Category.of c == .control
  | .digit, c => isDecimalDigit c
  | .graphic, c => isGraphic c
  | .hexDigit, c => isHexDigit c
  | .lowercase, c => isLowercase c
  | .printed, c => isGraphic c || Category.of c == .spaceSeparator
  | .punctuation, c => isPunctuation c
  | .uppercase, c => isUppercase c
  | .whiteSpace, c => isWhiteSpace c
  | .word, c => isWordCharacter c
  | .major letter, c => (Category.of c).major == letter
  | .category expected, c => Category.of c == expected
  | .ranges table, c => table.contains c
  | .derived property, c => property.holds c

def bracketNames : List (String × CharProperty) :=
  [("alnum", .alphanumeric), ("alpha", .alphabetic), ("blank", .blank), ("cntrl", .control),
    ("digit", .digit), ("graph", .graphic), ("lower", .lowercase), ("print", .printed),
    ("punct", .punctuation), ("space", .whiteSpace), ("upper", .uppercase),
    ("xdigit", .hexDigit), ("ascii", .ascii), ("word", .word)]

def propertyNames : List (String × CharProperty) :=
  [("any", .any), ("assigned", .assigned), ("alphabetic", .derived .alphabetic),
    ("lowercase", .derived .lowercase), ("uppercase", .derived .uppercase),
    ("whitespace", .derived .whiteSpace),
    ("lc", .casedLetter), ("casedletter", .casedLetter),
    ("l", .major 'L'), ("letter", .major 'L'),
    ("m", .major 'M'), ("mark", .major 'M'), ("combiningmark", .major 'M'),
    ("n", .major 'N'), ("number", .major 'N'),
    ("p", .major 'P'), ("punctuation", .major 'P'),
    ("s", .major 'S'), ("symbol", .major 'S'),
    ("z", .major 'Z'), ("separator", .major 'Z'),
    ("c", .major 'C'), ("other", .major 'C')]

def isAscii (options : Options) : CharProperty → Bool
  | .word => options.asciiWord || options.asciiNamed
  | .digit => options.asciiDigit || options.asciiNamed
  | .whiteSpace => options.asciiSpace || options.asciiNamed
  | .alphabetic | .alphanumeric | .blank | .control | .graphic | .lowercase | .printed
  | .punctuation | .uppercase => options.asciiNamed
  | _ => false

/-- Names are compared without case, blanks, hyphens and underscores. -/
def normalizeName (name : String) : String :=
  String.ofList ((name.toList.filter fun c => !(c == ' ' || c == '-' || c == '_')).map Char.toLower)

def named? (name : String) : Option CharProperty :=
  let key := normalizeName name
  match (bracketNames ++ propertyNames).find? (·.1 == key) with
  | some entry => some entry.2
  | none =>
      match Category.all.find? (fun candidate =>
          normalizeName candidate.abbreviation == key
            || normalizeName candidate.fullName == key) with
      | some found => some (.category found)
      | none =>
          (scripts.find? (fun entry => normalizeName entry.1 == key)).map
            (fun entry => .ranges entry.2)

end CharProperty

inductive CharClass where
  | nothing
  | range (first last : Nat)
  | among (members : List Char)
  | property (property : CharProperty)
  | union (left right : CharClass)
  | intersection (left right : CharClass)
  | complement (inner : CharClass)
  deriving Repr, DecidableEq, Inhabited

namespace CharClass

def contains : CharClass → Char → Bool
  | .nothing, _ => false
  | .range first last, c => first ≤ c.toNat && c.toNat ≤ last
  | .among members, c => members.contains c
  | .property named, c => named.holds c
  | .union left right, c => left.contains c || right.contains c
  | .intersection left right, c => left.contains c && right.contains c
  | .complement inner, c => !inner.contains c

def single (c : Char) : CharClass := .range c.toNat c.toNat

def everything : CharClass := .complement .nothing

def exceptNewline : CharClass := .complement (.single '\n')

def negateIf (negated : Bool) (inner : CharClass) : CharClass :=
  if negated then .complement inner else inner

def under (options : Options) : CharClass → CharClass
  | .property named =>
      if named.isAscii options then .intersection (.property named) (.property .ascii)
      else .property named
  | .union left right => .union (left.under options) (right.under options)
  | .intersection left right => .intersection (left.under options) (right.under options)
  | .complement inner => .complement (inner.under options)
  | other => other

def closeCase (inner : CharClass) : CharClass :=
  let folds := (foldPairs.filter fun pair =>
    inner.contains pair.1 || inner.contains pair.2).map (·.2)
  let variants := (foldPairs.filter fun pair => folds.contains pair.2).map (·.1)
  .union inner (.among (folds ++ variants))

def anyCase (c : Char) : CharClass := .among (c :: caseVariants c)

end CharClass

end ScopeLexer.Regex
