/-!
# Faults of an expression

Why the text of an expression has no meaning.
-/

namespace ScopeLexer.Regex

inductive Fault where
  | endAtEscape
  | endAtControl
  | controlForm
  | endAtMeta
  | metaForm
  | endInGroup
  | unclosedGroup
  | unopenedGroup
  | repeatOfNothing
  | repeatOfAssertion
  | repeatTooBig
  | unclosedClass
  | emptyClass
  | emptyRange
  | rangeEndsInClass
  | rangeStartsInClass
  | posixName
  | lookBehind
  | backreference
  | unknownName (name : String)
  | unknownGroup (name : String)
  | groupOption
  | conditionAlone
  | groupName (name : String)
  | groupNameCharacter (name : String)
  | emptyGroupName
  | propertyName (name : String)
  | numberTooBig
  | codePoint
  | codePointTooBig
  | codePointTooLong
  | partialCharacter
  | endlessCall
  deriving Repr, DecidableEq, Inhabited

/-- A name quoted in a message keeps its first thirty bytes. -/
def shortenName (name : String) : String :=
  let kept := (name.toList.foldl
    (fun (state : List Char × Nat) c =>
      if state.2 + c.utf8Size ≤ 30 then (state.1 ++ [c], state.2 + c.utf8Size)
      else (state.1, 31))
    ([], 0))
  if kept.2 > 30 then String.ofList kept.1 ++ "..." else name

def Fault.message : Fault → String
  | .endAtEscape => "end pattern at escape"
  | .endAtControl => "end pattern at control"
  | .controlForm => "invalid control-code syntax"
  | .endAtMeta => "end pattern at meta"
  | .metaForm => "invalid meta-code syntax"
  | .endInGroup => "end pattern in group"
  | .unclosedGroup => "end pattern with unmatched parenthesis"
  | .unopenedGroup => "unmatched close parenthesis"
  | .repeatOfNothing => "target of repeat operator is not specified"
  | .repeatOfAssertion => "target of repeat operator is invalid"
  | .repeatTooBig => "too big number for repeat range"
  | .unclosedClass => "premature end of char-class"
  | .emptyClass => "empty char-class"
  | .emptyRange => "empty range in char class"
  | .rangeEndsInClass => "char-class value at end of range"
  | .rangeStartsInClass => "unmatched range specifier in char-class"
  | .posixName => "invalid POSIX bracket type"
  | .lookBehind => "invalid pattern in look-behind"
  | .backreference => "invalid backref number/name"
  | .unknownName name => "undefined name <" ++ shortenName name ++ "> reference"
  | .unknownGroup name => "undefined group <" ++ shortenName name ++ "> reference"
  | .groupOption => "undefined group option"
  | .conditionAlone => "invalid if-else syntax"
  | .groupName name => "invalid group name <" ++ shortenName name ++ ">"
  | .groupNameCharacter name => "invalid char in group name <" ++ shortenName name ++ ">"
  | .emptyGroupName => "group name is empty"
  | .propertyName name => "invalid character property name \x7b" ++ shortenName name ++ "\x7d"
  | .numberTooBig => "too big number"
  | .codePoint => "invalid code point value"
  | .codePointTooBig => "too big wide-char value"
  | .codePointTooLong => "too long wide-char value"
  | .partialCharacter => "too short multibyte string"
  | .endlessCall => "never ending recursion"

end ScopeLexer.Regex
