import ScopeLexer.Decimal.Index
import ScopeLexer.Text
import ScopeLexer.Unicode.CaseMapping

/-!
# Scope names

A scope classifies a piece of text.  Grammars name scopes by templates: several scopes between
blanks, which may refer to the groups of a match as `$1` or, with a change of case, as
`${1:/upcase}`.
-/

namespace ScopeLexer

abbrev Scope := String

inductive Recase where
  | asIs
  | downcase
  | upcase
  deriving Repr, DecidableEq, Inhabited

namespace Recase

def ofSuffix? (suffix : List Char) : Option Recase :=
  if suffix == [] then some .asIs
  else if suffix == ":/downcase".toList then some .downcase
  else if suffix == ":/upcase".toList then some .upcase
  else none

def apply : Recase → List Char → List Char
  | .asIs, text => text
  | .downcase, text => Unicode.lowercase text
  | .upcase, text => Unicode.uppercase text

end Recase

def captured? (line : Text) (groups : Groups) (index : Nat) : Option (List Char) :=
  (line.group? groups index).map fun text => text.dropWhile (· == '.')

/-- What a reference stands for whose dollar sign is behind, and how many characters it has beyond
that sign.  Whatever does not refer to a captured group is no reference. -/
def reference? (line : Text) (groups : Groups) (text : List Char) :
    Option (List Char × Nat) :=
  match text with
  | '{' :: rest => do
      let digits := rest.takeWhile Char.isDigit
      let index ← Decimal.indexOfDigits? digits
      let rest := rest.drop digits.length
      let suffix := rest.takeWhile (· != '}')
      if rest.length ≤ suffix.length then none
      let captured ← captured? line groups index
      let recase ← Recase.ofSuffix? suffix
      return (recase.apply captured, digits.length + suffix.length + 2)
  | _ => do
      let digits := text.takeWhile Char.isDigit
      let index ← Decimal.indexOfDigits? digits
      let captured ← captured? line groups index
      return (captured, digits.length)

/-- Put the text of groups in place of the references of a template.  The first `skip` characters
belong to a reference that was replaced. -/
def fillTemplate (line : Text) (groups : Groups) : (skip : Nat) → List Char → List Char
  | _, [] => []
  | skip + 1, _ :: rest => fillTemplate line groups skip rest
  | 0, c :: rest =>
      if c == '$' then
        match reference? line groups rest with
        | some (text, length) => text ++ fillTemplate line groups length rest
        | none => c :: fillTemplate line groups 0 rest
      else
        c :: fillTemplate line groups 0 rest

structure ScopeName where
  source : String
  deriving Repr, DecidableEq, Inhabited

namespace ScopeName

def isDynamic (name : ScopeName) : Bool := name.source.toList.contains '$'

def resolve (name : ScopeName) (line : Text) (groups : Groups) : List Scope :=
  let text :=
    if name.isDynamic then fillTemplate line groups 0 name.source.toList else name.source.toList
  (Unicode.words text).map String.ofList

end ScopeName

end ScopeLexer
