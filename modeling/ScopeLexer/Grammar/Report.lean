import ScopeLexer.Definition.Location
import ScopeLexer.Grammar.Reference
import ScopeLexer.Regex.Expression

/-!
# What may be wrong with a grammar

A definition that is `Malformed` is refused.  A `Warning` concerns a part that is left out while the
rest of the grammar is usable.  An `Unresolved` reference is found only when it is needed.
-/

namespace ScopeLexer

open Regex

inductive Malformation where
  | matchAndBegin
  | matchWithEnd
  | beginWithoutEnd
  | endWithoutBegin
  | badExpression (error : ExpressionError)
  | badGroup (key : String)
  deriving Repr, DecidableEq, Inhabited

def Malformation.message : Malformation → String
  | matchAndBegin => "a rule cannot have both `match` and `begin`"
  | matchWithEnd => "a `match` rule cannot have an `end` or a `while`"
  | beginWithoutEnd => "a `begin` rule needs an `end`"
  | endWithoutBegin => "`end` and `while` need a `begin`"
  | badExpression error => error.message
  | badGroup key => "`" ++ key ++ "` is not a group index"

structure Malformed where
  location : Location
  cause : Malformation
  deriving Repr, DecidableEq, Inhabited

inductive WarningKind where
  | emptyRule
  | unsupportedWhile
  | captureOutOfRange (group groups : Nat)
  deriving Repr, DecidableEq, Inhabited

def WarningKind.message : WarningKind → String
  | emptyRule => "rule matches nothing and is ignored"
  | unsupportedWhile => "begin/while rules are not supported, rule ignored"
  | captureOutOfRange group groups =>
      "capture group " ++ toString group ++ " does not exist, the expression only has "
        ++ toString groups

structure Warning where
  location : Location
  kind : WarningKind
  deriving Repr, DecidableEq, Inhabited

def Warning.message (warning : Warning) : String :=
  warning.location.render ++ ": " ++ warning.kind.message

structure Unresolved where
  reference : Reference
  deriving Repr, DecidableEq, Inhabited

def Unresolved.message (unresolved : Unresolved) : String :=
  "unresolved rule reference `" ++ unresolved.reference.text ++ "`"

end ScopeLexer
