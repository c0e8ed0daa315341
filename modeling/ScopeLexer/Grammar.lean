import ScopeLexer.Grammar.Report
import ScopeLexer.Scope.Name

/-!
# Compiled grammars

A `Grammar` holds the rules of a definition in one table, where they refer to one another by number,
and its repositories in another.
-/

namespace ScopeLexer

open Regex

structure Capture where
  group : Nat
  name : Option ScopeName
  /-- The rule whose patterns scan the captured text. -/
  rule : Option RuleId
  deriving Repr, DecidableEq, Inhabited

structure Enclosure where
  opening : Expression
  closing : Expression
  openingCaptures : List Capture
  closingCaptures : List Capture
  /-- The patterns of the rule go before its end when both match at one position. -/
  closesLast : Bool
  deriving Repr, Inhabited

inductive RuleKind where
  | group
  | single (expression : Expression) (captures : List Capture)
  | enclosed (enclosure : Enclosure)
  deriving Repr, Inhabited

structure Rule where
  id : RuleId
  name : Option ScopeName
  /-- The scopes of what lies between the opening and the closing match. -/
  contentName : Option ScopeName
  kind : RuleKind
  patterns : List Pattern
  deriving Repr, Inhabited

def Rule.opening? (rule : Rule) : Option Expression :=
  match rule.kind with
  | .group => none
  | .single expression _ => some expression
  | .enclosed enclosure => some enclosure.opening

structure Repository where
  /-- The repository to look in for what this one does not have. -/
  parent : Option RepositoryId
  entries : List (String × List Pattern)
  deriving Repr, DecidableEq, Inhabited

structure Grammar where
  scopeName : Scope
  name : Option String
  rules : Array Rule
  repositories : Array Repository
  root : RuleId
  warnings : List Warning
  deriving Repr, Inhabited

namespace Grammar

def patternsOf (grammar : Grammar) (id : RuleId) : List Pattern :=
  match grammar.rules[id]? with
  | some rule => rule.patterns
  | none => []

def topEntries (grammar : Grammar) : List (String × List Pattern) :=
  match grammar.repositories[0]? with
  | some repository => repository.entries
  | none => []

end Grammar

end ScopeLexer
