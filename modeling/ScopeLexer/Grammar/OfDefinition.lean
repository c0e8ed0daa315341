import ScopeLexer.Decimal.Index
import ScopeLexer.Definition
import ScopeLexer.Grammar

/-!
# From definitions to grammars

`Grammar.ofDefinition` numbers the rules and repositories of a definition, compiles its expressions
and checks its form.  A rule gets its number behind the rules in it; a repository gets its number
before those in it.  A rule that only groups patterns has no number: its patterns take its place.
-/

namespace ScopeLexer

open Regex

namespace Compilation

structure Tables where
  rules : Array Rule := #[]
  repositories : Array Repository := #[]
  warnings : List Warning := []
  deriving Repr, Inhabited

namespace Tables

def nextRule (tables : Tables) : RuleId := tables.rules.size

def nextRepository (tables : Tables) : RepositoryId := tables.repositories.size

def addRule (tables : Tables) (name contentName : Option ScopeName) (kind : RuleKind)
    (patterns : List Pattern) : Tables :=
  { tables with rules := tables.rules.push ⟨tables.nextRule, name, contentName, kind, patterns⟩ }

def addRepository (tables : Tables) (parent : Option RepositoryId) : Tables :=
  { tables with repositories := tables.repositories.push ⟨parent, []⟩ }

def setEntries (tables : Tables) (id : RepositoryId) (entries : List (String × List Pattern)) :
    Tables :=
  { tables with
    repositories := tables.repositories.modify id fun repository => { repository with entries } }

def warn (tables : Tables) (location : Location) (kind : WarningKind) : Tables :=
  { tables with warnings := tables.warnings ++ [⟨location, kind⟩] }

end Tables

def expressionAt (location : Location) (compiled : Except ExpressionError Expression) :
    Except Malformed Expression :=
  compiled.mapError fun error => ⟨location, .badExpression error⟩

def orderCaptures (captures : List Capture) : List Capture :=
  captures.mergeSort fun left right => left.group ≤ right.group

mutual

/-- Compile a rule within a repository.  Gives the patterns that stand for it: none, the rule
itself, a reference, or the patterns that it groups. -/
def compileRule : RuleDefinition → (outer : RepositoryId) → Location → Tables →
    Except Malformed (List Pattern × Tables)
  | ⟨reference, name, contentName, matchSource, beginSource, endSource, whileSource, captures,
      beginCaptures, endCaptures, patterns, repository, closesLast⟩, outer, location, tables => do
      let (inner, tables) ← compileInner repository outer (location.field "repository") tables
      match reference with
      | some text => return ([.reference (.ofText text inner)], tables)
      | none =>
          let (nested, tables) ← compilePatterns patterns inner (location.field "patterns") tables
          let name := name.map ScopeName.mk
          let contentName := contentName.map ScopeName.mk
          match matchSource, beginSource with
          | some _, some _ => throw ⟨location, .matchAndBegin⟩
          | some source, none =>
              if endSource.isSome || whileSource.isSome then throw ⟨location, .matchWithEnd⟩
              let expression ← expressionAt (location.field "match") (Expression.ofSource source)
              let (captures, tables) ← compileCaptures captures expression.groupCount inner
                (location.field "captures") tables
              return ([.rule tables.nextRule],
                tables.addRule name contentName (.single expression captures) nested)
          | none, some source =>
              if whileSource.isSome then return ([], tables.warn location .unsupportedWhile)
              match endSource with
              | none => throw ⟨location, .beginWithoutEnd⟩
              | some endSource =>
                  let opening ← expressionAt (location.field "begin") (Expression.ofSource source)
                  let closing ← expressionAt (location.field "end") (Expression.ofEndSource endSource)
                  let openingLocation := location.field "beginCaptures"
                  let (openingCaptures, tables) ←
                    (if beginCaptures.isSome then
                      compileCaptures beginCaptures opening.groupCount inner openingLocation tables
                    else
                      compileCaptures captures opening.groupCount inner openingLocation tables)
                  let closingLocation := location.field "endCaptures"
                  let (closingCaptures, tables) ←
                    (if endCaptures.isSome then
                      compileCaptures endCaptures closing.groupCount inner closingLocation tables
                    else
                      compileCaptures captures closing.groupCount inner closingLocation tables)
                  return ([.rule tables.nextRule],
                    tables.addRule name contentName
                      (.enclosed ⟨opening, closing, openingCaptures, closingCaptures, closesLast⟩)
                      nested)
          | none, none =>
              if endSource.isSome || whileSource.isSome then throw ⟨location, .endWithoutBegin⟩
              if patterns.isNone then return (nested, tables.warn location .emptyRule)
              return (nested, tables)
  termination_by structural rule => rule

/-- Compile the repository of a rule.  Gives the repository that holds within the rule: its own, or
the outer one when it has none. -/
def compileInner : Option (List (String × RuleDefinition)) → (outer : RepositoryId) → Location →
    Tables → Except Malformed (RepositoryId × Tables)
  | none, outer, _, tables => .ok (outer, tables)
  | some entries, outer, location, tables => do
      let id := tables.nextRepository
      let (compiled, tables) ← compileEntries entries id location (tables.addRepository (some outer))
      return (id, tables.setEntries id compiled)
  termination_by structural repository => repository

def compilePatterns : Option (List RuleDefinition) → RepositoryId → Location → Tables →
    Except Malformed (List Pattern × Tables)
  | none, _, _, tables => .ok ([], tables)
  | some rules, repository, location, tables => compileList rules 0 repository location tables
  termination_by structural patterns => patterns

def compileCaptures : Option (List (String × CaptureOf RuleDefinition)) → (groups : Nat) →
    RepositoryId → Location → Tables → Except Malformed (List Capture × Tables)
  | none, _, _, _, tables => .ok ([], tables)
  | some captures, groups, repository, location, tables => do
      let (compiled, tables) ← compileTable captures groups repository location tables
      return (orderCaptures compiled, tables)
  termination_by structural captures => captures

def compileList : List RuleDefinition → (index : Nat) → RepositoryId → Location → Tables →
    Except Malformed (List Pattern × Tables)
  | [], _, _, _, tables => .ok ([], tables)
  | rule :: rules, index, repository, location, tables => do
      let (first, tables) ← compileRule rule repository (location.element index) tables
      let (others, tables) ← compileList rules (index + 1) repository location tables
      return (first ++ others, tables)
  termination_by structural rules => rules

def compileEntries : List (String × RuleDefinition) → RepositoryId → Location → Tables →
    Except Malformed (List (String × List Pattern) × Tables)
  | [], _, _, tables => .ok ([], tables)
  | (name, rule) :: entries, repository, location, tables => do
      let (patterns, tables) ← compileRule rule repository (location.key name) tables
      let (others, tables) ← compileEntries entries repository location tables
      return ((name, patterns) :: others, tables)
  termination_by structural entries => entries

def compileTable : List (String × CaptureOf RuleDefinition) → (groups : Nat) → RepositoryId →
    Location → Tables → Except Malformed (List Capture × Tables)
  | [], _, _, _, tables => .ok ([], tables)
  | (key, ⟨name, patterns⟩) :: captures, groups, repository, location, tables => do
      let here := location.key key
      match Decimal.indexOfText? key.toList with
      | none => throw ⟨here, .badGroup key⟩
      | some group =>
          if groups < group then
            compileTable captures groups repository location
              (tables.warn here (.captureOutOfRange group groups))
          else
            let (nested, tables) ←
              compilePatterns patterns repository (here.field "patterns") tables
            let (rule, tables) :=
              if patterns.isSome then
                (some tables.nextRule, tables.addRule none none .group nested)
              else
                (none, tables)
            let (others, tables) ← compileTable captures groups repository location tables
            return (⟨group, name.map ScopeName.mk, rule⟩ :: others, tables)
  termination_by structural captures => captures

end

end Compilation

namespace Grammar

open Compilation

def ofDefinition (definition : GrammarDefinition) : Except Malformed Grammar := do
  let tables : Tables := Tables.addRepository {} none
  let (entries, tables) ←
    compileEntries definition.repository 0 (.ofField "repository") tables
  let tables := tables.setEntries 0 entries
  let (patterns, tables) ← compileList definition.patterns 0 0 (.ofField "patterns") tables
  let root := tables.nextRule
  let tables := tables.addRule none none .group patterns
  return {
    scopeName := definition.scopeName
    name := definition.name
    rules := tables.rules
    repositories := tables.repositories
    root
    warnings := tables.warnings }

end Grammar

end ScopeLexer
