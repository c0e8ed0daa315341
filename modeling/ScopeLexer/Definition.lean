/-!
# Definitions of grammars

A `GrammarDefinition` is a grammar as its author wrote it, before anything is compiled.  Tables are
lists of entries in ascending order of their keys, each key once.
-/

namespace ScopeLexer

abbrev Entries (α : Type) := List (String × α)

namespace Entries

def insert {α : Type} (key : String) (value : α) : Entries α → Entries α
  | [] => [(key, value)]
  | (other, current) :: rest =>
      if key < other then (key, value) :: (other, current) :: rest
      else if key == other then (key, value) :: rest
      else (other, current) :: insert key value rest

/-- Entries put in order, a later one in place of an earlier one with the same key. -/
def ofList {α : Type} (entries : List (String × α)) : Entries α :=
  entries.foldl (fun table entry => insert entry.1 entry.2 table) []

def find? {α : Type} (table : Entries α) (key : String) : Option α :=
  (List.find? (fun entry => entry.1 == key) table).map (·.2)

end Entries

/-- What a capture adds to its group: scopes, and rules that scan the captured text. -/
structure CaptureOf (Rule : Type) where
  name : Option String := none
  patterns : Option (List Rule) := none
  deriving Repr, Inhabited

structure RuleDefinition where
  reference : Option String := none
  name : Option String := none
  contentName : Option String := none
  matchSource : Option String := none
  beginSource : Option String := none
  endSource : Option String := none
  whileSource : Option String := none
  captures : Option (List (String × CaptureOf RuleDefinition)) := none
  beginCaptures : Option (List (String × CaptureOf RuleDefinition)) := none
  endCaptures : Option (List (String × CaptureOf RuleDefinition)) := none
  patterns : Option (List RuleDefinition) := none
  repository : Option (List (String × RuleDefinition)) := none
  applyEndPatternLast : Bool := false
  deriving Inhabited

abbrev CaptureDefinition := CaptureOf RuleDefinition

structure GrammarDefinition where
  scopeName : String
  name : Option String := none
  fileTypes : List String := []
  patterns : List RuleDefinition := []
  repository : Entries RuleDefinition := []
  deriving Inhabited

/-! ## Comparison -/

mutual

def RuleDefinition.same : RuleDefinition → RuleDefinition → Bool
  | ⟨reference, name, contentName, matchSource, beginSource, endSource, whileSource, captures,
      beginCaptures, endCaptures, patterns, repository, last⟩, other =>
      reference == other.reference && name == other.name && contentName == other.contentName
        && matchSource == other.matchSource && beginSource == other.beginSource
        && endSource == other.endSource && whileSource == other.whileSource
        && sameCaptures? captures other.captures
        && sameCaptures? beginCaptures other.beginCaptures
        && sameCaptures? endCaptures other.endCaptures
        && sameRules? patterns other.patterns
        && sameEntries? repository other.repository
        && last == other.applyEndPatternLast
  termination_by structural rule => rule

def sameRules? : Option (List RuleDefinition) → Option (List RuleDefinition) → Bool
  | none, other => other.isNone
  | some rules, some others => sameRules rules others
  | some _, none => false
  termination_by structural rules => rules

def sameEntries? : Option (List (String × RuleDefinition)) →
    Option (List (String × RuleDefinition)) → Bool
  | none, other => other.isNone
  | some entries, some others => sameEntries entries others
  | some _, none => false
  termination_by structural entries => entries

def sameCaptures? : Option (List (String × CaptureOf RuleDefinition)) →
    Option (List (String × CaptureOf RuleDefinition)) → Bool
  | none, other => other.isNone
  | some captures, some others => sameCaptures captures others
  | some _, none => false
  termination_by structural captures => captures

def sameRules : List RuleDefinition → List RuleDefinition → Bool
  | [], others => others.isEmpty
  | rule :: rules, other :: others => rule.same other && sameRules rules others
  | _ :: _, [] => false
  termination_by structural rules => rules

def sameEntries : List (String × RuleDefinition) → List (String × RuleDefinition) → Bool
  | [], others => others.isEmpty
  | (key, rule) :: entries, (otherKey, other) :: others =>
      key == otherKey && rule.same other && sameEntries entries others
  | _ :: _, [] => false
  termination_by structural entries => entries

def sameCaptures : List (String × CaptureOf RuleDefinition) →
    List (String × CaptureOf RuleDefinition) → Bool
  | [], others => others.isEmpty
  | (key, ⟨name, patterns⟩) :: captures, (otherKey, other) :: others =>
      key == otherKey && name == other.name && sameRules? patterns other.patterns
        && sameCaptures captures others
  | _ :: _, [] => false
  termination_by structural captures => captures

end

instance : BEq RuleDefinition := ⟨RuleDefinition.same⟩

def GrammarDefinition.same (left right : GrammarDefinition) : Bool :=
  left.scopeName == right.scopeName && left.name == right.name
    && left.fileTypes == right.fileTypes && sameRules left.patterns right.patterns
    && sameEntries left.repository right.repository

instance : BEq GrammarDefinition := ⟨GrammarDefinition.same⟩

end ScopeLexer
