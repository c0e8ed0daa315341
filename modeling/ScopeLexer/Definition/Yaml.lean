import ScopeLexer.Definition
import ScopeLexer.Yaml.Decoder

/-!
# Definitions in YAML

The fields of a definition under their usual keys.  Keys that mean nothing here are skipped.
-/

namespace ScopeLexer.Definition.FromYaml

open Yaml

def sortedTable {α : Type} (inner : Decoder α) : Decoder (Entries α) := fun depth location node =>
  return Entries.ofList (← table inner depth location node)

def captureFields (rule : Decoder RuleDefinition) : List (RecordField CaptureDefinition) :=
  [ .of "name" (nullable text) fun capture name => { capture with name },
    .of "patterns" (nullable (list rule)) fun capture patterns => { capture with patterns } ]

def captureTable (rule : Decoder RuleDefinition) : Decoder (Option (Entries CaptureDefinition)) :=
  nullable (sortedTable (record "RawCapture" (captureFields rule) {}))

def ruleFields (rule : Decoder RuleDefinition) : List (RecordField RuleDefinition) :=
  [ .of "include" (nullable text) fun r reference => { r with reference },
    .of "name" (nullable text) fun r name => { r with name },
    .of "contentName" (nullable text) fun r contentName => { r with contentName },
    .of "match" (nullable text) fun r matchSource => { r with matchSource },
    .of "begin" (nullable text) fun r beginSource => { r with beginSource },
    .of "end" (nullable text) fun r endSource => { r with endSource },
    .of "while" (nullable text) fun r whileSource => { r with whileSource },
    .of "captures" (captureTable rule) fun r captures => { r with captures },
    .of "beginCaptures" (captureTable rule) fun r beginCaptures => { r with beginCaptures },
    .of "endCaptures" (captureTable rule) fun r endCaptures => { r with endCaptures },
    .of "patterns" (nullable (list rule)) fun r patterns => { r with patterns },
    .of "repository" (nullable (sortedTable rule)) fun r repository => { r with repository },
    .of "applyEndPatternLast" flag fun r applyEndPatternLast => { r with applyEndPatternLast } ]

/-- A rule, with at most `nesting` rules inside one another. -/
def rule : (nesting : Nat) → Decoder RuleDefinition
  | 0 => fun _ location _ => refuse location .tooDeep
  | nesting + 1 => record "RawRule" (ruleFields (rule nesting)) {}

def grammarFields : List (RecordField GrammarDefinition) :=
  [ .of "scopeName" text (fun g scopeName => { g with scopeName }) true,
    .of "name" (nullable text) fun g name => { g with name },
    .of "fileTypes" (list text) fun g fileTypes => { g with fileTypes },
    .of "patterns" (list (rule (maxDepth + 1))) fun g patterns => { g with patterns },
    .of "repository" (sortedTable (rule (maxDepth + 1))) fun g repository => { g with repository } ]

def ofYaml (bytes : List UInt8) : Except DecodeFault GrammarDefinition :=
  decode (record "RawGrammar" grammarFields { scopeName := "" }) bytes

end ScopeLexer.Definition.FromYaml
