import ScopeLexer.Definition

/-!
# A grammar for Puppet

The definition of the language of Puppet manifests, ready for use.
-/

namespace ScopeLexer.Bundled.Puppet

def datatypes : RuleDefinition :=
  { matchSource := some "\\b([A-Z][a-zA-Z]*)(?![a-zA-Z])", name := some "storage.type.puppet" }

def heredoc : RuleDefinition where
  beginSource := some "@\\(\\s*\\\"?([A-Za-z_]\\w*)\\\"?\\s*(?::\\s*\\w+\\s*)?(?:/[nrtsuL$]*)?\\s*\\)"
  endSource := some "^\\s*(?:\\|\\s*)?(?:-\\s*)?(\\1)\\b"
  name := some "string.unquoted.heredoc.puppet"
  beginCaptures := some [
    ("1", { name := some "entity.name.tag.heredoc.puppet" })]
  endCaptures := some [
    ("1", { name := some "entity.name.tag.heredoc.puppet" })]

def keywords : RuleDefinition where
  matchSource := some "\\b(?:if|elsif|else|unless|case|default|and|or|in|undef)\\b"
  name := some "keyword.control.puppet"

def lineComment : RuleDefinition where
  matchSource := some "(#).*$"
  name := some "comment.line.number-sign.puppet"
  captures := some [
    ("1", { name := some "punctuation.definition.comment.puppet" })]

def numbers : RuleDefinition where
  patterns := some [
    {
      matchSource := some "(?<![\\w\\d])([-+]?)(?i:0x)(?i:[0-9a-f])+(?![\\w\\d])"
      name := some "constant.numeric.hexadecimal.puppet" },
    {
      matchSource := some "(?<![\\w\\.])([-+]?)(?<!\\d)\\d+(?i:e(\\+|-)\x7b0,1\x7d\\d+)\x7b0,1\x7d(?![\\w\\d\\.])"
      name := some "constant.numeric.integer.puppet" },
    {
      matchSource := some "(?<!\\w)([-+]?)\\d+\\.\\d+(?i:e(\\+|-)\x7b0,1\x7d\\d+)\x7b0,1\x7d(?![\\w\\d])"
      name := some "constant.numeric.integer.puppet" }]

def parameterDefaultTypes : RuleDefinition where
  patterns := some [
    { reference := some "#strings" },
    { reference := some "#numbers" },
    { reference := some "#variable" },
    { reference := some "#datatypes" },
    { matchSource := some "\\(", name := some "punctuation.definition.parameters.begin.puppet" },
    { matchSource := some "\\)", name := some "punctuation.definition.parameters.end.puppet" }]

def regexLiteral : RuleDefinition where
  matchSource := some "(/)(.+?)(?:[^\\\\]/)"
  name := some "string.regexp.literal.puppet"
  captures := some [
    ("1", { name := some "punctuation.definition.regex.begin.puppet" })]

def strings : RuleDefinition where
  patterns := some [
    {
      beginSource := some "'"
      endSource := some "'"
      name := some "string.quoted.single.puppet"
      beginCaptures := some [
        ("0", { name := some "punctuation.definition.string.begin.puppet" })]
      endCaptures := some [
        ("0", { name := some "punctuation.definition.string.end.puppet" })]
      patterns := some [
        { matchSource := some "\\\\\\\\|\\\\'", name := some "constant.character.escape.puppet" }] },
    {
      beginSource := some "\""
      endSource := some "\""
      name := some "string.quoted.double.interpolated.puppet"
      beginCaptures := some [
        ("0", { name := some "punctuation.definition.string.begin.puppet" })]
      endCaptures := some [
        ("0", { name := some "punctuation.definition.string.end.puppet" })]
      patterns := some [
        { matchSource := some "\\\\.", name := some "constant.character.escape.puppet" },
        {
          beginSource := some "\\$\\\x7b"
          endSource := some "\\\x7d"
          name := some "meta.embedded.line.puppet"
          captures := some [
            ("0", { name := some "punctuation.section.embedded.puppet" })]
          patterns := some [
            { reference := some "$self" }] },
        { reference := some "#variable" }] }]

def variableRule : RuleDefinition where
  matchSource := some "(\\$)(?:::)?[a-zA-Z_]\\w*(?:::[a-zA-Z_]\\w*)*"
  name := some "variable.other.readwrite.global.puppet"
  captures := some [
    ("1", { name := some "punctuation.definition.variable.puppet" })]

def patterns : List RuleDefinition := [
  { reference := some "#line_comment" },
  {
    beginSource := some "/\\*"
    endSource := some "\\*/"
    name := some "comment.block.puppet"
    captures := some [
      ("0", { name := some "punctuation.definition.comment.puppet" })] },
  {
    beginSource := some "^\\s*(node)\\b"
    endSource := some "(?=\\\x7b)"
    name := some "meta.definition.class.puppet"
    beginCaptures := some [
      ("1", { name := some "storage.type.puppet" })]
    patterns := some [
      { reference := some "#strings" },
      { reference := some "#regex-literal" }] },
  {
    beginSource := some "\\b(class)\\s+((?:[-_A-Za-z0-9\\\".]+::)*[-_A-Za-z0-9\\\".]+)\\s*"
    endSource := some "(?=\\\x7b)"
    name := some "meta.definition.class.puppet"
    beginCaptures := some [
      ("1", { name := some "storage.type.puppet" }),
      ("2", { name := some "entity.name.type.class.puppet" })]
    patterns := some [
      {
        beginSource := some "\\b(inherits)\\b\\s+"
        endSource := some "(?=\\(|\\\x7b)"
        name := some "meta.definition.class.inherits.puppet"
        beginCaptures := some [
          ("1", { name := some "storage.modifier.puppet" })]
        patterns := some [
          {
            matchSource := some "\\b((?:[-_A-Za-z0-9\\\".]+::)*[-_A-Za-z0-9\\\".]+)\\b"
            name := some "support.type.puppet" }] },
      { reference := some "#parameters" }]
    repository := some [
      ("parameters", {
        patterns := some [
          {
            beginSource := some "([A-Z][\\w:]*(?:\\[[^\\]]*\\])?)\\s+((\\$+)[a-zA-Z_]\\w*)(?:\\s*(=)\\s*)\\s*"
            endSource := some "(?=,|\\))"
            name := some "meta.function.argument.default.typed.puppet"
            beginCaptures := some [
              ("1", { name := some "storage.type.puppet" }),
              ("2", { name := some "variable.other.puppet" }),
              ("3", { name := some "punctuation.definition.variable.puppet" }),
              ("4", { name := some "keyword.operator.assignment.puppet" })]
            patterns := some [
              { reference := some "#parameter-default-types" }] },
          {
            matchSource := some "([A-Z][\\w:]*(?:\\[[^\\]]*\\])?)\\s+((\\$+)[a-zA-Z_]\\w*)\\s*(?=,|\\))"
            name := some "meta.function.argument.no-default.typed.puppet"
            captures := some [
              ("1", { name := some "storage.type.puppet" }),
              ("2", { name := some "variable.other.puppet" }),
              ("3", { name := some "punctuation.definition.variable.puppet" })] },
          {
            beginSource := some "((\\$+)[a-zA-Z_]\\w*)(?:\\s*(=)\\s*)\\s*"
            endSource := some "(?=,|\\))"
            name := some "meta.function.argument.default.untyped.puppet"
            beginCaptures := some [
              ("1", { name := some "variable.other.puppet" }),
              ("2", { name := some "punctuation.definition.variable.puppet" }),
              ("3", { name := some "keyword.operator.assignment.puppet" })]
            patterns := some [
              { reference := some "#parameter-default-types" }] },
          {
            matchSource := some "((\\$+)[a-zA-Z_]\\w*)\\s*(?=,|\\))"
            name := some "meta.function.argument.no-default.untyped.puppet"
            captures := some [
              ("1", { name := some "variable.other.puppet" }),
              ("2", { name := some "punctuation.definition.variable.puppet" })] },
          {
            matchSource := some "\\("
            name := some "punctuation.definition.parameters.begin.puppet" },
          {
            matchSource := some "\\)"
            name := some "punctuation.definition.parameters.end.puppet" }] })] },
  {
    beginSource := some "^\\s*(plan)\\s+((?:[a-z][a-z0-9_]*)?(?:::[a-z][a-z0-9_]*)*)\\s*"
    endSource := some "(?=\\\x7b)"
    name := some "meta.definition.plan.puppet"
    beginCaptures := some [
      ("1", { name := some "storage.type.puppet" }),
      ("2", { name := some "entity.name.type.plan.puppet" })]
    patterns := some [
      { reference := some "#parameter-default-types" }] },
  { reference := some "#keywords" },
  {
    beginSource := some "\\b(import|include|contain|require)\\s+(?!.*=>)"
    endSource := some "(?=\\s|$)"
    name := some "meta.include.puppet"
    contentName := some "variable.parameter.include.puppet"
    beginCaptures := some [
      ("1", { name := some "keyword.control.import.include.puppet" })] },
  {
    beginSource := some "(?:^|\\b)(::)?([a-zA-Z_][a-zA-Z0-9_]*(?:::[a-zA-Z_][a-zA-Z0-9_]*)*)\\s*(\\\x7b)\\s*"
    endSource := some ":"
    name := some "meta.definition.resource.puppet"
    contentName := some "entity.name.section.puppet"
    beginCaptures := some [
      ("2", { name := some "storage.type.puppet" })] },
  { reference := some "#heredoc" },
  { reference := some "#strings" },
  { reference := some "#datatypes" },
  { matchSource := some "\\b\\w+\\s*(?==>)\\s*", name := some "constant.other.key.puppet" },
  { matchSource := some "=>", name := some "punctuation.separator.key-value.puppet" },
  { reference := some "#numbers" },
  { reference := some "#variable" }]

def definition : GrammarDefinition where
  scopeName := "source.puppet"
  name := some "Puppet"
  fileTypes := ["pp"]
  patterns := patterns
  repository := [
    ("datatypes", datatypes),
    ("heredoc", heredoc),
    ("keywords", keywords),
    ("line_comment", lineComment),
    ("numbers", numbers),
    ("parameter-default-types", parameterDefaultTypes),
    ("regex-literal", regexLiteral),
    ("strings", strings),
    ("variable", variableRule)]

end ScopeLexer.Bundled.Puppet
