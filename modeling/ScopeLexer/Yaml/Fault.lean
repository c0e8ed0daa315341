/-!
# Faults of YAML text

Why text is no YAML: a problem, and what was being read when it was met.
-/

namespace ScopeLexer.Yaml

inductive Context where
  | simpleKey
  | directive
  | versionDirective
  | tagDirective
  | anchor
  | aliasName
  | tag
  | blockScalar
  | plainScalar
  | quotedScalar
  | nextToken
  | blockSequence
  | blockMapping
  | flowSequence
  | flowMapping
  | node
  | blockNode
  | flowNode
  deriving Repr, DecidableEq, Inhabited

def Context.describe : Context → String
  | simpleKey => "while scanning a simple key"
  | directive => "while scanning a directive"
  | versionDirective => "while scanning a %YAML directive"
  | tagDirective => "while scanning a %TAG directive"
  | anchor => "while scanning an anchor"
  | aliasName => "while scanning an alias"
  | tag => "while parsing a tag"
  | blockScalar => "while scanning a block scalar"
  | plainScalar => "while scanning a plain scalar"
  | quotedScalar => "while scanning a quoted scalar"
  | nextToken => "while scanning for the next token"
  | blockSequence => "while parsing a block collection"
  | blockMapping => "while parsing a block mapping"
  | flowSequence => "while parsing a flow sequence"
  | flowMapping => "while parsing a flow mapping"
  | node => "while parsing a node"
  | blockNode => "while parsing a block node"
  | flowNode => "while parsing a flow node"

inductive Problem where
  | encoding
  | controlCharacter
  | expectedColon
  | keyNotAllowed
  | valueNotAllowed
  | entryNotAllowed
  | noToken
  | unknownDirective
  | expectedDirectiveName
  | expectedLineEnd
  | expectedVersion
  | longVersion
  | expectedDot
  | expectedBlank
  | expectedBlankOrBreak
  | duplicateVersion
  | incompatibleVersion
  | duplicateTag
  | undefinedTag
  | expectedName
  | expectedExclamation
  | expectedUri
  | expectedEscape
  | badEscapedByte
  | expectedCloseAngle
  | zeroIndent
  | tabAsIndent
  | tabBeforeText
  | documentIndicator
  | endOfStream
  | unknownEscape
  | expectedHexDigit
  | badCodePoint
  | colonInFlow
  | expectedDocumentStart
  | expectedNode
  | expectedDash
  | expectedKey
  | expectedSequenceEnd
  | expectedMappingEnd
  | unknownAnchor
  | severalDocuments
  deriving Repr, DecidableEq, Inhabited

def Problem.describe : Problem → String
  | encoding => "invalid leading UTF-8 octet"
  | controlCharacter => "control characters are not allowed"
  | expectedColon => "could not find expected ':'"
  | keyNotAllowed => "mapping keys are not allowed in this context"
  | valueNotAllowed => "mapping values are not allowed in this context"
  | entryNotAllowed => "block sequence entries are not allowed in this context"
  | noToken => "found character that cannot start any token"
  | unknownDirective => "found unknown directive name"
  | expectedDirectiveName => "could not find expected directive name"
  | expectedLineEnd => "did not find expected comment or line break"
  | expectedVersion => "did not find expected version number"
  | longVersion => "found extremely long version number"
  | expectedDot => "did not find expected digit or '.' character"
  | expectedBlank => "did not find expected whitespace"
  | expectedBlankOrBreak => "did not find expected whitespace or line break"
  | duplicateVersion => "found duplicate %YAML directive"
  | incompatibleVersion => "found incompatible YAML document"
  | duplicateTag => "found duplicate %TAG directive"
  | undefinedTag => "found undefined tag handle"
  | expectedName => "did not find expected alphabetic or numeric character"
  | expectedExclamation => "did not find expected '!'"
  | expectedUri => "did not find expected tag URI"
  | expectedEscape => "did not find URI escaped octet"
  | badEscapedByte => "found an incorrect leading UTF-8 octet"
  | expectedCloseAngle => "did not find the expected '>'"
  | zeroIndent => "found an indentation indicator equal to 0"
  | tabAsIndent => "found a tab character where an indentation space is expected"
  | tabBeforeText => "found a tab character that violates indentation"
  | documentIndicator => "found unexpected document indicator"
  | endOfStream => "found unexpected end of stream"
  | unknownEscape => "found unknown escape character"
  | expectedHexDigit => "did not find expected hexdecimal number"
  | badCodePoint => "found invalid Unicode character escape code"
  | colonInFlow => "found unexpected ':'"
  | expectedDocumentStart => "did not find expected <document start>"
  | expectedNode => "did not find expected node content"
  | expectedDash => "did not find expected '-' indicator"
  | expectedKey => "did not find expected key"
  | expectedSequenceEnd => "did not find expected ',' or ']'"
  | expectedMappingEnd => "did not find expected ',' or '\x7d'"
  | unknownAnchor => "unknown anchor"
  | severalDocuments =>
      "deserializing from YAML containing more than one document is not supported"

structure Fault where
  problem : Problem
  context : Option Context := none
  deriving Repr, DecidableEq, Inhabited

def Fault.message (fault : Fault) : String :=
  match fault.context with
  | some context => fault.problem.describe ++ ", " ++ context.describe
  | none => fault.problem.describe

end ScopeLexer.Yaml
