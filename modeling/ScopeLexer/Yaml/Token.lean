import ScopeLexer.Yaml.Scalar

/-!
# Tokens of YAML text

`tokensOf` splits text into tokens.  Indentation becomes tokens that open and close block
collections.  A key in front of a colon is only known to be one when the colon is met: the tokens
for it are put in front of it then.
-/

namespace ScopeLexer.Yaml

inductive Token where
  | versionDirective
  | tagDirective (handle target : List Char)
  | documentStart
  | documentEnd
  | blockSequenceStart
  | blockMappingStart
  | blockEnd
  | flowSequenceStart
  | flowSequenceEnd
  | flowMappingStart
  | flowMappingEnd
  | blockEntry
  | flowEntry
  | key
  | value
  | aliasOf (name : List Char)
  | anchor (name : List Char)
  | tag (handle suffix : List Char)
  | scalar (isPlain : Bool) (text : List Char)
  deriving Repr, DecidableEq, Inhabited

/-! ## Anchors, tags and directives -/

def scanName (context : Context) (cursor : Cursor) : Except Fault (List Char × Cursor) :=
  let (name, cursor) := cursor.takeWhile isNameChar
  let ended := atSpace cursor.rest || cursor.rest.head?.any ("?:,]\x7d%@\x60".toList.contains ·)
  if name.isEmpty || !ended then .error ⟨.expectedName, some context⟩ else .ok (name, cursor)

def escapedByte? : List Char → Option Nat
  | '%' :: a :: b :: _ => hexValue? [a, b]
  | _ => none

def scanEscapedBytes (context : Context) : (count : Nat) → (code : Nat) → Cursor →
    Except Fault (Nat × Cursor)
  | 0, code, cursor => .ok (code, cursor)
  | count + 1, code, cursor =>
      match escapedByte? cursor.rest with
      | none => .error ⟨.expectedEscape, some context⟩
      | some byte =>
          if byte / 64 == 2 then
            scanEscapedBytes context count (code * 64 + byte % 64) (cursor.skip 3)
          else .error ⟨.badEscapedByte, some context⟩

def scanEscaped (context : Context) (cursor : Cursor) : Except Fault (Char × Cursor) := do
  match escapedByte? cursor.rest with
  | none => throw ⟨.expectedEscape, some context⟩
  | some byte =>
      let cursor := cursor.skip 3
      let (code, cursor) ←
        if byte < 0x80 then .ok (byte, cursor)
        else if byte / 32 == 6 then scanEscapedBytes context 1 (byte % 32) cursor
        else if byte / 16 == 14 then scanEscapedBytes context 2 (byte % 16) cursor
        else if byte / 8 == 30 then scanEscapedBytes context 3 (byte % 8) cursor
        else throw ⟨.badEscapedByte, some context⟩
      return (Char.ofNat code, cursor)

def isUriChar (verbatim : Bool) (c : Char) : Bool :=
  isNameChar c || ";/?:@&=+$.%!~*'()".toList.contains c
    || (verbatim && (c == ',' || c == '[' || c == ']'))

def scanUriChars (verbatim : Bool) (context : Context) : (fuel : Nat) → (text : List Char) →
    Cursor → Except Fault (List Char × Cursor)
  | 0, text, cursor => .ok (text, cursor)
  | fuel + 1, text, cursor =>
      match cursor.rest with
      | [] => .ok (text, cursor)
      | c :: _ =>
          if !isUriChar verbatim c then .ok (text, cursor)
          else if c == '%' then do
            let (escaped, cursor) ← scanEscaped context cursor
            scanUriChars verbatim context fuel (text ++ [escaped]) cursor
          else scanUriChars verbatim context fuel (text ++ [c]) cursor.skip

def scanUri (verbatim : Bool) (context : Context) (head : List Char) (cursor : Cursor) :
    Except Fault (List Char × Cursor) := do
  let (text, cursor) ← scanUriChars verbatim context (cursor.rest.length + 1) head.tail cursor
  if head.isEmpty && text.isEmpty then throw ⟨.expectedUri, some context⟩
  return (text, cursor)

def scanHandle (inDirective : Bool) (context : Context) (cursor : Cursor) :
    Except Fault (List Char × Cursor) :=
  match cursor.rest with
  | '!' :: _ =>
      let (name, cursor) := cursor.skip.takeWhile isNameChar
      match cursor.rest with
      | '!' :: _ => .ok ('!' :: name ++ ['!'], cursor.skip)
      | _ =>
          if inDirective && !name.isEmpty then .error ⟨.expectedExclamation, some context⟩
          else .ok ('!' :: name, cursor)
  | _ => .error ⟨.expectedExclamation, some context⟩

def scanVerbatimTag (cursor : Cursor) : Except Fault (Token × Cursor) := do
  let (suffix, cursor) ← scanUri true .tag [] (cursor.skip 2)
  if cursor.rest.head? != some '>' then throw ⟨.expectedCloseAngle, some .tag⟩
  return (.tag [] suffix, cursor.skip)

def scanShortTag (cursor : Cursor) : Except Fault (Token × Cursor) := do
  let (handle, cursor) ← scanHandle false .tag cursor
  if 2 ≤ handle.length && handle.getLast? == some '!' then
    let (suffix, cursor) ← scanUri false .tag [] cursor
    return (.tag handle suffix, cursor)
  let (suffix, cursor) ← scanUri false .tag handle cursor
  if suffix.isEmpty then return (.tag [] ['!'], cursor)
  return (.tag ['!'] suffix, cursor)

def scanTag (inFlow : Bool) (cursor : Cursor) : Except Fault (Token × Cursor) := do
  let (token, cursor) ←
    match cursor.rest with
    | '!' :: '<' :: _ => scanVerbatimTag cursor
    | _ => scanShortTag cursor
  if atSpace cursor.rest || (inFlow && cursor.rest.head? == some ',') then return (token, cursor)
  throw ⟨.expectedBlankOrBreak, some .tag⟩

def scanVersionNumber (cursor : Cursor) : Except Fault (Nat × Cursor) :=
  let (digits, cursor) := cursor.takeWhile Char.isDigit
  if digits.isEmpty then .error ⟨.expectedVersion, some .versionDirective⟩
  else if 9 < digits.length then .error ⟨.longVersion, some .versionDirective⟩
  else
    .ok (digits.foldl (fun value c => value * 10 + (c.toNat - '0'.toNat)) 0, cursor)

def scanVersion (cursor : Cursor) : Except Fault (Token × Cursor) := do
  let (major, cursor) ← scanVersionNumber cursor.skipBlanks
  if cursor.rest.head? != some '.' then throw ⟨.expectedDot, some .versionDirective⟩
  let (minor, cursor) ← scanVersionNumber cursor.skip
  if major != 1 || (minor != 1 && minor != 2) then throw { problem := .incompatibleVersion }
  return (.versionDirective, cursor)

def scanTagDirective (cursor : Cursor) : Except Fault (Token × Cursor) := do
  let (handle, cursor) ← scanHandle true .tagDirective cursor.skipBlanks
  if !cursor.rest.head?.any isBlank then throw ⟨.expectedBlank, some .tagDirective⟩
  let (target, cursor) ← scanUri true .tagDirective [] cursor.skipBlanks
  if !atSpace cursor.rest then throw ⟨.expectedBlankOrBreak, some .tagDirective⟩
  return (.tagDirective handle target, cursor)

def scanDirective (cursor : Cursor) : Except Fault (Token × Cursor) := do
  let (name, cursor) := cursor.skip.takeWhile isNameChar
  if name.isEmpty then throw ⟨.expectedDirectiveName, some .directive⟩
  if !atSpace cursor.rest then throw ⟨.expectedName, some .directive⟩
  let (token, cursor) ←
    if name == "YAML".toList then scanVersion cursor
    else if name == "TAG".toList then scanTagDirective cursor
    else throw ⟨.unknownDirective, some .directive⟩
  let cursor := cursor.skipBlanks.skipComment
  if !atBreak cursor.rest then throw ⟨.expectedLineEnd, some .directive⟩
  return (token, cursor.skipBreak)

/-! ## The state of a scan -/

structure KeyStart where
  tokens : Nat
  required : Bool
  index : Nat
  line : Nat
  column : Nat
  deriving Repr, Inhabited

structure Scanner where
  cursor : Cursor
  /-- The tokens, last first. -/
  tokens : List Token := []
  indents : List Nat := []
  keyAllowed : Bool := true
  key : Option KeyStart := none
  /-- The same for the text around each open flow collection. -/
  outerKeys : List (Option KeyStart) := []
  deriving Repr, Inhabited

namespace Scanner

def inFlow (scanner : Scanner) : Bool := !scanner.outerKeys.isEmpty

def insertToken (scanner : Scanner) (count : Nat) (token : Token) : Scanner :=
  { scanner with
    tokens := scanner.tokens.insertIdx (scanner.tokens.length - count) token }

def nextIndent (scanner : Scanner) : Nat :=
  match scanner.indents with
  | [] => 0
  | indent :: _ => indent + 1

def closeBlocks (keep : Nat → Bool) : List Nat → List Token → List Nat × List Token
  | [], tokens => ([], tokens)
  | indent :: indents, tokens =>
      if keep indent then (indent :: indents, tokens)
      else closeBlocks keep indents (.blockEnd :: tokens)

def unroll (scanner : Scanner) (column : Nat) : Scanner :=
  if scanner.inFlow then scanner
  else
    let (indents, tokens) := closeBlocks (· ≤ column) scanner.indents scanner.tokens
    { scanner with indents, tokens }

def unrollAll (scanner : Scanner) : Scanner :=
  if scanner.inFlow then scanner
  else
    let (indents, tokens) := closeBlocks (fun _ => false) scanner.indents scanner.tokens
    { scanner with indents, tokens }

/-- Open a block collection at a column, unless one is open there; its token goes behind the first
`count` ones. -/
def roll (scanner : Scanner) (column count : Nat) (token : Token) : Scanner :=
  if scanner.inFlow || column < scanner.nextIndent then scanner
  else { scanner.insertToken count token with indents := column :: scanner.indents }

def dropKey (scanner : Scanner) : Except Fault Scanner :=
  if scanner.key.any (·.required) then .error ⟨.expectedColon, some .simpleKey⟩
  else .ok { scanner with key := none }

def saveKey (scanner : Scanner) : Except Fault Scanner :=
  if scanner.keyAllowed then do
    let scanner ← scanner.dropKey
    let cursor := scanner.cursor
    let required := !scanner.inFlow && scanner.indents.head? == some cursor.column
    return { scanner with
      key := some ⟨scanner.tokens.length, required, cursor.index, cursor.line, cursor.column⟩ }
  else
    return scanner

/-- The key that ends here: it lies on one line and is not longer than 1024 characters. -/
def currentKey? (scanner : Scanner) : Except Fault (Option KeyStart) :=
  match scanner.key with
  | none => .ok none
  | some key =>
      if key.line < scanner.cursor.line || key.index + 1024 < scanner.cursor.index then
        if key.required then .error ⟨.expectedColon, some .simpleKey⟩ else .ok none
      else
        .ok (some key)

def accept (scanner : Scanner) (length : Nat) (token : Token) : Scanner :=
  { scanner with cursor := scanner.cursor.skip length, tokens := token :: scanner.tokens }

def take (scanner : Scanner) (read : Token × Cursor) : Scanner :=
  { scanner with cursor := read.2, tokens := read.1 :: scanner.tokens }

/-! ## Between tokens -/

/-- Step over white space and comments.  A tab may not stand where a key could begin. -/
def skipSpace : (fuel : Nat) → Scanner → Scanner
  | 0, scanner => scanner
  | fuel + 1, scanner =>
      let cursor := scanner.cursor
      let cursor :=
        if cursor.column == 0 && cursor.rest.head? == some '\ufeff' then cursor.skip else cursor
      let tabs := scanner.inFlow || !scanner.keyAllowed
      let cursor := (cursor.skipWhile fun c => c == ' ' || (tabs && c == '\t')).skipComment
      if cursor.rest.head?.any isBreak then
        skipSpace fuel { scanner with
          cursor := cursor.skipBreak
          keyAllowed := scanner.keyAllowed || !scanner.inFlow }
      else
        { scanner with cursor }

/-! ## One token -/

def endBlocks (scanner : Scanner) : Except Fault Scanner := do
  let scanner ← scanner.unrollAll.dropKey
  return { scanner with keyAllowed := false }

def openFlow (scanner : Scanner) (token : Token) : Except Fault Scanner := do
  let scanner ← scanner.saveKey
  return { scanner.accept 1 token with
    key := none
    outerKeys := scanner.key :: scanner.outerKeys
    keyAllowed := true }

def closeFlow (scanner : Scanner) (token : Token) : Except Fault Scanner := do
  let scanner ← scanner.dropKey
  let (key, outerKeys) := match scanner.outerKeys with
    | key :: outer => (key, outer)
    | [] => (scanner.key, [])
  return { scanner.accept 1 token with key, outerKeys, keyAllowed := false }

def flowEntry (scanner : Scanner) : Except Fault Scanner := do
  let scanner ← scanner.dropKey
  return { scanner.accept 1 .flowEntry with keyAllowed := true }

def blockEntry (scanner : Scanner) : Except Fault Scanner := do
  if !scanner.inFlow && !scanner.keyAllowed then throw { problem := .entryNotAllowed }
  let scanner ←
    (scanner.roll scanner.cursor.column scanner.tokens.length .blockSequenceStart).dropKey
  return { scanner.accept 1 .blockEntry with keyAllowed := true }

def explicitKey (scanner : Scanner) : Except Fault Scanner := do
  if !scanner.inFlow && !scanner.keyAllowed then throw { problem := .keyNotAllowed }
  let scanner ←
    (scanner.roll scanner.cursor.column scanner.tokens.length .blockMappingStart).dropKey
  return { scanner.accept 1 .key with keyAllowed := !scanner.inFlow }

def value (scanner : Scanner) : Except Fault Scanner := do
  match ← scanner.currentKey? with
  | some key =>
      let scanner := (scanner.insertToken key.tokens .key).roll key.column key.tokens
        .blockMappingStart
      return { scanner.accept 1 .value with key := none, keyAllowed := false }
  | none =>
      if !scanner.inFlow && !scanner.keyAllowed then throw { problem := .valueNotAllowed }
      let scanner :=
        scanner.roll scanner.cursor.column scanner.tokens.length .blockMappingStart
      return { scanner.accept 1 .value with keyAllowed := !scanner.inFlow }

def startsPlain (inFlow : Bool) (c : Char) (rest : List Char) : Bool :=
  let isIndicator := "-?:,[]\x7b\x7d#&*!|>'\"%@\x60".toList.contains c
  (!isBlank c && !isBreak c && !isIndicator)
    || (c == '-' && !rest.head?.any isBlank)
    || (!inFlow && (c == '?' || c == ':') && !atSpace rest)

def blockScalar (scanner : Scanner) (folded : Bool) : Except Fault Scanner := do
  let scanner ← scanner.dropKey
  let (text, cursor) ←
    scanBlock folded (scanner.indents.head?.getD 0) scanner.nextIndent scanner.cursor.skip
  return { scanner.take (.scalar false text, cursor) with keyAllowed := true }

def quotedScalar (scanner : Scanner) (quote : Char) : Except Fault Scanner := do
  let scanner ← scanner.saveKey
  let (text, cursor) ← scanQuoted quote (scanner.cursor.rest.length + 1) [] scanner.cursor.skip
  return { scanner.take (.scalar false text, cursor) with keyAllowed := false }

def plainScalar (scanner : Scanner) : Except Fault Scanner := do
  let scanner ← scanner.saveKey
  let ((text, broken), cursor) ← scanPlain scanner.inFlow scanner.nextIndent
    (scanner.cursor.rest.length + 1) [] {} scanner.cursor
  return { scanner.take (.scalar true text, cursor) with keyAllowed := broken }

def name (scanner : Scanner) (context : Context) (token : List Char → Token) :
    Except Fault Scanner := do
  let scanner ← scanner.saveKey
  let (name, cursor) ← scanName context scanner.cursor.skip
  return { scanner.take (token name, cursor) with keyAllowed := false }

def tag (scanner : Scanner) : Except Fault Scanner := do
  let scanner ← scanner.saveKey
  let read ← scanTag scanner.inFlow scanner.cursor
  return { scanner.take read with keyAllowed := false }

def directive (scanner : Scanner) : Except Fault Scanner := do
  let scanner ← scanner.endBlocks
  return scanner.take (← scanDirective scanner.cursor)

def indicator (scanner : Scanner) (token : Token) : Except Fault Scanner := do
  let scanner ← scanner.endBlocks
  return scanner.accept 3 token

def next (scanner : Scanner) (c : Char) (rest : List Char) : Except Fault Scanner :=
  let inFlow := scanner.inFlow
  if scanner.cursor.column == 0 && c == '%' then scanner.directive
  else if scanner.cursor.atTriple '-' then scanner.indicator .documentStart
  else if scanner.cursor.atTriple '.' then scanner.indicator .documentEnd
  else if c == '[' then scanner.openFlow .flowSequenceStart
  else if c == '{' then scanner.openFlow .flowMappingStart
  else if c == ']' then scanner.closeFlow .flowSequenceEnd
  else if c == '}' then scanner.closeFlow .flowMappingEnd
  else if c == ',' then scanner.flowEntry
  else if c == '-' && atSpace rest then scanner.blockEntry
  else if c == '?' && (inFlow || atSpace rest) then scanner.explicitKey
  else if c == ':' && (inFlow || atSpace rest) then scanner.value
  else if c == '*' then scanner.name .aliasName .aliasOf
  else if c == '&' then scanner.name .anchor .anchor
  else if c == '!' then scanner.tag
  else if c == '|' && !inFlow then scanner.blockScalar false
  else if c == '>' && !inFlow then scanner.blockScalar true
  else if c == '\'' || c == '"' then scanner.quotedScalar c
  else if startsPlain inFlow c rest then scanner.plainScalar
  else .error ⟨.noToken, some .nextToken⟩

def run : (fuel : Nat) → Scanner → Except Fault Scanner
  | 0, scanner => .ok scanner
  | fuel + 1, scanner => do
      let scanner := skipSpace (scanner.cursor.rest.length + 1) scanner
      match scanner.cursor.rest with
      | [] => scanner.endBlocks
      | c :: rest => run fuel (← (scanner.unroll scanner.cursor.column).next c rest)

end Scanner

def tokensOf (text : List Char) : Except Fault (List Token) := do
  let scanner ← Scanner.run (text.length + 1) { cursor := { rest := text } }
  return scanner.tokens.reverse

end ScopeLexer.Yaml
