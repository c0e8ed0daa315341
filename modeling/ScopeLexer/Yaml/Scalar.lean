import ScopeLexer.Yaml.Cursor

/-!
# Scalars

How the text of plain, quoted and block scalars is read.  Line breaks within a scalar are folded:
one break stands for a space, further ones for themselves.
-/

namespace ScopeLexer.Yaml

/-! ## Gaps between words -/

structure Gap where
  blanks : List Char := []
  broken : Bool := false
  first : List Char := []
  others : List Char := []
  deriving Repr, Inhabited

def foldBreaks (first others : List Char) : List Char :=
  if first == ['\n'] then
    if others.isEmpty then [' '] else others
  else
    first ++ others

def Gap.text (gap : Gap) : List Char :=
  if gap.broken then foldBreaks gap.first gap.others else gap.blanks

/-- Read white space.  In a plain scalar no tab may stand in front of column `indent`. -/
def scanGap (indent : Nat) : (fuel : Nat) → Gap → Cursor → Except Fault (Gap × Cursor)
  | 0, gap, cursor => .ok (gap, cursor)
  | fuel + 1, gap, cursor =>
      match cursor.rest with
      | [] => .ok (gap, cursor)
      | c :: _ =>
          if isBlank c then
            if gap.broken && cursor.column < indent && c == '\t' then
              .error ⟨.tabBeforeText, some .plainScalar⟩
            else
              let gap := if gap.broken then gap else { gap with blanks := gap.blanks ++ [c] }
              scanGap indent fuel gap cursor.skip
          else if isBreak c then
            let (text, cursor) := cursor.takeBreak
            let gap :=
              if gap.broken then { gap with others := gap.others ++ text }
              else { blanks := [], broken := true, first := text, others := [] }
            scanGap indent fuel gap cursor
          else
            .ok (gap, cursor)

/-! ## Plain scalars -/

def isFlowIndicator (c : Char) : Bool :=
  c == ',' || c == '[' || c == ']' || c == '{' || c == '}'

def wordLength (inFlow : Bool) : List Char → Except Fault Nat
  | [] => .ok 0
  | c :: rest =>
      if isBlank c || isBreak c then .ok 0
      else if inFlow && c == ':' && rest.head?.any (fun d => isFlowIndicator d || d == '?') then
        .error ⟨.colonInFlow, some .plainScalar⟩
      else if (c == ':' && atSpace rest) || (inFlow && isFlowIndicator c) then .ok 0
      else (wordLength inFlow rest).map (· + 1)

/-- Read a plain scalar whose further lines begin at column `indent` or behind it.  Gives its text,
and whether a break lies behind it. -/
def scanPlain (inFlow : Bool) (indent : Nat) : (fuel : Nat) → (text : List Char) → Gap → Cursor →
    Except Fault ((List Char × Bool) × Cursor)
  | 0, text, gap, cursor => .ok ((text, gap.broken), cursor)
  | fuel + 1, text, gap, cursor => do
      if cursor.atIndicator || cursor.rest.head? == some '#' then
        return ((text, gap.broken), cursor)
      let length ← wordLength inFlow cursor.rest
      let (text, gap) :=
        if length == 0 then (text, gap)
        else (text ++ gap.text ++ cursor.rest.take length, {})
      let cursor := cursor.skip length
      if cursor.rest.isEmpty || !atSpace cursor.rest then
        return ((text, gap.broken), cursor)
      let (gap, cursor) ← scanGap indent (cursor.rest.length + 1) gap cursor
      if !inFlow && cursor.column < indent then
        return ((text, gap.broken), cursor)
      scanPlain inFlow indent fuel text gap cursor

/-! ## Quoted scalars -/

def hexValue? (digits : List Char) : Option Nat :=
  digits.foldlM (fun value c =>
    if c.isDigit then some (value * 16 + (c.toNat - '0'.toNat))
    else if 'a' ≤ c && c ≤ 'f' then some (value * 16 + (c.toNat - 'a'.toNat + 10))
    else if 'A' ≤ c && c ≤ 'F' then some (value * 16 + (c.toNat - 'A'.toNat + 10))
    else none) 0

def shortEscape? (c : Char) : Option Char :=
  [('0', '\x00'), ('a', '\x07'), ('b', '\x08'), ('t', '\t'), ('\t', '\t'), ('n', '\n'),
    ('v', '\x0b'), ('f', '\x0c'), ('r', '\r'), ('e', '\x1b'), (' ', ' '), ('"', '"'), ('/', '/'),
    ('\\', '\\'), ('N', '\x85'), ('_', '\xa0'), ('L', '\u2028'), ('P', '\u2029')].lookup c

def escapeDigits? (c : Char) : Option Nat :=
  [('x', 2), ('u', 4), ('U', 8)].lookup c

def scanEscape (text : List Char) : Except Fault (Char × Nat) :=
  match text with
  | [] => .error ⟨.unknownEscape, some .quotedScalar⟩
  | c :: rest =>
      match shortEscape? c, escapeDigits? c with
      | some escaped, _ => .ok (escaped, 1)
      | none, none => .error ⟨.unknownEscape, some .quotedScalar⟩
      | none, some count =>
          let digits := rest.take count
          match hexValue? digits with
          | some code =>
              if digits.length < count then .error ⟨.expectedHexDigit, some .quotedScalar⟩
              else if h : code.isValidChar then .ok (Char.ofNatAux code h, count + 1)
              else .error ⟨.badCodePoint, some .quotedScalar⟩
          | none => .error ⟨.expectedHexDigit, some .quotedScalar⟩

def scanQuotedWord (quote : Char) : (fuel : Nat) → (text : List Char) → Cursor →
    Except Fault ((List Char × Bool) × Cursor)
  | 0, text, cursor => .ok ((text, false), cursor)
  | fuel + 1, text, cursor =>
      match cursor.rest with
      | [] => .ok ((text, false), cursor)
      | c :: rest =>
          if isBlank c || isBreak c then .ok ((text, false), cursor)
          else if c == '\'' && quote == '\'' && rest.head? == some '\'' then
            scanQuotedWord quote fuel (text ++ ['\'']) (cursor.skip 2)
          else if c == quote then .ok ((text, false), cursor)
          else if c == '\\' && quote == '"' then
            if rest.head?.any isBreak then .ok ((text, true), cursor.skip.skipBreak)
            else do
              let (escaped, length) ← scanEscape rest
              scanQuotedWord quote fuel (text ++ [escaped]) (cursor.skip (length + 1))
          else scanQuotedWord quote fuel (text ++ [c]) cursor.skip

def scanQuoted (quote : Char) : (fuel : Nat) → (text : List Char) → Cursor →
    Except Fault (List Char × Cursor)
  | 0, _, _ => .error ⟨.endOfStream, some .quotedScalar⟩
  | fuel + 1, text, cursor => do
      if cursor.atIndicator then throw ⟨.documentIndicator, some .quotedScalar⟩
      if cursor.rest.isEmpty then throw ⟨.endOfStream, some .quotedScalar⟩
      let ((word, broken), cursor) ← scanQuotedWord quote (cursor.rest.length + 1) [] cursor
      let text := text ++ word
      if cursor.rest.head? == some quote then return (text, cursor.skip)
      let (gap, cursor) ← scanGap 0 (cursor.rest.length + 1) { broken } cursor
      scanQuoted quote fuel (text ++ gap.text) cursor

/-! ## Block scalars -/

inductive Chomping where
  | strip
  | clip
  | keep
  deriving Repr, DecidableEq, Inhabited

def Chomping.ofSign? (c : Char) : Option Chomping :=
  if c == '+' then some .keep else if c == '-' then some .strip else none

def scanIncrement (cursor : Cursor) : Except Fault (Option Nat × Cursor) :=
  match cursor.rest with
  | c :: _ =>
      if c == '0' then .error ⟨.zeroIndent, some .blockScalar⟩
      else if c.isDigit then .ok (some (c.toNat - '0'.toNat), cursor.skip)
      else .ok (none, cursor)
  | [] => .ok (none, cursor)

def scanChomping (cursor : Cursor) : Option Chomping × Cursor :=
  match cursor.rest.head?.bind Chomping.ofSign? with
  | some chomping => (some chomping, cursor.skip)
  | none => (none, cursor)

def scanHeader (cursor : Cursor) : Except Fault ((Chomping × Option Nat) × Cursor) := do
  let (before, cursor) := scanChomping cursor
  let (increment, cursor) ← scanIncrement cursor
  let (chomping, cursor) :=
    if before.isNone && increment.isSome then scanChomping cursor else (before, cursor)
  let cursor := cursor.skipBlanks.skipComment
  if !atBreak cursor.rest then throw ⟨.expectedLineEnd, some .blockScalar⟩
  return ((chomping.getD .clip, increment), cursor.skipBreak)

/-- Read the indentation of a line and empty lines.  While the indentation is not known, `widest` is
the greatest seen. -/
def scanIndent (indent : Option Nat) : (fuel : Nat) → (widest : Nat) → (breaks : List Char) →
    Cursor → Except Fault ((List Char × Nat) × Cursor)
  | 0, widest, breaks, cursor => .ok ((breaks, widest), cursor)
  | fuel + 1, widest, breaks, cursor =>
      let spaces := (cursor.rest.takeWhile (· == ' ')).length
      let count := match indent with
        | some indent => min spaces (indent - cursor.column)
        | none => spaces
      let cursor := cursor.skip count
      let widest := max widest cursor.column
      match cursor.rest with
      | c :: _ =>
          if c == '\t' && indent.all (cursor.column < ·) then
            .error ⟨.tabAsIndent, some .blockScalar⟩
          else if isBreak c then
            let (text, cursor) := cursor.takeBreak
            scanIndent indent fuel widest (breaks ++ text) cursor
          else
            .ok ((breaks, widest), cursor)
      | [] => .ok ((breaks, widest), cursor)

structure BlockText where
  text : List Char := []
  last : List Char := []
  empty : List Char := []
  indented : Bool := false
  deriving Repr, Inhabited

/-- Add a line to a block scalar.  Breaks around lines that begin with a blank are not folded. -/
def BlockText.addLine (block : BlockText) (folded : Bool) (line : List Char) : BlockText :=
  let indented := line.head?.any isBlank
  let lineBreak :=
    if folded && block.last == ['\n'] && !block.indented && !indented then
      if block.empty.isEmpty then [' '] else []
    else
      block.last
  { text := block.text ++ lineBreak ++ block.empty ++ line
    last := []
    empty := []
    indented }

def scanBlockLines (folded : Bool) (indent : Nat) : (fuel : Nat) → BlockText → Cursor →
    Except Fault (BlockText × Cursor)
  | 0, block, cursor => .ok (block, cursor)
  | fuel + 1, block, cursor => do
      if cursor.column != indent || cursor.rest.isEmpty then return (block, cursor)
      let (line, cursor) := cursor.takeWhile fun c => !isBreak c
      let block := block.addLine folded line
      let (last, cursor) := cursor.takeBreak
      let ((empty, _), cursor) ←
        scanIndent (some indent) (cursor.rest.length + 1) 0 [] cursor
      scanBlockLines folded indent fuel { block with last, empty } cursor

/-- Read a block scalar whose indicator is behind.  It is indented by at least `least` columns, and
a number in its header counts from `base`. -/
def scanBlock (folded : Bool) (base least : Nat) (cursor : Cursor) :
    Except Fault (List Char × Cursor) := do
  let ((chomping, increment), cursor) ← scanHeader cursor
  let given := increment.map (base + ·)
  let ((empty, widest), cursor) ← scanIndent given (cursor.rest.length + 1) 0 [] cursor
  let indent := given.getD (max widest (max least 1))
  let (block, cursor) ←
    scanBlockLines folded indent (cursor.rest.length + 1) { empty } cursor
  let text := match chomping with
    | .strip => block.text
    | .clip => block.text ++ block.last
    | .keep => block.text ++ block.last ++ block.empty
  return (text, cursor)

end ScopeLexer.Yaml
