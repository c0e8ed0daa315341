import ScopeLexer.Scan

/-!
# Tokens of lines and documents

`Grammar.tokenizeLine` turns a line into tokens and leads from the state in front of the line to the
one behind it; `Grammar.tokenizeDocument` does so for all lines of a text.
-/

namespace ScopeLexer

structure TokenizeOptions where
  mergeAdjacent : Bool := true
  /-- Lines with more bytes are not scanned. -/
  maxLineLength : Option Nat := none
  deriving Repr, DecidableEq, Inhabited

def TokenizeOptions.skips (options : TokenizeOptions) (line : Text) : Bool :=
  options.maxLineLength.any fun limit => limit < line.byteSize

namespace Grammar

/-- Tokenize a line, which may end with a line feed.  A line that is too long is one token, with the
scopes that are open in front of it. -/
def tokenizeLine (grammar : Grammar) (options : TokenizeOptions) (state : State) (line : Text) :
    Except ScanFault (List Token × State) := do
  if options.skips line then
    return ([⟨0, line.byteSize, state.scopes.toList⟩], { state with lines := state.lines + 1 })
  let started := state.startLine
  let scan : Scan := { grammar, line := line.endLine, isFirst := state.lines == 0 }
  let cursor ← scan.wholeLine started.lineAnchor started.scopes started.frames
  return (cursor.stream.finish line.byteSize options.mergeAdjacent cursor.scopes.toList,
    { scopes := cursor.scopes, frames := cursor.frames, lines := state.lines + 1 })

def tokenizeLines (grammar : Grammar) (options : TokenizeOptions) :
    State → List Text → Except ScanFault (List (Text × List Token))
  | _, [] => .ok []
  | state, line :: lines => do
      let (tokens, next) ← grammar.tokenizeLine options state line
      let others ← grammar.tokenizeLines options next lines
      return (line, tokens) :: others

end Grammar

/-- The lines of a document.  A line feed at the end begins no further line. -/
def documentLines (text : List Char) : List (List Char) :=
  if text.getLast? == some '\n' then text.dropLast.splitOn '\n' else text.splitOn '\n'

def Grammar.tokenizeDocument (grammar : Grammar) (options : TokenizeOptions) (text : Text) :
    Except ScanFault (List (Text × List Token)) :=
  grammar.tokenizeLines options (State.initial grammar)
    ((documentLines text.toList).map fun line => ⟨line.toArray⟩)

end ScopeLexer
