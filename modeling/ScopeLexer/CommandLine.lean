import ScopeLexer.CommandLine.Arguments
import ScopeLexer.Definition.Compiled
import ScopeLexer.Json.Writer
import ScopeLexer.Listing
import ScopeLexer.Loading
import ScopeLexer.Tokenizer

/-!
# The program

`CommandLine.run` does what the arguments ask for and gives what is printed.  Files are only reached
through `MonadFiles`, so the program runs on a disk in memory as well.
-/

namespace ScopeLexer.CommandLine

structure Outcome where
  code : Nat
  output : String := ""
  complaint : String := ""
  deriving Repr, DecidableEq, Inhabited

structure Failure where
  message : String
  causes : List String := []
  deriving Repr, DecidableEq, Inhabited

namespace Failure

def hang (indent : String) (text : String) : String :=
  ("\n" ++ indent).intercalate (text.splitOn "\n")

/-- The causes of a failure, numbered when there are several. -/
def writeCauses : List String → String
  | [] => ""
  | [cause] => "\n\nCaused by:\n    " ++ hang "    " cause
  | causes =>
      "\n\nCaused by:" ++ String.join (causes.zipIdx.map fun (cause, number) =>
        "\n    " ++ toString number ++ ": " ++ hang "       " cause)

def text (failure : Failure) : String :=
  "Error: " ++ failure.message ++ writeCauses failure.causes ++ "\n"

def ofLoadError (message : String) (error : LoadError) : Failure :=
  ⟨message, error.message :: (error.cause?.map FileFault.message).toList⟩

def ofScanFault : ScanFault → Failure
  | .unresolved unresolved => ⟨unresolved.message, []⟩
  | .endless => ⟨"the rules of the grammar never come to an end", []⟩

def outcome (failure : Failure) (output : String := "") : Outcome :=
  { code := 1, output, complaint := failure.text }

end Failure

/-! ## Commands -/

def notText : String := "stream did not contain valid UTF-8"

def tokenLine (line : Text) (token : Token) : String :=
  toString token.start ++ ".." ++ toString token.stop ++ " " ++ Quoted.encode (token.value line)
    ++ " " ++ " ".intercalate token.scopes ++ "\n"

def lineOutput (asJson : Bool) (line : Text) (tokens : List Token) : String :=
  if asJson then Json.writeList (tokens.map Json.writeToken) ++ "\n"
  else String.join (tokens.map (tokenLine line))

section

variable {m : Type → Type} [Monad m] [MonadFiles m]

def load (path : String) : m (Except Failure Grammar) := do
  let definition ← definitionOfPath path
  return (grammarOf definition).mapError
    (.ofLoadError ("failed to load the grammar " ++ path))

def readSource (input : m (List UInt8)) (source : Option String) :
    m (Except Failure (List Char)) := do
  let (message, bytes) ← match source with
    | some path => do
        pure ("failed to read " ++ path, (← MonadFiles.read path).mapError FileFault.message)
    | none => do pure ("failed to read the standard input", .ok (← input))
  match bytes with
  | .error cause => return .error ⟨message, [cause]⟩
  | .ok bytes => return (Utf8.decode bytes).mapError fun _ => ⟨message, [notText]⟩

def tokenize (input : m (List UInt8)) (request : TokenizeRequest) : m Outcome := do
  match ← load request.grammar with
  | .error failure => return failure.outcome
  | .ok grammar =>
      match ← readSource input request.source with
      | .error failure => return failure.outcome
      | .ok text =>
          let options : TokenizeOptions :=
            { mergeAdjacent := !request.noMerge, maxLineLength := request.maxLineLength }
          match grammar.tokenizeDocument options ⟨text.toArray⟩ with
          | .error fault => return (Failure.ofScanFault fault).outcome
          | .ok lines =>
              return { code := 0, output := String.join (lines.map fun (line, tokens) =>
                lineOutput request.asJson line tokens) }

/-- Write the compiled form of a definition that makes a grammar; nothing is written otherwise. -/
def compile (output : Option String) (path : String) : m Outcome := do
  match ← definitionOfPath path with
  | .error error =>
      return (Failure.ofLoadError ("failed to read the grammar " ++ path) error).outcome
  | .ok definition =>
      match Grammar.ofDefinition definition with
      | .error malformed =>
          return (⟨(LoadError.malformed malformed).message, []⟩ : Failure).outcome
      | .ok _ =>
          let target := output.getD (Path.withExtension path Format.compiledExtension)
          match ← MonadFiles.write target (Compiled.encode definition) with
          | .error fault =>
              return (⟨"failed to write " ++ target, [fault.message]⟩ : Failure).outcome
          | .ok _ => return { code := 0 }

def check (path : String) : m Outcome := do
  match ← load path with
  | .error failure => return failure.outcome
  | .ok grammar =>
      let warnings := String.join (grammar.warnings.map fun warning =>
        "warning: " ++ warning.message ++ "\n")
      match grammar.checkReferences with
      | .error unresolved => return (⟨unresolved.message, []⟩ : Failure).outcome warnings
      | .ok _ =>
          let summary := grammar.scopeName ++ ": " ++ toString grammar.rules.size ++ " rules, "
            ++ toString grammar.warnings.length ++ " warnings\n"
          return { code := 0, output := warnings ++ summary }

def list (path : String) : m Outcome := do
  match ← load path with
  | .error failure => return failure.outcome
  | .ok grammar => return { code := 0, output := grammar.listing }

def usage : String :=
  "Usage: " ++ programName ++ " <COMMAND> [OPTIONS] <grammar>\n\nCommands:\n"
    ++ "  tokenize  Tokenize a file, line by line\n"
    ++ "  compile   Compile a grammar to a binary blob that loads faster\n"
    ++ "  check     Load a grammar and resolve all of its references\n"
    ++ "  show      Print the rules of a grammar as a tree\n"

def run (input : m (List UInt8)) (arguments : List String) : m Outcome :=
  match Invocation.ofArguments arguments with
  | .misuse => return { code := 2, complaint := usage }
  | .help => return { code := 0, output := usage }
  | .version program => return { code := 0, output := program ++ " 0.1.0\n" }
  | .run (.tokenize request) => tokenize input request
  | .run (.compile output grammar) => compile output grammar
  | .run (.check grammar) => check grammar
  | .run (.list grammar) => list grammar

end

end ScopeLexer.CommandLine
