import ScopeLexer.Definition.Format
import ScopeLexer.Files
import ScopeLexer.Grammar.OfDefinition
import ScopeLexer.Text.Quoted

/-!
# Loading grammars

A grammar is loaded from the file that a path means, or from bytes that come with a path.
-/

namespace ScopeLexer

inductive LoadError where
  | undecodable (path : String) (fault : Definition.Fault)
  | malformed (malformed : Malformed)
  | notFound (path : String)
  | unrecognised (extension path : String)
  | unreadable (path : String) (fault : FileFault)
  deriving Repr, Inhabited

namespace LoadError

def message : LoadError → String
  | undecodable path fault => "invalid grammar at " ++ path ++ ": " ++ fault.message
  | malformed ⟨location, cause⟩ =>
      "invalid grammar at " ++ location.render ++ ": " ++ cause.message
  | notFound path => "grammar file " ++ path ++ " not found"
  | unrecognised extension path =>
      "unrecognised grammar extension " ++ Quoted.encode extension.toList true ++ " for " ++ path
  | unreadable path fault => "could not read " ++ path ++ ": " ++ fault.message

def cause? : LoadError → Option FileFault
  | unreadable _ fault => some fault
  | _ => none

end LoadError

section

variable {m : Type → Type} [Monad m] [MonadFiles m]

/-- Read a definition from bytes, in the format that the path tells. -/
def definitionOfBytes (bytes : List UInt8) (path : String) :
    m (Except LoadError GrammarDefinition) := do
  match ← selectFormat path Format.byExtension with
  | .file file format => return (Definition.decode format bytes).mapError (.undecodable file)
  | .unrecognised extension => return .error (.unrecognised extension path)
  | .missing => return .error (.notFound path)

def definitionOfPath (path : String) : m (Except LoadError GrammarDefinition) := do
  match ← selectFormat path Format.byExtension with
  | .file file format =>
      match ← MonadFiles.read file with
      | .ok bytes => return (Definition.decode format bytes).mapError (.undecodable file)
      | .error fault => return .error (.unreadable file fault)
  | .unrecognised extension => return .error (.unrecognised extension path)
  | .missing => return .error (.notFound path)

end

def grammarOf (definition : Except LoadError GrammarDefinition) : Except LoadError Grammar := do
  (Grammar.ofDefinition (← definition)).mapError .malformed

end ScopeLexer
