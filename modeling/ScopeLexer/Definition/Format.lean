import ScopeLexer.Definition.Compiled
import ScopeLexer.Definition.Json
import ScopeLexer.Definition.Yaml

/-!
# Formats of definitions

A definition is written by hand in JSON or YAML, or compiled.  The extension of a file tells which.
-/

namespace ScopeLexer

inductive Format where
  | compiled
  | json
  | yaml
  deriving Repr, DecidableEq, Inhabited

namespace Format

def compiledExtension : String := "ctm"

def byExtension : List (String × Format) :=
  [(compiledExtension, .compiled), ("json", .json), ("yaml", .yaml), ("yml", .yaml)]

end Format

namespace Definition

inductive Fault where
  | json (fault : Json.Fault)
  | compiled (fault : Compiled.Fault)
  | yaml (fault : Yaml.DecodeFault)
  deriving Repr, Inhabited

def Fault.message : Fault → String
  | json fault => fault.message
  | compiled fault => fault.message
  | yaml fault => fault.message

def decode (format : Format) (bytes : List UInt8) : Except Fault GrammarDefinition :=
  match format with
  | .compiled => (Compiled.decode bytes).mapError .compiled
  | .json => (ofJson bytes).mapError .json
  | .yaml => (FromYaml.ofYaml bytes).mapError .yaml

end Definition

end ScopeLexer
