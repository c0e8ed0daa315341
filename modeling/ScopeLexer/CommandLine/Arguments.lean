import ScopeLexer.Decimal.Index

/-!
# Arguments of the program

`Invocation.ofArguments` tells what the arguments of the program ask for.  Arguments are read from
left to right; asking for the version or for help ends the reading.
-/

namespace ScopeLexer.CommandLine

structure TokenizeRequest where
  asJson : Bool
  noMerge : Bool
  maxLineLength : Option Nat
  grammar : String
  source : Option String
  deriving Repr, DecidableEq, Inhabited

inductive Command where
  | tokenize (request : TokenizeRequest)
  | compile (output : Option String) (grammar : String)
  | check (grammar : String)
  | list (grammar : String)
  deriving Repr, DecidableEq, Inhabited

inductive Invocation where
  | run (command : Command)
  | version (program : String)
  | help
  | misuse
  deriving Repr, DecidableEq, Inhabited

/-! ## Options and operands -/

/-- An option: a flag, or one that takes a value which has to be `acceptable`. -/
structure OptionSpec where
  short : Option Char
  long : String
  takesValue : Bool
  acceptable : String → Bool := fun _ => true

structure Arguments where
  options : List (String × String) := []
  operands : List String := []
  deriving Repr, DecidableEq, Inhabited

inductive Interruption where
  | version
  | help
  | misuse
  deriving Repr, DecidableEq, Inhabited

namespace Arguments

def has (arguments : Arguments) (long : String) : Bool :=
  arguments.options.any (·.1 == long)

def value? (arguments : Arguments) (long : String) : Option String :=
  arguments.options.lookup long

def addOption (arguments : Arguments) (spec : OptionSpec) (value : String) :
    Except Interruption Arguments :=
  if arguments.has spec.long || !spec.acceptable value then .error .misuse
  else .ok { arguments with options := (spec.long, value) :: arguments.options }

def addOperand (arguments : Arguments) (limit : Nat) (operand : String) :
    Except Interruption Arguments :=
  if limit ≤ arguments.operands.length || operand.isEmpty then .error .misuse
  else .ok { arguments with operands := arguments.operands ++ [operand] }

/-- Read short options behind one dash.  Gives also the option that still needs a value. -/
def readShort (specs : List OptionSpec) : List Char → Arguments →
    Except Interruption (Arguments × Option OptionSpec)
  | [], arguments => .ok (arguments, none)
  | c :: rest, arguments =>
      if c == 'V' then .error .version
      else if c == 'h' then .error .help
      else
        match specs.find? (·.short == some c) with
        | none => .error .misuse
        | some spec =>
            if spec.takesValue then
              match rest with
              | [] => .ok (arguments, some spec)
              | '=' :: value => do
                  return (← arguments.addOption spec (String.ofList value), none)
              | value => do return (← arguments.addOption spec (String.ofList value), none)
            else do
              readShort specs rest (← arguments.addOption spec "")

def readLong (specs : List OptionSpec) (text : List Char) (arguments : Arguments) :
    Except Interruption (Arguments × Option OptionSpec) :=
  let name := String.ofList (text.takeWhile (· != '='))
  match text.dropWhile (· != '=') with
  | _ :: value =>
      match specs.find? fun spec => spec.long == name && spec.takesValue with
      | some spec => do return (← arguments.addOption spec (String.ofList value), none)
      | none => .error .misuse
  | [] =>
      if name == "version" then .error .version
      else if name == "help" then .error .help
      else
        match specs.find? (·.long == name) with
        | none => .error .misuse
        | some spec =>
            if spec.takesValue then .ok (arguments, some spec)
            else do return (← arguments.addOption spec "", none)

def isValue (argument : String) : Bool :=
  argument.toList.head? != some '-' || argument == "-"

/-- Read the arguments of a command.  `pending` is the option that needs a value. -/
def read (specs : List OptionSpec) (limit : Nat) : (pending : Option OptionSpec) →
    List String → Arguments → Except Interruption Arguments
  | none, [], arguments => .ok arguments
  | some _, [], _ => .error .misuse
  | some spec, argument :: rest, arguments =>
      if isValue argument then do
        read specs limit none rest (← arguments.addOption spec argument)
      else .error .misuse
  | none, argument :: rest, arguments =>
      match argument.toList with
      | ['-', '-'] => rest.foldlM (fun arguments operand => arguments.addOperand limit operand)
          arguments
      | '-' :: '-' :: text => do
          let (arguments, pending) ← arguments.readLong specs text
          read specs limit pending rest arguments
      | '-' :: c :: text => do
          let (arguments, pending) ← readShort specs (c :: text) arguments
          read specs limit pending rest arguments
      | _ => do read specs limit none rest (← arguments.addOperand limit argument)

end Arguments

/-! ## Commands -/

def length? (text : String) : Option Nat := Decimal.indexOfText? text.toList

structure CommandSpec where
  name : String
  options : List OptionSpec
  limit : Nat
  command : (grammar : String) → (others : List String) → Arguments → Command

def commands : List CommandSpec := [
  { name := "tokenize"
    options := [
      { short := some 'j', long := "json", takesValue := false },
      { short := none, long := "no-merge", takesValue := false },
      { short := none, long := "max-line-length", takesValue := true
        acceptable := fun text => (length? text).isSome }]
    limit := 2
    command := fun grammar others arguments => .tokenize {
      asJson := arguments.has "json"
      noMerge := arguments.has "no-merge"
      maxLineLength := (arguments.value? "max-line-length").bind length?
      grammar
      source := others.head? } },
  { name := "compile"
    options := [
      { short := some 'o', long := "output", takesValue := true
        acceptable := fun text => !text.isEmpty }]
    limit := 1
    command := fun grammar _ arguments => .compile (arguments.value? "output") grammar },
  { name := "check", options := [], limit := 1, command := fun grammar _ _ => .check grammar },
  { name := "show", options := [], limit := 1, command := fun grammar _ _ => .list grammar }]

def programName : String := "tmlex"

def Interruption.invocation (program : String) : Interruption → Invocation
  | version => .version program
  | help => .help
  | misuse => .misuse

def CommandSpec.invocation (spec : CommandSpec) (arguments : List String) : Invocation :=
  match Arguments.read spec.options spec.limit none arguments {} with
  | .error interruption => interruption.invocation (programName ++ "-" ++ spec.name)
  | .ok read =>
      match read.operands with
      | grammar :: others => .run (spec.command grammar others read)
      | [] => .misuse

def Invocation.ofArguments : List String → Invocation
  | [] => .misuse
  | first :: rest =>
      match commands.find? (·.name == first) with
      | some spec => spec.invocation rest
      | none =>
          if first == "help" then
            match rest with
            | [] => .help
            | [name] =>
                if name == "help" || commands.any (·.name == name) then .help else .misuse
            | _ => .misuse
          else
            match Arguments.read [] 0 none [first] {} with
            | .error interruption => interruption.invocation programName
            | .ok _ => .misuse

end ScopeLexer.CommandLine
