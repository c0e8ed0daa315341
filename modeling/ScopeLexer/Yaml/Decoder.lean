import ScopeLexer.Definition.Location
import ScopeLexer.Text.Quoted
import ScopeLexer.Decimal.Shortest
import ScopeLexer.Yaml.Node
import ScopeLexer.Yaml.Plain

/-!
# Decoding YAML documents

A `Decoder` reads a value of a known shape from a node.  Collections nest at most 128 deep, and
aliases may be followed a hundred times for each part of the document.
-/

namespace ScopeLexer.Yaml

inductive Found where
  | null
  | boolean (value : Bool)
  | integer (value : Int)
  | float (value : Float)
  | text (value : List Char)
  | sequence
  | mapping
  deriving Repr, Inhabited

def isWord (value : Int) : Bool :=
  -0x8000000000000000 ≤ value && value < 0x10000000000000000

def describeInteger (value : Int) : String :=
  "integer `" ++ toString value ++ "`"
    ++ (if isWord value then "" else if value < 0 then " as i128" else " as u128")

def Found.describe : Found → String
  | null => "unit value"
  | boolean value => "boolean `" ++ toString value ++ "`"
  | integer value => describeInteger value
  | float value => "floating point `" ++ Decimal.ofFloat value .positional ++ "`"
  | text value => "string " ++ Quoted.encode value
  | sequence => "sequence"
  | mapping => "map"

inductive Mismatch where
  | wrongType (found : Found) (expected : String)
  | wrongValue (text : List Char) (expected : String)
  | missingField (name : String)
  | duplicateField (name : String)
  | tooDeep
  | tooManyAliases
  deriving Repr, Inhabited

def Mismatch.describe : Mismatch → String
  | wrongType found expected => "invalid type: " ++ found.describe ++ ", expected " ++ expected
  | wrongValue text expected =>
      "invalid value: string " ++ Quoted.encode text ++ ", expected " ++ expected
  | missingField name => "missing field `" ++ name ++ "`"
  | duplicateField name => "duplicate field `" ++ name ++ "`"
  | tooDeep => "recursion limit exceeded"
  | tooManyAliases => "repetition limit exceeded"

inductive DecodeFault where
  | text (fault : Fault)
  | mismatch (location : Location) (mismatch : Mismatch)
  deriving Repr, Inhabited

def DecodeFault.message : DecodeFault → String
  | text fault => fault.message
  | mismatch _ .tooDeep => Mismatch.tooDeep.describe
  | mismatch _ .tooManyAliases => Mismatch.tooManyAliases.describe
  | mismatch ⟨[]⟩ cause => cause.describe
  | mismatch location cause => location.render ++ ": " ++ cause.describe

/-- Computations within a document; the number says how many aliases may still be followed. -/
abbrev Decoding := ReaderT Document (StateT Nat (Except DecodeFault))

abbrev Decoder (α : Type) := (depth : Nat) → Location → Node → Decoding α

def maxDepth : Nat := 128

def aliasesPerPart : Nat := 100

def refuse {α : Type} (location : Location) (mismatch : Mismatch) : Decoding α :=
  throw (.mismatch location mismatch)

def follow (location : Location) : Node → Decoding Node
  | .aliasOf number => do
      match ← get with
      | 0 => refuse location .tooManyAliases
      | left + 1 =>
          set left
          return ((← read).target? number).getD .empty
  | node => return node

def commonTag (name : String) : List Char := ("tag:yaml.org,2002:" ++ name).toList

def foundScalar (tag : Option (List Char)) (isPlain : Bool) (text : List Char) : Found :=
  let plain : Found :=
    match PlainValue.ofText text with
    | .null => .null
    | .boolean value => .boolean value
    | .integer value => .integer value
    | .float value => .float value
    | .text => .text text
  match tag with
  | none => if isPlain then plain else .text text
  | some tag => if tag.head? == some '!' && isPlain then plain else .text text

def found : Node → Found
  | .scalar tag isPlain text => foundScalar tag isPlain text
  | .sequence _ _ => .sequence
  | .mapping _ _ => .mapping
  | .aliasOf _ => .null

def wrongType {α : Type} (expected : String) (location : Location) (node : Node) : Decoding α :=
  refuse location (.wrongType (found node) expected)

def deeper (location : Location) : (depth : Nat) → Decoding Nat
  | 0 => refuse location .tooDeep
  | depth + 1 => return depth

def text : Decoder String := fun _ location node => do
  match ← follow location node with
  | .scalar _ _ text => return String.ofList text
  | node => wrongType "a string" location node

/-- A value that may be missing: null or nothing at all. -/
def nullable {α : Type} (inner : Decoder α) : Decoder (Option α) := fun depth location node => do
  let node ← follow location node
  match node with
  | .scalar none true text =>
      if text.isEmpty || isNull text then return none
      return some (← inner depth location node)
  | .scalar (some tag) true text =>
      if tag != commonTag "null" then return some (← inner depth location node)
      if isNull text then return none
      refuse location (.wrongValue text "null")
  | _ => return some (← inner depth location node)

def flag : Decoder Bool := fun depth location node => do
  let expected := "a boolean or an integer"
  let node ← follow location node
  let integer (value : Int) : Decoding Bool :=
    if isWord value then return value != 0
    else refuse location (.wrongType (.integer value) expected)
  match node with
  | .scalar none true text =>
      match PlainValue.ofText text with
      | .boolean value => return value
      | .integer value => integer value
      | _ => wrongType expected location node
  | .scalar (some tag) _ text =>
      if tag == commonTag "bool" then
        match boolean? text with
        | some value => return value
        | none => refuse location (.wrongValue text "a boolean")
      else if tag == commonTag "int" then
        match integer? text with
        | some value => integer value
        | none => refuse location (.wrongValue text "an integer")
      else wrongType expected location node
  | .scalar none false _ => wrongType expected location node
  | _ =>
      let _ ← deeper location depth
      wrongType expected location node

def items {α : Type} (inner : Decoder α) (depth : Nat) (location : Location) :
    (index : Nat) → List Node → Decoding (List α)
  | _, [] => return []
  | index, node :: nodes => do
      let value ← inner depth (location.element index) node
      return value :: (← items inner depth location (index + 1) nodes)

def list {α : Type} (inner : Decoder α) : Decoder (List α) := fun depth location node => do
  match ← follow location node with
  | .sequence _ nodes => items inner (← deeper location depth) location 0 nodes
  | .scalar _ true [] => return []
  | node => wrongType "a sequence" location node

def entries {α : Type} (inner : Decoder α) (depth : Nat) (location : Location) :
    List (Node × Node) → Decoding (List (String × α))
  | [] => return []
  | (key, node) :: nodes => do
      let key ← text depth location key
      let value ← inner depth (location.key key) node
      return (key, value) :: (← entries inner depth location nodes)

def table {α : Type} (inner : Decoder α) : Decoder (List (String × α)) :=
  fun depth location node => do
    match ← follow location node with
    | .mapping _ nodes => entries inner (← deeper location depth) location nodes
    | .scalar _ true [] => return []
    | node => wrongType "a map" location node

/-! ## Records -/

structure RecordField (ρ : Type) where
  key : String
  required : Bool := false
  read : ρ → Decoder ρ

def RecordField.of {ρ α : Type} (key : String) (inner : Decoder α) (store : ρ → α → ρ)
    (required : Bool := false) : RecordField ρ :=
  { key, required, read := fun record depth location node => do
      return store record (← inner depth location node) }

/-- Fill a record from the entries of a mapping; `seen` are the keys met so far. -/
def recordEntries {ρ : Type} (fields : List (RecordField ρ)) (depth : Nat) (location : Location) :
    (seen : List String) → ρ → List (Node × Node) → Decoding ρ
  | seen, record, [] =>
      match fields.find? fun field => field.required && !seen.contains field.key with
      | some field => refuse location (.missingField field.key)
      | none => return record
  | seen, record, (key, node) :: nodes => do
      let key ← text depth location key
      match fields.find? (·.key == key) with
      | none => recordEntries fields depth location seen record nodes
      | some field => do
          if seen.contains key then refuse location (.duplicateField key)
          let record ← field.read record depth (location.key key) node
          recordEntries fields depth location (key :: seen) record nodes

def record {ρ : Type} (name : String) (fields : List (RecordField ρ)) (initial : ρ) : Decoder ρ :=
  fun depth location node => do
    match ← follow location node with
    | .mapping _ nodes => recordEntries fields (← deeper location depth) location [] initial nodes
    | .scalar _ true [] => recordEntries fields depth location [] initial []
    | node => wrongType ("struct " ++ name) location node

def decode {α : Type} (inner : Decoder α) (bytes : List UInt8) : Except DecodeFault α := do
  let document ← ((decodeText bytes).bind Document.ofText).mapError .text
  let decoding := (inner maxDepth ⟨[]⟩ document.root).run document
  let (value, _) ← decoding.run (document.size * aliasesPerPart)
  return value

end ScopeLexer.Yaml
