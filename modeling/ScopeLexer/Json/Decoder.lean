import ScopeLexer.Json.Scanner

/-!
# Decoding JSON text

A `Decoder` reads one value of a known shape straight from text, so that a fault is reported where
the reader meets it.  Objects and lists nest at most 128 deep; `depth` counts down from there.
-/

namespace ScopeLexer.Json

/-- Reads a value, given how much deeper values may nest. -/
abbrev Decoder (α : Type) := (depth : Nat) → List UInt8 → Except Fault (α × List UInt8)

def maxDepth : Nat := 128

def wrongType {α : Type} (expected : String) (bytes : List UInt8) : Except Fault α := do
  let fault (found : Found) : Except Fault α := .error (.wrongType found expected)
  match skipBlanks bytes with
  | [] => throw .endInValue
  | b :: rest =>
      if b == byteOf 'n' then
        let _ ← scanWord (ascii "ull") rest
        fault .null
      else if b == byteOf 't' then
        let _ ← scanWord (ascii "rue") rest
        fault (.boolean true)
      else if b == byteOf 'f' then
        let _ ← scanWord (ascii "alse") rest
        fault (.boolean false)
      else if b == byteOf '-' then
        let (number, _) ← scanNumber false rest
        fault (.number number)
      else if isDigit b then
        let (number, _) ← scanNumber true (b :: rest)
        fault (.number number)
      else if b == byteOf '"' then
        let (text, _) ← scanText rest
        fault (.string text)
      else if b == byteOf '[' then fault .sequence
      else if b == byteOf '{' then fault .map
      else throw .expectedValue

def deeper (depth : Nat) : Except Fault Nat :=
  if depth ≤ 1 then .error .tooDeep else .ok (depth - 1)

def text : Decoder String := fun _ bytes =>
  match skipBlanks bytes with
  | b :: rest => if b == byteOf '"' then scanText rest else wrongType "a string" bytes
  | [] => .error .endInValue

def nullable {α : Type} (inner : Decoder α) : Decoder (Option α) := fun depth bytes =>
  match skipBlanks bytes with
  | b :: rest =>
      if b == byteOf 'n' then do
        let rest ← scanWord (ascii "ull") rest
        return (none, rest)
      else do
        let (value, rest) ← inner depth (b :: rest)
        return (some value, rest)
  | [] => do
      let (value, rest) ← inner depth []
      return (some value, rest)

/-- A flag: a truth value, or an integer that is not zero. -/
def flag : Decoder Bool := fun depth bytes => do
  let expected := "a boolean or an integer"
  match skipBlanks bytes with
  | [] => throw .endInValue
  | b :: rest =>
      if b == byteOf 't' then return (true, ← scanWord (ascii "rue") rest)
      else if b == byteOf 'f' then return (false, ← scanWord (ascii "alse") rest)
      else if b == byteOf '-' then
        match ← scanNumber false rest with
        | (.float x, _) => throw (.wrongType (.number (.float x)) expected)
        | (_, rest) => return (true, rest)
      else if isDigit b then
        match ← scanNumber true (b :: rest) with
        | (.float x, _) => throw (.wrongType (.number (.float x)) expected)
        | (.unsigned n, rest) => return (n != 0, rest)
        | (.negative n, rest) => return (n != 0, rest)
      else if b == byteOf '[' || b == byteOf '{' then
        let _ ← deeper depth
        wrongType expected (b :: rest)
      else
        wrongType expected (b :: rest)

/-! ## Lists -/

def nextElement (isFirst : Bool) (bytes : List UInt8) : Except Fault (Option (List UInt8)) :=
  match skipBlanks bytes with
  | [] => .error .endInList
  | b :: rest =>
      if b == byteOf ']' then .ok none
      else if isFirst then .ok (some (b :: rest))
      else if b == byteOf ',' then
        match skipBlanks rest with
        | [] => .error .endInValue
        | c :: rest => if c == byteOf ']' then .error .trailingComma else .ok (some (c :: rest))
      else .error .expectedListEnd

def endList (bytes : List UInt8) : Except Fault (List UInt8) :=
  match skipBlanks bytes with
  | [] => .error .endInList
  | b :: rest =>
      if b == byteOf ']' then .ok rest
      else if b == byteOf ',' && (skipBlanks rest).head?.any (· == byteOf ']') then
        .error .trailingComma
      else .error .trailingCharacters

def elements {α : Type} (inner : Decoder α) (depth : Nat) : (fuel : Nat) → (isFirst : Bool) →
    List UInt8 → Except Fault (List α × List UInt8)
  | 0, _, _ => .error .endInList
  | fuel + 1, isFirst, bytes => do
      match ← nextElement isFirst bytes with
      | none => return ([], bytes)
      | some bytes => do
          let (value, rest) ← inner depth bytes
          let (values, rest) ← elements inner depth fuel false rest
          return (value :: values, rest)

def list {α : Type} (inner : Decoder α) : Decoder (List α) := fun depth bytes => do
  match skipBlanks bytes with
  | [] => throw .endInValue
  | b :: rest =>
      if b == byteOf '[' then
        let depth ← deeper depth
        let (values, rest) ← elements inner depth (rest.length + 1) true rest
        return (values, ← endList rest)
      else
        wrongType "a sequence" bytes

/-! ## Objects -/

def nextKey (isFirst : Bool) (bytes : List UInt8) :
    Except Fault (Option (String × List UInt8)) := do
  match skipBlanks bytes with
  | [] => throw .endInObject
  | b :: rest =>
      if b == byteOf '}' then return none
      else if isFirst then
        if b == byteOf '"' then return some (← scanText rest) else throw .keyNotString
      else if b == byteOf ',' then
        match skipBlanks rest with
        | [] => throw .endInValue
        | c :: rest =>
            if c == byteOf '"' then return some (← scanText rest)
            else if c == byteOf '}' then throw .trailingComma
            else throw .keyNotString
      else throw .expectedObjectEnd

def colon (bytes : List UInt8) : Except Fault (List UInt8) :=
  match skipBlanks bytes with
  | [] => .error .endInObject
  | b :: rest => if b == byteOf ':' then .ok rest else .error .expectedColon

def endObject (bytes : List UInt8) : Except Fault (List UInt8) :=
  match skipBlanks bytes with
  | [] => .error .endInObject
  | b :: rest =>
      if b == byteOf '}' then .ok rest
      else if b == byteOf ',' then .error .trailingComma
      else .error .trailingCharacters

def entries {α : Type} (inner : Decoder α) (depth : Nat) : (fuel : Nat) → (isFirst : Bool) →
    List UInt8 → Except Fault (List (String × α) × List UInt8)
  | 0, _, _ => .error .endInObject
  | fuel + 1, isFirst, bytes => do
      match ← nextKey isFirst bytes with
      | none => return ([], bytes)
      | some (key, rest) => do
          let rest ← colon rest
          let (value, rest) ← inner depth rest
          let (others, rest) ← entries inner depth fuel false rest
          return ((key, value) :: others, rest)

def table {α : Type} (inner : Decoder α) : Decoder (List (String × α)) := fun depth bytes => do
  match skipBlanks bytes with
  | [] => throw .endInValue
  | b :: rest =>
      if b == byteOf '{' then
        let depth ← deeper depth
        let (values, rest) ← entries inner depth (rest.length + 1) true rest
        return (values, ← endObject rest)
      else
        wrongType "a map" bytes

/-! ## Records -/

/-- One field of a record: its key, whether it may be missing, and how it is read into a record
that is being filled. -/
structure RecordField (ρ : Type) where
  key : String
  required : Bool := false
  read : ρ → Decoder ρ

def RecordField.of {ρ α : Type} (key : String) (inner : Decoder α) (store : ρ → α → ρ)
    (required : Bool := false) : RecordField ρ :=
  { key, required, read := fun record depth bytes => do
      let (value, rest) ← inner depth bytes
      return (store record value, rest) }

def recordEntries {ρ : Type} (fields : List (RecordField ρ)) (depth : Nat) : (fuel : Nat) →
    (seen : List String) → (isFirst : Bool) → ρ → List UInt8 →
    Except Fault ((List String × ρ) × List UInt8)
  | 0, _, _, _, _ => .error .endInObject
  | fuel + 1, seen, isFirst, record, bytes => do
      match ← nextKey isFirst bytes with
      | none => return ((seen, record), bytes)
      | some (key, rest) =>
          match fields.find? (·.key == key) with
          | some field => do
              if seen.contains key then throw (.duplicateField key)
              let rest ← colon rest
              let (record, rest) ← field.read record depth rest
              recordEntries fields depth fuel (key :: seen) false record rest
          | none => do
              let rest ← skipValue (← colon rest)
              recordEntries fields depth fuel seen false record rest

def recordElements {ρ : Type} (expected : String) (depth : Nat) : List (RecordField ρ) →
    (index : Nat) → ρ → List UInt8 → Except Fault (ρ × List UInt8)
  | [], _, record, bytes => .ok (record, bytes)
  | field :: fields, index, record, bytes => do
      match ← nextElement (index == 0) bytes with
      | some bytes => do
          let (record, rest) ← field.read record depth bytes
          recordElements expected depth fields (index + 1) record rest
      | none =>
          if (field :: fields).any (·.required) then throw (.wrongLength index expected)
          return (record, bytes)

/-- A record: an object with the given keys, or a list of its fields in order. -/
def record {ρ : Type} (name : String) (fields : List (RecordField ρ)) (initial : ρ) : Decoder ρ :=
  fun depth bytes => do
    match skipBlanks bytes with
    | [] => throw .endInValue
    | b :: rest =>
        if b == byteOf '[' then
          let depth ← deeper depth
          let expected :=
            "struct " ++ name ++ " with " ++ toString fields.length ++
              (if fields.length == 1 then " element" else " elements")
          let (filled, rest) ← recordElements expected depth fields 0 initial rest
          return (filled, ← endList rest)
        else if b == byteOf '{' then
          let depth ← deeper depth
          let ((seen, filled), rest) ←
            recordEntries fields depth (rest.length + 1) [] true initial rest
          match fields.find? fun field => field.required && !seen.contains field.key with
          | some field => throw (.missingField field.key)
          | none => return (filled, ← endObject rest)
        else
          wrongType ("struct " ++ name) bytes

def decode {α : Type} (inner : Decoder α) (bytes : List UInt8) : Except Fault α := do
  let (value, rest) ← inner maxDepth bytes
  if (skipBlanks rest).isEmpty then return value
  throw .trailingCharacters

end ScopeLexer.Json
