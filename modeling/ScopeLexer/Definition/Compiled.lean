import ScopeLexer.Definition
import ScopeLexer.Text.Utf8

/-!
# The compiled form of definitions

A definition as bytes: fields in order, lengths as eight bytes with the lowest first, text as its
length and its UTF-8 bytes, an optional value behind a byte that is 0 or 1, tables as their entries
in order.  `encode` writes the form; `decode` reads it from the front of some bytes and leaves the
rest.
-/

namespace ScopeLexer.Compiled

/-! ## Writing -/

def littleEndian : (count : Nat) → Nat → List UInt8
  | 0, _ => []
  | count + 1, n => (n % 256).toUInt8 :: littleEndian count (n / 256)

def encodeLength (n : Nat) : List UInt8 := littleEndian 8 n

def encodeFlag (flag : Bool) : List UInt8 := [if flag then 1 else 0]

def encodeText (s : String) : List UInt8 :=
  let bytes := Utf8.encode s.toList
  encodeLength bytes.length ++ bytes

def encodeText? : Option String → List UInt8
  | none => [0]
  | some s => 1 :: encodeText s

def encodeTexts (texts : List String) : List UInt8 :=
  encodeLength texts.length ++ texts.flatMap encodeText

mutual

def encodeRule : RuleDefinition → List UInt8
  | ⟨reference, name, contentName, matchSource, beginSource, endSource, whileSource, captures,
      beginCaptures, endCaptures, patterns, repository, last⟩ =>
      encodeText? reference ++ encodeText? name ++ encodeText? contentName
        ++ encodeText? matchSource ++ encodeText? beginSource ++ encodeText? endSource
        ++ encodeText? whileSource ++ encodeCaptures? captures ++ encodeCaptures? beginCaptures
        ++ encodeCaptures? endCaptures ++ encodeRules? patterns ++ encodeEntries? repository
        ++ encodeFlag last
  termination_by structural rule => rule

def encodeRules? : Option (List RuleDefinition) → List UInt8
  | none => [0]
  | some rules => 1 :: (encodeLength rules.length ++ encodeRules rules)
  termination_by structural rules => rules

def encodeEntries? : Option (List (String × RuleDefinition)) → List UInt8
  | none => [0]
  | some entries => 1 :: (encodeLength entries.length ++ encodeEntries entries)
  termination_by structural entries => entries

def encodeCaptures? : Option (List (String × CaptureOf RuleDefinition)) → List UInt8
  | none => [0]
  | some captures => 1 :: (encodeLength captures.length ++ encodeCaptures captures)
  termination_by structural captures => captures

def encodeRules : List RuleDefinition → List UInt8
  | [] => []
  | rule :: rules => encodeRule rule ++ encodeRules rules
  termination_by structural rules => rules

def encodeEntries : List (String × RuleDefinition) → List UInt8
  | [] => []
  | (key, rule) :: entries => encodeText key ++ encodeRule rule ++ encodeEntries entries
  termination_by structural entries => entries

def encodeCaptures : List (String × CaptureOf RuleDefinition) → List UInt8
  | [] => []
  | (key, ⟨name, patterns⟩) :: captures =>
      encodeText key ++ encodeText? name ++ encodeRules? patterns ++ encodeCaptures captures
  termination_by structural captures => captures

end

def encode (definition : GrammarDefinition) : List UInt8 :=
  encodeText definition.scopeName ++ encodeText? definition.name
    ++ encodeTexts definition.fileTypes
    ++ encodeLength definition.patterns.length ++ encodeRules definition.patterns
    ++ encodeLength definition.repository.length ++ encodeEntries definition.repository

/-! ## Reading -/

inductive Fault where
  | endInNumber
  | endInText
  | badFlag (found : UInt8)
  | badTag (found : UInt8)
  | badText (fault : Utf8.Fault)
  deriving Repr, DecidableEq, Inhabited

def Fault.message : Fault → String
  | .endInNumber => "io error: unexpected end of file"
  | .endInText => "io error: "
  | .badFlag found =>
      "invalid u8 while decoding bool, expected 0 or 1, found " ++ toString found.toNat
  | .badTag found => "tag for enum is not valid, found " ++ toString found.toNat
  | .badText fault => "string is not valid utf8: " ++ fault.message

abbrev Reader (α : Type) := StateT (List UInt8) (Except Fault) α

def decodeByte : Reader UInt8 := fun bytes =>
  match bytes with
  | [] => .error .endInNumber
  | b :: rest => .ok (b, rest)

/-- The next `length` bytes, which are those of a text. -/
def decodeBytes (length : Nat) : Reader (List UInt8) := fun bytes =>
  if bytes.length < length then .error .endInText
  else .ok (bytes.take length, bytes.drop length)

def decodeNumber : (count : Nat) → Reader Nat
  | 0 => return 0
  | count + 1 => do
      let b ← decodeByte
      let high ← decodeNumber count
      return b.toNat + 256 * high

def decodeLength : Reader Nat := decodeNumber 8

def decodeFlag : Reader Bool := do
  let b ← decodeByte
  if b == 0 then return false
  else if b == 1 then return true
  else throw (.badFlag b)

def decodeText : Reader String := do
  let length ← decodeLength
  let bytes ← decodeBytes length
  match Utf8.decode bytes with
  | .ok chars => return String.ofList chars
  | .error fault => throw (.badText fault)

def decodeOption {α : Type} (inner : Reader α) : Reader (Option α) := do
  let b ← decodeByte
  if b == 0 then return none
  else if b == 1 then return some (← inner)
  else throw (.badTag b)

def decodeTimes {α : Type} (inner : Reader α) : (count : Nat) → Reader (List α)
  | 0 => return []
  | count + 1 => do
      let value ← inner
      let values ← decodeTimes inner count
      return value :: values

def decodeList {α : Type} (inner : Reader α) : Reader (List α) := do
  let count ← decodeLength
  decodeTimes inner count

def decodeEntry {α : Type} (inner : Reader α) : Reader (String × α) := do
  let key ← decodeText
  let value ← inner
  return (key, value)

/-- A table; entries may come in any order, and of several with one key the last counts. -/
def decodeTable {α : Type} (inner : Reader α) : Reader (Entries α) := do
  let entries ← decodeList (decodeEntry inner)
  return Entries.ofList entries

def decodeCapture (rule : Reader RuleDefinition) : Reader CaptureDefinition := do
  let name ← decodeOption decodeText
  let patterns ← decodeOption (decodeList rule)
  return ⟨name, patterns⟩

def decodeRule : (nesting : Nat) → Reader RuleDefinition
  | 0 => throw .endInNumber
  | nesting + 1 => do
      let rule := decodeRule nesting
      let captureTable := decodeOption (decodeTable (decodeCapture rule))
      let reference ← decodeOption decodeText
      let name ← decodeOption decodeText
      let contentName ← decodeOption decodeText
      let matchSource ← decodeOption decodeText
      let beginSource ← decodeOption decodeText
      let endSource ← decodeOption decodeText
      let whileSource ← decodeOption decodeText
      let captures ← captureTable
      let beginCaptures ← captureTable
      let endCaptures ← captureTable
      let patterns ← decodeOption (decodeList rule)
      let repository ← decodeOption (decodeTable rule)
      let applyEndPatternLast ← decodeFlag
      return ⟨reference, name, contentName, matchSource, beginSource, endSource, whileSource,
        captures, beginCaptures, endCaptures, patterns, repository, applyEndPatternLast⟩

def decodeDefinition (nesting : Nat) : Reader GrammarDefinition := do
  let rule := decodeRule nesting
  let scopeName ← decodeText
  let name ← decodeOption decodeText
  let fileTypes ← decodeList decodeText
  let patterns ← decodeList rule
  let repository ← decodeTable rule
  return ⟨scopeName, name, fileTypes, patterns, repository⟩

/-- Read a definition; rules nest no deeper than there are bytes, and bytes behind it do not
count. -/
def decode (bytes : List UInt8) : Except Fault GrammarDefinition :=
  (decodeDefinition bytes.length).run' bytes

end ScopeLexer.Compiled
