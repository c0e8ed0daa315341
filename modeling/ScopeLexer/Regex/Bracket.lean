import ScopeLexer.Regex.Escape

/-!
# Bracket expressions

Reading a class in brackets: ranges, nested classes, intersections, properties and bracket names.
-/

namespace ScopeLexer.Regex

inductive BracketItem where
  | finish
  | close
  | hyphen
  | opening
  | both
  | member (code : Nat)
  | members (inner : CharClass)
  deriving Repr, DecidableEq, Inhabited

def hasBracketName : List Char → Bool
  | ':' :: ']' :: _ => true
  | ']' :: _ => false
  | ['\\'] => false
  | '\\' :: _ :: rest => hasBracketName rest
  | _ :: rest => hasBracketName rest
  | [] => false

def dropStart? : (start : List Char) → List Char → Option (List Char)
  | [], text => some text
  | a :: start, b :: text => if a == b then dropStart? start text else none
  | _ :: _, [] => none

def startingName? (text : List Char) : Option (CharProperty × List Char) :=
  CharProperty.bracketNames.findSome? fun entry =>
    (dropStart? entry.1.toList text).map fun rest => (entry.2, rest)

/-- Whether text that is no bracket name still ends like one, and so is a mistake. -/
def looksLikeName (text : List Char) : Bool :=
  let name := text.takeWhile fun c => !(c == ':' || c == ']')
  name.length ≤ 20 && ((text.drop name.length).take 2 == [':', ']'])

def readBracketName (text : List Char) : Except Fault (Option (CharClass × List Char)) :=
  let (negated, text) := match text with
    | '^' :: rest => (true, rest)
    | _ => (false, text)
  let misread : Except Fault (Option (CharClass × List Char)) :=
    if looksLikeName text then .error .posixName else .ok none
  if text.length < 7 then misread
  else
    match startingName? text with
    | some (property, ':' :: ']' :: rest) =>
        .ok (some (.negateIf negated (.property property), rest))
    | some _ => .error .posixName
    | none => misread

def asMember (read : Except Fault (Char × List Char)) :
    Except Fault (BracketItem × List Char) :=
  read.map fun (c, rest) => (.member c.toNat, rest)

def readBracketEscape (text : List Char) : Except Fault (BracketItem × List Char) :=
  match text with
  | [] => .error .endAtEscape
  | c :: rest =>
      match classLetter? c with
      | some inner => .ok (.members inner, rest)
      | none =>
          match c, rest with
          | 'p', '{' :: rest => do
              let (inner, rest) ← readProperty false rest
              return (.members inner, rest)
          | 'P', '{' :: rest => do
              let (inner, rest) ← readProperty true rest
              return (.members inner, rest)
          | 'x', rest => do
              match ← readHex rest with
              | ([c], rest) => return (.member c.toNat, rest)
              | _ => .error .codePoint
          | 'o', rest => do
              match ← readOctalBraces rest with
              | ([c], rest) => return (.member c.toNat, rest)
              | _ => .error .codePoint
          | 'u', rest => asMember (readUnicode rest)
          | _, _ =>
              if (digitValue? 8 c).isSome then asMember (readOctal 3 text)
              else do
                let (code, rest) ← readLetter (text.length + 1) text
                return (.member code, rest)

def readBracketItem (text : List Char) : Except Fault (BracketItem × List Char) :=
  match text with
  | [] => .ok (.finish, [])
  | ']' :: rest => .ok (.close, rest)
  | '-' :: rest => .ok (.hyphen, rest)
  | '\\' :: rest => readBracketEscape rest
  | '&' :: '&' :: rest => .ok (.both, rest)
  | '[' :: ':' :: rest =>
      if hasBracketName rest then do
        match ← readBracketName rest with
        | some (inner, rest) => return (.members inner, rest)
        | none => return (.member '['.toNat, ':' :: rest)
      else
        .ok (.opening, ':' :: rest)
  | '[' :: rest => .ok (.opening, rest)
  | c :: rest => .ok (.member c.toNat, rest)

/-- What was read last inside brackets, as far as a hyphen that follows depends on it. -/
inductive BracketState where
  | start
  | value (code : Nat)
  | members
  | range (first : Nat)
  | complete
  deriving Repr, DecidableEq, Inhabited

structure Gathered where
  left : Option CharClass := none
  current : CharClass := .nothing
  state : BracketState := .start
  deriving Repr, DecidableEq, Inhabited

namespace Gathered

def add (gathered : Gathered) (inner : CharClass) : Gathered :=
  { gathered with current := .union gathered.current inner }

/-- Add the character that waits to see whether it begins a range. -/
def settle (gathered : Gathered) : Gathered :=
  match gathered.state with
  | .value code => gathered.add (.range code code)
  | _ => gathered

def takeCode (gathered : Gathered) (code : Nat) : Except Fault Gathered :=
  match gathered.state with
  | .range first =>
      if code < first then .error .emptyRange
      else .ok { gathered.add (.range first code) with state := .complete }
  | _ => .ok { gathered.settle with state := .value code }

def takeMembers (gathered : Gathered) (inner : CharClass) : Except Fault Gathered :=
  match gathered.state with
  | .range _ => .error .rangeEndsInClass
  | _ => .ok { gathered.settle.add inner with state := .members }

def takeNested (gathered : Gathered) (inner : CharClass) : Gathered :=
  { gathered.settle.add inner with state := .complete }

def result (gathered : Gathered) : CharClass :=
  match gathered.left with
  | some left => .intersection left gathered.settle.current
  | none => gathered.settle.current

def intersect (gathered : Gathered) : Gathered :=
  { left := some gathered.result }

def takeHyphen (gathered : Gathered) (next : BracketItem) : Except Fault Gathered :=
  match gathered.state with
  | .value code =>
      if next == .close || next == .both then gathered.takeCode '-'.toNat
      else .ok { gathered with state := .range code }
  | .members =>
      if next == .close || next == .both then gathered.takeCode '-'.toNat
      else .error .rangeStartsInClass
  | _ => gathered.takeCode '-'.toNat

end Gathered

def readBracket : (fuel : Nat) → List Char → Except Fault ((Bool × CharClass) × List Char)
  | 0, _ => .error .unclosedClass
  | fuel + 1, text => do
      let (negated, text) := match text with
        | '^' :: rest => (true, rest)
        | _ => (false, text)
      match text with
      | ']' :: rest =>
          if rest.contains ']' then
            let (inner, rest) ← members fuel { state := .value ']'.toNat } rest
            return ((negated, inner), rest)
          else
            .error .emptyClass
      | _ =>
          let (inner, rest) ← members fuel {} text
          return ((negated, inner), rest)
where
  members : (fuel : Nat) → Gathered → List Char → Except Fault (CharClass × List Char)
    | 0, _, _ => .error .unclosedClass
    | fuel + 1, gathered, text => do
        match ← readBracketItem text with
        | (.finish, _) => .error .unclosedClass
        | (.close, rest) => return (gathered.result, rest)
        | (.member code, rest) => members fuel (← gathered.takeCode code) rest
        | (.members inner, rest) => members fuel (← gathered.takeMembers inner) rest
        | (.both, rest) => members fuel gathered.intersect rest
        | (.opening, rest) => do
            let ((negated, inner), rest) ← readBracket fuel rest
            members fuel (gathered.takeNested (.negateIf negated inner)) rest
        | (.hyphen, rest) =>
            match gathered.state with
            | .range _ => members fuel (← gathered.takeCode '-'.toNat) rest
            | _ => do
                let (next, _) ← readBracketItem rest
                members fuel (← gathered.takeHyphen next) rest

end ScopeLexer.Regex
