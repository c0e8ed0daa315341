import ScopeLexer.Regex.Bracket
import ScopeLexer.Regex.Options
import ScopeLexer.Regex.Caseless

/-!
# Reading expressions

The text of an expression is read piece by piece from the left.  `readPiece` takes what stands at
one place; `readAlternatives` gathers pieces into branches and calls itself for groups.
-/

namespace ScopeLexer.Regex

inductive GroupReference where
  | number (index : Nat)
  | before (distance : Nat)
  | after (distance : Nat)
  | name (name : String)
  deriving Repr, DecidableEq, Inhabited

structure Cursor where
  rest : List Char
  groups : Nat := 0
  names : List (String × Nat) := []
  calls : List GroupReference := []
  deriving Repr, DecidableEq, Inhabited

namespace Cursor

def moveTo (cursor : Cursor) (rest : List Char) : Cursor := { cursor with rest := rest }

def openGroup (cursor : Cursor) : Nat × Cursor :=
  (cursor.groups + 1, { cursor with groups := cursor.groups + 1 })

def openNamed (cursor : Cursor) (name : String) : Nat × Cursor :=
  (cursor.groups + 1,
    { cursor with
      groups := cursor.groups + 1
      names := cursor.names ++ [(name, cursor.groups + 1)] })

/-- A condition that is an expression decides between branches. -/
def behindCondition (cursor : Cursor) : Except Fault Cursor :=
  match cursor.rest with
  | [] => .error .endInGroup
  | ')' :: _ => .error .conditionAlone
  | _ => .ok cursor

/-- The groups of a name, last first. -/
def groupsNamed (cursor : Cursor) (name : String) : List Nat :=
  ((cursor.names.filter (·.1 == name)).map (·.2)).reverse

end Cursor

inductive GroupKind where
  | plain
  | capture (index : Nat)
  | atomic
  | scoped
  | look (direction : Direction) (negated : Bool)
  /-- The branches of a condition, which holds where one of the groups has caught something. -/
  | decided (groups : List Nat)
  /-- Any text in which the body matches nowhere. -/
  | absent
  deriving Repr, DecidableEq, Inhabited

structure Repetition where
  least : Nat
  most : Option Nat
  preference : Preference := .greedy
  possessive : Bool := false
  deriving Repr, DecidableEq, Inhabited

inductive Piece where
  | finish
  | bar
  | close
  | repetition (repetition : Repetition)
  | node (node : Node)
  | caseless (c : Char)
  | opening (kind : GroupKind) (inner : Options)
  /-- A group that opens with an expression as its condition. -/
  | condition (inner : Options)
  | options (inner : Options)
  deriving Repr, DecidableEq, Inhabited

/-- A piece of a branch; letters in any case are kept apart until the branch is complete. -/
inductive Item where
  | node (node : Node)
  | caseless (c : Char)
  deriving Repr, DecidableEq, Inhabited

/-! ## Names -/

/-- The rest of a name up to the sign that closes it.  `start` is the text of the whole name. -/
def readNameTail (closing : Char) (start : List Char) (fault : Option (String → Fault))
    (soFar : List Char) : List Char → Except Fault (List Char × List Char)
  | [] => .error ((fault.getD .groupName) (String.ofList start))
  | c :: rest =>
      if c == closing then
        match fault with
        | none => .ok (soFar.reverse, rest)
        | some fault => .error (fault (String.ofList soFar.reverse))
      else if c == ')' then
        match fault with
        | none => .error (.groupName (String.ofList start))
        | some fault => .error (fault (String.ofList soFar.reverse))
      else if Unicode.isWordCharacter c then
        readNameTail closing start fault (c :: soFar) rest
      else
        readNameTail closing start (some (fault.getD .groupNameCharacter)) (c :: soFar) rest

def readGroupName (closing : Char) (text : List Char) : Except Fault (String × List Char) :=
  match text with
  | [] => .error .emptyGroupName
  | c :: rest =>
      if c == closing then .error .emptyGroupName
      else
        let fault : Option (String → Fault) :=
          if c.isDigit || c == '-' || c == '+' then some .groupName
          else if Unicode.isWordCharacter c then none
          else some .groupNameCharacter
        (readNameTail closing text fault [c] rest).map fun (name, rest) =>
          (String.ofList name, rest)

def readReferenceNumber (closing : Char) (start : List Char) (build : Nat → GroupReference)
    (text : List Char) : Except Fault (GroupReference × List Char) :=
  match readDigits 10 text.length 0 0 text with
  | ((_, 0), c :: _) =>
      if c == closing || Unicode.isWordCharacter c then
        .error (.groupName (String.ofList (start.takeWhile (· != closing))))
      else .error (.groupNameCharacter (String.ofList (start.takeWhile (· != closing))))
  | ((value, _), c :: rest) =>
      if c == closing then
        if value > 2147483647 then .error .numberTooBig else .ok (build value, rest)
      else if c == ')' then .error (.groupName (String.ofList start))
      else .error (.groupName (String.ofList (start.takeWhile (· != closing))))
  | (_, []) => .error (.groupName (String.ofList start))

def readReference (closing : Char) (text : List Char) :
    Except Fault (GroupReference × List Char) :=
  match text with
  | [] => .error .emptyGroupName
  | '-' :: rest => readReferenceNumber closing text .before rest
  | '+' :: rest => readReferenceNumber closing text .after rest
  | c :: _ =>
      if c.isDigit then readReferenceNumber closing text .number text
      else (readGroupName closing text).map fun (name, rest) => (.name name, rest)

def closingOf? : Char → Option Char
  | '<' => some '>'
  | '\'' => some '\''
  | _ => none

def closeNumber (least : Nat) (build : Nat → GroupReference) (value digits : Nat) :
    List Char → Option (GroupReference × List Char)
  | ')' :: rest =>
      if digits == 0 || value < least || 2147483647 < value then none else some (build value, rest)
  | _ => none

def readCheckedNumber (least : Nat) (build : Nat → GroupReference) (text : List Char) :
    Option (GroupReference × List Char) :=
  let ((value, digits), rest) := readDigits 10 text.length 0 0 text
  closeNumber least build value digits rest

/-- The number of a group as a condition, up to its closing parenthesis. -/
def readChecked : List Char → Option (GroupReference × List Char)
  | '-' :: rest => readCheckedNumber 1 .before rest
  | '+' :: rest => readCheckedNumber 1 .after rest
  | text => readCheckedNumber 0 .number text

def referredGroups (cursor : Cursor) : GroupReference → Except Fault (List Nat)
  | .number index => if index == 0 then .error .backreference else .ok [index]
  | .before distance =>
      if distance == 0 || cursor.groups < distance then .error .backreference
      else .ok [cursor.groups + 1 - distance]
  | .after distance => .ok [cursor.groups + distance]
  | .name name =>
      match cursor.groupsNamed name with
      | [] => .error (.unknownName name)
      | groups => .ok groups

/-! ## Repetitions -/

def readSuffix (repetition : Repetition) (interval fixed : Bool) (rest : List Char) :
    Repetition × List Char :=
  match rest with
  | '?' :: rest' =>
      if fixed || repetition.possessive then (repetition, rest)
      else ({ repetition with preference := .lazy }, rest')
  | '+' :: rest' =>
      if interval then (repetition, rest) else ({ repetition with possessive := true }, rest')
  | _ => (repetition, rest)

def maxRepeat : Nat := 100000

/-- The bounds in braces after an opening brace, or none when the brace stands for itself. -/
def readInterval (text : List Char) : Except Fault (Option (Repetition × List Char)) := do
  let ((low, lowDigits), rest) := readDigits 10 text.length 0 0 text
  if low > maxRepeat then throw .repeatTooBig
  match rest with
  | ',' :: rest =>
      let ((high, highDigits), rest) := readDigits 10 rest.length 0 0 rest
      if high > maxRepeat then throw .repeatTooBig
      if lowDigits == 0 && highDigits == 0 then return none
      match rest with
      | '}' :: rest =>
          let repetition : Repetition :=
            if highDigits == 0 then { least := low, most := none }
            else if low > high then { least := high, most := some low, possessive := true }
            else { least := low, most := some high }
          return some (readSuffix repetition true false rest)
      | _ => return none
  | '}' :: rest =>
      if lowDigits == 0 then return none
      return some (readSuffix { least := low, most := some low } true true rest)
  | _ => return none

/-! ## Groups and escapes -/

def readOptions (options : Options) (value : Bool) : List Char → Except Fault (Piece × List Char)
  | [] => .error .endInGroup
  | ')' :: rest => .ok (.options options, rest)
  | ':' :: rest => .ok (.opening .scoped options, rest)
  | '-' :: rest => readOptions options false rest
  | c :: rest =>
      match options.switch? c value with
      | some options => readOptions options value rest
      | none => .error .groupOption

def readGroup (options : Options) (cursor : Cursor) (text : List Char) :
    Except Fault (Piece × Cursor) :=
  match text with
  | '?' :: rest =>
      match rest with
      | [] => .error .endInGroup
      | ':' :: rest => .ok (.opening .plain options, cursor.moveTo rest)
      | '=' :: rest => .ok (.opening (.look .ahead false) options, cursor.moveTo rest)
      | '!' :: rest => .ok (.opening (.look .ahead true) options, cursor.moveTo rest)
      | '>' :: rest => .ok (.opening .atomic options, cursor.moveTo rest)
      | '<' :: rest => angled rest
      | '\'' :: rest => named '\'' rest
      | '(' :: rest => condition rest
      | '~' :: rest => absent rest
      | rest => do
          let (piece, rest) ← readOptions options true rest
          return (piece, cursor.moveTo rest)
  | _ =>
      let (index, cursor) := cursor.openGroup
      .ok (.opening (.capture index) options, cursor.moveTo text)
where
  named (closing : Char) (rest : List Char) : Except Fault (Piece × Cursor) := do
    let (name, rest) ← readGroupName closing rest
    let (index, cursor) := cursor.openNamed name
    return (.opening (.capture index) options, cursor.moveTo rest)
  angled : List Char → Except Fault (Piece × Cursor)
    | [] => .error .unclosedGroup
    | '=' :: rest => .ok (.opening (.look .behind false) options, cursor.moveTo rest)
    | '!' :: rest => .ok (.opening (.look .behind true) options, cursor.moveTo rest)
    | rest => named '>' rest
  absent : List Char → Except Fault (Piece × Cursor)
    | [] => .error .endInGroup
    | '|' :: _ => .error .groupOption
    | rest => .ok (.opening .absent options, cursor.moveTo rest)
  decided (groups : List Nat) : List Char → Except Fault (Piece × Cursor)
    | [] => .error .endInGroup
    | ')' :: rest => .ok (.node (.caught groups), cursor.moveTo rest)
    | rest => .ok (.opening (.decided groups) options, cursor.moveTo rest)
  enclosed (groups : List Nat) : List Char → Except Fault (Piece × Cursor)
    | ')' :: rest => decided groups rest
    | _ => .error .endInGroup
  condition (text : List Char) : Except Fault (Piece × Cursor) :=
    match readChecked text with
    | some (reference, rest) => do decided (← referredGroups cursor reference) rest
    | none =>
        match text with
        | [] => .error .endInGroup
        | [_] => .error .endInGroup
        | quote :: rest =>
            match closingOf? quote with
            | some closing => do
                let (reference, rest) ← readReference closing rest
                enclosed (← referredGroups cursor reference) rest
            | none => .ok (.condition options, cursor.moveTo text)

def literal (options : Options) (c : Char) : Piece :=
  if options.anyCase then .caseless c else .node (.character c)

def literals (options : Options) : List Char → Piece
  | [c] => literal options c
  | cs =>
      if options.anyCase then .node (caselessRun cs.length cs)
      else .node (Node.inSequence (cs.map .character))

def anyNewline : Node :=
  .atomic (.choice (Node.inSequence [.character '\r', .character '\n'])
    (.oneOf (.union (.range 0x0A 0x0D) (.among [Char.ofNat 0x85, Char.ofNat 0x2028,
      Char.ofNat 0x2029]))))

def anyCluster : Node :=
  .atomic (.sequence (.oneOf .everything)
    (.repeated 0 none .greedy
      (.sequence (.assertion .notClusterBoundary) (.oneOf .everything))))

def Node.under (options : Options) : Node → Node
  | .oneOf members => .oneOf (members.under options)
  | .assertion (.wordBoundary _) =>
      .assertion (.wordBoundary (CharProperty.word.isAscii options))
  | .assertion (.notWordBoundary _) =>
      .assertion (.notWordBoundary (CharProperty.word.isAscii options))
  | node => node

def nodeLetter? : Char → Option Node
  | 'A' => some (.assertion .textStart)
  | 'z' => some (.assertion .textEnd)
  | 'Z' => some (.assertion .textEndOrFinalNewline)
  | 'G' => some (.assertion .searchStart)
  | 'b' => some (.assertion (.wordBoundary false))
  | 'B' => some (.assertion (.notWordBoundary false))
  | 'y' => some (.assertion .clusterBoundary)
  | 'Y' => some (.assertion .notClusterBoundary)
  | 'K' => some .keep
  | 'N' => some (.oneOf .exceptNewline)
  | 'O' => some (.oneOf .everything)
  | 'R' => some anyNewline
  | 'X' => some anyCluster
  | c => (classLetter? c).map .oneOf

/-- A distance as a number, behind so many groups.  No distance leads back behind the whole
expression, which has number zero. -/
def GroupReference.countedFrom (groups : Nat) : GroupReference → GroupReference
  | .before distance =>
      if distance ≤ groups + 1 then .number (groups + 1 - distance) else .before distance
  | .after distance => .number (groups + distance)
  | other => other

def readNumberEscape (options : Options) (cursor : Cursor) (text : List Char) :
    Except Fault (Piece × List Char) :=
  let ((index, _), rest) := readDigits 10 text.length 0 0 text
  if (index ≤ cursor.groups && index ≤ 1000) || index ≤ 9 then
    .ok (.node (.backreference [index] options.anyCase), rest)
  else
    match text with
    | '8' :: rest => .ok (literal options '8', rest)
    | '9' :: rest => .ok (literal options '9', rest)
    | _ => do
        let (c, rest) ← readOctal 3 text
        return (literal options c, rest)

def readEscape (options : Options) (cursor : Cursor) (text : List Char) :
    Except Fault (Piece × Cursor) :=
  match text with
  | [] => .error .endAtEscape
  | c :: rest =>
      match nodeLetter? c with
      | some node => .ok (.node (node.under options), cursor.moveTo rest)
      | none =>
          match c, rest with
          | 'p', '{' :: rest => property false rest
          | 'P', '{' :: rest => property true rest
          | 'k', quote :: rest' =>
              match closingOf? quote with
              | some closing => do
                  let (reference, rest) ← readReference closing rest'
                  let groups ← referredGroups cursor reference
                  return (.node (.backreference groups options.anyCase), cursor.moveTo rest)
              | none => plain c rest
          | 'g', quote :: rest' =>
              match closingOf? quote with
              | some closing => do
                  let (reference, rest) ← readReference closing rest'
                  return (.node (.call cursor.calls.length),
                    { cursor with
                      rest := rest
                      calls := cursor.calls ++ [reference.countedFrom cursor.groups] })
              | none => plain c rest
          | 'x', rest => several (readHex rest)
          | 'o', rest => several (readOctalBraces rest)
          | 'u', rest => several ((readUnicode rest).map fun (c, rest) => ([c], rest))
          | '0', rest => several ((readOctal 2 rest).map fun (c, rest) => ([c], rest))
          | _, _ =>
              if c.isDigit then do
                let (piece, rest) ← readNumberEscape options cursor text
                return (piece, cursor.moveTo rest)
              else do
                let (code, rest) ← readLetter (text.length + 1) text
                return (literal options (Char.ofNat code), cursor.moveTo rest)
where
  plain (c : Char) (rest : List Char) : Except Fault (Piece × Cursor) :=
    .ok (literal options c, cursor.moveTo rest)
  several (read : Except Fault (List Char × List Char)) : Except Fault (Piece × Cursor) := do
    let (cs, rest) ← read
    return (literals options cs, cursor.moveTo rest)
  property (negated : Bool) (rest : List Char) : Except Fault (Piece × Cursor) := do
    let (inner, rest) ← readProperty negated rest
    return (.node (.oneOf (inner.under options)), cursor.moveTo rest)

def skipComment : List Char → Except Fault (List Char)
  | [] => .error .endInGroup
  | ')' :: rest => .ok rest
  | ['\\'] => .error .endInGroup
  | '\\' :: _ :: rest => skipComment rest
  | _ :: rest => skipComment rest

def skipLine : List Char → List Char
  | [] => []
  | '\n' :: rest => rest
  | _ :: rest => skipLine rest

def skipIgnored (options : Options) : (fuel : Nat) → List Char → Except Fault (List Char)
  | 0, text => .ok text
  | fuel + 1, text =>
      match text with
      | '(' :: '?' :: '#' :: rest => do skipIgnored options fuel (← skipComment rest)
      | '#' :: rest =>
          if options.extended then skipIgnored options fuel (skipLine rest) else .ok text
      | c :: rest =>
          if options.extended && [' ', '\t', '\n', '\r', '\x0c'].contains c then
            skipIgnored options fuel rest
          else
            .ok text
      | [] => .ok []

def readPiece (options : Options) (cursor : Cursor) : Except Fault (Piece × Cursor) := do
  let text ← skipIgnored options (cursor.rest.length + 1) cursor.rest
  match text with
  | [] => return (.finish, cursor.moveTo [])
  | '\\' :: rest => readEscape options (cursor.moveTo rest) rest
  | '|' :: rest => return (.bar, cursor.moveTo rest)
  | '(' :: rest => readGroup options cursor rest
  | ')' :: rest => return (.close, cursor.moveTo rest)
  | '[' :: rest => do
      let ((negated, inner), rest) ← readBracket (2 * rest.length + 2) rest
      let inner := inner.under options
      let node :=
        if options.anyCase then caselessClass negated inner else .oneOf (.negateIf negated inner)
      return (.node node, cursor.moveTo rest)
  | '.' :: rest =>
      let members := if options.dotAll then CharClass.everything else .exceptNewline
      return (.node (.oneOf members), cursor.moveTo rest)
  | '^' :: rest => return (.node (.assertion .lineStart), cursor.moveTo rest)
  | '$' :: rest => return (.node (.assertion .lineEnd), cursor.moveTo rest)
  | '*' :: rest => return repetition { least := 0, most := none } rest
  | '+' :: rest => return repetition { least := 1, most := none } rest
  | '?' :: rest => return repetition { least := 0, most := some 1 } rest
  | '{' :: rest =>
      match ← readInterval rest with
      | some (read, rest) => return (.repetition read, cursor.moveTo rest)
      | none => return (literal options '{', cursor.moveTo rest)
  | c :: rest => return (literal options c, cursor.moveTo rest)
where
  repetition (bounds : Repetition) (rest : List Char) : Piece × Cursor :=
    let (read, rest) := readSuffix bounds false false rest
    (.repetition read, cursor.moveTo rest)

/-! ## Branches -/

def Item.toNode : Item → Node
  | .node read => read
  | .caseless c => caselessCharacter c

def joinItems : List Item → List Char → List Node
  | [], [] => []
  | [], run => [caselessRun run.length run.reverse]
  | .caseless c :: items, run => joinItems items (c :: run)
  | .node read :: items, [] => read :: joinItems items []
  | .node read :: items, run => caselessRun run.length run.reverse :: read :: joinItems items []

def branchNode (items : List Item) : Node :=
  Node.inSequence (joinItems items.reverse [])

def Item.repeated (item : Item) (repetition : Repetition) : Item :=
  let node := item.toNode.repeatNode repetition.least repetition.most repetition.preference
  .node (if repetition.possessive then .atomic node else node)

def Node.lengths : Node → Nat × Option Nat
  | .empty => (0, some 0)
  | .oneOf _ => (1, some 1)
  | .sequence first second =>
      let (low, high) := first.lengths
      let (low', high') := second.lengths
      (low + low', match high, high' with
        | some a, some b => some (a + b)
        | _, _ => none)
  | .choice first second =>
      let (low, high) := first.lengths
      let (low', high') := second.lengths
      (min low low', match high, high' with
        | some a, some b => some (max a b)
        | _, _ => none)
  | .group _ body => body.lengths
  | .atomic body => body.lengths
  | .scoped body => body.lengths
  | .look _ _ _ => (0, some 0)
  | .repeated least most _ body =>
      let (low, high) := body.lengths
      (least * low, match high, most with
        | some 0, _ => some 0
        | some a, some b => some (a * b)
        | _, some 0 => some 0
        | _, _ => none)
  | .backreference _ _ => (0, none)
  | .caught _ => (0, some 0)
  | .conditional condition yes no =>
      let (low, high) := condition.lengths
      let (low', high') := yes.lengths
      let (low'', high'') := no.lengths
      (min (low + low') low'', match high, high', high'' with
        | some a, some b, some c => some (max (a + b) c)
        | _, _, _ => none)
  | .assertion _ => (0, some 0)
  | .keep => (0, some 0)
  | .call _ => (0, none)

def Node.hasFixedLength (node : Node) : Bool :=
  node.lengths.2 == some node.lengths.1

def Node.alternatives : Node → List Node
  | .choice first second => first :: second.alternatives
  | node => [node]

/-- Look for a node beside a position.  Behind it, alternatives of different fixed lengths are
looked for one after the other. -/
def Node.lookFor (direction : Direction) (negated : Bool) (body : Node) : Node :=
  let alternatives := body.alternatives
  if direction == .behind && !negated && alternatives.all hasFixedLength && !body.hasFixedLength then
    inChoice (alternatives.map (.look direction negated))
  else
    .look direction negated body

/-- Stands where the first branch of a condition begins.  What is behind it in that branch is not
taken for branches, and cannot begin with a repetition. -/
def Node.branchStart : Node := .look .behind false .empty

def Node.branchOn (body condition : Node) : Node :=
  match body with
  | .choice yes no => .conditional condition yes no
  | yes => .conditional condition yes .empty

def GroupKind.start : GroupKind → List Item
  | .decided _ => [.node .branchStart]
  | _ => []

def GroupKind.wrap (kind : GroupKind) (body : Node) : Node :=
  match kind with
  | .plain => body
  | .capture index => .group index body
  | .atomic => .atomic body
  | .scoped => .scoped body
  | .look direction negated => body.lookFor direction negated
  | .decided groups => body.branchOn (.caught groups)
  | .absent => .repeated 0 none .greedy (.sequence (.look .ahead true body) (.oneOf .everything))

/-- Read alternatives up to the end of the text or, in a group, up to its closing parenthesis.
`branches` and `items` hold what was read, last first. -/
def readAlternatives : (fuel : Nat) → (inGroup : Bool) → Options → List Node → List Item →
    Cursor → Except Fault (Node × Cursor)
  | 0, _, _, _, _, _ => .error .unclosedGroup
  | fuel + 1, inGroup, options, branches, items, cursor => do
      let complete (items : List Item) : Node :=
        Node.inChoice (branchNode items :: branches).reverse
      let (piece, cursor) ← readPiece options cursor
      match piece with
      | .finish =>
          if inGroup then throw .unclosedGroup
          return (complete items, cursor)
      | .close =>
          if inGroup then return (complete items, cursor)
          throw .unopenedGroup
      | .bar =>
          readAlternatives fuel inGroup options (branchNode items :: branches) [] cursor
      | .repetition repetition =>
          match items with
          | [] => throw .repeatOfNothing
          | item :: items =>
              if item.toNode.refusesRepeat then throw .repeatOfAssertion
              readAlternatives fuel inGroup options branches (item.repeated repetition :: items)
                cursor
      | .node read =>
          readAlternatives fuel inGroup options branches (.node read :: items) cursor
      | .caseless c =>
          readAlternatives fuel inGroup options branches (.caseless c :: items) cursor
      | .opening kind inner => do
          let (body, cursor) ← readAlternatives fuel true inner [] kind.start cursor
          readAlternatives fuel inGroup options branches (.node (kind.wrap body) :: items) cursor
      | .condition inner => do
          let (condition, cursor) ← readAlternatives fuel true inner [] [] cursor
          let cursor ← cursor.behindCondition
          let (body, cursor) ← readAlternatives fuel true inner [] [.node .branchStart] cursor
          readAlternatives fuel inGroup options branches (.node (body.branchOn condition) :: items)
            cursor
      | .options inner => do
          let (body, cursor) ← readAlternatives fuel inGroup inner [] [] cursor
          return (complete (.node (.scoped body) :: items), cursor)

end ScopeLexer.Regex
