import ScopeLexer.Regex.Matcher
import ScopeLexer.Regex.Source
import ScopeLexer.Text.Quoted

/-!
# Expressions of a grammar

An `Expression` is compiled once, together with the variants in which its anchors are switched off.
`Expression.findAt?` searches one line, `findEarliest?` competes several expressions.
-/

namespace ScopeLexer.Regex

structure ExpressionError where
  pattern : String
  fault : Fault
  deriving Repr, DecidableEq, Inhabited

def ExpressionError.cause (error : ExpressionError) : String :=
  "Oniguruma error: " ++ error.fault.message

def ExpressionError.message (error : ExpressionError) : String :=
  "/" ++ error.pattern ++ "/: " ++ error.cause

structure Anchors where
  /-- `\A` may match: the line is the first of its document. -/
  firstLine : Bool := false
  /-- `\G` may match: the search starts at the anchor position. -/
  atAnchor : Bool := false
  deriving Repr, DecidableEq, Inhabited

structure Match where
  start : Nat
  stop : Nat
  groups : Groups
  deriving Repr, DecidableEq, Inhabited

def Match.isEmpty (found : Match) : Bool := found.start == found.stop

def Match.range (found : Match) : Range := ⟨found.start, found.stop⟩

structure Expression where
  source : String
  features : Features
  plain : Program
  withoutSearchAnchor : Option Program
  withoutTextAnchor : Option Program
  withoutAnchors : Option Program
  deriving Repr, Inhabited

def compile (text : List Char) : Except ExpressionError Program :=
  match Program.ofText text with
  | .ok program => .ok program
  | .error fault => .error ⟨String.ofList text, fault⟩

def compileIf (needed : Bool) (text : List Char) : Except ExpressionError (Option Program) :=
  if needed then (compile text).map some else .ok none

namespace Expression

def build (source : String) (searched : List Char) : Except ExpressionError Expression := do
  let features := Features.ofSource source.toList
  let plain ← compile searched
  let withoutSearchAnchor ← compileIf features.searchAnchor (disableAnchor 'G' searched)
  let withoutTextAnchor ← compileIf features.textAnchor (disableAnchor 'A' searched)
  let withoutAnchors ← compileIf (features.searchAnchor && features.textAnchor)
    (disableAnchor 'G' (disableAnchor 'A' searched))
  return { source, features, plain, withoutSearchAnchor, withoutTextAnchor, withoutAnchors }

def ofSource (source : String) : Except ExpressionError Expression :=
  build source source.toList

/-- Compile the expression that ends a rule.  Its references stand for text of the match that
begins the rule; until they are resolved they match the empty text. -/
def ofEndSource (source : String) : Except ExpressionError Expression :=
  build source
    (if (Features.ofSource source.toList).references then
      substitute ⟨#[]⟩ [] source.toList
    else
      source.toList)

def groupCount (expression : Expression) : Nat := expression.plain.groups

def hasAnchor (expression : Expression) : Bool :=
  expression.features.searchAnchor || expression.features.textAnchor

def hasReferences (expression : Expression) : Bool := expression.features.references

def resolve (expression : Expression) (line : Text) (groups : Groups) :
    Except ExpressionError Expression :=
  ofSource (String.ofList (substitute line groups expression.source.toList))

def variant (expression : Expression) (anchors : Anchors) : Program :=
  let chosen := match anchors.firstLine, anchors.atAnchor with
    | true, true => none
    | true, false => expression.withoutSearchAnchor
    | false, true => expression.withoutTextAnchor
    | false, false =>
        (expression.withoutAnchors.or expression.withoutSearchAnchor).or
          expression.withoutTextAnchor
  chosen.getD expression.plain

def report (text : Text) (start : Nat) (found : Progress) : Match :=
  let whole : Range := ⟨text.offset (found.kept.getD start), text.offset found.position⟩
  let groups : Groups := found.spans.toList.map fun span =>
    match span with
    | { first := some first, stop := some stop } => some ⟨text.offset first, text.offset stop⟩
    | _ => none
  { start := whole.start, stop := whole.stop, groups := some whole :: groups }

/-- The first match at or after a position.  The whole text stays visible to look-behinds. -/
def findAt? (expression : Expression) (text : Text) (start : Nat) (anchors : Anchors) :
    Option Match :=
  match text.index? start with
  | some index =>
      ((expression.variant anchors).search text.chars index).map fun (first, found) =>
        report text first found
  | none => none

/-- The first match at or after a position.  When the expression is `spent`, an empty match at the
position does not count and the search goes on behind the next character. -/
def findUnspent? (expression : Expression) (text : Text) (start : Nat) (anchors : Anchors)
    (spent : Bool) : Option Match :=
  match expression.findAt? text start anchors with
  | none => none
  | some found =>
      if spent && found.isEmpty && found.start == start then
        match text.next? start with
        | some next => expression.findAt? text next { anchors with atAnchor := false }
        | none => none
      else
        some found

def describe (expression : Expression) : String :=
  "CompiledRegex(" ++ Quoted.encode expression.source.toList ++ ")"

instance : BEq Expression := ⟨fun left right => left.source == right.source⟩

end Expression

def keepEarlier {Id : Type} (best : Option (Id × Match)) (id : Id) (found : Match) :
    Option (Id × Match) :=
  match best with
  | some (_, current) => if found.start < current.start then some (id, found) else best
  | none => some (id, found)

/-- Compete expressions: the match that starts first wins, on a tie the expression listed first.
`best` is the winner so far; a match at the position itself cannot be beaten. -/
def findEarliest? {Id : Type} (text : Text) (start : Nat) (anchors : Anchors)
    (spent : Id → Bool) : List (Id × Expression) → (best : Option (Id × Match) := none) →
    Option (Id × Match)
  | [], best => best
  | (id, expression) :: candidates, best =>
      match expression.findUnspent? text start anchors (spent id) with
      | none => findEarliest? text start anchors spent candidates best
      | some found =>
          let better := best.all fun (_, current) => found.start < current.start
          if better && found.start == start then some (id, found)
          else findEarliest? text start anchors spent candidates (keepEarlier best id found)

end ScopeLexer.Regex
