import ScopeLexer.Regex.CharClass

/-!
# Expressions as trees

A `Node` is an expression that has been read: what it matches no longer depends on options, names
or spelling.
-/

namespace ScopeLexer.Regex

inductive Assertion where
  | textStart
  | textEnd
  | textEndOrFinalNewline
  | lineStart
  | lineEnd
  | searchStart
  | wordBoundary (ascii : Bool)
  | notWordBoundary (ascii : Bool)
  | clusterBoundary
  | notClusterBoundary
  deriving Repr, DecidableEq, Inhabited

inductive Preference where
  | greedy
  | lazy
  deriving Repr, DecidableEq, Inhabited

inductive Direction where
  | ahead
  | behind
  deriving Repr, DecidableEq, Inhabited

inductive Node where
  | empty
  | oneOf (members : CharClass)
  | sequence (first second : Node)
  | choice (first second : Node)
  | group (index : Nat) (body : Node)
  | atomic (body : Node)
  /-- Matches the body; marks where options changed. -/
  | scoped (body : Node)
  /-- Matches the empty text where the body does (`negated`: does not) match beside it. -/
  | look (direction : Direction) (negated : Bool) (body : Node)
  | repeated (least : Nat) (most : Option Nat) (preference : Preference) (body : Node)
  /-- Matches the text of the first of the groups that has one which fits. -/
  | backreference (groups : List Nat) (anyCase : Bool)
  /-- Matches the empty text where one of the groups has caught something. -/
  | caught (groups : List Nat)
  /-- Goes on as the condition does, the first way it matches, to `yes`, or else to `no`. -/
  | conditional (condition yes no : Node)
  | assertion (condition : Assertion)
  /-- Matches the empty text and lets the reported match begin there. -/
  | keep
  /-- Matches as the group of that number does.  As it is read, a call has its own number. -/
  | call (index : Nat)
  deriving Repr, DecidableEq, Inhabited

namespace Node

def character (c : Char) : Node := .oneOf (.single c)

def inSequence : List Node → Node
  | [] => .empty
  | [node] => node
  | node :: rest => .sequence node (inSequence rest)

def inChoice : List Node → Node
  | [] => .empty
  | [node] => node
  | node :: rest => .choice node (inChoice rest)

/-- Whether a repetition cannot be applied: assertions and look-arounds, and choices of them. -/
def refusesRepeat : Node → Bool
  | .assertion _ => true
  | .look _ _ _ => true
  | .keep => true
  | .choice first second => first.refusesRepeat || second.refusesRepeat
  | _ => false

def merge (outer inner : Option Nat × Nat × Preference) (body : Node) : Option Node :=
  let simple (least : Nat) (most : Option Nat) (preference : Preference) :=
    some (Node.repeated least most preference body)
  match inner, outer with
  -- an optional body
  | (some 1, 0, .greedy), (some 1, 0, .greedy) => simple 0 (some 1) .greedy
  | (some 1, 0, .greedy), (none, 0, .greedy) => simple 0 none .greedy
  | (some 1, 0, .greedy), (none, 1, .greedy) => simple 0 none .greedy
  | (some 1, 0, .greedy), (some 1, 0, .lazy) => simple 0 (some 1) .lazy
  | (some 1, 0, .greedy), (none, 0, .lazy) => simple 0 none .lazy
  -- any number
  | (none, 0, .greedy), (some 1, 0, .lazy) =>
      some (.repeated 0 (some 1) .lazy (.repeated 1 none .greedy body))
  | (none, 0, .greedy), (none, 0, .lazy) =>
      some (.repeated 0 (some 1) .lazy (.repeated 1 none .greedy body))
  | (none, 0, .greedy), (some 1, 0, .greedy) => simple 0 none .greedy
  | (none, 0, .greedy), (none, _, _) => simple 0 none .greedy
  -- one or more
  | (none, 1, .greedy), (some 1, 0, .greedy) => simple 0 none .greedy
  | (none, 1, .greedy), (none, 0, .greedy) => simple 0 none .greedy
  | (none, 1, .greedy), (none, 1, _) => simple 1 none .greedy
  | (none, 1, .greedy), (none, 0, .lazy) =>
      some (.repeated 0 (some 1) .lazy (.repeated 1 none .greedy body))
  -- the lazy ones
  | (some 1, 0, .lazy), (some 1, 0, _) => simple 0 (some 1) .lazy
  | (some 1, 0, .lazy), (none, _, _) => simple 0 none .lazy
  | (none, 0, .lazy), (_, _, _) => simple 0 none .lazy
  | (none, 1, .lazy), (none, 0, .greedy) => simple 0 none .greedy
  | (none, 1, .lazy), (none, 1, .greedy) => simple 1 none .greedy
  | (none, 1, .lazy), (some 1, 0, .lazy) => simple 0 none .lazy
  | (none, 1, .lazy), (none, 0, .lazy) => simple 0 none .lazy
  | (none, 1, .lazy), (none, 1, .lazy) => simple 1 none .lazy
  | _, _ => none

def isPlain : Nat → Option Nat → Bool
  | 0, some 1 => true
  | 0, none => true
  | 1, none => true
  | _, _ => false

/-- Repeat a node.  Once is no repetition, and a plain repetition of a plain repetition becomes
one. -/
def repeatNode (least : Nat) (most : Option Nat) (preference : Preference) (body : Node) : Node :=
  if least == 1 && most == some 1 then body
  else
    match body with
    | .repeated innerLeast innerMost innerPreference core =>
        if isPlain least most && isPlain innerLeast innerMost then
          (merge (most, least, preference) (innerMost, innerLeast, innerPreference) core).getD
            (.repeated least most preference body)
        else
          .repeated least most preference body
    | _ => .repeated least most preference body

end Node

end ScopeLexer.Regex
