import ScopeLexer.Grammar.Candidates
import ScopeLexer.State
import ScopeLexer.Token

/-!
# Scanning a line

From a position on, the expressions that may match compete: those of the rules that may begin within
the innermost open rule, and the one that closes it.  The winner is applied by `Scan.step`, which
opens or closes scopes and moves the `Cursor` on; `Scan.run` repeats it up to the end of the line.
Captures with patterns scan their own part of the line in the same way.
-/

namespace ScopeLexer

open Regex

inductive ScanFault where
  | unresolved (unresolved : Unresolved)
  | endless
  deriving Repr, DecidableEq, Inhabited

inductive Target where
  | opening (rule : RuleId)
  | closing
  deriving Repr, DecidableEq, Inhabited

structure Scan where
  grammar : Grammar
  line : Text
  isFirst : Bool
  deriving Repr, Inhabited

structure Cursor where
  position : Nat
  anchor : Option Nat
  scopes : ScopeStack
  /-- The open rules, innermost first. -/
  frames : List Frame
  stream : TokenStream
  /-- The rules that matched the empty text at the position. -/
  spent : List RuleId := []
  deriving Repr, Inhabited

abbrev CaptureScan := RuleId → Range → ScopeStack → Except ScanFault (List Token)

/-! ## Captures -/

def capturedRange? (found : Match) (group : Nat) : Option Range :=
  match found.groups[group]? with
  | some (some range) => if range.isEmpty then none else some range
  | _ => none

/-- Captures whose text is not over yet: their scopes and where they end, innermost first. -/
abbrev OpenCaptures := List (ScopeStack × Nat)

def closeCaptures (start : Nat) : OpenCaptures → TokenStream → OpenCaptures × TokenStream
  | [], stream => ([], stream)
  | (scopes, stop) :: outer, stream =>
      if stop ≤ start then closeCaptures start outer (stream.produce stop scopes.toList)
      else ((scopes, stop) :: outer, stream)

def closeAllCaptures : OpenCaptures → TokenStream → TokenStream
  | [], stream => stream
  | (scopes, stop) :: outer, stream => closeAllCaptures outer (stream.produce stop scopes.toList)

def innermostScopes (scopes : ScopeStack) : OpenCaptures → ScopeStack
  | (inner, _) :: _ => inner
  | [] => scopes

def Capture.scopesIn (capture : Capture) (line : Text) (found : Match) (outer : ScopeStack) :
    ScopeStack :=
  outer.enter capture.name line found.groups

/-- Give the text of captured groups its scopes.  A group within another has the scopes of both. -/
def produceCaptures (scanCapture : CaptureScan) (line : Text) (found : Match)
    (scopes : ScopeStack) : List Capture → OpenCaptures → TokenStream →
    Except ScanFault TokenStream
  | [], opened, stream => .ok (closeAllCaptures opened stream)
  | capture :: captures, opened, stream =>
      match capturedRange? found capture.group with
      | none => produceCaptures scanCapture line found scopes captures opened stream
      | some range => do
          let (opened, stream) := closeCaptures range.start opened stream
          let outer := innermostScopes scopes opened
          let stream := stream.produce range.start outer.toList
          let inner := capture.scopesIn line found outer
          match capture.rule with
          | some rule =>
              let tokens ← scanCapture rule range inner
              produceCaptures scanCapture line found scopes captures opened
                (stream.produceAll tokens)
          | none =>
              let opened :=
                if capture.name.isSome then (inner, range.stop) :: opened else opened
              produceCaptures scanCapture line found scopes captures opened stream

namespace Scan

/-! ## Searching -/

def openings (scan : Scan) (candidates : List RuleId) : List (RuleId × Expression) :=
  candidates.filterMap fun id =>
    match scan.grammar.rules[id]? with
    | some rule => rule.opening?.map (id, ·)
    | none => none

def closing? (scan : Scan) (frame : Frame) : Option (Expression × Bool) :=
  match scan.grammar.rules[frame.rule]? with
  | some { kind := .enclosed enclosure, .. } =>
      some (frame.closing.getD enclosure.closing, enclosure.closesLast)
  | _ => none

/-- Choose between the first rule and the end of the innermost one: what starts first wins, on a tie
the end, unless it `closesLast`. -/
def choose (opening : Option (RuleId × Match)) (closing : Option Match) (closesLast : Bool) :
    Option (Target × Match) :=
  match opening, closing with
  | some (id, found), some closing =>
      if found.start < closing.start || (found.start == closing.start && closesLast) then
        some (.opening id, found)
      else
        some (.closing, closing)
  | none, some closing => some (.closing, closing)
  | some (id, found), none => some (.opening id, found)
  | none, none => none

def findNext (scan : Scan) (position : Nat) (anchor : Option Nat) (frame : Frame)
    (spent : List RuleId) : Except Unresolved (Option (Target × Match)) := do
  let anchors : Anchors := { firstLine := scan.isFirst, atAnchor := anchor == some position }
  let candidates ← scan.grammar.candidates frame.rule
  let opening := findEarliest? scan.line position anchors (spent.contains ·)
    (scan.openings candidates)
  match scan.closing? frame with
  | some (expression, closesLast) =>
      return choose opening (expression.findAt? scan.line position anchors) closesLast
  | none => return choose opening none false

/-! ## Applying what was found -/

def closingCaptures (scan : Scan) (frame : Frame) : List Capture :=
  match scan.grammar.rules[frame.rule]? with
  | some { kind := .enclosed enclosure, .. } => enclosure.closingCaptures
  | _ => []

def close (scan : Scan) (scanCapture : CaptureScan) (cursor : Cursor) (frame : Frame)
    (outer : List Frame) (found : Match) : Except ScanFault Cursor := do
  let stream := cursor.stream.produce found.start cursor.scopes.toList
  let named := cursor.scopes.truncate frame.nameDepth
  let stream ←
    produceCaptures scanCapture scan.line found named (scan.closingCaptures frame) [] stream
  return { cursor with
    anchor := frame.anchor
    scopes := named.truncate frame.baseDepth
    frames := outer
    stream := stream.produce found.stop named.toList }

/-- The closing expression of a rule that begins, when it refers to groups of the opening match.  If
it cannot be compiled with their text, the rule keeps the expression it has. -/
def closingFor? (scan : Scan) (enclosure : Enclosure) (found : Match) : Option Expression :=
  if enclosure.closing.hasReferences then
    (enclosure.closing.resolve scan.line found.groups).toOption
  else
    none

def openFrame (scan : Scan) (cursor : Cursor) (named : ScopeStack) (id : RuleId)
    (enclosure : Enclosure) (found : Match) : Frame where
  rule := id
  baseDepth := cursor.scopes.depth
  nameDepth := named.depth
  anchor := cursor.anchor
  endedLine := found.stop == scan.line.byteSize
  closing := scan.closingFor? enclosure found

def apply (scan : Scan) (scanCapture : CaptureScan) (cursor : Cursor) (rule : Rule)
    (found : Match) : Except ScanFault Cursor := do
  let stream := cursor.stream.produce found.start cursor.scopes.toList
  let named := cursor.scopes.enter rule.name scan.line found.groups
  match rule.kind with
  | .group => return { cursor with stream }
  | .single _ captures =>
      let stream ← produceCaptures scanCapture scan.line found named captures [] stream
      return { cursor with stream := stream.produce found.stop named.toList }
  | .enclosed enclosure =>
      let stream ←
        produceCaptures scanCapture scan.line found named enclosure.openingCaptures [] stream
      return { cursor with
        anchor := some found.stop
        scopes := named.enter rule.contentName scan.line found.groups
        frames := scan.openFrame cursor named rule.id enclosure found :: cursor.frames
        stream := stream.produce found.stop named.toList }

/-- Move on behind a match.  A rule that matched the empty text is spent at its position. -/
def advance (cursor : Cursor) (target : Target) (found : Match) : Cursor :=
  let cursor :=
    if cursor.position < found.stop then { cursor with position := found.stop, spent := [] }
    else cursor
  match target with
  | .opening id => if found.isEmpty then { cursor with spent := id :: cursor.spent } else cursor
  | .closing => cursor

def step (scan : Scan) (scanCapture : CaptureScan) (cursor : Cursor) :
    Except ScanFault (Option Cursor) := do
  if scan.line.byteSize ≤ cursor.position then return none
  match cursor.frames with
  | [] => return none
  | frame :: outer =>
      match scan.findNext cursor.position cursor.anchor frame cursor.spent with
      | .error unresolved => throw (.unresolved unresolved)
      | .ok none => return none
      | .ok (some (.closing, found)) =>
          let cursor ← scan.close scanCapture cursor frame outer found
          return some (advance cursor .closing found)
      | .ok (some (.opening id, found)) =>
          match scan.grammar.rules[id]? with
          | none => return none
          | some rule =>
              let cursor ← scan.apply scanCapture cursor rule found
              return some (advance cursor (.opening id) found)

def steps (scan : Scan) (scanCapture : CaptureScan) : (fuel : Nat) → Cursor →
    Except ScanFault Cursor
  | 0, _ => .error .endless
  | fuel + 1, cursor => do
      match ← scan.step scanCapture cursor with
      | some next => scan.steps scanCapture fuel next
      | none => return cursor

/-- More steps than a scan takes.  At each position a rule matches the empty text at most once, and
only an open rule can be closed. -/
def stepBound (scan : Scan) (frames : List Frame) : Nat :=
  frames.length + 2 * (scan.line.byteSize + 1) * (scan.grammar.rules.size + 1) + 1

def run (scan : Scan) (scanCapture : CaptureScan) (cursor : Cursor) : Except ScanFault Cursor := do
  let cursor ← scan.steps scanCapture (scan.stepBound cursor.frames) cursor
  return { cursor with
    stream := cursor.stream.produce scan.line.byteSize cursor.scopes.toList }

/-! ## Captures with patterns -/

/-- Scan the text of a capture with the patterns of a rule, with at most `nesting` captures inside
one another.  What lies behind the capture is out of sight. -/
def capture (scan : Scan) : (nesting : Nat) → CaptureScan
  | 0, _, _, _ => .error .endless
  | nesting + 1, rule, range, scopes => do
      let inner : Scan := { scan with
        line := scan.line.upTo range.stop
        isFirst := scan.isFirst && range.start == 0 }
      let cursor ← inner.run (inner.capture nesting) {
        position := range.start
        anchor := none
        scopes
        frames := [.group rule scopes.depth]
        stream := { position := range.start } }
      return cursor.stream.tokens

/-- More captures than ever lie inside one another: a rule that scans the same text within itself
never ends. -/
def nestingBound (scan : Scan) : Nat :=
  2 * scan.grammar.rules.size * (scan.line.byteSize + 1) * (scan.line.byteSize + 1) + 1

def wholeLine (scan : Scan) (anchor : Option Nat) (scopes : ScopeStack) (frames : List Frame) :
    Except ScanFault Cursor :=
  scan.run (scan.capture scan.nestingBound)
    { position := 0, anchor, scopes, frames, stream := { position := 0 } }

end Scan

end ScopeLexer
