import ScopeLexer.Grammar
import ScopeLexer.Scope.Stack

/-!
# What is open at the end of a line

Rules may stay open over several lines.  A `State` holds what the next line needs: the open scopes
and a `Frame` for every open rule.
-/

namespace ScopeLexer

open Regex

structure Frame where
  rule : RuleId
  /-- How many scopes were open before the name of the rule. -/
  baseDepth : Nat
  nameDepth : Nat
  /-- The anchor position before the rule was opened; it holds again when the rule is closed. -/
  anchor : Option Nat := none
  /-- The opening match reached the end of its line, so the next line begins at the anchor. -/
  endedLine : Bool := false
  closing : Option Expression := none
  deriving Repr, BEq, Inhabited

def Frame.group (rule : RuleId) (depth : Nat) : Frame :=
  { rule, baseDepth := depth, nameDepth := depth }

structure State where
  scopes : ScopeStack
  /-- The open rules, innermost first; the top level of the grammar is the last. -/
  frames : List Frame
  lines : Nat
  deriving Repr, BEq, Inhabited

namespace State

def initial (grammar : Grammar) : State :=
  { scopes := { root := grammar.scopeName }, frames := [.group grammar.root 1], lines := 0 }

def depth (state : State) : Nat := state.frames.length - 1

def openRules (state : State) : List (RuleId × Option Nat) :=
  state.frames.dropLast.reverse.map fun frame => (frame.rule, frame.anchor)

def startLine (state : State) : State :=
  { state with frames := state.frames.map fun frame => { frame with anchor := none } }

def lineAnchor (state : State) : Option Nat :=
  match state.frames with
  | frame :: _ => if frame.endedLine then some 0 else none
  | [] => none

end State

end ScopeLexer
