import ScopeLexer.Grammar.OfDefinition
import ScopeLexer.Proofs.Outcome
import ScopeLexer.Tokenizer

/-!
# States of a document

A state is reachable when some lines lead to it, each tokenized with options of its own.  A line is
either skipped, and then only counted, or scanned from what is open in front of it.
-/

namespace ScopeLexer

open Outcome

namespace Grammar

variable {grammar : Grammar} {options : TokenizeOptions} {state next : State} {line : Text}
  {tokens : List Token}

/-- The states between the lines of documents. -/
inductive Reachable (grammar : Grammar) : State → Prop where
  | initial : Reachable grammar (State.initial grammar)
  | line {state next : State} {options : TokenizeOptions} {line : Text} {tokens : List Token}
      (hstate : Reachable grammar state)
      (hline : grammar.tokenizeLine options state line = .ok (tokens, next)) :
      Reachable grammar next

def scanOf (grammar : Grammar) (state : State) (line : Text) : Scan :=
  { grammar, line := line.endLine, isFirst := state.lines == 0 }

def scanLine (grammar : Grammar) (state : State) (line : Text) : Except ScanFault Cursor :=
  (grammar.scanOf state line).wholeLine state.startLine.lineAnchor state.scopes
    state.startLine.frames

theorem tokenizeLine_of_skips (h : options.skips line = true) :
    grammar.tokenizeLine options state line =
      .ok ([⟨0, line.byteSize, state.scopes.toList⟩], { state with lines := state.lines + 1 }) := by
  simp only [tokenizeLine, h, if_true]
  rfl

theorem tokenizeLine_of_scans (h : options.skips line = false) :
    grammar.tokenizeLine options state line =
      (grammar.scanLine state line).map fun cursor =>
        (cursor.stream.finish line.byteSize options.mergeAdjacent cursor.scopes.toList,
          { scopes := cursor.scopes, frames := cursor.frames, lines := state.lines + 1 }) := by
  simp only [tokenizeLine, h, Bool.false_eq_true, if_false]
  rfl

inductive Tokenized (grammar : Grammar) (options : TokenizeOptions) (state : State) (line : Text) :
    List Token → State → Prop where
  | skipped (hskips : options.skips line = true) :
      Tokenized grammar options state line [⟨0, line.byteSize, state.scopes.toList⟩]
        { state with lines := state.lines + 1 }
  | scanned {cursor : Cursor} (hscans : options.skips line = false)
      (hcursor : grammar.scanLine state line = .ok cursor) :
      Tokenized grammar options state line
        (cursor.stream.finish line.byteSize options.mergeAdjacent cursor.scopes.toList)
        { scopes := cursor.scopes, frames := cursor.frames, lines := state.lines + 1 }

theorem tokenized_of_tokenizeLine
    (h : grammar.tokenizeLine options state line = .ok (tokens, next)) :
    grammar.Tokenized options state line tokens next := by
  cases hskips : options.skips line with
  | true =>
      rw [tokenizeLine_of_skips hskips] at h
      cases h
      exact .skipped hskips
  | false =>
      rw [tokenizeLine_of_scans hskips] at h
      obtain ⟨cursor, hcursor, hresult⟩ := map_eq_ok.mp h
      cases hresult
      exact .scanned hskips hcursor

theorem scanLine_of_tokenizeLine_error {fault : ScanFault}
    (h : grammar.tokenizeLine options state line = .error fault) :
    grammar.scanLine state line = .error fault := by
  cases hskips : options.skips line with
  | true =>
      rw [tokenizeLine_of_skips hskips] at h
      contradiction
  | false =>
      rw [tokenizeLine_of_scans hskips] at h
      exact map_eq_error.mp h

end Grammar

/-! ## A grammar whose rule stays open -/

namespace Quotes

def quote : RuleDefinition where
  name := some "quote"
  contentName := some "text"
  beginSource := some "<(.)"
  endSource := some "\\1>"
  beginCaptures := some [("1", { name := some "mark" })]
  patterns := some [{ reference := some "$self" }]

def definition : GrammarDefinition where
  scopeName := "source"
  patterns := [{ reference := some "#quote" }]
  repository := [("quote", quote)]

def grammar : Grammar := (Grammar.ofDefinition definition).toOption.getD default

theorem ofDefinition_definition : Grammar.ofDefinition definition = .ok grammar := rfl

def after (line : String) : State :=
  ((grammar.tokenizeLine {} (.initial grammar) (.ofString line)).toOption.map (·.2)).getD default

theorem reachable_after {line : String}
    (h : (grammar.tokenizeLine {} (.initial grammar) (.ofString line)).toOption.isSome = true) :
    grammar.Reachable (after line) := by
  unfold after
  cases hline : grammar.tokenizeLine {} (.initial grammar) (.ofString line) with
  | error fault =>
      rw [hline] at h
      contradiction
  | ok result => exact .line .initial hline

end Quotes

end ScopeLexer
