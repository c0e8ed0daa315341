import ScopeLexer.Proofs.Document.Brackets
import ScopeLexer.Proofs.Scan.Above
import ScopeLexer.Proofs.State.Equivalence

/-!
# Only the innermost rule matters

What is open in front of a line only shows in its innermost rule, as long as the line does not close
it.  Two states with innermost frames that look for the same give tokens of the same spans, with
scopes that are the same above those of the states, and open the same rules.
-/

namespace ScopeLexer

open Regex Outcome

/-! ## Tokens of a line -/

namespace Token.SameAbove

variable {left right : ScopeStack} {tokens others : List Token}

theorem clipTokens (h : List.Forall₂ (Token.SameAbove left right) tokens others) (length : Nat) :
    List.Forall₂ (Token.SameAbove left right) (ScopeLexer.clipTokens length tokens)
      (ScopeLexer.clipTokens length others) := by
  induction h with
  | nil => exact .nil
  | @cons token other tokens others htoken _ ih =>
      simp only [ScopeLexer.clipTokens, List.filter_cons, ← htoken.start] at ih ⊢
      split
      · exact .cons ⟨htoken.start, by rw [Token.clip, Token.clip, htoken.stop], htoken.scopes⟩ ih
      · exact ih

theorem mergeFrom {token other : Token} (htoken : Token.SameAbove left right token other)
    (h : List.Forall₂ (Token.SameAbove left right) tokens others) :
    List.Forall₂ (Token.SameAbove left right) (ScopeLexer.mergeFrom token tokens)
      (ScopeLexer.mergeFrom other others) := by
  induction h generalizing token other with
  | nil => exact .cons htoken .nil
  | @cons next otherNext tokens others hnext _ ih =>
      have hsame : (token.scopes == next.scopes) = (other.scopes == otherNext.scopes) := by
        rw [Bool.eq_iff_iff, beq_iff_eq, beq_iff_eq]
        exact htoken.scopes.eq_iff hnext.scopes
      rw [ScopeLexer.mergeFrom, ScopeLexer.mergeFrom, hsame, htoken.stop, hnext.start]
      split
      · exact ih ⟨htoken.start, hnext.stop, htoken.scopes⟩
      · exact .cons htoken (ih hnext)

theorem mergeTokens (h : List.Forall₂ (Token.SameAbove left right) tokens others) :
    List.Forall₂ (Token.SameAbove left right) (ScopeLexer.mergeTokens tokens)
      (ScopeLexer.mergeTokens others) := by
  cases h with
  | nil => exact .nil
  | cons htoken h => exact mergeFrom htoken h

end Token.SameAbove

theorem TokenStream.SameAbove.finish {left right : ScopeStack} {stream other : TokenStream}
    (h : stream.SameAbove left right other) {scopes others : List Scope}
    (hscopes : ScopeLexer.SameAbove left right scopes others) (length : Nat) (merge : Bool) :
    List.Forall₂ (Token.SameAbove left right) (stream.finish length merge scopes)
      (other.finish length merge others) := by
  have hclipped := Token.SameAbove.clipTokens h.tokens length
  unfold TokenStream.finish
  split
  · exact .cons ⟨rfl, rfl, hscopes⟩ .nil
  · dsimp only
    split
    · exact Token.SameAbove.mergeTokens hclipped
    · exact hclipped

/-! ## States that are alike within -/

def Frame.outlook (frame : Frame) : RuleId × Bool × Option String :=
  (frame.rule, frame.endedLine, frame.closing.map (·.source))

/-- States whose innermost frames bring the same to the next line. -/
structure State.AlikeWithin (left right : State) : Prop where
  lines : left.lines = 0 ↔ right.lines = 0
  innermost : left.frames.head?.map Frame.outlook = right.frames.head?.map Frame.outlook

instance (left right : State) : Decidable (left.AlikeWithin right) :=
  decidable_of_iff ((left.lines = 0 ↔ right.lines = 0) ∧
      left.frames.head?.map Frame.outlook = right.frames.head?.map Frame.outlook)
    ⟨fun ⟨hlines, hinnermost⟩ => ⟨hlines, hinnermost⟩, fun h => ⟨h.lines, h.innermost⟩⟩

namespace State.AlikeWithin

variable {left right : State}

theorem frames_cases (h : left.AlikeWithin right) :
    (left.frames = [] ∧ right.frames = []) ∨
      ∃ frame outer other others, left.frames = frame :: outer ∧ right.frames = other :: others ∧
        frame.outlook = other.outlook := by
  have hinnermost := h.innermost
  cases hleft : left.frames with
  | nil =>
      rw [hleft] at hinnermost
      exact .inl ⟨rfl, by simpa using hinnermost.symm⟩
  | cons frame outer =>
      cases hright : right.frames with
      | nil => simp [hleft, hright] at hinnermost
      | cons other others =>
          rw [hleft, hright] at hinnermost
          exact .inr ⟨frame, outer, other, others, rfl, rfl, Option.some.inj hinnermost⟩

theorem anchor_eq (h : left.AlikeWithin right) :
    left.lineStart.anchor = right.lineStart.anchor := by
  rcases h.frames_cases with ⟨hleft, hright⟩ | ⟨frame, outer, other, others, hleft, hright, hsame⟩
  · simp only [State.lineStart, State.lineAnchor, State.startLine, hleft, hright, List.map_nil]
  · have hended : frame.endedLine = other.endedLine := congrArg (·.2.1) hsame
    simp only [State.lineStart, State.lineAnchor, State.startLine, hleft, hright, List.map_cons,
      hended]

theorem sameGround (h : left.AlikeWithin right)
    (hleft : ∀ frame ∈ left.frames, frame.ClosesAsWritten)
    (hright : ∀ frame ∈ right.frames, frame.ClosesAsWritten) :
    SameGround left.startLine.frames right.startLine.frames := by
  rw [State.frames_startLine, State.frames_startLine]
  rcases h.frames_cases with ⟨hnone, hnone'⟩ | ⟨frame, outer, other, others, hl, hr, hsame⟩
  · rw [hnone, hnone']
    exact .nothing
  · rw [hl] at hleft ⊢
    rw [hr] at hright ⊢
    exact .frame _ _ (congrArg (·.1) hsame) (Frame.closing_eq_of_source (congrArg (·.2.2) hsame)
      (hleft frame List.mem_cons_self) (hright other List.mem_cons_self))

end State.AlikeWithin

/-! ## The line -/

namespace Grammar

variable {grammar : Grammar} {options : TokenizeOptions} {left right : State} {line : Text}

/-- The line does not close the innermost rule that is open in front of it. -/
def KeepsInnermost (grammar : Grammar) (options : TokenizeOptions) (state : State) (line : Text) :
    Prop :=
  options.skips line = false →
    (grammar.scanOf state line).Keeps
      ((grammar.scanOf state line).capture (grammar.scanOf state line).nestingBound)
      state.frames.length state.lineStart

def stepLine (grammar : Grammar) (state : State) (line : Text) (fuel : Nat) :
    Except ScanFault Cursor :=
  (grammar.scanOf state line).steps
    ((grammar.scanOf state line).capture (grammar.scanOf state line).nestingBound) fuel
    state.lineStart

/-- The scan of the line takes no more steps than are counted: its searches go forward, or it does
come to an end. -/
def Settles (grammar : Grammar) (options : TokenizeOptions) (state : State) (line : Text) : Prop :=
  (grammar.scanOf state line).GoesForward ∨
    grammar.tokenizeLine options state line ≠ .error .endless

structure LineAbove (left right : State) (result other : List Token × State) : Prop where
  tokens : List.Forall₂ (Token.SameAbove left.scopes right.scopes) result.1 other.1
  scopes : SameAbove left.scopes right.scopes result.2.scopes.toList other.2.scopes.toList
  frames : ∃ opened others lower lowers,
    result.2.frames = opened ++ lower ∧ other.2.frames = others ++ lowers ∧
    lower.map Frame.unanchored = left.frames.map Frame.unanchored ∧
    lowers.map Frame.unanchored = right.frames.map Frame.unanchored ∧
    List.Forall₂ (Frame.SameAbove left.scopes right.scopes) opened others

theorem scanOf_eq_of_alikeWithin (grammar : Grammar) (h : left.AlikeWithin right) (line : Text) :
    grammar.scanOf left line = grammar.scanOf right line := by
  have hfirst : (left.lines == 0) = (right.lines == 0) := by
    rw [Bool.eq_iff_iff, beq_iff_eq, beq_iff_eq]
    exact h.lines
  rw [scanOf, scanOf, hfirst]

theorem lineStart_above (h : left.AlikeWithin right) :
    left.lineStart.SameAbove left.scopes right.scopes left.startLine.frames
      right.startLine.frames right.lineStart :=
  ⟨rfl, h.anchor_eq, rfl, .refl _ _, ⟨.nil, rfl⟩, [], [], rfl, rfl, .nil⟩

theorem lineAbove_of_skips (options : TokenizeOptions) (left right : State)
    (hskips : options.skips line = true) :
    Related (LineAbove left right) (grammar.tokenizeLine options left line)
      (grammar.tokenizeLine options right line) := by
  rw [tokenizeLine_of_skips hskips, tokenizeLine_of_skips hskips]
  refine .succeeded ⟨.cons ⟨rfl, rfl, .refl _ _⟩ .nil, .refl _ _, ?_⟩
  exact ⟨[], [], left.frames, right.frames, rfl, rfl, rfl, rfl, .nil⟩

theorem Settles.run (h : grammar.Settles options left line) (hscans : options.skips line = false) :
    (grammar.scanOf left line).Settles
      ((grammar.scanOf left line).capture (grammar.scanOf left line).nestingBound)
      left.lineStart := by
  rcases h with hforward | hends
  · exact .inl ⟨hforward, List.nodup_nil, by simp [State.lineStart]⟩
  · refine .inr fun hendless => hends ?_
    rw [tokenizeLine_of_scans hscans, scanLine_eq, hendless]
    rfl

/-- Of what is open in front of a line only the innermost rule matters, as long as the line does not
close it.  Then a line that starts alike does not close it either, both scans agree after any number
of steps, and both lines fail alike or give the same tokens and rules above what was open. -/
theorem innermost_rule_decides (hleft : grammar.Reachable left) (hright : grammar.Reachable right)
    (h : left.AlikeWithin right) (hkeeps : grammar.KeepsInnermost options left line) :
    grammar.KeepsInnermost options right line ∧
      (options.skips line = false → ∀ fuel,
        Related (Cursor.SameAbove left.scopes right.scopes left.startLine.frames
          right.startLine.frames) (grammar.stepLine left line fuel)
            (grammar.stepLine right line fuel)) ∧
      (grammar.Settles options left line → grammar.Settles options right line →
        Related (LineAbove left right) (grammar.tokenizeLine options left line)
          (grammar.tokenizeLine options right line)) := by
  have hground := h.sameGround hleft.closesAsWritten hright.closesAsWritten
  have hscan := grammar.scanOf_eq_of_alikeWithin h line
  have hstart := lineStart_above h
  have hblind := (grammar.scanOf left line).capture_blind (grammar.scanOf left line).nestingBound
  cases hskips : options.skips line with
  | true =>
      refine ⟨fun hscans => ?_, nofun, fun _ _ => lineAbove_of_skips options left right hskips⟩
      rw [hskips] at hscans
      contradiction
  | false =>
      have hkeeps := hkeeps hskips
      rw [← List.length_map Frame.unanchored, ← State.frames_startLine] at hkeeps
      refine ⟨fun _ => ?_, fun _ fuel => ?_, fun hsettles hother => ?_⟩
      · have habove := Scan.keeps_above hblind hground hkeeps hstart
        rwa [← hscan, ← List.length_map Frame.unanchored, ← State.frames_startLine]
      · rw [stepLine, stepLine, ← hscan]
        exact Scan.steps_above fuel hblind hground hkeeps hstart
      · have hother := hother.run hskips
        rw [← hscan] at hother
        rw [tokenizeLine_of_scans hskips, tokenizeLine_of_scans hskips, scanLine_eq, scanLine_eq,
          ← hscan]
        refine (Scan.run_above hblind hground hkeeps hstart (hsettles.run hskips) hother).map
          fun cursor other hcursor => ?_
        obtain ⟨opened, others, hframes, hothers, hopened⟩ := hcursor.frames
        exact ⟨hcursor.stream.finish hcursor.scopes _ _, hcursor.scopes, opened, others, _, _,
          hframes, hothers, Frame.map_unanchored_idem _, Frame.map_unanchored_idem _, hopened⟩

end Grammar

/-! ## A quote within another -/

namespace Quotes

def shallow : State := after "x<a"

def deep : State := after "x<b<a"

theorem quotes_open_alike :
    shallow.scopes ≠ deep.scopes ∧ shallow.AlikeWithin deep ∧
      grammar.KeepsInnermost {} deep (.ofString "y<cz") ∧
      (grammar.tokenizeLine {} deep (.ofString "y<cz")).toOption.isSome = true ∧
      Outcome.Related (Grammar.LineAbove shallow deep)
        (grammar.tokenizeLine {} shallow (.ofString "y<cz"))
        (grammar.tokenizeLine {} deep (.ofString "y<cz")) := by
  have hshallow : grammar.Reachable shallow := reachable_after (by decide +kernel)
  have hdeep : grammar.Reachable deep := reachable_after (by decide +kernel)
  have halike : shallow.AlikeWithin deep := by decide +kernel
  have hkeeps : grammar.KeepsInnermost {} shallow (.ofString "y<cz") := fun _ =>
    Scan.keeps_of_step (by decide +kernel) (stepOf_eq_some (by decide +kernel))
      (Scan.keeps_of_done (by decide +kernel) (stepOf_eq_none (by decide +kernel)))
  have hforward : (grammar.scanOf shallow (.ofString "y<cz")).GoesForward := by decide +kernel
  obtain ⟨hdeepKeeps, -, hsame⟩ :=
    Grammar.innermost_rule_decides hshallow hdeep halike hkeeps
  refine ⟨by decide +kernel, halike, hdeepKeeps, by decide +kernel, hsame (.inl hforward) (.inl ?_)⟩
  rwa [← grammar.scanOf_eq_of_alikeWithin halike]

end Quotes

end ScopeLexer
