import Mathlib.Logic.Relation
import ScopeLexer.Proofs.Grammar.Compilation
import ScopeLexer.Proofs.Line.Reachable
import ScopeLexer.Proofs.Scan.Step

/-!
# The course of a document

`Grammar.Moves` takes the lines of a document apart into single steps: a line is skipped, or its scan
starts, goes on step by step and finishes.  Each place knows the lines that are still to come, so a
document has one course.  Whatever `Grammar.tokenizeLine` does is such a course.
-/

namespace ScopeLexer

open Outcome Relation

abbrev Lines := List (TokenizeOptions × Text)

/-- Where the tokenizing of a document has come to.  A scan is that of a line which began in the
state, or of a captured part of it. -/
inductive Place where
  | between (state : State) (rest : Lines)
  | within (state : State) (rest : Lines) (scan : Scan) (nesting : Nat) (cursor : Cursor)

namespace Place

def frames : Place → List Frame
  | between state _ => state.frames
  | within _ _ _ _ cursor => cursor.frames

def scopes : Place → ScopeStack
  | between state _ => state.scopes
  | within _ _ _ _ cursor => cursor.scopes

def lines : Place → Nat
  | between state _ => state.lines
  | within state _ _ _ _ => state.lines

end Place

def State.lineStart (state : State) : Cursor where
  position := 0
  anchor := state.startLine.lineAnchor
  scopes := state.scopes
  frames := state.startLine.frames
  stream := { position := 0 }

namespace Grammar

variable {grammar : Grammar} {options : TokenizeOptions} {state next : State} {line : Text}
  {tokens : List Token} {rest : Lines}

def inLine (grammar : Grammar) (state : State) (line : Text) (rest : Lines) (cursor : Cursor) :
    Place :=
  .within state rest (grammar.scanOf state line) (grammar.scanOf state line).nestingBound cursor

inductive Moves (grammar : Grammar) : Place → Place → Prop where
  | skip {state : State} {options : TokenizeOptions} {line : Text} {rest : Lines}
      (hskips : options.skips line = true) :
      Moves grammar (.between state ((options, line) :: rest))
        (.between { state with lines := state.lines + 1 } rest)
  | start {state : State} {options : TokenizeOptions} {line : Text} {rest : Lines}
      (hscans : options.skips line = false) :
      Moves grammar (.between state ((options, line) :: rest))
        (grammar.inLine state line rest state.lineStart)
  | step {state : State} {rest : Lines} {scan : Scan} {nesting : Nat} {cursor next : Cursor}
      (hstep : scan.step (scan.capture nesting) cursor = .ok (some next)) :
      Moves grammar (.within state rest scan nesting cursor) (.within state rest scan nesting next)
  | finish {state : State} {line : Text} {rest : Lines} {cursor : Cursor}
      (hdone : (grammar.scanOf state line).step
        ((grammar.scanOf state line).capture (grammar.scanOf state line).nestingBound) cursor =
          .ok none) :
      Moves grammar (grammar.inLine state line rest cursor)
        (.between ⟨cursor.scopes, cursor.frames, state.lines + 1⟩ rest)

abbrev Course (grammar : Grammar) : Place → Place → Prop := ReflTransGen grammar.Moves

/-- Moves that lead to places with more frames than `depth`. -/
def MovesAbove (grammar : Grammar) (depth : Nat) (place next : Place) : Prop :=
  grammar.Moves place next ∧ depth < next.frames.length

abbrev CourseAbove (grammar : Grammar) (depth : Nat) : Place → Place → Prop :=
  ReflTransGen (grammar.MovesAbove depth)

def Visits (grammar : Grammar) (lines : Lines) (place : Place) : Prop :=
  grammar.Course (.between (.initial grammar) lines) place

theorem Moves.rightUnique : Relator.RightUnique grammar.Moves := by
  intro place left right hleft hright
  cases hleft with
  | skip hskips =>
      cases hright with
      | skip _ => rfl
      | start hscans => simp [hskips] at hscans
  | start hscans =>
      cases hright with
      | skip hskips => simp [hskips] at hscans
      | start _ => rfl
  | step hstep =>
      cases hright with
      | step hother =>
          cases hstep.symm.trans hother
          rfl
      | finish hdone => cases hstep.symm.trans hdone
  | finish hdone =>
      generalize hplace : grammar.inLine _ _ _ _ = place at hright
      cases hright with
      | skip _ => cases hplace
      | start _ => cases hplace
      | step hstep =>
          cases hplace
          cases hdone.symm.trans hstep
      | finish _ =>
          simp only [inLine, Place.within.injEq] at hplace
          obtain ⟨rfl, rfl, -, -, rfl⟩ := hplace
          rfl

theorem Moves.lines_le {place next : Place} (h : grammar.Moves place next) :
    place.lines ≤ next.lines := by
  cases h with
  | skip hskips => exact Nat.le_succ _
  | start hscans => exact Nat.le_refl _
  | step hstep => exact Nat.le_refl _
  | finish hdone => exact Nat.le_succ _

theorem lines_le_of_course {place next : Place} (h : grammar.Course place next) :
    place.lines ≤ next.lines := by
  induction h with
  | refl => exact Nat.le_refl _
  | tail _ hmove ih => exact Nat.le_trans ih hmove.lines_le

theorem lines_lt_of_course {scan : Scan} {nesting : Nat} {cursor : Cursor} {others : Lines}
    (h : grammar.Course (.within state rest scan nesting cursor) (.between next others)) :
    state.lines < next.lines := by
  rcases h.cases_tail with hsame | ⟨place, hcourse, hmove⟩
  · cases hsame
  have hle : state.lines ≤ place.lines := lines_le_of_course hcourse
  cases hmove with
  | skip hskips => exact Nat.lt_succ_of_le hle
  | finish hdone => exact Nat.lt_succ_of_le hle

/-! ## Lines -/

theorem scanLine_eq (grammar : Grammar) (state : State) (line : Text) :
    grammar.scanLine state line = (grammar.scanOf state line).run
      ((grammar.scanOf state line).capture (grammar.scanOf state line).nestingBound)
      state.lineStart := rfl

theorem course_of_steps {scan : Scan} {nesting fuel : Nat} {cursor last : Cursor}
    (h : scan.steps (scan.capture nesting) fuel cursor = .ok last) :
    grammar.Course (.within state rest scan nesting cursor) (.within state rest scan nesting last) ∧
      scan.step (scan.capture nesting) last = .ok none := by
  induction fuel generalizing cursor with
  | zero => contradiction
  | succ fuel ih =>
      rw [Scan.steps] at h
      obtain ⟨stepped, hstepped, h⟩ := bind_eq_ok.mp h
      cases stepped with
      | none =>
          cases pure_eq_ok.mp h
          exact ⟨.refl, hstepped⟩
      | some middle =>
          obtain ⟨hcourse, hlast⟩ := ih h
          exact ⟨.head (.step hstepped) hcourse, hlast⟩

theorem course_of_tokenizeLine
    (h : grammar.tokenizeLine options state line = .ok (tokens, next)) :
    grammar.Course (.between state ((options, line) :: rest)) (.between next rest) := by
  cases tokenized_of_tokenizeLine h with
  | skipped hskips => exact .single (.skip hskips)
  | scanned hscans hcursor =>
      rw [scanLine_eq] at hcursor
      obtain ⟨last, hsteps, rfl⟩ := Scan.run_eq_ok.mp hcursor
      obtain ⟨hcourse, hdone⟩ := course_of_steps hsteps
      exact .head (.start hscans) (hcourse.tail (.finish hdone))

theorem Reachable.visits (h : grammar.Reachable state) :
    ∃ lines, ∀ rest, grammar.Visits (lines ++ rest) (.between state rest) := by
  induction h with
  | initial => exact ⟨[], fun rest => .refl⟩
  | @line state next options line tokens hstate hline ih =>
      obtain ⟨lines, hlines⟩ := ih
      refine ⟨lines ++ [(options, line)], fun rest => ?_⟩
      rw [List.append_assoc]
      exact (hlines _).trans (course_of_tokenizeLine hline)

theorem Visits.inLine {lines : Lines} {scan : Scan} {nesting : Nat} {cursor : Cursor}
    (h : grammar.Visits lines (.within state rest scan nesting cursor)) :
    ∃ line, scan = grammar.scanOf state line ∧ nesting = scan.nestingBound := by
  generalize hplace : Place.within state rest scan nesting cursor = place at h
  induction h generalizing cursor with
  | refl => contradiction
  | tail hcourse hmove ih =>
      cases hmove with
      | skip hskips => contradiction
      | start hscans =>
          cases hplace
          exact ⟨_, rfl, rfl⟩
      | step hstep =>
          cases hplace
          exact ih rfl
      | finish hdone => contradiction

end Grammar

/-! ## Entering and leaving rules -/

namespace Scan

open Regex

variable {scan : Scan} {nesting : Nat} {cursor next : Cursor} {found : Match}

structure Enters (scan : Scan) (nesting : Nat) (cursor : Cursor) (rule : Rule)
    (enclosure : Enclosure) (found : Match) (next : Cursor) : Prop where
  listed : scan.grammar.rules[rule.id]? = some rule
  kind : rule.kind = .enclosed enclosure
  found : ∃ frame outer, cursor.frames = frame :: outer ∧
    scan.findNext cursor.position cursor.anchor frame cursor.spent =
      .ok (some (.opening rule.id, found))
  step : scan.step (scan.capture nesting) cursor = .ok (some next)

structure Leaves (scan : Scan) (nesting : Nat) (cursor : Cursor) (found : Match) (next : Cursor) :
    Prop where
  found : ∃ frame outer, cursor.frames = frame :: outer ∧
    scan.findNext cursor.position cursor.anchor frame cursor.spent = .ok (some (.closing, found))
  step : scan.step (scan.capture nesting) cursor = .ok (some next)

theorem Enters.next_eq {rule : Rule} {enclosure : Enclosure}
    (h : scan.Enters nesting cursor rule enclosure found next) :
    ∃ stream, produceCaptures (scan.capture nesting) scan.line found
        (cursor.scopes.enter rule.name scan.line found.groups) enclosure.openingCaptures []
        (cursor.stream.produce found.start cursor.scopes.toList) = .ok stream ∧
      next = advance { cursor with
        anchor := some found.stop
        scopes := (cursor.scopes.enter rule.name scan.line found.groups).enter
          rule.contentName scan.line found.groups
        frames := scan.openFrame cursor (cursor.scopes.enter rule.name scan.line found.groups)
          rule.id enclosure found :: cursor.frames
        stream := stream.produce found.stop
          (cursor.scopes.enter rule.name scan.line found.groups).toList }
        (.opening rule.id) found := by
  obtain ⟨frame, outer, hframes, hfound⟩ := h.found
  cases stepped_of_step h.step with
  | closes hinside hframes' hfound' hstream =>
      cases hframes.symm.trans hframes'
      cases hfound.symm.trans hfound'
  | passes hinside hframes' hfound' hrule hkind hstream =>
      cases hframes.symm.trans hframes'
      cases hfound.symm.trans hfound'
      cases h.listed.symm.trans hrule
      cases h.kind.symm.trans hkind
  | opens hinside hframes' hfound' hrule hkind hstream =>
      cases hframes.symm.trans hframes'
      cases hfound.symm.trans hfound'
      cases h.listed.symm.trans hrule
      cases h.kind.symm.trans hkind
      exact ⟨_, hstream, rfl⟩

theorem Enters.frames_eq {rule : Rule} {enclosure : Enclosure}
    (h : scan.Enters nesting cursor rule enclosure found next) :
    next.frames = scan.openFrame cursor (cursor.scopes.enter rule.name scan.line found.groups)
      rule.id enclosure found :: cursor.frames := by
  obtain ⟨stream, -, rfl⟩ := h.next_eq
  exact advance_frames _ _ _

theorem enters_or_suffix (hnumbered : Grammar.Numbered scan.grammar.rules)
    (hstep : scan.step (scan.capture nesting) cursor = .ok (some next)) :
    (∃ rule enclosure found, scan.Enters nesting cursor rule enclosure found next) ∨
      next.frames <:+ cursor.frames := by
  cases stepped_of_step hstep with
  | closes hinside hframes hfound hstream =>
      rw [advance_frames, hframes]
      exact .inr (List.suffix_cons _ _)
  | passes hinside hframes hfound hrule hkind hstream =>
      rw [advance_frames]
      exact .inr (List.suffix_refl _)
  | opens hinside hframes hfound hrule hkind hstream =>
      cases hnumbered _ _ hrule
      exact .inl ⟨_, _, _, hrule, hkind, ⟨_, _, hframes, hfound⟩, hstep⟩

theorem Leaves.next_eq {frame : Frame} {outer : List Frame}
    (h : scan.Leaves nesting cursor found next) (hframes : cursor.frames = frame :: outer) :
    ∃ stream, produceCaptures (scan.capture nesting) scan.line found
        (cursor.scopes.truncate frame.nameDepth) (scan.closingCaptures frame) []
        (cursor.stream.produce found.start cursor.scopes.toList) = .ok stream ∧
      next = advance { cursor with
        anchor := frame.anchor
        scopes := (cursor.scopes.truncate frame.nameDepth).truncate frame.baseDepth
        frames := outer
        stream := stream.produce found.stop (cursor.scopes.truncate frame.nameDepth).toList }
        .closing found := by
  obtain ⟨_, _, hsame, hfound⟩ := h.found
  cases hframes.symm.trans hsame
  cases stepped_of_step h.step with
  | closes hinside hframes' hfound' hstream =>
      cases hframes.symm.trans hframes'
      cases hfound.symm.trans hfound'
      exact ⟨_, hstream, rfl⟩
  | passes hinside hframes' hfound' hrule hkind hstream =>
      cases hframes.symm.trans hframes'
      cases hfound.symm.trans hfound'
  | opens hinside hframes' hfound' hrule hkind hstream =>
      cases hframes.symm.trans hframes'
      cases hfound.symm.trans hfound'

end Scan

end ScopeLexer
