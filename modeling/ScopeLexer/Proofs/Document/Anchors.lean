import ScopeLexer.Proofs.Document.Brackets

/-!
# The anchor at the start of a line

A frame remembers whether its opening match reached the end of its line, and never forgets it.  So a
line starts at an anchor exactly when the innermost rule was opened by such a match, on whatever line
before.
-/

namespace ScopeLexer

open Regex Outcome Relation

namespace Grammar

variable {grammar : Grammar} {lines : Lines} {place next : Place} {state earlier : State}
  {line : Text} {rest : Lines} {found : Match} {depth : Nat}

/-- On a line of the document a match opened a rule within `depth` frames, which is open since. -/
def OpenedBy (grammar : Grammar) (lines : Lines) (state : State) (line : Text) (found : Match)
    (depth : Nat) (place : Place) : Prop :=
  ∃ rest before rule enclosure entered,
    grammar.Visits lines (grammar.inLine state line rest before) ∧
    before.frames.length = depth ∧
    (grammar.scanOf state line).Enters (grammar.scanOf state line).nestingBound before rule
      enclosure found entered ∧
    grammar.CourseAbove depth (grammar.inLine state line rest entered) place

namespace OpenedBy

theorem moves (h : grammar.OpenedBy lines state line found depth place)
    (hmove : grammar.Moves place next) (hdepth : depth < next.frames.length) :
    grammar.OpenedBy lines state line found depth next := by
  obtain ⟨rest, before, rule, enclosure, entered, hvisits, hbefore, henters, hcourse⟩ := h
  exact ⟨rest, before, rule, enclosure, entered, hvisits, hbefore, henters,
    hcourse.tail ⟨hmove, hdepth⟩⟩

theorem frame_mem (h : grammar.OpenedBy lines earlier line found depth (.between state rest)) :
    earlier.lines < state.lines ∧
      ∃ inner frame outer, state.frames = inner ++ frame :: outer ∧ outer.length = depth ∧
        frame.endedLine = (found.stop == line.endLine.byteSize) := by
  obtain ⟨rest', before, rule, enclosure, entered, hvisits, rfl, henters, hcourse⟩ := h
  cases (henters.openRule earlier rest').course rfl hcourse with
  | @between _ _ kept hlines hkept hstate =>
      refine ⟨hlines, ?_⟩
      obtain ⟨inner, hframes, -⟩ := hstate.frames
      cases kept with
      | nil => contradiction
      | cons frame outer =>
          obtain ⟨hhead, htail⟩ := List.cons.inj hkept
          refine ⟨inner, frame, outer, hframes, ?_, congrArg Frame.endedLine hhead⟩
          simpa using congrArg List.length htail

end OpenedBy

/-- Where the frames of a place come from: the outermost is the top level of the grammar, the others
were opened by matches and know whether these reached the ends of their lines. -/
def FramesOpened (grammar : Grammar) (lines : Lines) (place : Place) : Prop :=
  ∀ frame outer, frame :: outer <:+ place.frames →
    outer = [] ∧ frame.endedLine = false ∨
    ∃ earlier line found, grammar.OpenedBy lines earlier line found outer.length place ∧
      frame.endedLine = (found.stop == line.endLine.byteSize)

namespace FramesOpened

theorem moves (h : grammar.FramesOpened lines place) (hmove : grammar.Moves place next)
    (hframes : next.frames.map Frame.unanchored <:+ place.frames.map Frame.unanchored) :
    grammar.FramesOpened lines next := by
  intro frame outer hsuffix
  have hinner := (hsuffix.map Frame.unanchored).trans hframes
  obtain ⟨above, habove⟩ := hinner
  obtain ⟨inner, below, hplace, -, hbelow⟩ := List.map_eq_append_iff.mp habove.symm
  cases below with
  | nil => contradiction
  | cons kept lower =>
      obtain ⟨hhead, htail⟩ := List.cons.inj hbelow
      have hlength : lower.length = outer.length := by simpa using congrArg List.length htail
      have hended : kept.unanchored.endedLine = frame.unanchored.endedLine := by rw [hhead]
      rcases h kept lower ⟨inner, hplace.symm⟩ with ⟨rfl, hkept⟩ | ⟨earlier, line, found, hopened, hkept⟩
      · exact .inl ⟨List.eq_nil_of_length_eq_zero hlength.symm, hended ▸ hkept⟩
      · rw [hlength] at hopened
        exact .inr ⟨earlier, line, found, hopened.moves hmove hsuffix.length_le, hended ▸ hkept⟩

theorem of_visits (hnumbered : Numbered grammar.rules) (h : grammar.Visits lines place) :
    grammar.FramesOpened lines place := by
  induction h with
  | refl =>
      intro frame outer hsuffix
      rcases List.suffix_cons_iff.mp hsuffix with hwhole | hnone
      · cases hwhole
        exact .inl ⟨rfl, rfl⟩
      · cases List.suffix_nil.mp hnone
  | tail hvisits hmove ih =>
      cases hmove with
      | skip hskips => exact ih.moves (.skip hskips) (List.suffix_refl _)
      | start hscans =>
          exact ih.moves (.start hscans) ⟨[], Frame.map_unanchored_idem _⟩
      | finish hdone => exact ih.moves (.finish hdone) (List.suffix_refl _)
      | @step state rest scan nesting cursor next hstep =>
          obtain ⟨line, rfl, rfl⟩ := Visits.inLine hvisits
          rcases Scan.enters_or_suffix hnumbered hstep with ⟨rule, enclosure, found, henters⟩ | hkept
          · intro frame outer hsuffix
            change _ <:+ next.frames at hsuffix
            rw [henters.frames_eq] at hsuffix
            rcases List.suffix_cons_iff.mp hsuffix with hwhole | hbelow
            · cases hwhole
              exact .inr ⟨state, line, found,
                ⟨rest, cursor, rule, enclosure, next, hvisits, rfl, henters, .refl⟩, rfl⟩
            · rcases ih frame outer hbelow with htop | ⟨earlier, line, found, hopened, hended⟩
              · exact .inl htop
              · refine .inr ⟨earlier, line, found, hopened.moves (.step hstep) ?_, hended⟩
                change _ < next.frames.length
                rw [henters.frames_eq]
                exact Nat.lt_succ_of_lt hbelow.length_le
          · exact ih.moves (.step hstep) (hkept.map _)

end FramesOpened

/-! ## Where a line starts -/

theorem lineStart_anchor_eq_some :
    state.lineStart.anchor = some 0 ↔
      ∃ frame outer, state.frames = frame :: outer ∧ frame.endedLine = true := by
  simp only [State.lineStart, State.lineAnchor, State.frames_startLine]
  cases state.frames with
  | nil => simp
  | cons frame outer => simp [Frame.unanchored]

theorem lineStart_anchor_eq_none (h : state.lineStart.anchor ≠ some 0) :
    state.lineStart.anchor = none := by
  simp only [State.lineStart, State.lineAnchor, State.frames_startLine] at h ⊢
  cases hframes : state.frames with
  | nil => rfl
  | cons frame outer => simpa [hframes] using h

def StepsOut (grammar : Grammar) (state : State) (line : Text) (cursor next : Cursor) : Prop :=
  (grammar.scanOf state line).step
      ((grammar.scanOf state line).capture (grammar.scanOf state line).nestingBound) cursor =
    .ok (some next) ∧
  ∀ rule enclosure found, ¬(grammar.scanOf state line).Enters
    (grammar.scanOf state line).nestingBound cursor rule enclosure found next

theorem anchor_eq_none_of_stepsOut {cursor : Cursor} (hnumbered : Numbered grammar.rules)
    (hstart : state.lineStart.anchor = none)
    (hsteps : ReflTransGen (grammar.StepsOut state line) state.lineStart cursor) :
    cursor.anchor = none ∧ ∀ frame ∈ cursor.frames, frame.anchor = none := by
  induction hsteps with
  | refl =>
      refine ⟨hstart, fun frame hframe => ?_⟩
      obtain ⟨_, _, rfl⟩ := List.mem_map.mp hframe
      rfl
  | @tail cursor next _ hstep ih =>
      obtain ⟨hanchor, hframes⟩ := ih
      obtain ⟨hstep, hout⟩ := hstep
      cases Scan.stepped_of_step hstep with
      | closes hinside hcursor hfound hstream =>
          rw [hcursor] at hframes
          rw [Scan.advance_anchor, Scan.advance_frames]
          exact ⟨hframes _ List.mem_cons_self, fun frame hframe =>
            hframes frame (List.mem_cons_of_mem _ hframe)⟩
      | passes hinside hcursor hfound hrule hkind hstream =>
          rw [Scan.advance_anchor, Scan.advance_frames]
          exact ⟨hanchor, hframes⟩
      | opens hinside hcursor hfound hrule hkind hstream =>
          cases hnumbered _ _ hrule
          exact absurd ⟨hrule, hkind, ⟨_, _, hcursor, hfound⟩, hstep⟩ (hout _ _ _)

/-- A line starts at an anchor exactly when the innermost rule was opened, on whatever line before,
by a match that ended where its line ended.  Otherwise there is no anchor before a rule is opened. -/
theorem line_starts_at_anchor {definition : GrammarDefinition}
    (hgrammar : ofDefinition definition = .ok grammar)
    (hstate : grammar.Visits lines (.between state rest)) (line : Text) :
    (state.lineStart.anchor = some 0 ↔ ∃ earlier line found,
      grammar.OpenedBy lines earlier line found state.depth (.between state rest) ∧
        earlier.lines < state.lines ∧ found.stop = line.endLine.byteSize) ∧
    (state.lineStart.anchor ≠ some 0 → ∀ cursor,
      ReflTransGen (grammar.StepsOut state line) state.lineStart cursor → cursor.anchor = none) := by
  have hnumbered := numbered_of_ofDefinition hgrammar
  refine ⟨⟨fun hanchor => ?_, ?_⟩, fun hanchor cursor hsteps => ?_⟩
  · obtain ⟨frame, outer, hframes, hended⟩ := lineStart_anchor_eq_some.mp hanchor
    have hdepth : state.depth = outer.length := by simp [State.depth, hframes]
    rcases FramesOpened.of_visits hnumbered hstate frame outer ⟨[], hframes.symm⟩ with
      ⟨-, htop⟩ | ⟨earlier, line, found, hopened, hfound⟩
    · rw [htop] at hended
      contradiction
    · rw [hended] at hfound
      rw [hdepth]
      exact ⟨earlier, line, found, hopened, hopened.frame_mem.1, beq_iff_eq.mp hfound.symm⟩
  · rintro ⟨earlier, line, found, hopened, -, hstop⟩
    obtain ⟨-, inner, frame, outer, hframes, hdepth, hended⟩ := hopened.frame_mem
    cases inner with
    | nil => exact lineStart_anchor_eq_some.mpr ⟨frame, outer, hframes, by simp [hended, hstop]⟩
    | cons above inner =>
        simp [State.depth, hframes] at hdepth
        omega
  · exact (anchor_eq_none_of_stepsOut hnumbered (lineStart_anchor_eq_none hanchor) hsteps).1

end Grammar

/-! ## An anchor two lines later -/

namespace Indented

def definition : GrammarDefinition where
  scopeName := "source"
  patterns := [{
    beginSource := some "a\\n"
    endSource := some "z"
    patterns := some [{ name := some "first", matchSource := some "\\Gx" }] }]

def grammar : Grammar := (Grammar.ofDefinition definition).toOption.getD default

theorem ofDefinition_definition : Grammar.ofDefinition definition = .ok grammar := rfl

def lines : Lines := [({}, .ofString "a"), ({}, .ofString "y")]

def after (state : State) (line : String) : State :=
  ((grammar.tokenizeLine {} state (.ofString line)).toOption.map (·.2)).getD default

theorem course_after {state : State} {line : String} (rest : Lines)
    (h : (grammar.tokenizeLine {} state (.ofString line)).toOption.isSome = true) :
    grammar.Course (.between state (({}, .ofString line) :: rest))
      (.between (after state line) rest) := by
  unfold after
  cases hline : grammar.tokenizeLine {} state (.ofString line) with
  | error fault => simp [hline, Except.toOption] at h
  | ok result => exact Grammar.course_of_tokenizeLine hline

def first : State := after (.initial grammar) "a"

def second : State := after first "y"

theorem course_first :
    grammar.Visits lines (.between first [({}, .ofString "y")]) :=
  course_after _ (by decide +kernel)

theorem course_second : grammar.Visits lines (.between second []) :=
  course_first.trans (course_after _ (by decide +kernel))

theorem start_of_second :
    second.lineStart.anchor = some 0 ∧ second.depth = 1 ∧ second.lines = 2 := by
  decide +kernel

theorem opened_two_lines_before : ∃ earlier line found,
    grammar.OpenedBy lines earlier line found 1 (.between second []) ∧
      earlier.lines < 2 ∧ found.stop = line.endLine.byteSize := by
  obtain ⟨hanchor, hdepth, hlines⟩ := start_of_second
  obtain ⟨hstart, -⟩ := Grammar.line_starts_at_anchor ofDefinition_definition course_second
    (.ofString "x")
  rw [hdepth, hlines] at hstart
  exact hstart.mp hanchor

theorem frames_of_second_line {line : Text} {rest : Lines} {state : State} {cursor : Cursor}
    (h : grammar.Visits lines (grammar.inLine state line rest cursor)) (hlines : state.lines = 1) :
    cursor.frames.length = 2 := by
  have hcount : first.lines = 1 := by decide +kernel
  have hstart : first.lineStart.frames.length = 2 := by decide +kernel
  have hstep : ((grammar.scanOf first (.ofString "y")).step ((grammar.scanOf first
      (.ofString "y")).capture (grammar.scanOf first (.ofString "y")).nestingBound)
      first.lineStart).map (·.isSome) = .ok false := by decide +kernel
  obtain ⟨stepped, hstep, hnone⟩ := Outcome.map_eq_ok.mp hstep
  have hlater : ∀ {place : Place}, 2 ≤ place.lines →
      ¬grammar.Course place (grammar.inLine state line rest cursor) := by
    intro place hplace hcourse
    have hle : place.lines ≤ state.lines := Grammar.lines_le_of_course hcourse
    omega
  -- There is one course, so the place lies after the start of the second line or before it.
  rcases ReflTransGen.total_of_right_unique Grammar.Moves.rightUnique course_first h with
    hcourse | hcourse
  · rcases hcourse.cases_head with hsame | ⟨place, hmove, hcourse⟩
    · cases hsame
    cases hmove with
    | skip hskips => exact absurd hcourse (hlater (by simp [Place.lines, hcount]))
    | start hscans =>
        rcases hcourse.cases_head with hsame | ⟨place, hmove, hcourse⟩
        · simp only [Grammar.inLine, Place.within.injEq] at hsame
          rw [← hsame.2.2.2.2]
          exact hstart
        generalize hplace : grammar.inLine _ _ _ _ = begun at hmove
        cases hmove with
        | skip _ => cases hplace
        | start _ => cases hplace
        | step hstepped =>
            cases hplace
            cases hstep.symm.trans hstepped
            contradiction
        | finish _ =>
            simp only [Grammar.inLine, Place.within.injEq] at hplace
            obtain ⟨rfl, -⟩ := hplace
            exact absurd hcourse (hlater (by simp [Place.lines, hcount]))
  · have hlt := Grammar.lines_lt_of_course hcourse
    omega

theorem anchor_outlives_next_line :
    ¬∀ (lines : Lines) (state : State) (rest : Lines),
      grammar.Visits lines (.between state rest) → state.lineStart.anchor = some 0 →
      ∃ earlier line found,
        grammar.OpenedBy lines earlier line found state.depth (.between state rest) ∧
        state.lines = earlier.lines + 1 ∧ found.stop = line.endLine.byteSize := by
  intro hnext
  obtain ⟨hanchor, hdepth, hlines⟩ := start_of_second
  obtain ⟨earlier, line, found, hopened, hearlier, -⟩ := hnext lines second [] course_second hanchor
  obtain ⟨rest, before, rule, enclosure, entered, hvisits, hbefore, -⟩ := hopened
  have hframes := frames_of_second_line hvisits (by omega)
  omega

end Indented

end ScopeLexer
