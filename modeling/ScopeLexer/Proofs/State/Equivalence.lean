import ScopeLexer.Proofs.State.WellFormed

/-!
# States that go on alike

Two states go on alike when they differ only in the anchors that their frames remember and in how
many lines led to them, apart from none.  A scan forgets the anchors of the line before, a skipped
line leaves them unseen.  Closing expressions may be compared by their text: those of frames are
compiled from it as it is written.
-/

namespace ScopeLexer

open Regex Outcome

/-! ## Alike states -/

structure Frame.Alike (left right : Frame) : Prop where
  rule : left.rule = right.rule
  baseDepth : left.baseDepth = right.baseDepth
  nameDepth : left.nameDepth = right.nameDepth
  endedLine : left.endedLine = right.endedLine
  closing : left.closing.map (·.source) = right.closing.map (·.source)

/-- States that differ in the anchors of their frames and in how many lines led to them. -/
structure State.Alike (left right : State) : Prop where
  scopes : left.scopes = right.scopes
  frames : List.Forall₂ Frame.Alike left.frames right.frames
  lines : left.lines = 0 ↔ right.lines = 0

instance (left right : Frame) : Decidable (left.Alike right) :=
  decidable_of_iff (left.rule = right.rule ∧ left.baseDepth = right.baseDepth ∧
      left.nameDepth = right.nameDepth ∧ left.endedLine = right.endedLine ∧
      left.closing.map (·.source) = right.closing.map (·.source))
    ⟨fun ⟨hrule, hbase, hname, hended, hclosing⟩ => ⟨hrule, hbase, hname, hended, hclosing⟩,
      fun h => ⟨h.rule, h.baseDepth, h.nameDepth, h.endedLine, h.closing⟩⟩

instance (left right : State) : Decidable (left.Alike right) :=
  decidable_of_iff (left.scopes = right.scopes ∧ List.Forall₂ Frame.Alike left.frames right.frames ∧
      (left.lines = 0 ↔ right.lines = 0))
    ⟨fun ⟨hscopes, hframes, hlines⟩ => ⟨hscopes, hframes, hlines⟩,
      fun h => ⟨h.scopes, h.frames, h.lines⟩⟩

theorem Frame.Alike.refl (frame : Frame) : frame.Alike frame := ⟨rfl, rfl, rfl, rfl, rfl⟩

theorem source_eq_of_beq {left right : Option Expression} (h : (left == right) = true) :
    left.map (·.source) = right.map (·.source) := by
  cases left <;> cases right
  · rfl
  · contradiction
  · contradiction
  · exact congrArg some (eq_of_beq h)

theorem Frame.Alike.of_beq {left right : Frame} (h : (left == right) = true) :
    left.Alike right := by
  change instBEqFrame.beq left right = true at h
  simp only [instBEqFrame.beq, Bool.and_eq_true, beq_iff_eq] at h
  obtain ⟨hrule, hbase, hname, -, hended, hclosing⟩ := h
  exact ⟨hrule, hbase, hname, hended, source_eq_of_beq hclosing⟩

theorem Frame.forall₂_alike_of_beq {left right : List Frame} (h : (left == right) = true) :
    List.Forall₂ Frame.Alike left right := by
  induction left generalizing right with
  | nil =>
      cases right with
      | nil => exact .nil
      | cons => contradiction
  | cons frame left ih =>
      cases right with
      | nil => contradiction
      | cons other right =>
          rw [List.cons_beq_cons, Bool.and_eq_true] at h
          exact .cons (.of_beq h.1) (ih h.2)

theorem State.Alike.of_beq {left right : State} (h : (left == right) = true) :
    left.Alike right := by
  change instBEqState.beq left right = true at h
  simp only [instBEqState.beq, Bool.and_eq_true, beq_iff_eq] at h
  obtain ⟨hscopes, hframes, hlines⟩ := h
  exact ⟨hscopes, Frame.forall₂_alike_of_beq hframes, by rw [hlines]⟩

/-! ## Starting a line -/

def Frame.ClosesAsWritten (frame : Frame) : Prop :=
  ∀ expression, frame.closing = some expression → expression.Resolved

theorem Frame.closing_eq_of_source {left right : Frame}
    (hsource : left.closing.map (·.source) = right.closing.map (·.source))
    (hleft : left.ClosesAsWritten) (hright : right.ClosesAsWritten) :
    left.closing = right.closing := by
  cases hl : left.closing with
  | none =>
      rw [hl] at hsource
      exact (Option.map_eq_none_iff.mp hsource.symm).symm
  | some expression =>
      rw [hl] at hsource
      obtain ⟨other, hr, hsame⟩ := Option.map_eq_some_iff.mp hsource.symm
      have hcompiled := (hright other hr).compiled
      rw [hsame, (hleft expression hl).compiled] at hcompiled
      rw [hr, Except.ok.inj hcompiled]

theorem Frame.Alike.withoutAnchor_eq {left right : Frame} (h : left.Alike right)
    (hleft : left.ClosesAsWritten) (hright : right.ClosesAsWritten) :
    { left with anchor := none } = { right with anchor := none } := by
  have hclosing := closing_eq_of_source h.closing hleft hright
  obtain ⟨hrule, hbase, hname, hended, -⟩ := h
  rw [hrule, hbase, hname, hended, hclosing]

theorem State.Alike.startLine_frames {left right : State} (h : left.Alike right)
    (hleft : ∀ frame ∈ left.frames, frame.ClosesAsWritten)
    (hright : ∀ frame ∈ right.frames, frame.ClosesAsWritten) :
    left.startLine.frames = right.startLine.frames := by
  have hframes := h.frames
  simp only [startLine]
  generalize left.frames = leftFrames at hframes hleft
  generalize right.frames = rightFrames at hframes hright
  induction hframes with
  | nil => rfl
  | cons hframe hframes ih =>
      simp only [List.forall_mem_cons] at hleft hright
      rw [List.map_cons, List.map_cons, hframe.withoutAnchor_eq hleft.1 hright.1,
        ih hleft.2 hright.2]

namespace Grammar

variable {grammar : Grammar} {options : TokenizeOptions} {left right state next : State}
  {line : Text} {tokens : List Token}

theorem scanLine_eq_of_alike (h : left.Alike right)
    (hleft : ∀ frame ∈ left.frames, frame.ClosesAsWritten)
    (hright : ∀ frame ∈ right.frames, frame.ClosesAsWritten) :
    grammar.scanLine left line = grammar.scanLine right line := by
  have hframes := h.startLine_frames hleft hright
  have hanchor : left.startLine.lineAnchor = right.startLine.lineAnchor := by
    simp only [State.lineAnchor, hframes]
  have hscan : grammar.scanOf left line = grammar.scanOf right line := by
    have hfirst : (left.lines == 0) = (right.lines == 0) := by
      rw [Bool.eq_iff_iff, beq_iff_eq, beq_iff_eq]
      exact h.lines
    simp only [scanOf, hfirst]
  rw [scanLine, scanLine, hframes, hanchor, hscan, h.scopes]

/-! ## Reachable states -/

theorem closesAsWritten_of_tokenized (hstate : ∀ frame ∈ state.frames, frame.ClosesAsWritten)
    (h : grammar.Tokenized options state line tokens next) :
    ∀ frame ∈ next.frames, frame.ClosesAsWritten := by
  cases h with
  | skipped hskips => exact hstate
  | @scanned cursor hscans hcursor =>
      obtain ⟨last, hsteps, rfl⟩ := Scan.run_eq_ok.mp hcursor
      have hlast := Scan.steps_invariant
        (P := fun cursor => ∀ frame ∈ cursor.frames, frame.ClosesAsWritten) ?_ ?_ hsteps
      · exact hlast
      · intro cursor next hcursor hstep frame hframe
        rcases hstep.mem_frames hframe with hframe | ⟨_, _, _, _, rfl⟩
        · exact hcursor frame hframe
        · exact fun _ hclosing => (Scan.closingFor?_eq_some hclosing).2
      · intro frame hframe
        obtain ⟨before, hbefore, rfl⟩ := List.mem_map.mp hframe
        exact hstate before hbefore

theorem Reachable.closesAsWritten (h : grammar.Reachable state) :
    ∀ frame ∈ state.frames, frame.ClosesAsWritten := by
  induction h with
  | initial =>
      intro frame hframe expression hclosing
      rw [List.mem_singleton.mp hframe] at hclosing
      contradiction
  | line hstate hline ih =>
      exact closesAsWritten_of_tokenized ih (tokenized_of_tokenizeLine hline)

end Grammar

/-! ## The lines that follow -/

inductive SameOutcome : (left right : Except ScanFault (List Token × State)) → Prop where
  | failed (fault : ScanFault) : SameOutcome (.error fault) (.error fault)
  | tokenized {tokens : List Token} {left right : State} (hnext : left.Alike right) :
      SameOutcome (.ok (tokens, left)) (.ok (tokens, right))

namespace Grammar

def outcomes (grammar : Grammar) :
    State → List (TokenizeOptions × Text) → List (Except ScanFault (List Token))
  | _, [] => []
  | state, (options, line) :: lines =>
      match grammar.tokenizeLine options state line with
      | .ok (tokens, next) => .ok tokens :: grammar.outcomes next lines
      | .error fault => [.error fault]

variable {grammar : Grammar} {left right : State}

theorem sameOutcome_of_alike (hleft : grammar.Reachable left) (hright : grammar.Reachable right)
    (h : left.Alike right) (options : TokenizeOptions) (line : Text) :
    SameOutcome (grammar.tokenizeLine options left line)
      (grammar.tokenizeLine options right line) := by
  cases hskips : options.skips line with
  | true =>
      rw [tokenizeLine_of_skips hskips, tokenizeLine_of_skips hskips, ← h.scopes]
      exact .tokenized ⟨rfl, h.frames, by simp⟩
  | false =>
      rw [tokenizeLine_of_scans hskips, tokenizeLine_of_scans hskips,
        scanLine_eq_of_alike h hleft.closesAsWritten hright.closesAsWritten]
      cases grammar.scanLine right line with
      | error fault => exact .failed fault
      | ok cursor => exact .tokenized ⟨rfl, List.forall₂_same.mpr fun _ _ => .refl _, by simp⟩

theorem outcomes_eq_of_alike (hleft : grammar.Reachable left) (hright : grammar.Reachable right)
    (h : left.Alike right) (lines : List (TokenizeOptions × Text)) :
    grammar.outcomes left lines = grammar.outcomes right lines := by
  induction lines generalizing left right with
  | nil => rfl
  | cons entry lines ih =>
      obtain ⟨options, line⟩ := entry
      have hsame := sameOutcome_of_alike hleft hright h options line
      simp only [outcomes]
      cases hl : grammar.tokenizeLine options left line with
      | error fault =>
          rw [hl] at hsame
          generalize grammar.tokenizeLine options right line = outcome at hsame
          cases hsame
          rfl
      | ok result =>
          cases hr : grammar.tokenizeLine options right line with
          | error fault =>
              rw [hl, hr] at hsame
              cases hsame
          | ok other =>
              obtain ⟨tokens, next⟩ := result
              obtain ⟨otherTokens, otherNext⟩ := other
              rw [hl, hr] at hsame
              cases hsame with
              | tokenized hnext =>
                  exact congrArg _ (ih (hleft.line hl) (hright.line hr) hnext)

/-- States that go on alike give the same for every line, and for any lines after one another; so do
states that compare equal. -/
theorem alike_go_on_alike (hleft : grammar.Reachable left) (hright : grammar.Reachable right) :
    (left.Alike right →
      (∀ options line, SameOutcome (grammar.tokenizeLine options left line)
        (grammar.tokenizeLine options right line)) ∧
      ∀ lines, grammar.outcomes left lines = grammar.outcomes right lines) ∧
    ((left == right) = true →
      ∀ lines, grammar.outcomes left lines = grammar.outcomes right lines) :=
  ⟨fun h => ⟨sameOutcome_of_alike hleft hright h, outcomes_eq_of_alike hleft hright h⟩,
    fun h => outcomes_eq_of_alike hleft hright (.of_beq h)⟩

theorem quotes_go_on_alike :
    (Quotes.after "x<a<b").openRules ≠ (Quotes.after "xx<a<b").openRules ∧
    ∀ lines, Quotes.grammar.outcomes (Quotes.after "x<a<b") lines =
      Quotes.grammar.outcomes (Quotes.after "xx<a<b") lines := by
  have hleft : Quotes.grammar.Reachable (Quotes.after "x<a<b") :=
    Quotes.reachable_after (by decide +kernel)
  have hright : Quotes.grammar.Reachable (Quotes.after "xx<a<b") :=
    Quotes.reachable_after (by decide +kernel)
  have halike : (Quotes.after "x<a<b").Alike (Quotes.after "xx<a<b") := by decide +kernel
  obtain ⟨hlines, -⟩ := alike_go_on_alike hleft hright
  exact ⟨by decide +kernel, (hlines halike).2⟩

end Grammar

end ScopeLexer
