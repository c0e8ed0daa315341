import ScopeLexer.Proofs.Scan.Search

/-!
# Steps of a scan

`Scan.Stepped` says what one step does: it closes the innermost rule, passes over a single match, or
opens a rule.  An invariant of the steps is an invariant of the run.
-/

namespace ScopeLexer.Scan

open Regex Outcome

variable {scan : Scan} {scanCapture : CaptureScan} {cursor next : Cursor} {found : Match}

/-! ## Moving on -/

@[simp] theorem advance_scopes (cursor : Cursor) (target : Target) (found : Match) :
    (advance cursor target found).scopes = cursor.scopes := by
  unfold advance
  cases target <;> dsimp only <;> split <;> (try split) <;> rfl

@[simp] theorem advance_frames (cursor : Cursor) (target : Target) (found : Match) :
    (advance cursor target found).frames = cursor.frames := by
  unfold advance
  cases target <;> dsimp only <;> split <;> (try split) <;> rfl

@[simp] theorem advance_anchor (cursor : Cursor) (target : Target) (found : Match) :
    (advance cursor target found).anchor = cursor.anchor := by
  unfold advance
  cases target <;> dsimp only <;> split <;> (try split) <;> rfl

@[simp] theorem advance_stream (cursor : Cursor) (target : Target) (found : Match) :
    (advance cursor target found).stream = cursor.stream := by
  unfold advance
  cases target <;> dsimp only <;> split <;> (try split) <;> rfl

/-! ## Applying what was found -/

theorem close_eq_ok {frame : Frame} {outer : List Frame} :
    scan.close scanCapture cursor frame outer found = .ok next ↔
      ∃ stream, produceCaptures scanCapture scan.line found
          (cursor.scopes.truncate frame.nameDepth) (scan.closingCaptures frame) []
          (cursor.stream.produce found.start cursor.scopes.toList) = .ok stream ∧
        next = { cursor with
          anchor := frame.anchor
          scopes := (cursor.scopes.truncate frame.nameDepth).truncate frame.baseDepth
          frames := outer
          stream := stream.produce found.stop
            (cursor.scopes.truncate frame.nameDepth).toList } := by
  simp only [close, bind_eq_ok, pure_eq_ok, @eq_comm _ next]

theorem apply_single {rule : Rule} {expression : Expression} {captures : List Capture}
    (hkind : rule.kind = .single expression captures) :
    scan.apply scanCapture cursor rule found = .ok next ↔
      ∃ stream, produceCaptures scanCapture scan.line found
          (cursor.scopes.enter rule.name scan.line found.groups) captures []
          (cursor.stream.produce found.start cursor.scopes.toList) = .ok stream ∧
        next = { cursor with
          stream := stream.produce found.stop
            (cursor.scopes.enter rule.name scan.line found.groups).toList } := by
  simp only [apply, hkind, bind_eq_ok, pure_eq_ok, @eq_comm _ next]

theorem apply_enclosed {rule : Rule} {enclosure : Enclosure}
    (hkind : rule.kind = .enclosed enclosure) :
    scan.apply scanCapture cursor rule found = .ok next ↔
      ∃ stream, produceCaptures scanCapture scan.line found
          (cursor.scopes.enter rule.name scan.line found.groups) enclosure.openingCaptures []
          (cursor.stream.produce found.start cursor.scopes.toList) = .ok stream ∧
        next = { cursor with
          anchor := some found.stop
          scopes := (cursor.scopes.enter rule.name scan.line found.groups).enter
            rule.contentName scan.line found.groups
          frames := scan.openFrame cursor (cursor.scopes.enter rule.name scan.line found.groups)
            rule.id enclosure found :: cursor.frames
          stream := stream.produce found.stop
            (cursor.scopes.enter rule.name scan.line found.groups).toList } := by
  simp only [apply, hkind, bind_eq_ok, pure_eq_ok, @eq_comm _ next]

/-! ## Steps -/

inductive Stepped (scan : Scan) (scanCapture : CaptureScan) (cursor : Cursor) : Cursor → Prop where
  | closes {frame : Frame} {outer : List Frame} {found : Match} {stream : TokenStream}
      (hinside : cursor.position < scan.line.byteSize) (hframes : cursor.frames = frame :: outer)
      (hfound : scan.findNext cursor.position cursor.anchor frame cursor.spent =
        .ok (some (.closing, found)))
      (hstream : produceCaptures scanCapture scan.line found
        (cursor.scopes.truncate frame.nameDepth) (scan.closingCaptures frame) []
        (cursor.stream.produce found.start cursor.scopes.toList) = .ok stream) :
      Stepped scan scanCapture cursor (advance { cursor with
        anchor := frame.anchor
        scopes := (cursor.scopes.truncate frame.nameDepth).truncate frame.baseDepth
        frames := outer
        stream := stream.produce found.stop (cursor.scopes.truncate frame.nameDepth).toList }
        .closing found)
  | passes {frame : Frame} {outer : List Frame} {id : RuleId} {found : Match} {rule : Rule}
      {expression : Expression} {captures : List Capture} {stream : TokenStream}
      (hinside : cursor.position < scan.line.byteSize) (hframes : cursor.frames = frame :: outer)
      (hfound : scan.findNext cursor.position cursor.anchor frame cursor.spent =
        .ok (some (.opening id, found)))
      (hrule : scan.grammar.rules[id]? = some rule)
      (hkind : rule.kind = .single expression captures)
      (hstream : produceCaptures scanCapture scan.line found
        (cursor.scopes.enter rule.name scan.line found.groups) captures []
        (cursor.stream.produce found.start cursor.scopes.toList) = .ok stream) :
      Stepped scan scanCapture cursor (advance { cursor with
        stream := stream.produce found.stop
          (cursor.scopes.enter rule.name scan.line found.groups).toList }
        (.opening id) found)
  | opens {frame : Frame} {outer : List Frame} {id : RuleId} {found : Match} {rule : Rule}
      {enclosure : Enclosure} {stream : TokenStream}
      (hinside : cursor.position < scan.line.byteSize) (hframes : cursor.frames = frame :: outer)
      (hfound : scan.findNext cursor.position cursor.anchor frame cursor.spent =
        .ok (some (.opening id, found)))
      (hrule : scan.grammar.rules[id]? = some rule) (hkind : rule.kind = .enclosed enclosure)
      (hstream : produceCaptures scanCapture scan.line found
        (cursor.scopes.enter rule.name scan.line found.groups) enclosure.openingCaptures []
        (cursor.stream.produce found.start cursor.scopes.toList) = .ok stream) :
      Stepped scan scanCapture cursor (advance { cursor with
        anchor := some found.stop
        scopes := (cursor.scopes.enter rule.name scan.line found.groups).enter
          rule.contentName scan.line found.groups
        frames := scan.openFrame cursor (cursor.scopes.enter rule.name scan.line found.groups)
          rule.id enclosure found :: cursor.frames
        stream := stream.produce found.stop
          (cursor.scopes.enter rule.name scan.line found.groups).toList }
        (.opening id) found)

/-- A rule that begins is no group: those have no expression. -/
theorem stepped_of_apply {frame : Frame} {outer : List Frame} {id : RuleId} {rule : Rule}
    {applied : Cursor} (hinside : cursor.position < scan.line.byteSize)
    (hframes : cursor.frames = frame :: outer)
    (hfound : scan.findNext cursor.position cursor.anchor frame cursor.spent =
      .ok (some (.opening id, found)))
    (hrule : scan.grammar.rules[id]? = some rule)
    (happly : scan.apply scanCapture cursor rule found = .ok applied) :
    scan.Stepped scanCapture cursor (advance applied (.opening id) found) := by
  cases hkind : rule.kind with
  | group =>
      obtain ⟨_, other, expression, -, -, hother, hopening, -⟩ := findNext_opening hfound
      cases hrule.symm.trans hother
      simp [Rule.opening?, hkind] at hopening
  | single expression captures =>
      obtain ⟨stream, hstream, rfl⟩ := (apply_single hkind).mp happly
      exact .passes hinside hframes hfound hrule hkind hstream
  | enclosed enclosure =>
      obtain ⟨stream, hstream, rfl⟩ := (apply_enclosed hkind).mp happly
      exact .opens hinside hframes hfound hrule hkind hstream

theorem stepped_of_step (h : scan.step scanCapture cursor = .ok (some next)) :
    scan.Stepped scanCapture cursor next := by
  unfold step at h
  split at h
  · simp at h
  next hinside =>
  split at h
  · simp at h
  · next frame outer hframes =>
    split at h
    · simp at h
    · simp at h
    · next found hfound =>
      obtain ⟨closed, hclose, h⟩ := bind_eq_ok.mp h
      cases Option.some.inj (pure_eq_ok.mp h)
      obtain ⟨stream, hstream, rfl⟩ := close_eq_ok.mp hclose
      exact .closes (Nat.lt_of_not_le hinside) hframes hfound hstream
    · next id found hfound =>
      split at h
      · simp at h
      · next rule hrule =>
        obtain ⟨applied, happly, h⟩ := bind_eq_ok.mp h
        cases Option.some.inj (pure_eq_ok.mp h)
        exact stepped_of_apply (Nat.lt_of_not_le hinside) hframes hfound hrule happly

theorem Stepped.mem_frames (h : scan.Stepped scanCapture cursor next) {frame : Frame}
    (hframe : frame ∈ next.frames) :
    frame ∈ cursor.frames ∨
      ∃ named id enclosure found, frame = scan.openFrame cursor named id enclosure found := by
  cases h with
  | closes hinside hframes hfound hstream =>
      rw [hframes]
      exact .inl (List.mem_cons_of_mem _ (by simpa using hframe))
  | passes hinside hframes hfound hrule hkind hstream => exact .inl (by simpa using hframe)
  | @opens _ _ _ found _ enclosure =>
      rw [advance_frames] at hframe
      rcases List.mem_cons.mp hframe with hopened | hframe
      · exact .inr ⟨_, _, enclosure, found, hopened⟩
      · exact .inl hframe

/-! ## Runs -/

theorem steps_invariant {P : Cursor → Prop}
    (hstep : ∀ {cursor next}, P cursor → scan.Stepped scanCapture cursor next → P next)
    {fuel : Nat} (hcursor : P cursor) (h : scan.steps scanCapture fuel cursor = .ok next) :
    P next := by
  induction fuel generalizing cursor with
  | zero => contradiction
  | succ fuel ih =>
      rw [steps] at h
      obtain ⟨stepped, hstepped, h⟩ := bind_eq_ok.mp h
      cases stepped with
      | none =>
          cases pure_eq_ok.mp h
          exact hcursor
      | some middle => exact ih (hstep hcursor (stepped_of_step hstepped)) h

theorem run_eq_ok :
    scan.run scanCapture cursor = .ok next ↔
      ∃ last, scan.steps scanCapture (scan.stepBound cursor.frames) cursor = .ok last ∧
        next = { last with
          stream := last.stream.produce scan.line.byteSize last.scopes.toList } := by
  simp only [run, bind_eq_ok, pure_eq_ok, @eq_comm _ next]

end ScopeLexer.Scan
