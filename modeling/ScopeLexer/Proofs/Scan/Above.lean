import Mathlib.Data.List.Forall2
import ScopeLexer.Proofs.Scan.Shelter
import ScopeLexer.Proofs.Scan.Termination

/-!
# Scans above different scopes

A scan opens and closes scopes above those that it found open, and never looks at these.  So two
scans that differ in what lies below go on alike, step by step: the same matches, spans and frames,
with scopes that are the same above.  This holds until one of them closes a frame from below.
-/

namespace ScopeLexer

open Regex Outcome

/-! ## The same above -/

def SameAbove (left right : ScopeStack) (scopes other : List Scope) : Prop :=
  ∃ inner, scopes = left.toList ++ inner ∧ other = right.toList ++ inner

def SameDepth (left right : ScopeStack) (depth other : Nat) : Prop :=
  ∃ inner, depth = left.depth + inner ∧ other = right.depth + inner

theorem ScopeStack.toList_truncate {stack outer : ScopeStack} {inner : List Scope}
    (h : stack.toList = outer.toList ++ inner) (depth : Nat) :
    (stack.truncate (outer.depth + depth)).toList = outer.toList ++ inner.take depth := by
  have hcut : (stack.truncate (outer.depth + depth)).toList =
      stack.toList.take (outer.depth + depth) := by
    rw [ScopeStack.depth, Nat.add_right_comm]
    rfl
  rw [hcut, h, ← outer.length_toList, List.take_length_add_append]

namespace SameAbove

variable {left right stack other : ScopeStack}

theorem refl (left right : ScopeStack) : SameAbove left right left.toList right.toList :=
  ⟨[], (List.append_nil _).symm, (List.append_nil _).symm⟩

theorem enter (h : SameAbove left right stack.toList other.toList) (name : Option ScopeName)
    (line : Text) (groups : Groups) :
    SameAbove left right (stack.enter name line groups).toList
      (other.enter name line groups).toList := by
  cases name with
  | none => exact h
  | some name =>
      obtain ⟨inner, hstack, hother⟩ := h
      refine ⟨inner ++ name.resolve line groups, ?_, ?_⟩
      · rw [← List.append_assoc, ← hstack]
        rfl
      · rw [← List.append_assoc, ← hother]
        rfl

theorem depth (h : SameAbove left right stack.toList other.toList) :
    SameDepth left right stack.depth other.depth := by
  obtain ⟨inner, hstack, hother⟩ := h
  refine ⟨inner.length, ?_, ?_⟩
  · rw [← stack.length_toList, hstack, List.length_append, left.length_toList]
  · rw [← other.length_toList, hother, List.length_append, right.length_toList]

theorem truncate (h : SameAbove left right stack.toList other.toList) {depth otherDepth : Nat}
    (hdepth : SameDepth left right depth otherDepth) :
    SameAbove left right (stack.truncate depth).toList (other.truncate otherDepth).toList := by
  obtain ⟨inner, hstack, hother⟩ := h
  obtain ⟨above, rfl, rfl⟩ := hdepth
  exact ⟨inner.take above, ScopeStack.toList_truncate hstack above,
    ScopeStack.toList_truncate hother above⟩

theorem eq_iff {scopes others next nextOther : List Scope} (h : SameAbove left right scopes others)
    (hnext : SameAbove left right next nextOther) : scopes = next ↔ others = nextOther := by
  obtain ⟨inner, rfl, rfl⟩ := h
  obtain ⟨innerNext, rfl, rfl⟩ := hnext
  rw [List.append_cancel_left_eq, List.append_cancel_left_eq]

end SameAbove

/-! ## Tokens -/

structure Token.SameAbove (left right : ScopeStack) (token other : Token) : Prop where
  start : token.start = other.start
  stop : token.stop = other.stop
  scopes : ScopeLexer.SameAbove left right token.scopes other.scopes

structure TokenStream.SameAbove (left right : ScopeStack) (stream other : TokenStream) : Prop where
  tokens : List.Forall₂ (Token.SameAbove left right) stream.tokens other.tokens
  position : stream.position = other.position

namespace TokenStream.SameAbove

variable {left right : ScopeStack} {stream other : TokenStream}

theorem produce (h : SameAbove left right stream other) {scopes others : List Scope}
    (hscopes : ScopeLexer.SameAbove left right scopes others) (stop : Nat) :
    SameAbove left right (stream.produce stop scopes) (other.produce stop others) := by
  unfold TokenStream.produce
  rw [h.position]
  split
  · exact h
  · exact ⟨List.rel_append h.tokens (.cons ⟨rfl, rfl, hscopes⟩ .nil), rfl⟩

theorem produceAll (h : SameAbove left right stream other) {tokens others : List Token}
    (htokens : List.Forall₂ (Token.SameAbove left right) tokens others) :
    SameAbove left right (stream.produceAll tokens) (other.produceAll others) := by
  induction htokens generalizing stream other with
  | nil => exact h
  | @cons token otherToken tokens others htoken _ ih =>
      have hproduced := h.produce htoken.scopes token.stop
      rw [TokenStream.produceAll, TokenStream.produceAll, List.foldl_cons, List.foldl_cons,
        ← htoken.stop]
      exact ih hproduced

end TokenStream.SameAbove

/-! ## Captures -/

def OpenCaptures.SameAbove (left right : ScopeStack) : (opened others : OpenCaptures) → Prop :=
  List.Forall₂ fun capture other =>
    ScopeLexer.SameAbove left right capture.1.toList other.1.toList ∧ capture.2 = other.2

def CaptureScan.Blind (scanCapture : CaptureScan) : Prop :=
  ∀ ⦃left right scopes others : ScopeStack⦄ (rule : RuleId) (range : Range),
    SameAbove left right scopes.toList others.toList →
      Related (List.Forall₂ (Token.SameAbove left right)) (scanCapture rule range scopes)
        (scanCapture rule range others)

section

variable {left right : ScopeStack} {opened others : OpenCaptures} {stream other : TokenStream}

theorem closeCaptures_above (start : Nat) (hopened : opened.SameAbove left right others)
    (hstream : stream.SameAbove left right other) :
    (closeCaptures start opened stream).1.SameAbove left right
        (closeCaptures start others other).1 ∧
      (closeCaptures start opened stream).2.SameAbove left right
        (closeCaptures start others other).2 := by
  induction hopened generalizing stream other with
  | nil => exact ⟨.nil, hstream⟩
  | @cons capture otherCapture opened others hcapture hopened ih =>
      obtain ⟨hscopes, hstop⟩ := hcapture
      rw [closeCaptures, closeCaptures, ← hstop]
      split
      · exact ih (hstream.produce hscopes _)
      · exact ⟨.cons ⟨hscopes, rfl⟩ hopened, hstream⟩

theorem closeAllCaptures_above (hopened : opened.SameAbove left right others)
    (hstream : stream.SameAbove left right other) :
    (closeAllCaptures opened stream).SameAbove left right (closeAllCaptures others other) := by
  induction hopened generalizing stream other with
  | nil => exact hstream
  | cons hcapture _ ih =>
      rw [closeAllCaptures, closeAllCaptures, ← hcapture.2]
      exact ih (hstream.produce hcapture.1 _)

theorem innermostScopes_above {scopes otherScopes : ScopeStack}
    (hscopes : SameAbove left right scopes.toList otherScopes.toList)
    (hopened : opened.SameAbove left right others) :
    SameAbove left right (innermostScopes scopes opened).toList
      (innermostScopes otherScopes others).toList := by
  cases hopened with
  | nil => exact hscopes
  | cons hcapture _ => exact hcapture.1

theorem produceCaptures_above {scanCapture : CaptureScan} (hblind : scanCapture.Blind)
    {line : Text} {found : Match} {scopes otherScopes : ScopeStack} {captures : List Capture}
    (hscopes : SameAbove left right scopes.toList otherScopes.toList)
    (hopened : opened.SameAbove left right others)
    (hstream : stream.SameAbove left right other) :
    Related (TokenStream.SameAbove left right)
      (produceCaptures scanCapture line found scopes captures opened stream)
      (produceCaptures scanCapture line found otherScopes captures others other) := by
  induction captures generalizing opened others stream other with
  | nil => exact .succeeded (closeAllCaptures_above hopened hstream)
  | cons capture captures ih =>
      rw [produceCaptures, produceCaptures]
      split
      · exact ih hopened hstream
      · next range hrange =>
        obtain ⟨hclosed, hclosedStream⟩ := closeCaptures_above range.start hopened hstream
        have houter := innermostScopes_above hscopes hclosed
        have hproduced := hclosedStream.produce houter range.start
        have hinner := houter.enter capture.name line found.groups
        dsimp only
        split
        · next rule hrule =>
          exact (hblind rule range hinner).bind fun tokens otherTokens htokens =>
            ih hclosed (hproduced.produceAll htokens)
        · refine ih ?_ hproduced
          split
          · exact .cons ⟨hinner, rfl⟩ hclosed
          · exact hclosed

theorem produceCaptures_alike {scanCapture : CaptureScan} (hblind : scanCapture.Blind)
    {line : Text} {found : Match} (scopes otherScopes : ScopeStack) (captures : List Capture)
    (hposition : stream.position = other.position) :
    Related (fun _ _ => True) (produceCaptures scanCapture line found scopes captures [] stream)
      (produceCaptures scanCapture line found otherScopes captures [] other) := by
  have hafter (stream : TokenStream) :
      stream = TokenStream.after { position := stream.position } stream.tokens := by
    simp [TokenStream.after]
  rw [hafter stream, hafter other, produceCaptures_after, produceCaptures_after, hposition]
  exact (produceCaptures_above hblind (.refl scopes otherScopes) .nil ⟨.nil, rfl⟩).map
    fun _ _ _ => trivial

end

/-! ## Cursors -/

structure Frame.SameAbove (left right : ScopeStack) (frame other : Frame) : Prop where
  rule : frame.rule = other.rule
  baseDepth : SameDepth left right frame.baseDepth other.baseDepth
  nameDepth : SameDepth left right frame.nameDepth other.nameDepth
  anchor : frame.anchor = other.anchor
  endedLine : frame.endedLine = other.endedLine
  closing : frame.closing = other.closing

structure Cursor.SameAbove (left right : ScopeStack) (lower lowers : List Frame)
    (cursor other : Cursor) : Prop where
  position : cursor.position = other.position
  anchor : cursor.anchor = other.anchor
  spent : cursor.spent = other.spent
  scopes : ScopeLexer.SameAbove left right cursor.scopes.toList other.scopes.toList
  stream : cursor.stream.SameAbove left right other.stream
  frames : ∃ inner inners, cursor.frames = inner ++ lower ∧ other.frames = inners ++ lowers ∧
    List.Forall₂ (Frame.SameAbove left right) inner inners

inductive SameGround : (lower lowers : List Frame) → Prop where
  | nothing : SameGround [] []
  | frame {frame other : Frame} (outer others : List Frame) (hrule : frame.rule = other.rule)
      (hclosing : frame.closing = other.closing) : SameGround (frame :: outer) (other :: others)

/-- What two steps lead to: both scans are over, both go on alike, or both close a frame from
below. -/
inductive NextAbove (left right : ScopeStack) (lower lowers : List Frame) :
    (next other : Option Cursor) → Prop where
  | done : NextAbove left right lower lowers none none
  | goesOn {next other : Cursor} (h : next.SameAbove left right lower lowers other) :
      NextAbove left right lower lowers (some next) (some other)
  | leaves {next other : Cursor} (hnext : next.frames.length < lower.length)
      (hother : other.frames.length < lowers.length) :
      NextAbove left right lower lowers (some next) (some other)

namespace Scan

variable {scan : Scan} {scanCapture : CaptureScan} {left right : ScopeStack}
  {lower lowers : List Frame} {cursor other : Cursor} {frame otherFrame : Frame}

/-! ## Searching -/

theorem closing?_congr (hrule : frame.rule = otherFrame.rule)
    (hclosing : frame.closing = otherFrame.closing) :
    scan.closing? frame = scan.closing? otherFrame := by
  simp only [closing?, hrule, hclosing]

theorem findNext_congr (hrule : frame.rule = otherFrame.rule)
    (hclosing : frame.closing = otherFrame.closing) (position : Nat) (anchor : Option Nat)
    (spent : List RuleId) :
    scan.findNext position anchor frame spent = scan.findNext position anchor otherFrame spent := by
  simp only [findNext, hrule, closing?_congr hrule hclosing]

theorem closingCaptures_congr (hrule : frame.rule = otherFrame.rule) :
    scan.closingCaptures frame = scan.closingCaptures otherFrame := by
  simp only [closingCaptures, hrule]

/-! ## Applying what was found -/

theorem advance_above (h : cursor.SameAbove left right lower lowers other) (target : Target)
    (found : Match) :
    (advance cursor target found).SameAbove left right lower lowers
      (advance other target found) where
  position := by rw [position_advance, position_advance, h.position]
  anchor := by simpa using h.anchor
  spent := by rw [spent_advance, spent_advance, h.position, h.spent]
  scopes := by simpa using h.scopes
  stream := by simpa using h.stream
  frames := by simpa using h.frames

theorem close_above (hblind : scanCapture.Blind)
    (h : cursor.SameAbove left right lower lowers other)
    (hframe : frame.SameAbove left right otherFrame) {outer others : List Frame}
    (houter : ∃ inner inners, outer = inner ++ lower ∧ others = inners ++ lowers ∧
      List.Forall₂ (Frame.SameAbove left right) inner inners) (found : Match) :
    Related (Cursor.SameAbove left right lower lowers)
      (scan.close scanCapture cursor frame outer found)
      (scan.close scanCapture other otherFrame others found) := by
  have hnamed := h.scopes.truncate hframe.nameDepth
  rw [close, close, closingCaptures_congr hframe.rule]
  refine (produceCaptures_above hblind hnamed .nil (h.stream.produce h.scopes _)).bind
    fun stream otherStream hstream => .succeeded ?_
  exact ⟨h.position, hframe.anchor, h.spent, hnamed.truncate hframe.baseDepth,
    hstream.produce hnamed _, houter⟩

theorem close_ground (hblind : scanCapture.Blind)
    (h : cursor.SameAbove left right lower lowers other) (hrule : frame.rule = otherFrame.rule)
    (outer others : List Frame) (found : Match) :
    Related (fun next otherNext => next.frames = outer ∧ otherNext.frames = others)
      (scan.close scanCapture cursor frame outer found)
      (scan.close scanCapture other otherFrame others found) := by
  rw [close, close, closingCaptures_congr hrule]
  have hstream := h.stream.produce h.scopes found.start
  exact (produceCaptures_alike hblind _ _ _ hstream.position).bind
    fun _ _ _ => .succeeded ⟨rfl, rfl⟩

theorem apply_above (hblind : scanCapture.Blind)
    (h : cursor.SameAbove left right lower lowers other) (rule : Rule) (found : Match) :
    Related (Cursor.SameAbove left right lower lowers)
      (scan.apply scanCapture cursor rule found) (scan.apply scanCapture other rule found) := by
  have hstream := h.stream.produce h.scopes found.start
  have hnamed := h.scopes.enter rule.name scan.line found.groups
  rw [apply, apply]
  split
  · exact .succeeded ⟨h.position, h.anchor, h.spent, h.scopes, hstream, h.frames⟩
  · refine (produceCaptures_above hblind hnamed .nil hstream).bind
      fun stream otherStream hstream => .succeeded ?_
    exact ⟨h.position, h.anchor, h.spent, h.scopes, hstream.produce hnamed _, h.frames⟩
  · refine (produceCaptures_above hblind hnamed .nil hstream).bind
      fun stream otherStream hstream => .succeeded ?_
    obtain ⟨inner, inners, hinner, hinners, hframes⟩ := h.frames
    refine ⟨h.position, rfl, h.spent, hnamed.enter _ _ _, hstream.produce hnamed _, _, _,
      congrArg _ hinner, congrArg _ hinners, .cons ?_ hframes⟩
    exact ⟨rfl, h.scopes.depth, hnamed.depth, h.anchor, rfl, rfl⟩

/-! ## Steps -/

theorem step_within (hblind : scanCapture.Blind)
    (h : cursor.SameAbove left right lower lowers other) {outer others : List Frame}
    (hframes : cursor.frames = frame :: outer) (hothers : other.frames = otherFrame :: others)
    (hrule : frame.rule = otherFrame.rule) (hclosing : frame.closing = otherFrame.closing)
    (hclose : ∀ found, Related
      (fun next otherNext => NextAbove left right lower lowers
        (some (advance next .closing found)) (some (advance otherNext .closing found)))
      (scan.close scanCapture cursor frame outer found)
      (scan.close scanCapture other otherFrame others found)) :
    Related (NextAbove left right lower lowers) (scan.step scanCapture cursor)
      (scan.step scanCapture other) := by
  rw [step, step, hframes, hothers, h.position]
  split
  · exact .succeeded .done
  dsimp only
  rw [h.anchor, h.spent, findNext_congr hrule hclosing]
  split
  · exact .failed _
  · exact .succeeded .done
  · exact (hclose _).bind fun next otherNext hnext => .succeeded hnext
  · split
    · exact .succeeded .done
    · exact (apply_above hblind h _ _).bind fun next otherNext hnext =>
        .succeeded (.goesOn (advance_above hnext _ _))

theorem step_above (scan : Scan) (hblind : scanCapture.Blind) (hground : SameGround lower lowers)
    (h : cursor.SameAbove left right lower lowers other) :
    Related (NextAbove left right lower lowers) (scan.step scanCapture cursor)
      (scan.step scanCapture other) := by
  obtain ⟨inner, inners, hinner, hinners, hframes⟩ := h.frames
  cases hframes with
  | nil =>
      rw [List.nil_append] at hinner hinners
      cases hground with
      | nothing =>
          rw [step, step, hinner, hinners, h.position]
          split <;> exact .succeeded .done
      | frame outer others hrule hclosing =>
          refine step_within hblind h hinner hinners hrule hclosing fun found => ?_
          refine (close_ground hblind h hrule outer others found).imp fun next otherNext hnext => ?_
          exact .leaves (by simp [hnext.1]) (by simp [hnext.2])
  | cons hframe hframes =>
      refine step_within hblind h hinner hinners hframe.rule hframe.closing fun found => ?_
      refine (close_above hblind h hframe ⟨_, _, rfl, rfl, hframes⟩ found).imp
        fun next otherNext hnext => .goesOn (advance_above hnext _ _)

/-! ## Scans that keep their frames -/

def Reaches (scan : Scan) (scanCapture : CaptureScan) : Cursor → Cursor → Prop :=
  Relation.ReflTransGen fun cursor next => scan.step scanCapture cursor = .ok (some next)

/-- However many steps are taken, `depth` frames stay open. -/
def Keeps (scan : Scan) (scanCapture : CaptureScan) (depth : Nat) (cursor : Cursor) : Prop :=
  ∀ next, scan.Reaches scanCapture cursor next → depth ≤ next.frames.length

theorem Keeps.step {depth : Nat} {next : Cursor} (h : scan.Keeps scanCapture depth cursor)
    (hstep : scan.step scanCapture cursor = .ok (some next)) :
    scan.Keeps scanCapture depth next :=
  fun last hlast => h last (.head hstep hlast)

theorem keeps_of_done {depth : Nat} (hdepth : depth ≤ cursor.frames.length)
    (hstep : scan.step scanCapture cursor = .ok none) : scan.Keeps scanCapture depth cursor := by
  intro last hlast
  rcases hlast.cases_head with rfl | ⟨next, hnext, -⟩
  · exact hdepth
  · cases hstep.symm.trans hnext

theorem keeps_of_step {depth : Nat} {next : Cursor} (hdepth : depth ≤ cursor.frames.length)
    (hstep : scan.step scanCapture cursor = .ok (some next))
    (hnext : scan.Keeps scanCapture depth next) : scan.Keeps scanCapture depth cursor := by
  intro last hlast
  rcases hlast.cases_head with rfl | ⟨other, hother, hlast⟩
  · exact hdepth
  · cases hstep.symm.trans hother
    exact hnext last hlast

theorem step_back (hblind : scanCapture.Blind) (hground : SameGround lower lowers)
    (hkeeps : scan.Keeps scanCapture lower.length cursor)
    (h : cursor.SameAbove left right lower lowers other) {otherNext : Cursor}
    (hstep : scan.step scanCapture other = .ok (some otherNext)) :
    ∃ next, scan.step scanCapture cursor = .ok (some next) ∧
      next.SameAbove left right lower lowers otherNext := by
  have hrelated := step_above scan hblind hground h
  rw [hstep] at hrelated
  generalize hfirst : scan.step scanCapture cursor = outcome at hrelated
  cases hrelated with
  | succeeded hnext =>
      cases hnext with
      | goesOn hnext => exact ⟨_, rfl, hnext⟩
      | @leaves next _ hlower _ =>
          exact absurd (hkeeps next (.single hfirst)) (Nat.not_le_of_lt hlower)

theorem keeps_above (hblind : scanCapture.Blind) (hground : SameGround lower lowers)
    (hkeeps : scan.Keeps scanCapture lower.length cursor)
    (h : cursor.SameAbove left right lower lowers other) :
    scan.Keeps scanCapture lowers.length other := by
  intro last hlast
  have hmate : ∃ mate, scan.Reaches scanCapture cursor mate ∧
      mate.SameAbove left right lower lowers last := by
    induction hlast with
    | refl => exact ⟨cursor, .refl, h⟩
    | tail _ hstep ih =>
        obtain ⟨mate, hmate, habove⟩ := ih
        obtain ⟨next, hnext, hsame⟩ := step_back hblind hground
          (fun last hlast => hkeeps last (hmate.trans hlast)) habove hstep
        exact ⟨next, hmate.tail hnext, hsame⟩
  obtain ⟨mate, -, hsame⟩ := hmate
  obtain ⟨inner, inners, -, hframes, -⟩ := hsame.frames
  rw [hframes, List.length_append]
  exact Nat.le_add_left _ _

theorem steps_above (fuel : Nat) (hblind : scanCapture.Blind)
    (hground : SameGround lower lowers)
    (hkeeps : scan.Keeps scanCapture lower.length cursor)
    (h : cursor.SameAbove left right lower lowers other) :
    Related (Cursor.SameAbove left right lower lowers) (scan.steps scanCapture fuel cursor)
      (scan.steps scanCapture fuel other) := by
  induction fuel generalizing cursor other with
  | zero => exact .failed _
  | succ fuel ih =>
      have hrelated := step_above scan hblind hground h
      rw [steps, steps]
      generalize hfirst : scan.step scanCapture cursor = first at hrelated
      generalize scan.step scanCapture other = second at hrelated
      cases hrelated with
      | failed fault => exact .failed fault
      | succeeded hnext =>
          cases hnext with
          | done => exact .succeeded h
          | goesOn hnext => exact ih (hkeeps.step hfirst) hnext
          | @leaves next _ hlower _ =>
              exact absurd (hkeeps next (.single hfirst)) (Nat.not_le_of_lt hlower)

theorem capture_blind (scan : Scan) (nesting : Nat) : (scan.capture nesting).Blind := by
  induction nesting generalizing scan with
  | zero =>
      intro left right scopes others rule range hscopes
      exact .failed _
  | succ nesting ih =>
      intro left right scopes others rule range hscopes
      rw [capture, capture, run, run]
      have hstart : Cursor.SameAbove left right [] []
          { position := range.start
            anchor := none
            scopes
            frames := [.group rule scopes.depth]
            stream := { position := range.start } }
          { position := range.start
            anchor := none
            scopes := others
            frames := [.group rule others.depth]
            stream := { position := range.start } } :=
        ⟨rfl, rfl, rfl, hscopes, ⟨.nil, rfl⟩, _, _, (List.append_nil _).symm,
          (List.append_nil _).symm, .cons ⟨rfl, hscopes.depth, hscopes.depth, rfl, rfl, rfl⟩ .nil⟩
      refine .bind (.bind (steps_above _ (ih _) .nothing (fun _ _ => Nat.zero_le _) hstart)
        fun last otherLast hlast => .succeeded ?_) fun last otherLast hlast => .succeeded hlast
      exact (hlast.stream.produce hlast.scopes _).tokens

/-! ## How many steps are enough -/

theorem steps_of_ne_endless {fuel more : Nat} (hfuel : fuel ≤ more)
    (h : scan.steps scanCapture fuel cursor ≠ .error .endless) :
    scan.steps scanCapture more cursor = scan.steps scanCapture fuel cursor := by
  induction fuel generalizing cursor more with
  | zero => exact absurd rfl h
  | succ fuel ih =>
      cases more with
      | zero => omega
      | succ more =>
          rw [steps] at h ⊢
          rw [steps]
          cases hstep : scan.step scanCapture cursor with
          | error fault => rfl
          | ok stepped =>
              cases stepped with
              | none => rfl
              | some next =>
                  rw [hstep] at h
                  exact ih (Nat.le_of_succ_le_succ hfuel) h

theorem steps_of_forward (hforward : scan.GoesForward) {fuel more : Nat}
    (hcursor : scan.Spends cursor) (hfuel : scan.stepsLeft cursor < fuel)
    (hmore : scan.stepsLeft cursor < more) :
    scan.steps scanCapture more cursor = scan.steps scanCapture fuel cursor := by
  induction fuel generalizing cursor more with
  | zero => omega
  | succ fuel ih =>
      cases more with
      | zero => omega
      | succ more =>
          rw [steps, steps]
          cases hstep : scan.step scanCapture cursor with
          | error fault => rfl
          | ok stepped =>
              cases stepped with
              | none => rfl
              | some next =>
                  obtain ⟨frame, outer, target, found, hframes, hfound⟩ :=
                    (stepped_of_step hstep).exists_found
                  have hmoved := moved_of_step hframes hfound hstep
                  have hlt := hmoved.stepsLeft_lt hforward hfound hcursor
                  exact ih (hmoved.spends hforward hfound hcursor) (by omega) (by omega)

/-- The scan takes no more steps than are counted for its frames: its searches go forward, or it
does come to an end. -/
def Settles (scan : Scan) (scanCapture : CaptureScan) (cursor : Cursor) : Prop :=
  scan.GoesForward ∧ scan.Spends cursor ∨ scan.run scanCapture cursor ≠ .error .endless

theorem Settles.steps (h : scan.Settles scanCapture cursor) {fuel : Nat}
    (hfuel : scan.stepBound cursor.frames ≤ fuel) :
    scan.steps scanCapture fuel cursor =
      scan.steps scanCapture (scan.stepBound cursor.frames) cursor := by
  rcases h with ⟨hforward, hcursor⟩ | hends
  · have hbound := scan.stepsLeft_lt_stepBound cursor
    exact steps_of_forward hforward hcursor hbound (hbound.trans_le hfuel)
  · refine steps_of_ne_endless hfuel fun hendless => hends ?_
    rw [run, hendless]
    rfl

theorem run_above (hblind : scanCapture.Blind) (hground : SameGround lower lowers)
    (hkeeps : scan.Keeps scanCapture lower.length cursor)
    (h : cursor.SameAbove left right lower lowers other)
    (hcursor : scan.Settles scanCapture cursor) (hother : scan.Settles scanCapture other) :
    Related (Cursor.SameAbove left right lower lowers) (scan.run scanCapture cursor)
      (scan.run scanCapture other) := by
  have hsteps := steps_above (max (scan.stepBound cursor.frames) (scan.stepBound other.frames))
    hblind hground hkeeps h
  rw [hcursor.steps (Nat.le_max_left _ _), hother.steps (Nat.le_max_right _ _)] at hsteps
  rw [run, run]
  refine hsteps.bind fun last otherLast hlast => .succeeded ?_
  exact ⟨hlast.position, hlast.anchor, hlast.spent, hlast.scopes,
    hlast.stream.produce hlast.scopes _, hlast.frames⟩

end Scan

end ScopeLexer
