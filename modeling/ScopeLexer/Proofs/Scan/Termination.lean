import Mathlib.Data.List.Perm.Subperm
import ScopeLexer.Grammar.OfDefinition
import ScopeLexer.Proofs.Scan.Faults

/-!
# Scans that come to an end

Searches go forward.  So a step that stays at its position closes a rule, or begins one with an empty
match that was not spent there and spends it.  What is left of the line, the rules that are not spent
and the open frames together bound the number of steps.
-/

namespace ScopeLexer

open Regex Outcome

/-! ## Searching forward -/

/-- No search of the text finds a match in front of where it begins, or one that ends before it
starts. -/
def Regex.Expression.GoesForward (expression : Expression) (text : Text) : Prop :=
  ∀ position anchors found, expression.findAt? text position anchors = some found →
    position ≤ found.start ∧ found.start ≤ found.stop

theorem Regex.Expression.GoesForward.findUnspent? {expression : Expression} {text : Text}
    (h : expression.GoesForward text) {position : Nat} {anchors : Anchors} {spent : Bool}
    {found : Match} (hfound : expression.findUnspent? text position anchors spent = some found) :
    position ≤ found.start ∧ found.start ≤ found.stop ∧
      (spent = true → position < found.stop) := by
  unfold Expression.findUnspent? at hfound
  split at hfound
  · contradiction
  · next first hfirst =>
    split at hfound
    · -- the search behind the next character
      split at hfound
      · next next hnext =>
        have hlt := Text.lt_of_next? hnext
        obtain ⟨hstart, hstop⟩ := h _ _ _ hfound
        exact ⟨by omega, hstop, fun _ => by omega⟩
      · contradiction
    · next hcounts =>
      cases hfound
      obtain ⟨hstart, hstop⟩ := h _ _ _ hfirst
      refine ⟨hstart, hstop, fun hspent => ?_⟩
      simp only [hspent, Match.isEmpty, Bool.true_and, Bool.and_eq_true, beq_iff_eq,
        not_and] at hcounts
      by_contra hle
      exact hcounts (by omega) (by omega)

/-- It is enough to search from the positions of the text. -/
instance (expression : Expression) (text : Text) : Decidable (expression.GoesForward text) :=
  decidable_of_iff
    (∀ position < text.byteSize + 1, ∀ firstLine atAnchor : Bool,
      ∀ found ∈ expression.findAt? text position ⟨firstLine, atAnchor⟩,
        position ≤ found.start ∧ found.start ≤ found.stop)
    ⟨fun h position anchors found hfound =>
      have hposition := (expression.reliable.isBoundary hfound).le_byteSize
      h position (Nat.lt_succ_of_le hposition) anchors.firstLine anchors.atAnchor found hfound,
    fun h position _ _ _ found hfound => h position _ found hfound⟩

namespace Scan

variable {scan : Scan} {scanCapture : CaptureScan} {cursor next last : Cursor} {target : Target}
  {found : Match}

def GoesForward (scan : Scan) : Prop :=
  ∀ (id : RuleId) (rule : Rule) (expression : Expression),
    scan.grammar.rules[id]? = some rule → rule.opening? = some expression →
      expression.GoesForward scan.line

instance (scan : Scan) : Decidable scan.GoesForward :=
  decidable_of_iff
    (∀ rule ∈ scan.grammar.rules, ∀ expression ∈ rule.opening?, expression.GoesForward scan.line)
    ⟨fun h _ rule expression hrule hopening =>
      h rule (Array.mem_of_getElem? hrule) expression hopening,
    fun h rule hrule expression hopening =>
      have ⟨id, hid⟩ := Array.mem_iff_getElem?.mp hrule
      h id rule expression hid hopening⟩

theorem findNext_forward (hforward : scan.GoesForward) {position : Nat} {anchor : Option Nat}
    {frame : Frame} {spent : List RuleId} {id : RuleId}
    (h : scan.findNext position anchor frame spent = .ok (some (.opening id, found))) :
    id < scan.grammar.rules.size ∧ position ≤ found.start ∧ found.start ≤ found.stop ∧
      (id ∈ spent → position < found.stop) := by
  obtain ⟨_, rule, expression, -, -, hrule, hopening, hfound⟩ := findNext_opening h
  obtain ⟨hid, -⟩ := Array.getElem?_eq_some_iff.mp hrule
  obtain ⟨hstart, hstop, hspent⟩ := (hforward _ _ _ hrule hopening).findUnspent? hfound
  exact ⟨hid, hstart, hstop, fun hmem => hspent (List.contains_iff_mem.mpr hmem)⟩

/-! ## What a step moves -/

theorem position_advance (cursor : Cursor) (target : Target) (found : Match) :
    (advance cursor target found).position = max cursor.position found.stop := by
  rcases Nat.lt_or_ge cursor.position found.stop with hlt | hle
  · have hmax : max cursor.position found.stop = found.stop := by omega
    cases target <;> simp only [advance, hlt, if_true, hmax]
    split <;> rfl
  · have hmax : max cursor.position found.stop = cursor.position := by omega
    cases target <;> simp only [advance, Nat.not_lt.mpr hle, if_false, hmax]
    split <;> rfl

def spentBy : Target → Match → List RuleId
  | .opening id, found => if found.isEmpty then [id] else []
  | .closing, _ => []

theorem spent_advance (cursor : Cursor) (target : Target) (found : Match) :
    (advance cursor target found).spent =
      spentBy target found ++ if cursor.position < found.stop then [] else cursor.spent := by
  unfold advance spentBy
  cases target <;> dsimp only <;> split <;> (try split) <;> rfl

structure Moved (scan : Scan) (cursor : Cursor) (target : Target) (found : Match) (next : Cursor) :
    Prop where
  inside : cursor.position < scan.line.byteSize
  position : next.position = max cursor.position found.stop
  spent : next.spent = spentBy target found ++
    if cursor.position < found.stop then [] else cursor.spent
  closing : target = .closing → next.frames.length + 1 = cursor.frames.length
  opening : next.frames.length ≤ cursor.frames.length + 1

theorem Stepped.exists_found (h : scan.Stepped scanCapture cursor next) :
    ∃ frame outer target found, cursor.frames = frame :: outer ∧
      scan.findNext cursor.position cursor.anchor frame cursor.spent =
        .ok (some (target, found)) := by
  cases h with
  | closes hinside hframes hfound hstream => exact ⟨_, _, _, _, hframes, hfound⟩
  | passes hinside hframes hfound hrule hkind hstream => exact ⟨_, _, _, _, hframes, hfound⟩
  | opens hinside hframes hfound hrule hkind hstream => exact ⟨_, _, _, _, hframes, hfound⟩

theorem moved_of_step {frame : Frame} {outer : List Frame}
    (hframes : cursor.frames = frame :: outer)
    (hfound : scan.findNext cursor.position cursor.anchor frame cursor.spent =
      .ok (some (target, found)))
    (h : scan.step scanCapture cursor = .ok (some next)) :
    scan.Moved cursor target found next := by
  cases stepped_of_step h with
  | closes hinside hframes' hfound' hstream =>
      cases hframes.symm.trans hframes'
      cases hfound.symm.trans hfound'
      refine ⟨hinside, position_advance _ _ _, spent_advance _ _ _, fun _ => ?_, ?_⟩
      · simp [hframes]
      · simp only [advance_frames, hframes, List.length_cons]
        omega
  | passes hinside hframes' hfound' hrule hkind hstream =>
      cases hframes.symm.trans hframes'
      cases hfound.symm.trans hfound'
      refine ⟨hinside, position_advance _ _ _, spent_advance _ _ _, nofun, ?_⟩
      simp
  | opens hinside hframes' hfound' hrule hkind hstream =>
      cases hframes.symm.trans hframes'
      cases hfound.symm.trans hfound'
      refine ⟨hinside, position_advance _ _ _, spent_advance _ _ _, nofun, ?_⟩
      simp

/-! ## The measure -/

structure Spends (scan : Scan) (cursor : Cursor) : Prop where
  nodup : cursor.spent.Nodup
  rules : ∀ id ∈ cursor.spent, id < scan.grammar.rules.size

theorem Spends.length_le (h : scan.Spends cursor) :
    cursor.spent.length ≤ scan.grammar.rules.size := by
  have hsubset : cursor.spent ⊆ List.range scan.grammar.rules.size := by
    intro id hid
    exact List.mem_range.mpr (h.rules id hid)
  simpa using (h.nodup.subperm hsubset).length_le

/-- More steps than are left: at each position behind, every rule may be spent, and whatever was
opened may be closed. -/
def stepsLeft (scan : Scan) (cursor : Cursor) : Nat :=
  cursor.frames.length
    + 2 * ((scan.line.byteSize - cursor.position) * (scan.grammar.rules.size + 1)
      + (scan.grammar.rules.size - cursor.spent.length))

theorem fresh_of_spentBy (hforward : scan.GoesForward) {frame : Frame} {id : RuleId}
    (hfound : scan.findNext cursor.position cursor.anchor frame cursor.spent =
      .ok (some (target, found)))
    (hid : id ∈ spentBy target found) :
    id < scan.grammar.rules.size ∧ cursor.position ≤ found.stop ∧
      (id ∈ cursor.spent → cursor.position < found.stop) := by
  cases target with
  | closing => contradiction
  | opening opened =>
      obtain ⟨hsize, hstart, hstop, hfresh⟩ := findNext_forward hforward hfound
      rw [spentBy] at hid
      split at hid
      · cases List.mem_singleton.mp hid
        exact ⟨hsize, by omega, hfresh⟩
      · contradiction

theorem Moved.spends (hforward : scan.GoesForward) {frame : Frame}
    (hfound : scan.findNext cursor.position cursor.anchor frame cursor.spent =
      .ok (some (target, found)))
    (hcursor : scan.Spends cursor) (h : scan.Moved cursor target found next) :
    scan.Spends next := by
  have hfresh {id : RuleId} (hid : id ∈ spentBy target found) :=
    fresh_of_spentBy hforward hfound hid
  have hone : (spentBy target found).Nodup := by
    unfold spentBy
    split
    · split <;> simp
    · simp
  have hspent := h.spent
  split at hspent
  · rw [List.append_nil] at hspent
    rw [← hspent] at hone hfresh
    exact ⟨hone, fun id hid => (hfresh hid).1⟩
  · next hstays =>
    refine ⟨?_, ?_⟩
    · rw [hspent, List.nodup_append]
      refine ⟨hone, hcursor.nodup, fun id hid other hother heq => hstays ?_⟩
      exact (hfresh hid).2.2 (heq ▸ hother)
    · intro id hid
      rw [hspent] at hid
      rcases List.mem_append.mp hid with hid | hid
      · exact (hfresh hid).1
      · exact hcursor.rules id hid

theorem Moved.stepsLeft_lt (hforward : scan.GoesForward) {frame : Frame}
    (hfound : scan.findNext cursor.position cursor.anchor frame cursor.spent =
      .ok (some (target, found)))
    (hcursor : scan.Spends cursor) (h : scan.Moved cursor target found next) :
    scan.stepsLeft next < scan.stepsLeft cursor := by
  have hlength := hcursor.length_le
  have hnext := (h.spends hforward hfound hcursor).length_le
  have hposition := h.position
  have hinside := h.inside
  have hopening := h.opening
  unfold stepsLeft
  by_cases hmoves : cursor.position < found.stop
  · -- every rule may be spent again, at one position less
    have hless : (scan.line.byteSize - next.position) * (scan.grammar.rules.size + 1)
        + (scan.grammar.rules.size + 1) ≤
          (scan.line.byteSize - cursor.position) * (scan.grammar.rules.size + 1) := by
      rw [← Nat.succ_mul]
      exact Nat.mul_le_mul_right _ (by omega)
    omega
  · have hstays : next.position = cursor.position := by omega
    have hspent := h.spent
    rw [if_neg hmoves] at hspent
    rw [hstays]
    cases target with
    | closing =>
        have hclosing := h.closing rfl
        rw [hspent]
        simp only [spentBy, List.nil_append]
        omega
    | opening id =>
        -- an opening match that ends here is empty, so it spends its rule
        obtain ⟨-, hstart, hstop, -⟩ := findNext_forward hforward hfound
        have hempty : found.isEmpty = true := by
          simp only [Match.isEmpty, beq_iff_eq]
          omega
        simp only [spentBy, hempty, if_true, List.cons_append, List.nil_append] at hspent
        rw [hspent, List.length_cons] at hnext ⊢
        omega

/-! ## Runs -/

inductive Run (scan : Scan) (scanCapture : CaptureScan) :
    Cursor → List (Target × Match) → Cursor → Prop where
  | done (cursor : Cursor) : Run scan scanCapture cursor [] cursor
  | step {cursor middle last : Cursor} {frame : Frame} {outer : List Frame} {target : Target}
      {found : Match} {events : List (Target × Match)}
      (hframes : cursor.frames = frame :: outer)
      (hfound : scan.findNext cursor.position cursor.anchor frame cursor.spent =
        .ok (some (target, found)))
      (hstep : scan.step scanCapture cursor = .ok (some middle))
      (hrest : Run scan scanCapture middle events last) :
      Run scan scanCapture cursor ((target, found) :: events) last

def emptyMatches (events : List (Target × Match)) : List (RuleId × Nat) :=
  events.flatMap fun (target, found) => (spentBy target found).map (·, found.stop)

variable {events : List (Target × Match)}

theorem Run.length_le (hforward : scan.GoesForward) (hcursor : scan.Spends cursor)
    (h : scan.Run scanCapture cursor events last) :
    events.length + scan.stepsLeft last ≤ scan.stepsLeft cursor := by
  induction h with
  | done cursor => simp
  | step hframes hfound hstep hrest ih =>
      have hmoved := moved_of_step hframes hfound hstep
      have hmiddle := ih (hmoved.spends hforward hfound hcursor)
      have hlt := hmoved.stepsLeft_lt hforward hfound hcursor
      simp only [List.length_cons]
      omega

/-- Empty matches behind a cursor lie at its position or further on, and at its position they are of
rules that are not spent there. -/
theorem Run.emptyMatches_fresh (hforward : scan.GoesForward)
    (h : scan.Run scanCapture cursor events last) :
    (emptyMatches events).Nodup ∧ ∀ id position, (id, position) ∈ emptyMatches events →
      cursor.position ≤ position ∧ (position = cursor.position → id ∉ cursor.spent) := by
  induction h with
  | done cursor => simp [emptyMatches]
  | @step cursor middle last frame outer target found events hframes hfound hstep hrest ih =>
      obtain ⟨hnodup, hbehind⟩ := ih
      have hmoved := moved_of_step hframes hfound hstep
      have hposition := hmoved.position
      have hfresh {id : RuleId} (hid : id ∈ spentBy target found) :=
        fresh_of_spentBy hforward hfound hid
      have hcons : emptyMatches ((target, found) :: events) =
          (spentBy target found).map (·, found.stop) ++ emptyMatches events := rfl
      rw [hcons]
      constructor
      · rw [List.nodup_append]
        refine ⟨?one, hnodup, ?apart⟩
        case one =>
          unfold spentBy
          split
          · split <;> simp
          · simp
        case apart =>
          rintro ⟨id, position⟩ hnew ⟨other, otherPosition⟩ hold heq
          cases heq
          obtain ⟨spent, hspent, hpair⟩ := List.mem_map.mp hnew
          cases hpair
          obtain ⟨-, hforth, -⟩ := hfresh hspent
          refine (hbehind _ _ hold).2 (by omega) ?_
          rw [hmoved.spent]
          exact List.mem_append_left _ hspent
      · intro id position hmem
        rcases List.mem_append.mp hmem with hnew | hold
        · obtain ⟨spent, hspent, hpair⟩ := List.mem_map.mp hnew
          cases hpair
          obtain ⟨-, hforth, hunspent⟩ := hfresh hspent
          refine ⟨hforth, fun heq hmem => ?_⟩
          have := hunspent hmem
          omega
        · obtain ⟨hle, hunspent⟩ := hbehind id position hold
          refine ⟨by omega, fun heq hmem => hunspent (by omega) ?_⟩
          rw [hmoved.spent, if_neg (by omega)]
          exact List.mem_append_right _ hmem

theorem steps_ne_endless (hforward : scan.GoesForward)
    (hcaptures : scanCapture.FaultsIn (· ≠ .endless)) {fuel : Nat} (hcursor : scan.Spends cursor)
    (hfuel : scan.stepsLeft cursor < fuel) :
    scan.steps scanCapture fuel cursor ≠ .error .endless := by
  induction fuel generalizing cursor with
  | zero => omega
  | succ fuel ih =>
      intro h
      rw [steps] at h
      rcases bind_eq_error.mp h with hstep | ⟨stepped, hstep, h⟩
      · exact step_faults hcaptures (fun _ => by simp) hstep rfl
      · cases stepped with
        | none => simp at h
        | some next =>
            obtain ⟨frame, outer, target, found, hframes, hfound⟩ :=
              (stepped_of_step hstep).exists_found
            have hmoved := moved_of_step hframes hfound hstep
            have hlt := hmoved.stepsLeft_lt hforward hfound hcursor
            exact ih (hmoved.spends hforward hfound hcursor) (by omega) h

theorem stepsLeft_lt_stepBound (scan : Scan) (cursor : Cursor) :
    scan.stepsLeft cursor < scan.stepBound cursor.frames := by
  have hline : (scan.line.byteSize - cursor.position) * (scan.grammar.rules.size + 1) ≤
      scan.line.byteSize * (scan.grammar.rules.size + 1) :=
    Nat.mul_le_mul_right _ (Nat.sub_le _ _)
  have hbound : 2 * (scan.line.byteSize + 1) * (scan.grammar.rules.size + 1) =
      2 * (scan.line.byteSize * (scan.grammar.rules.size + 1)) +
        2 * (scan.grammar.rules.size + 1) := by
    rw [Nat.mul_assoc, Nat.add_mul, Nat.one_mul, Nat.mul_add]
  simp only [stepsLeft, stepBound, hbound]
  omega

/-- A scan leaves its loop, whatever rules are begun and ended at one position, and no rule begins
twice at a position with an empty match. -/
theorem run_leaves_loop (hforward : scan.GoesForward)
    (hcaptures : scanCapture.FaultsIn (· ≠ .endless)) (position : Nat) (anchor : Option Nat)
    (scopes : ScopeStack) (frames : List Frame) (stream : TokenStream) :
    scan.run scanCapture { position, anchor, scopes, frames, stream } ≠ .error .endless ∧
    ∀ events last, scan.Run scanCapture { position, anchor, scopes, frames, stream } events last →
      events.length < scan.stepBound frames ∧ (emptyMatches events).Nodup := by
  generalize hstart : ({ position, anchor, scopes, frames, stream } : Cursor) = start
  have hspends : scan.Spends start := by
    rw [← hstart]
    exact ⟨List.nodup_nil, by simp⟩
  have hbound : scan.stepsLeft start < scan.stepBound frames := by
    rw [← hstart]
    exact stepsLeft_lt_stepBound scan _
  constructor
  · intro hendless
    rcases bind_eq_error.mp hendless with hsteps | ⟨last, -, h⟩
    · exact steps_ne_endless hforward hcaptures hspends (stepsLeft_lt_stepBound scan start) hsteps
    · simp at h
  · intro events last hrun
    have hlength := hrun.length_le hforward hspends
    exact ⟨by omega, (hrun.emptyMatches_fresh hforward).1⟩

end Scan

/-! ## A grammar of empty matches -/

namespace Hollow

def definition : GrammarDefinition where
  scopeName := "source"
  patterns := [
    { beginSource := some "(?=a)"
      endSource := some ""
      patterns := some [{ reference := some "$self" }] },
    { matchSource := some "b*" }]

def grammar : Grammar := (Grammar.ofDefinition definition).toOption.getD default

def scan : Scan := { grammar, line := .ofString "aab\n", isFirst := true }

def start : Cursor where
  position := 0
  anchor := none
  scopes := { root := "source" }
  frames := [.group grammar.root 1]
  stream := { position := 0 }

def captures : CaptureScan := fun _ _ _ => .ok []

theorem scan_leaves_loop : scan.run captures start ≠ .error .endless ∧
    ∀ events last, scan.Run captures start events last →
      events.length < 42 ∧ (Scan.emptyMatches events).Nodup := by
  have hforward : scan.GoesForward := by decide +kernel
  have hcaptures : captures.FaultsIn (· ≠ .endless) := nofun
  have hbound : scan.stepBound start.frames = 42 := by decide +kernel
  rw [← hbound]
  exact Scan.run_leaves_loop hforward hcaptures 0 none _ _ _

end Hollow

end ScopeLexer
