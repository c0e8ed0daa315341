import ScopeLexer.Proofs.Outcome
import ScopeLexer.Proofs.Regex.Contract
import ScopeLexer.Scan

/-!
# What a search may find

What `Scan.findNext` finds is either the closing expression of the frame or the opening one of a candidate
of its rule; it fails only when these candidates cannot be listed.
-/

namespace ScopeLexer

open Regex Outcome

namespace Regex

theorem Expression.findUnspent?_within {expression : Expression} {text : Text} {start : Nat}
    {anchors : Anchors} {spent : Bool} {found : Match}
    (h : expression.findUnspent? text start anchors spent = some found) : found.Within text := by
  unfold findUnspent? at h
  split at h
  · contradiction
  · next first hfirst =>
    split at h
    · split at h
      · exact expression.reliable.within h
      · contradiction
    · cases h
      exact expression.reliable.within hfirst

theorem keepEarlier_eq_some {Id : Type} {best : Option (Id × Match)} {id other : Id}
    {found current : Match} (h : keepEarlier best other current = some (id, found)) :
    best = some (id, found) ∨ (other, current) = (id, found) := by
  unfold keepEarlier at h
  split at h
  · split at h
    · exact .inr (Option.some.inj h)
    · exact .inl h
  · exact .inr (Option.some.inj h)

theorem findEarliest?_eq_some {Id : Type} {text : Text} {start : Nat} {anchors : Anchors}
    {spent : Id → Bool} {candidates : List (Id × Expression)} {best : Option (Id × Match)}
    {id : Id} {found : Match}
    (h : findEarliest? text start anchors spent candidates best = some (id, found)) :
    best = some (id, found) ∨ ∃ expression, (id, expression) ∈ candidates ∧
      expression.findUnspent? text start anchors (spent id) = some found := by
  induction candidates generalizing best with
  | nil => exact .inl h
  | cons candidate candidates ih =>
      obtain ⟨other, expression⟩ := candidate
      rw [findEarliest?] at h
      split at h
      · rcases ih h with hbest | ⟨winner, hmem, hfound⟩
        · exact .inl hbest
        · exact .inr ⟨winner, List.mem_cons_of_mem _ hmem, hfound⟩
      · next current hcurrent =>
        dsimp only at h
        split at h
        · cases h
          exact .inr ⟨expression, by simp, hcurrent⟩
        · rcases ih h with hbest | ⟨winner, hmem, hfound⟩
          · rcases keepEarlier_eq_some hbest with hbest | hother
            · exact .inl hbest
            · cases hother
              exact .inr ⟨expression, by simp, hcurrent⟩
          · exact .inr ⟨winner, List.mem_cons_of_mem _ hmem, hfound⟩

end Regex

namespace Scan

def anchorsAt (scan : Scan) (position : Nat) (anchor : Option Nat) : Anchors :=
  { firstLine := scan.isFirst, atAnchor := anchor == some position }

theorem mem_openings {scan : Scan} {candidates : List RuleId} {id : RuleId}
    {expression : Expression} (h : (id, expression) ∈ scan.openings candidates) :
    id ∈ candidates ∧
      ∃ rule, scan.grammar.rules[id]? = some rule ∧ rule.opening? = some expression := by
  obtain ⟨candidate, hmem, hopening⟩ := List.mem_filterMap.mp h
  split at hopening
  · next rule hrule =>
    obtain ⟨opening, hsome, hpair⟩ := Option.map_eq_some_iff.mp hopening
    cases hpair
    exact ⟨hmem, rule, hrule, hsome⟩
  · contradiction

theorem choose_opening {opening : Option (RuleId × Match)} {closing : Option Match}
    {closesLast : Bool} {id : RuleId} {found : Match}
    (h : choose opening closing closesLast = some (.opening id, found)) :
    opening = some (id, found) := by
  unfold choose at h
  split at h
  · split at h <;> simp_all
  · simp at h
  · simp_all
  · contradiction

theorem choose_closing {opening : Option (RuleId × Match)} {closing : Option Match}
    {closesLast : Bool} {found : Match}
    (h : choose opening closing closesLast = some (.closing, found)) : closing = some found := by
  unfold choose at h
  split at h
  · split at h <;> simp_all
  · simp_all
  · simp at h
  · contradiction

section

variable {scan : Scan} {position : Nat} {anchor : Option Nat} {frame : Frame}
  {spent : List RuleId}

theorem findNext_opening {id : RuleId} {found : Match}
    (h : scan.findNext position anchor frame spent = .ok (some (.opening id, found))) :
    ∃ candidates rule expression, scan.grammar.candidates frame.rule = .ok candidates ∧
      id ∈ candidates ∧ scan.grammar.rules[id]? = some rule ∧ rule.opening? = some expression ∧
      expression.findUnspent? scan.line position (scan.anchorsAt position anchor)
        (spent.contains id) = some found := by
  unfold findNext at h
  obtain ⟨candidates, hcandidates, h⟩ := bind_eq_ok.mp h
  have hearliest : findEarliest? scan.line position (scan.anchorsAt position anchor)
      (spent.contains ·) (scan.openings candidates) = some (id, found) := by
    split at h <;> exact choose_opening (pure_eq_ok.mp h)
  rcases findEarliest?_eq_some hearliest with hbest | ⟨expression, hmem, hfound⟩
  · contradiction
  · obtain ⟨hid, rule, hrule, hopening⟩ := mem_openings hmem
    exact ⟨candidates, rule, expression, hcandidates, hid, hrule, hopening, hfound⟩

theorem findNext_closing {found : Match}
    (h : scan.findNext position anchor frame spent = .ok (some (.closing, found))) :
    ∃ expression closesLast, scan.closing? frame = some (expression, closesLast) ∧
      expression.findAt? scan.line position (scan.anchorsAt position anchor) = some found := by
  unfold findNext at h
  obtain ⟨candidates, -, h⟩ := bind_eq_ok.mp h
  split at h
  · next expression closesLast hclosing =>
    exact ⟨expression, closesLast, hclosing, choose_closing (pure_eq_ok.mp h)⟩
  · have hnone := choose_closing (pure_eq_ok.mp h)
    contradiction

theorem findNext_within {target : Target} {found : Match}
    (h : scan.findNext position anchor frame spent = .ok (some (target, found))) :
    found.Within scan.line := by
  cases target with
  | opening id =>
      obtain ⟨_, _, _, -, -, -, -, hfound⟩ := findNext_opening h
      exact Expression.findUnspent?_within hfound
  | closing =>
      obtain ⟨expression, _, -, hfound⟩ := findNext_closing h
      exact expression.reliable.within hfound

theorem findNext_eq_error {unresolved : Unresolved}
    (h : scan.findNext position anchor frame spent = .error unresolved) :
    scan.grammar.candidates frame.rule = .error unresolved := by
  unfold findNext at h
  rcases bind_eq_error.mp h with herror | ⟨candidates, -, h⟩
  · exact herror
  · split at h <;> simp at h

theorem closing?_eq_some {expression : Expression} {closesLast : Bool}
    (h : scan.closing? frame = some (expression, closesLast)) :
    ∃ rule enclosure, scan.grammar.rules[frame.rule]? = some rule ∧
      rule.kind = .enclosed enclosure ∧
      expression = frame.closing.getD enclosure.closing ∧ closesLast = enclosure.closesLast := by
  unfold closing? at h
  split at h
  · next hrule =>
    cases h
    exact ⟨_, _, hrule, rfl, rfl, rfl⟩
  · contradiction

end

end Scan

end ScopeLexer
