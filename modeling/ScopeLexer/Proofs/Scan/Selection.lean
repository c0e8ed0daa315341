import ScopeLexer.Proofs.Grammar.Compilation
import ScopeLexer.Proofs.Line.Reachable
import ScopeLexer.Proofs.Regex.Onward
import ScopeLexer.Proofs.Scan.Search

/-!
# Which match is applied

The rules that may begin and the end of the innermost rule compete: what starts first wins, then the
end, unless patterns go before it, then the rule listed first.  A search that stops as soon as it
finds a match at the position itself misses nothing, since no match starts in front of it.
-/

namespace ScopeLexer

open Regex Outcome

/-! ## What an expression offers -/

/-- A match with which an expression competes: its first one.  When the expression is spent and that
match is empty at the position, it is the first one behind the next character, where no `\G`
matches. -/
inductive Regex.Expression.Offers (expression : Expression) (text : Text) (position : Nat)
    (anchors : Anchors) (spent : Bool) (found : Match) : Prop where
  | first (hfound : expression.findAt? text position anchors = some found)
      (hcounts : spent = true → ¬(found.start = position ∧ found.stop = position))
  | again {passed : Match} {next : Nat}
      (hpassed : expression.findAt? text position anchors = some passed) (hspent : spent = true)
      (hstart : passed.start = position) (hstop : passed.stop = position)
      (hnext : text.next? position = some next)
      (hfound : expression.findAt? text next { anchors with atAnchor := false } = some found)

namespace Regex.Expression

variable {expression : Expression} {text : Text} {position : Nat} {anchors : Anchors} {spent : Bool}
  {found : Match}

theorem findUnspent?_eq_some :
    expression.findUnspent? text position anchors spent = some found ↔
      expression.Offers text position anchors spent found := by
  constructor
  · intro h
    unfold findUnspent? at h
    split at h
    · contradiction
    · next first hfirst =>
      split at h
      · next hpassed =>
        simp only [Match.isEmpty, Bool.and_eq_true, beq_iff_eq] at hpassed
        obtain ⟨⟨hspent, hempty⟩, hstart⟩ := hpassed
        split at h
        · next next hnext => exact .again hfirst hspent hstart (by omega) hnext h
        · contradiction
      · next hpassed =>
        cases h
        refine .first hfirst fun hspent hempty => hpassed ?_
        simp [hspent, Match.isEmpty, hempty]
  · intro h
    cases h with
    | first hfound hcounts =>
        have hcounts : (spent && found.isEmpty && found.start == position) = false := by
          rw [Bool.eq_false_iff]
          intro hpassed
          simp only [Match.isEmpty, Bool.and_eq_true, beq_iff_eq] at hpassed
          exact hcounts hpassed.1.1 ⟨hpassed.2, by omega⟩
        simp [findUnspent?, hfound, hcounts]
    | again hpassed hspent hstart hstop hnext hfound =>
        simp [findUnspent?, hpassed, hspent, Match.isEmpty, hstart, hstop, hnext, hfound]

theorem Offers.le_start (h : expression.Offers text position anchors spent found)
    (honward : Search.Onward expression.findAt?) : position ≤ found.start := by
  cases h with
  | first hfound hcounts => exact honward.le_start hfound
  | again hpassed hspent hstart hstop hnext hfound =>
      exact Nat.le_trans (Nat.le_of_lt (Text.lt_of_next? hnext)) (honward.le_start hfound)

end Regex.Expression

/-! ## Competing rules -/

namespace Scan

def Offers (scan : Scan) (position : Nat) (anchor : Option Nat) (spent : List RuleId) (id : RuleId)
    (found : Match) : Prop :=
  ∃ rule expression, scan.grammar.rules[id]? = some rule ∧ rule.opening? = some expression ∧
    expression.Offers scan.line position (scan.anchorsAt position anchor) (spent.contains id) found

/-- A match of the end of a frame, and whether patterns go before it. -/
def Closes (scan : Scan) (position : Nat) (anchor : Option Nat) (frame : Frame) (found : Match)
    (closesLast : Bool) : Prop :=
  ∃ rule enclosure, scan.grammar.rules[frame.rule]? = some rule ∧
    rule.kind = .enclosed enclosure ∧ enclosure.closesLast = closesLast ∧
    (frame.closing.getD enclosure.closing).findAt? scan.line position
      (scan.anchorsAt position anchor) = some found

/-- The rule of a list whose match starts first; of those the one listed first. -/
def Prevails (offers : RuleId → Match → Prop) (candidates : List RuleId) (id : RuleId)
    (found : Match) : Prop :=
  ∃ before after, candidates = before ++ id :: after ∧ offers id found ∧
    (∀ other ∈ before, ∀ rival, offers other rival → found.start < rival.start) ∧
    ∀ other ∈ after, ∀ rival, offers other rival → found.start ≤ rival.start

inductive Selects (scan : Scan) (position : Nat) (anchor : Option Nat) (frame : Frame)
    (spent : List RuleId) (candidates : List RuleId) : Option (Target × Match) → Prop where
  | opening {id : RuleId} {found : Match}
      (hfound : Prevails (scan.Offers position anchor spent) candidates id found)
      (hclosing : ∀ rival closesLast, scan.Closes position anchor frame rival closesLast →
        found.start < rival.start ∨ found.start = rival.start ∧ closesLast = true) :
      Selects scan position anchor frame spent candidates (some (.opening id, found))
  | closing {found : Match} {closesLast : Bool}
      (hfound : scan.Closes position anchor frame found closesLast)
      (hopening : ∀ id ∈ candidates, ∀ rival, scan.Offers position anchor spent id rival →
        found.start < rival.start ∨ found.start = rival.start ∧ closesLast = false) :
      Selects scan position anchor frame spent candidates (some (.closing, found))
  | nothing
      (hopening : ∀ id ∈ candidates, ∀ rival, ¬scan.Offers position anchor spent id rival)
      (hclosing : ∀ rival closesLast, ¬scan.Closes position anchor frame rival closesLast) :
      Selects scan position anchor frame spent candidates none

variable {scan : Scan} {position : Nat} {anchor : Option Nat} {frame : Frame}
  {spent candidates : List RuleId} {id : RuleId} {found : Match}

def opening? (scan : Scan) (id : RuleId) : Option Expression :=
  scan.grammar.rules[id]?.bind Rule.opening?

theorem openings_eq : scan.openings candidates =
    candidates.filterMap fun id => (scan.opening? id).map (id, ·) := by
  unfold openings
  congr 1
  funext id
  unfold opening?
  cases scan.grammar.rules[id]? <;> rfl

def offer? (scan : Scan) (position : Nat) (anchor : Option Nat) (spent : List RuleId)
    (id : RuleId) : Option Match :=
  (scan.opening? id).bind fun expression =>
    expression.findUnspent? scan.line position (scan.anchorsAt position anchor) (spent.contains id)

theorem offer?_eq_some :
    scan.offer? position anchor spent id = some found ↔
      scan.Offers position anchor spent id found := by
  simp only [offer?, opening?, Offers, Option.bind_eq_some_iff, Expression.findUnspent?_eq_some]
  grind

def competeAll (scan : Scan) (position : Nat) (anchor : Option Nat) (spent candidates : List RuleId)
    (best : Option (RuleId × Match)) : Option (RuleId × Match) :=
  candidates.foldl (fun best id =>
    match scan.offer? position anchor spent id with
    | some found => keepEarlier best id found
    | none => best) best

section

variable {best : Option (RuleId × Match)}

theorem competeAll_none (h : scan.offer? position anchor spent id = none) :
    scan.competeAll position anchor spent (id :: candidates) best =
      scan.competeAll position anchor spent candidates best := by
  rw [competeAll, List.foldl_cons, h]
  rfl

theorem competeAll_some (h : scan.offer? position anchor spent id = some found) :
    scan.competeAll position anchor spent (id :: candidates) best =
      scan.competeAll position anchor spent candidates (keepEarlier best id found) := by
  rw [competeAll, List.foldl_cons, h]
  rfl

theorem competeAll_eq_none (h : scan.competeAll position anchor spent candidates best = none) :
    best = none ∧ ∀ id ∈ candidates, scan.offer? position anchor spent id = none := by
  induction candidates generalizing best with
  | nil => exact ⟨h, by simp⟩
  | cons id candidates ih =>
      cases hoffer : scan.offer? position anchor spent id with
      | none =>
          rw [competeAll_none hoffer] at h
          obtain ⟨hbest, hothers⟩ := ih h
          exact ⟨hbest, List.forall_mem_cons.mpr ⟨hoffer, hothers⟩⟩
      | some found =>
          rw [competeAll_some hoffer] at h
          obtain ⟨hbest, -⟩ := ih h
          cases best with
          | none => contradiction
          | some current =>
              simp only [keepEarlier] at hbest
              split at hbest <;> contradiction

theorem keepEarlier_le (best : Option (RuleId × Match)) (id : RuleId) (found : Match) :
    ∃ winner, keepEarlier best id found = some winner ∧ winner.2.start ≤ found.start ∧
      ∀ current ∈ best, winner.2.start ≤ current.2.start := by
  cases best with
  | none => exact ⟨(id, found), rfl, Nat.le_refl _, by simp⟩
  | some current =>
      by_cases hearlier : found.start < current.2.start
      · exact ⟨(id, found), if_pos hearlier, Nat.le_refl _, by simpa using Nat.le_of_lt hearlier⟩
      · exact ⟨current, if_neg hearlier, Nat.le_of_not_lt hearlier, by simp⟩

/-- The winner is the best so far, when no rule starts before it, or the rule that prevails, when it
starts before the best so far. -/
theorem competeAll_eq_some
    (h : scan.competeAll position anchor spent candidates best = some (id, found)) :
    (best = some (id, found) ∧ ∀ other ∈ candidates, ∀ rival,
      scan.Offers position anchor spent other rival → found.start ≤ rival.start) ∨
    (Prevails (scan.Offers position anchor spent) candidates id found ∧
      ∀ current ∈ best, found.start < current.2.start) := by
  induction candidates generalizing best with
  | nil => exact .inl ⟨h, by simp⟩
  | cons first candidates ih =>
      cases hoffer : scan.offer? position anchor spent first with
      | none =>
          have hnone : ∀ rival, ¬scan.Offers position anchor spent first rival := by
            intro rival hrival
            rw [offer?_eq_some.mpr hrival] at hoffer
            contradiction
          rw [competeAll_none hoffer] at h
          rcases ih h with ⟨hbest, hothers⟩ | ⟨⟨before, after, rfl, hfound, hbefore, hafter⟩, hbest⟩
          · exact .inl ⟨hbest, List.forall_mem_cons.mpr
              ⟨fun rival hrival => absurd hrival (hnone rival), hothers⟩⟩
          · exact .inr ⟨⟨first :: before, after, rfl, hfound, List.forall_mem_cons.mpr
              ⟨fun rival hrival => absurd hrival (hnone rival), hbefore⟩, hafter⟩, hbest⟩
      | some offered =>
          have honly : ∀ rival, scan.Offers position anchor spent first rival → rival = offered :=
            fun rival hrival => by
              rw [offer?_eq_some.mpr hrival] at hoffer
              exact Option.some.inj hoffer
          rw [competeAll_some hoffer] at h
          rcases ih h with ⟨hkept, hothers⟩ | ⟨⟨before, after, rfl, hfound, hbefore, hafter⟩, hkept⟩
          · -- the first rule or the best so far is kept to the end
            have hfirst : (first, offered) = (id, found) →
                Prevails (scan.Offers position anchor spent) (first :: candidates) id found := by
              rintro ⟨⟩
              exact ⟨[], candidates, rfl, offer?_eq_some.mp hoffer, by simp, hothers⟩
            cases best with
            | none => exact .inr ⟨hfirst (Option.some.inj hkept), by simp⟩
            | some current =>
                simp only [keepEarlier] at hkept
                split at hkept
                · next hearlier =>
                  have hwinner := Option.some.inj hkept
                  refine .inr ⟨hfirst hwinner, ?_⟩
                  cases hwinner
                  simpa using hearlier
                · next hearlier =>
                  refine .inl ⟨hkept, List.forall_mem_cons.mpr ⟨fun rival hrival => ?_, hothers⟩⟩
                  cases hkept
                  rw [honly rival hrival]
                  exact Nat.le_of_not_lt hearlier
          · obtain ⟨winner, hwinner, hoffered, hcurrent⟩ := keepEarlier_le best first offered
            have hstart := hkept winner hwinner
            refine .inr ⟨⟨first :: before, after, rfl, hfound, List.forall_mem_cons.mpr
              ⟨fun rival hrival => ?_, hbefore⟩, hafter⟩, fun current hbest => ?_⟩
            · rw [honly rival hrival]
              exact Nat.lt_of_lt_of_le hstart hoffered
            · exact Nat.lt_of_lt_of_le hstart (hcurrent current hbest)

theorem competeAll_kept
    (h : ∀ other ∈ candidates, ∀ rival, scan.Offers position anchor spent other rival →
      found.start ≤ rival.start) :
    scan.competeAll position anchor spent candidates (some (id, found)) = some (id, found) := by
  induction candidates with
  | nil => rfl
  | cons first candidates ih =>
      obtain ⟨hfirst, hothers⟩ := List.forall_mem_cons.mp h
      cases hoffer : scan.offer? position anchor spent first with
      | none => rw [competeAll_none hoffer, ih hothers]
      | some offered =>
          have hkept : keepEarlier (some (id, found)) first offered = some (id, found) :=
            if_neg (Nat.not_lt.mpr (hfirst offered (offer?_eq_some.mp hoffer)))
          rw [competeAll_some hoffer, hkept, ih hothers]

theorem findEarliest?_eq_competeAll
    (h : ∀ other ∈ candidates, ∀ rival, scan.Offers position anchor spent other rival →
      position ≤ rival.start) :
    findEarliest? scan.line position (scan.anchorsAt position anchor) (spent.contains ·)
        (scan.openings candidates) best =
      scan.competeAll position anchor spent candidates best := by
  induction candidates generalizing best with
  | nil => rfl
  | cons first candidates ih =>
      obtain ⟨hfirst, hothers⟩ := List.forall_mem_cons.mp h
      rw [openings_eq, List.filterMap_cons]
      cases hopening : scan.opening? first with
      | none =>
          have hoffer : scan.offer? position anchor spent first = none := by
            rw [offer?, hopening, Option.bind_none]
          rw [competeAll_none hoffer, ← ih hothers, openings_eq]
          rfl
      | some expression =>
          have hoffered : scan.offer? position anchor spent first = expression.findUnspent? scan.line
              position (scan.anchorsAt position anchor) (spent.contains first) := by
            rw [offer?, hopening, Option.bind_some]
          rw [Option.map_some, findEarliest?, ← hoffered, ← openings_eq]
          cases hoffer : scan.offer? position anchor spent first with
          | none => rw [competeAll_none hoffer, ih hothers]
          | some offered =>
              rw [competeAll_some hoffer]
              dsimp only
              split
              · next hbest =>
                simp only [Bool.and_eq_true, Option.all_eq_true_iff_get, beq_iff_eq] at hbest
                obtain ⟨hbetter, hposition⟩ := hbest
                have hkept : keepEarlier best first offered = some (first, offered) := by
                  cases best with
                  | none => rfl
                  | some current => exact if_pos (by simpa using hbetter)
                rw [hkept, competeAll_kept fun other hother rival hrival =>
                  hposition ▸ hothers other hother rival hrival]
              · exact ih hothers

end

/-! ## The winner -/

theorem offers_unique (id : RuleId) (found other : Match)
    (h : scan.Offers position anchor spent id found)
    (h' : scan.Offers position anchor spent id other) : found = other :=
  Option.some.inj ((offer?_eq_some.mpr h).symm.trans (offer?_eq_some.mpr h'))

theorem Offers.le_start (h : scan.Offers position anchor spent id found)
    (hrules : Grammar.Expressive scan.grammar.rules) : position ≤ found.start := by
  obtain ⟨rule, expression, hrule, hopening, hfound⟩ := h
  refine hfound.le_start ?_
  have hkind := hrules rule (Array.mem_of_getElem? hrule)
  unfold Rule.opening? at hopening
  split at hopening
  · contradiction
  · next hsingle =>
    cases hopening
    rw [hsingle] at hkind
    obtain ⟨source, hcompiled⟩ := hkind
    exact (Expression.compiled_of_build hcompiled).onward
  · next henclosed =>
    cases hopening
    rw [henclosed] at hkind
    obtain ⟨⟨source, hcompiled⟩, -⟩ := hkind
    exact (Expression.compiled_of_build hcompiled).onward

theorem closes_iff {closesLast : Bool} :
    scan.Closes position anchor frame found closesLast ↔
      ∃ expression, scan.closing? frame = some (expression, closesLast) ∧
        expression.findAt? scan.line position (scan.anchorsAt position anchor) = some found := by
  constructor
  · rintro ⟨⟨ruleId, name, contentName, kind⟩, enclosure, hrule, hkind, rfl, hfound⟩
    cases hkind
    exact ⟨_, by rw [closing?, hrule], hfound⟩
  · rintro ⟨expression, hclosing, hfound⟩
    obtain ⟨rule, enclosure, hrule, hkind, rfl, rfl⟩ := closing?_eq_some hclosing
    exact ⟨rule, enclosure, hrule, hkind, rfl, hfound⟩

theorem Closes.unique {other : Match} {closesLast otherLast : Bool}
    (h : scan.Closes position anchor frame found closesLast)
    (h' : scan.Closes position anchor frame other otherLast) :
    found = other ∧ closesLast = otherLast := by
  obtain ⟨expression, hclosing, hfound⟩ := closes_iff.mp h
  obtain ⟨expression', hclosing', hfound'⟩ := closes_iff.mp h'
  rw [hclosing] at hclosing'
  cases hclosing'
  rw [hfound] at hfound'
  exact ⟨Option.some.inj hfound', rfl⟩

namespace Prevails

variable {offers : RuleId → Match → Prop}

theorem mem (h : Prevails offers candidates id found) : id ∈ candidates := by
  obtain ⟨before, after, rfl, -⟩ := h
  simp

theorem offered (h : Prevails offers candidates id found) : offers id found := by
  obtain ⟨_, _, -, hfound, -⟩ := h
  exact hfound

theorem le (h : Prevails offers candidates id found)
    (hunique : ∀ id found other, offers id found → offers id other → found = other)
    {other : RuleId} {rival : Match} (hother : other ∈ candidates) (hrival : offers other rival) :
    found.start ≤ rival.start := by
  obtain ⟨before, after, rfl, hfound, hbefore, hafter⟩ := h
  rcases List.mem_append.mp hother with hmem | hmem
  · exact Nat.le_of_lt (hbefore other hmem rival hrival)
  · rcases List.mem_cons.mp hmem with rfl | hmem
    · rw [hunique other found rival hfound hrival]
    · exact hafter other hmem rival hrival

theorem unique (hunique : ∀ id found other, offers id found → offers id other → found = other)
    {other : RuleId} {rival : Match} (h : Prevails offers candidates id found)
    (h' : Prevails offers candidates other rival) : (id, found) = (other, rival) := by
  obtain ⟨before, after, rfl, hfound, hbefore, hafter⟩ := h
  obtain ⟨before', after', hsplit, hrival, hbefore', hafter'⟩ := h'
  rcases List.append_eq_append_iff.mp hsplit with ⟨between, rfl, hrest⟩ | ⟨between, rfl, hrest⟩
  · cases between with
    | nil =>
        cases hrest
        rw [hunique id found rival hfound hrival]
    | cons first between =>
        cases hrest
        have hlt := hbefore' id (by simp) found hfound
        have hle := hafter other (by simp) rival hrival
        omega
  · cases between with
    | nil =>
        cases hrest
        rw [hunique id found rival hfound hrival]
    | cons first between =>
        cases hrest
        have hlt := hbefore other (by simp) rival hrival
        have hle := hafter' id (by simp) found hfound
        omega

end Prevails

theorem Selects.unique {selected other : Option (Target × Match)}
    (h : scan.Selects position anchor frame spent candidates selected)
    (h' : scan.Selects position anchor frame spent candidates other) : selected = other := by
  cases h with
  | opening hfound hclosing =>
      cases h' with
      | opening hfound' =>
          cases hfound.unique offers_unique hfound'
          rfl
      | closing hfound' hopening' =>
          rcases hclosing _ _ hfound' with hlt | ⟨heq, rfl⟩ <;>
            rcases hopening' _ hfound.mem _ hfound.offered with hlt' | ⟨heq', hlast⟩
          · omega
          · omega
          · omega
          · contradiction
      | nothing hopening' => exact absurd hfound.offered (hopening' _ hfound.mem _)
  | closing hfound hopening =>
      cases h' with
      | opening hfound' hclosing' =>
          rcases hclosing' _ _ hfound with hlt | ⟨heq, rfl⟩ <;>
            rcases hopening _ hfound'.mem _ hfound'.offered with hlt' | ⟨heq', hlast⟩
          · omega
          · omega
          · omega
          · contradiction
      | closing hfound' =>
          obtain ⟨rfl, -⟩ := hfound.unique hfound'
          rfl
      | nothing _ hclosing' => exact absurd hfound (hclosing' _ _)
  | nothing hopening hclosing =>
      cases h' with
      | opening hfound' => exact absurd hfound'.offered (hopening _ hfound'.mem _)
      | closing hfound' => exact absurd hfound' (hclosing _ _)
      | nothing => rfl

theorem selects_choose :
    scan.Selects position anchor frame spent candidates
      (choose (scan.competeAll position anchor spent candidates none)
        ((scan.closing? frame).bind fun closing =>
          closing.1.findAt? scan.line position (scan.anchorsAt position anchor))
        (((scan.closing? frame).map (·.2)).getD false)) := by
  have hclosing : ∀ rival last, scan.Closes position anchor frame rival last ↔
      ((scan.closing? frame).bind fun closing =>
        closing.1.findAt? scan.line position (scan.anchorsAt position anchor)) = some rival ∧
      last = ((scan.closing? frame).map (·.2)).getD false := by
    intro rival last
    rw [closes_iff]
    cases scan.closing? frame with
    | none => simp
    | some closing =>
        obtain ⟨expression, closesLast⟩ := closing
        constructor
        · rintro ⟨_, hsame, hfound⟩
          cases hsame
          exact ⟨hfound, rfl⟩
        · rintro ⟨hfound, rfl⟩
          exact ⟨expression, rfl, hfound⟩
  generalize ((scan.closing? frame).bind fun closing =>
    closing.1.findAt? scan.line position (scan.anchorsAt position anchor)) = closing at *
  generalize ((scan.closing? frame).map (·.2)).getD false = closesLast at *
  cases hopening : scan.competeAll position anchor spent candidates none with
  | none =>
      obtain ⟨-, hnone⟩ := competeAll_eq_none hopening
      have hoffers : ∀ id ∈ candidates, ∀ rival, ¬scan.Offers position anchor spent id rival := by
        intro id hid rival hrival
        have hsome := offer?_eq_some.mpr hrival
        rw [hnone id hid] at hsome
        contradiction
      cases closing with
      | none => exact .nothing hoffers fun rival last hrival => by simp [hclosing] at hrival
      | some closing =>
          exact .closing ((hclosing closing closesLast).mpr ⟨rfl, rfl⟩) fun id hid rival hrival =>
            absurd hrival (hoffers id hid rival)
  | some winner =>
      obtain ⟨id, found⟩ := winner
      have hfound : Prevails (scan.Offers position anchor spent) candidates id found := by
        rcases competeAll_eq_some hopening with ⟨hnone, -⟩ | ⟨hfound, -⟩
        · contradiction
        · exact hfound
      cases closing with
      | none => exact .opening hfound fun rival last hrival => by simp [hclosing] at hrival
      | some closing =>
          unfold choose
          dsimp only
          split
          · next hfirst =>
            refine .opening hfound fun rival last hrival => ?_
            obtain ⟨hrival, rfl⟩ := (hclosing rival last).mp hrival
            cases hrival
            simpa using hfirst
          · next hfirst =>
            simp only [Bool.or_eq_true, decide_eq_true_eq, Bool.and_eq_true, beq_iff_eq, not_or,
              not_and, Nat.not_lt, Bool.not_eq_true] at hfirst
            refine .closing ((hclosing closing closesLast).mpr ⟨rfl, rfl⟩)
              fun other hother rival hrival => ?_
            have hle := hfound.le offers_unique hother hrival
            rcases Nat.lt_or_eq_of_le (Nat.le_trans hfirst.1 hle) with hlt | heq
            · exact .inl hlt
            · exact .inr ⟨heq, hfirst.2 (by omega)⟩

theorem findNext_eq {opening : Option (RuleId × Match)}
    (hcandidates : scan.grammar.candidates frame.rule = .ok candidates)
    (hopening : findEarliest? scan.line position (scan.anchorsAt position anchor)
      (spent.contains ·) (scan.openings candidates) = opening) :
    scan.findNext position anchor frame spent = .ok (choose opening
      ((scan.closing? frame).bind fun closing =>
        closing.1.findAt? scan.line position (scan.anchorsAt position anchor))
      (((scan.closing? frame).map (·.2)).getD false)) := by
  subst hopening
  unfold findNext
  rw [hcandidates]
  cases scan.closing? frame <;> rfl

/-- The search of a compiled grammar finds the match that is to be applied next, whenever the rules
that may begin can be listed, and ending it early changes nothing. -/
theorem findNext_selects {definition : GrammarDefinition}
    (hgrammar : Grammar.ofDefinition definition = .ok scan.grammar)
    (hcandidates : scan.grammar.candidates frame.rule = .ok candidates) :
    (∃ result, scan.findNext position anchor frame spent = .ok result ∧
      ∀ other, scan.Selects position anchor frame spent candidates other ↔ other = result) ∧
    findEarliest? scan.line position (scan.anchorsAt position anchor) (spent.contains ·)
        (scan.openings candidates) =
      scan.competeAll position anchor spent candidates none := by
  have hearliest : findEarliest? scan.line position (scan.anchorsAt position anchor)
      (spent.contains ·) (scan.openings candidates) =
        scan.competeAll position anchor spent candidates none :=
    findEarliest?_eq_competeAll fun _ _ _ hrival =>
      Offers.le_start hrival (Grammar.expressive_of_ofDefinition hgrammar)
  refine ⟨⟨_, findNext_eq hcandidates hearliest, fun other =>
    ⟨fun hother => hother.unique selects_choose, ?_⟩⟩, hearliest⟩
  rintro rfl
  exact selects_choose

theorem quote_end_selected :
    let scan : Scan := { grammar := Quotes.grammar, line := .ofString "a><b", isFirst := true }
    Grammar.ofDefinition Quotes.definition = .ok scan.grammar ∧
      scan.grammar.candidates 0 = .ok [0] ∧
      scan.Selects 0 none (.group 0 1) [] [0] (some (.closing, ⟨1, 2, [some ⟨1, 2⟩]⟩)) := by
  intro scan
  have hcandidates : scan.grammar.candidates (Frame.group 0 1).rule = .ok [0] := by decide +kernel
  obtain ⟨⟨result, hfind, hselects⟩, -⟩ := @findNext_selects scan 0 none (.group 0 1) [] [0]
    Quotes.definition Quotes.ofDefinition_definition hcandidates
  have hfound : scan.findNext 0 none (.group 0 1) [] =
      .ok (some (.closing, ⟨1, 2, [some ⟨1, 2⟩]⟩)) := by decide +kernel
  refine ⟨Quotes.ofDefinition_definition, hcandidates, (hselects _).mpr ?_⟩
  rw [hfound] at hfind
  exact Except.ok.inj hfind

end Scan

end ScopeLexer
